import Macaque.Proofs.Undecodable

/-!
# Sessions whose output does not fit

A sink that takes a number of bytes and no more cuts off a session at that byte, in the middle of a
prompt or of a character if need be. Up to there the session is the session as it is with any other
sink, and a failure that would have come later does not come. Tokens are read one by one, each just
before its line is written, so that the byte at which the sink fails tells which tokens were read.

## Architecture

- **Delivery**: `deliverWithin_of_le` and `deliverWithin_append` are the two ways in which chunks
  meet a limit, by induction on the chunks that still fit
- **Output**: `chunks_transcript` lists the chunks of a session by the rows of tokens that it
  answers
- **Bytes**: `Covers` says to which piece of the output a byte belongs, `ReadBy` which tokens have
  been read when it is written; every byte has such tokens (`exists_readBy`)
- **Sessions**: `within_of_readBy`, and from it `limited_session`
-/

namespace Macaque

/-! ## Delivery -/

/-- A place in the pieces that some items make lies in the piece of one of them. -/
theorem exists_split_of_lt_flatMap {α β : Type} (f : α → List β) (items : List α) {n : Nat}
    (h : n < (items.flatMap f).length) :
    ∃ before item behind, items = before ++ item :: behind ∧
      (before.flatMap f).length ≤ n ∧ n < (before.flatMap f).length + (f item).length := by
  induction items generalizing n with
  | nil => simp at h
  | cons first items ih =>
    by_cases hfirst : n < (f first).length
    · exact ⟨[], first, items, rfl, by simp, by simpa using hfirst⟩
    · -- the place lies behind the first piece, and is counted from the end of it
      have hlater : n - (f first).length < (items.flatMap f).length := by
        simp only [List.flatMap_cons, List.length_append] at h
        omega
      obtain ⟨before, item, behind, rfl, hle, hlt⟩ := ih hlater
      refine ⟨first :: before, item, behind, rfl, ?_, ?_⟩
      · simp only [List.flatMap_cons, List.length_append]
        omega
      · simp only [List.flatMap_cons, List.length_append]
        omega

namespace Session

/-- The chunks one after the other are their texts one after the other. -/
theorem flatMap_bytes (chunks : List Chunk) :
    chunks.flatMap Chunk.bytes = encode (String.join (chunks.map (·.text))) := by
  rw [encode_join, List.flatMap_map]
  rfl

/-- A sink that has room for everything takes everything. -/
theorem deliverWithin_of_le (failure : Option Failure) {chunks : List Chunk} {room : Nat}
    (h : (chunks.flatMap Chunk.bytes).length ≤ room) :
    deliverWithin failure room chunks = deliver failure chunks := by
  induction chunks generalizing room with
  | nil => rfl
  | cons chunk chunks ih =>
    simp only [List.flatMap_cons, List.length_append] at h
    have hfits : chunk.bytes.length ≤ room := by omega
    have hlater : (chunks.flatMap Chunk.bytes).length ≤ room - chunk.bytes.length := by omega
    rw [deliverWithin, if_pos hfits, ih hlater]
    rfl

/-- A sink that has room for some chunks, but not for the next one, takes what it can of that one.
The chunk was made, and nothing behind it is. -/
theorem deliverWithin_append (failure : Option Failure) {before behind : List Chunk} {chunk : Chunk}
    {room : Nat} (hle : (before.flatMap Chunk.bytes).length ≤ room)
    (hlt : room < (before.flatMap Chunk.bytes).length + chunk.bytes.length) :
    deliverWithin failure room (before ++ chunk :: behind) =
      { output := ((before ++ chunk :: behind).flatMap Chunk.bytes).take room,
        notices := (before ++ [chunk]).flatMap (·.notices),
        failure := some .sinkFull } := by
  -- induction on the chunks that fit, each of which leaves less room
  induction before generalizing room with
  | nil =>
    have hfull : ¬ chunk.bytes.length ≤ room := by
      simp only [List.flatMap_nil, List.length_nil] at hlt
      omega
    simp only [List.nil_append, List.flatMap_cons, List.flatMap_nil, List.append_nil]
    rw [deliverWithin, if_neg hfull, List.take_append_of_le_length (by omega)]
  | cons first before ih =>
    simp only [List.flatMap_cons, List.length_append] at hle hlt
    have hfits : first.bytes.length ≤ room := by omega
    simp only [List.cons_append, List.flatMap_cons]
    rw [deliverWithin, if_pos hfits, ih (by omega) (by omega), List.take_append,
      List.take_of_length_le hfits]
    rfl

/-! ## Output -/

/-- The chunk that shows a token; the notice about a token outside the alphabet goes before it -/
def entryChunk (coloured : Bool) (token : Token) : Chunk :=
  { notices := strays [token], text := token.entry coloured ++ "\n" }

/-- The chunks that a line leads to: the prompt that it was entered at, and its tokens -/
def rowChunks (coloured : Bool) (row : List Token) : List Chunk :=
  prompt coloured :: row.map (entryChunk coloured)

/-- The text of the lines of some tokens, each row with its prompt -/
def answeredText (coloured : Bool) (rows : List (List Token)) : String :=
  String.join (rows.map fun row => (prompt coloured).text ++ entries coloured row)

/-- The tokens of the lines that a session answers, which are those in front of the first one that
is no text; the ends of the lines aside -/
def answeredRows (input : List UInt8) : List (List Token) :=
  (lines (readable input)).map fun line => (tokens ((decode line).getD "")).dropLast

theorem text_entryChunks (coloured : Bool) (row : List Token) :
    String.join ((row.map (entryChunk coloured)).map (·.text)) = entries coloured row := by
  rw [List.map_map]
  rfl

theorem text_rowChunks (coloured : Bool) (rows : List (List Token)) :
    String.join ((rows.flatMap (rowChunks coloured)).map (·.text)) =
      answeredText coloured rows := by
  induction rows with
  | nil => rfl
  | cons row rows ih =>
    rw [List.flatMap_cons, List.map_append, String.join_append, ih, rowChunks, List.map_cons,
      String.join_cons, text_entryChunks, answeredText, answeredText, List.map_cons,
      String.join_cons]

theorem notices_entryChunks (coloured : Bool) (row : List Token) :
    (row.map (entryChunk coloured)).flatMap (·.notices) = strays row := by
  rw [List.flatMap_map]
  exact strays_flatMap row

theorem notices_rowChunks (coloured : Bool) (rows : List (List Token)) :
    (rows.flatMap (rowChunks coloured)).flatMap (·.notices) = strays rows.flatten := by
  induction rows with
  | nil => rfl
  | cons row rows ih =>
    rw [List.flatMap_cons, List.flatMap_append, ih, rowChunks, List.flatMap_cons,
      notices_entryChunks, List.flatten_cons, strays_append]
    rfl

/-- Lines of text are answered row by row. -/
theorem chunks_ofLines (coloured : Bool) {inputs : List (List UInt8)}
    (h : ∀ line ∈ inputs, (decode line).isSome) :
    (ofLines coloured inputs).chunks =
      (inputs.map fun line => (tokens ((decode line).getD "")).dropLast).flatMap
        (rowChunks coloured) ++ [prompt coloured, farewell] := by
  induction inputs with
  | nil => rfl
  | cons line later ih =>
    rw [List.forall_mem_cons] at h
    obtain ⟨text, htext⟩ := Option.isSome_iff_exists.1 h.1
    have hanswers : answers coloured text = (tokens text).dropLast.map (entryChunk coloured) :=
      answers_eq coloured text
    rw [eq_encode_of_decode htext, ofLines_encode, ih h.2, hanswers, List.map_cons,
      List.flatMap_cons, decode_encode]
    simp [rowChunks]

/-- A session answers its rows of tokens, and ends with a prompt. Only where the whole input is text
is the line feed written. -/
theorem chunks_transcript (coloured : Bool) (input : List UInt8) :
    (transcript coloured input).chunks =
      (answeredRows input).flatMap (rowChunks coloured) ++
        prompt coloured :: if (decode input).isSome then [farewell] else [] := by
  have hread := chunks_ofLines coloured (decodes_of_mem_lines_readable input)
  cases hdecode : decode input with
  | none =>
    rw [transcript_of_undecodable coloured hdecode, transcript, hread]
    simp [answeredRows]
  | some text =>
    rw [transcript, ← lines_readable_of_isSome (by simp [hdecode]), hread]
    rfl

/-! ## Bytes -/

/-- The byte `n` of an output belongs to the text `piece`, which stands behind the text `before`. -/
structure Covers (output : List UInt8) (before piece : String) (n : Nat) : Prop where
  stands : encode before ++ encode piece <+: output
  behind : (encode before).length ≤ n
  within : n < (encode before).length + (encode piece).length

/-- The tokens that have been read when a session that answers `rows` writes the byte `n` of its
output -/
inductive ReadBy (coloured : Bool) (rows : List (List Token)) (output : List UInt8) (n : Nat) :
    List Token → Prop where
  /-- At a prompt, the tokens of the lines before it -/
  | atPrompt (earlier later : List (List Token)) (hrows : rows = earlier ++ later)
      (hbyte : Covers output (answeredText coloured earlier) (prompt coloured).text n) :
      ReadBy coloured rows output n earlier.flatten
  /-- In the line that is written for a token, the tokens of the lines before its own, and those of
  its own line up to that token -/
  | inEntry (earlier later : List (List Token)) (shown rest : List Token) (token : Token)
      (hrows : rows = earlier ++ (shown ++ token :: rest) :: later)
      (hbyte : Covers output
        (answeredText coloured earlier ++ (prompt coloured).text ++ entries coloured shown)
        (token.entry coloured ++ "\n") n) :
      ReadBy coloured rows output n (earlier.flatten ++ shown ++ [token])
  /-- At the line feed at the end, all tokens -/
  | atEnd (hbyte : Covers output (answeredText coloured rows ++ (prompt coloured).text) "\n" n) :
      ReadBy coloured rows output n rows.flatten

section Bytes

variable {transcript : Transcript} {before behind : List Chunk} {chunk : Chunk} {n : Nat}

theorem output_whole (transcript : Transcript) :
    transcript.whole.output = transcript.chunks.flatMap Chunk.bytes := by
  rw [Transcript.whole, deliver_eq]

theorem notices_whole (transcript : Transcript) :
    transcript.whole.notices = transcript.chunks.flatMap (·.notices) := by
  rw [Transcript.whole, deliver_eq]

/-- The bytes of a chunk are where the chunks in front of it end. -/
theorem covers_of_split (hchunks : transcript.chunks = before ++ chunk :: behind)
    (hle : (before.flatMap Chunk.bytes).length ≤ n)
    (hlt : n < (before.flatMap Chunk.bytes).length + chunk.bytes.length) :
    Covers transcript.whole.output (String.join (before.map (·.text))) chunk.text n := by
  rw [flatMap_bytes] at hle hlt
  refine ⟨?_, hle, hlt⟩
  rw [output_whole, hchunks, List.flatMap_append, List.flatMap_cons, flatMap_bytes,
    ← List.append_assoc]
  exact List.prefix_append _ _

/-- A limit that falls into a chunk ends the session there. -/
theorem within_of_covers (hchunks : transcript.chunks = before ++ chunk :: behind)
    (hbyte : Covers transcript.whole.output (String.join (before.map (·.text))) chunk.text n) :
    transcript.within n =
      { output := transcript.whole.output.take n,
        notices := (before ++ [chunk]).flatMap (·.notices),
        failure := some .sinkFull } := by
  have hle := hbyte.behind
  have hlt := hbyte.within
  rw [← flatMap_bytes] at hle hlt
  rw [output_whole, Transcript.within, hchunks]
  exact deliverWithin_append transcript.failure hle hlt

end Bytes

section Sessions

variable {coloured : Bool} {input : List UInt8} {n : Nat} {earlier later : List (List Token)}

theorem text_shown (coloured : Bool) (earlier : List (List Token)) (shown : List Token) :
    String.join ((earlier.flatMap (rowChunks coloured) ++ prompt coloured ::
        shown.map (entryChunk coloured)).map (·.text)) =
      answeredText coloured earlier ++ (prompt coloured).text ++ entries coloured shown := by
  rw [List.map_append, String.join_append, text_rowChunks, List.map_cons, String.join_cons,
    text_entryChunks, String.append_assoc]

/-- Behind the rows up to one comes a prompt, be it that of the next row or the last one. -/
theorem exists_chunks_prompt (coloured : Bool) (later : List (List Token)) (ending : List Chunk) :
    ∃ behind, later.flatMap (rowChunks coloured) ++ prompt coloured :: ending =
      prompt coloured :: behind := by
  cases later with
  | nil => exact ⟨ending, rfl⟩
  | cons row later => exact ⟨_, rfl⟩

/-- What a session has remarked on when it is cut off is known from the tokens it has read. -/
theorem within_of_readBy {read : List Token}
    (h : ReadBy coloured (answeredRows input) (transcript coloured input).whole.output n read) :
    (transcript coloured input).within n =
      { output := (transcript coloured input).whole.output.take n,
        notices := strays read,
        failure := some .sinkFull } := by
  have hchunks := chunks_transcript coloured input
  cases h with
  | atPrompt earlier later hrows hbyte =>
    rw [hrows, List.flatMap_append, List.append_assoc] at hchunks
    obtain ⟨behind, hbehind⟩ := exists_chunks_prompt coloured later _
    rw [hbehind] at hchunks
    rw [← text_rowChunks] at hbyte
    rw [within_of_covers hchunks hbyte, List.flatMap_append, notices_rowChunks]
    simp [prompt]
  | inEntry earlier later shown rest token hrows hbyte =>
    have hsplit : (transcript coloured input).chunks =
        (earlier.flatMap (rowChunks coloured) ++ prompt coloured ::
          shown.map (entryChunk coloured)) ++ entryChunk coloured token ::
            (rest.map (entryChunk coloured) ++ (later.flatMap (rowChunks coloured) ++
              prompt coloured :: if (decode input).isSome then [farewell] else [])) := by
      rw [hchunks, hrows]
      simp [rowChunks]
    rw [← text_shown] at hbyte
    rw [within_of_covers hsplit hbyte]
    simp only [List.flatMap_append, List.flatMap_cons, notices_rowChunks, notices_entryChunks,
      strays_append]
    simp [prompt, entryChunk]
  | atEnd hbyte =>
    have hlast := text_shown coloured (answeredRows input) []
    simp only [List.map_nil, entries, String.join_nil, String.append_empty] at hlast
    cases hdecode : decode input with
    | none =>
      -- the output ends with the prompt, and there is no line feed for the byte to belong to
      have hlength := hbyte.stands.length_le
      rw [hdecode] at hchunks
      rw [output_whole, hchunks, flatMap_bytes] at hlength
      simp only [Option.isSome_none, Bool.false_eq_true, if_false, hlast, List.length_append]
        at hlength
      have hfeed : (encode "\n").length = 1 := rfl
      omega
    | some text =>
      have hsplit : (transcript coloured input).chunks =
          ((answeredRows input).flatMap (rowChunks coloured) ++ [prompt coloured]) ++
            farewell :: [] := by
        rw [hchunks, hdecode]
        simp
      rw [← hlast] at hbyte
      rw [within_of_covers hsplit hbyte]
      simp only [List.flatMap_append, notices_rowChunks]
      simp [prompt, farewell]

/-! ## Every byte -/

@[simp] theorem encode_empty : encode "" = [] := rfl

@[simp] theorem answeredText_nil (coloured : Bool) : answeredText coloured [] = "" := rfl

theorem answeredText_cons (coloured : Bool) (row : List Token) (rows : List (List Token)) :
    answeredText coloured (row :: rows) =
      (prompt coloured).text ++ entries coloured row ++ answeredText coloured rows := by
  rw [answeredText, List.map_cons, String.join_cons]
  rfl

theorem encode_entries (coloured : Bool) (row : List Token) :
    encode (entries coloured row) =
      row.flatMap fun token => encode (token.entry coloured ++ "\n") := by
  rw [entries, encode_join, List.flatMap_map]

theorem entries_append_cons (coloured : Bool) (shown : List Token) (token : Token)
    (rest : List Token) :
    entries coloured (shown ++ token :: rest) =
      entries coloured shown ++ (token.entry coloured ++ "\n") ++ entries coloured rest := by
  rw [entries, List.map_append, String.join_append, List.map_cons, String.join_cons,
    ← String.append_assoc]
  rfl

/-- With more in front of the output, bytes are counted from the end of that. -/
theorem Covers.append {output : List UInt8} {before piece : String}
    (h : Covers output before piece n) (first : String) :
    Covers (encode first ++ output) (first ++ before) piece ((encode first).length + n) where
  stands := by
    rw [encode_append, List.append_assoc]
    exact (List.prefix_append_right_inj _).2 h.stands
  behind := by
    rw [encode_append, List.length_append]
    exact Nat.add_le_add_left h.behind _
  within := by
    rw [encode_append, List.length_append, Nat.add_assoc]
    exact Nat.add_lt_add_left h.within _

/-- With one more row in front, its tokens have been read before all the others. -/
theorem ReadBy.cons {rows : List (List Token)} {output : List UInt8} {read : List Token}
    (h : ReadBy coloured rows output n read) (row : List Token) :
    ReadBy coloured (row :: rows)
      (encode ((prompt coloured).text ++ entries coloured row) ++ output)
      ((encode ((prompt coloured).text ++ entries coloured row)).length + n) (row ++ read) := by
  cases h with
  | atPrompt earlier later hrows hbyte =>
    have hmoved := hbyte.append ((prompt coloured).text ++ entries coloured row)
    rw [← answeredText_cons] at hmoved
    exact .atPrompt (row :: earlier) later (congrArg (row :: ·) hrows) hmoved
  | inEntry earlier later shown rest token hrows hbyte =>
    have hmoved := hbyte.append ((prompt coloured).text ++ entries coloured row)
    rw [← String.append_assoc, ← String.append_assoc, ← answeredText_cons] at hmoved
    have hread : row ++ (earlier.flatten ++ shown ++ [token]) =
        (row :: earlier).flatten ++ shown ++ [token] := by simp
    rw [hread]
    exact .inEntry (row :: earlier) later shown rest token (congrArg (row :: ·) hrows) hmoved
  | atEnd hbyte =>
    have hmoved := hbyte.append ((prompt coloured).text ++ entries coloured row)
    rw [← String.append_assoc, ← answeredText_cons] at hmoved
    exact .atEnd hmoved

/-- A byte in a row belongs to its prompt or to the line of one of its tokens. -/
theorem exists_readBy_row (coloured : Bool) (row : List Token) (rows : List (List Token))
    (behind : List UInt8)
    (hn : n < (encode ((prompt coloured).text ++ entries coloured row)).length) :
    ∃ read, ReadBy coloured (row :: rows)
      (encode ((prompt coloured).text ++ entries coloured row) ++ behind) n read := by
  rw [encode_append, List.length_append] at hn
  by_cases hprompt : n < (encode (prompt coloured).text).length
  · have hbyte : Covers (encode ((prompt coloured).text ++ entries coloured row) ++ behind)
        (answeredText coloured []) (prompt coloured).text n := by
      refine ⟨?_, Nat.zero_le n, by simpa using hprompt⟩
      simp [encode_append]
    exact ⟨_, .atPrompt [] (row :: rows) rfl hbyte⟩
  · -- behind the prompt the lines of the tokens begin
    rw [encode_entries] at hn
    have hinside : n - (encode (prompt coloured).text).length <
        (row.flatMap fun token => encode (token.entry coloured ++ "\n")).length := by
      omega
    obtain ⟨shown, token, rest, rfl, hle, hlt⟩ := exists_split_of_lt_flatMap _ row hinside
    rw [← encode_entries] at hle hlt
    have hbyte : Covers
        (encode ((prompt coloured).text ++ entries coloured (shown ++ token :: rest)) ++ behind)
        (answeredText coloured [] ++ (prompt coloured).text ++ entries coloured shown)
        (token.entry coloured ++ "\n") n := by
      refine ⟨?_, ?_, ?_⟩
      · rw [entries_append_cons]
        simp [encode_append]
      · simp only [answeredText_nil, String.empty_append, encode_append, List.length_append]
        omega
      · simp only [answeredText_nil, String.empty_append, encode_append, List.length_append]
          at hlt ⊢
        omega
    exact ⟨_, .inEntry [] rows shown rest token rfl hbyte⟩

/-- What comes behind the rows is a prompt, and a line feed if anything. -/
theorem exists_readBy_rows (coloured : Bool) (rows : List (List Token)) {ending : String}
    (hending : ending = "" ∨ ending = "\n")
    (hn : n < (encode (answeredText coloured rows ++ (prompt coloured).text ++ ending)).length) :
    ∃ read, ReadBy coloured rows
      (encode (answeredText coloured rows ++ (prompt coloured).text ++ ending)) n read := by
  induction rows generalizing n with
  | nil =>
    -- only the last prompt is left, and the line feed if there is one
    simp only [answeredText_nil, String.empty_append] at hn ⊢
    by_cases hprompt : n < (encode (prompt coloured).text).length
    · refine ⟨_, .atPrompt [] [] rfl ⟨?_, Nat.zero_le n, by simpa⟩⟩
      simp [encode_append]
    · rw [encode_append, List.length_append] at hn
      rcases hending with rfl | rfl
      · simp only [encode_empty, List.length_nil] at hn
        omega
      · refine ⟨_, .atEnd ⟨?_, ?_, ?_⟩⟩
        · simp [encode_append]
        · simpa using hprompt
        · simpa using hn
  | cons row rows ih =>
    have hsplit : encode (answeredText coloured (row :: rows) ++ (prompt coloured).text ++ ending) =
        encode ((prompt coloured).text ++ entries coloured row) ++
          encode (answeredText coloured rows ++ (prompt coloured).text ++ ending) := by
      rw [answeredText_cons, ← encode_append]
      simp only [String.append_assoc]
    rw [hsplit] at hn ⊢
    by_cases hrow : n < (encode ((prompt coloured).text ++ entries coloured row)).length
    · exact exists_readBy_row coloured row rows _ hrow
    · -- a byte behind the first row is one of the output without that row
      rw [List.length_append] at hn
      obtain ⟨read, hread⟩ := ih
        (n := n - (encode ((prompt coloured).text ++ entries coloured row)).length) (by omega)
      have hmoved := hread.cons row
      rw [Nat.add_sub_cancel' (Nat.le_of_not_lt hrow)] at hmoved
      exact ⟨_, hmoved⟩

/-- Every byte that a session writes belongs to a prompt, to the line of a token or to the line feed
at the end. -/
theorem exists_readBy (hn : n < (transcript coloured input).whole.output.length) :
    ∃ read,
      ReadBy coloured (answeredRows input) (transcript coloured input).whole.output n read := by
  obtain ⟨ending, hending, houtput⟩ : ∃ ending, (ending = "" ∨ ending = "\n") ∧
      (transcript coloured input).whole.output = encode
        (answeredText coloured (answeredRows input) ++ (prompt coloured).text ++ ending) := by
    refine ⟨if (decode input).isSome then "\n" else "", by split <;> simp, ?_⟩
    rw [output_whole, chunks_transcript, flatMap_bytes, List.map_append, String.join_append,
      text_rowChunks, List.map_cons, String.join_cons, String.append_assoc]
    split <;> rfl
  rw [houtput] at hn ⊢
  exact exists_readBy_rows coloured _ hending hn

/-- Whatever the limit, nothing is remarked on that would not be remarked on without it. -/
theorem notices_within_isPrefix (transcript : Transcript) (limit : Nat) :
    (transcript.within limit).notices <+: transcript.whole.notices := by
  by_cases hfits : transcript.whole.output.length ≤ limit
  · rw [output_whole] at hfits
    rw [Transcript.within, deliverWithin_of_le _ hfits]
    exact List.prefix_refl _
  · rw [output_whole] at hfits
    obtain ⟨before, chunk, behind, hsplit, hle, hlt⟩ :=
      exists_split_of_lt_flatMap Chunk.bytes _ (Nat.lt_of_not_le hfits)
    -- the chunk at the limit is the last one that counts
    have hcounts : before ++ chunk :: behind = before ++ [chunk] ++ behind := by simp
    rw [within_of_covers hsplit (covers_of_split hsplit hle hlt), notices_whole, hsplit, hcounts]
    simp only [List.flatMap_append]
    exact List.prefix_append _ _

end Sessions

end Session

/-- A sink that takes `limit` bytes and then fails changes nothing in a session that writes no more
than that. Any other session it cuts off at that byte, with a failure of its own in place of the one
that may have come later, and with remarks on the tokens that have been read by then: those of the
lines answered so far at a prompt or at the line feed at the end, and in the line of a token also
those of its row up to that one. -/
theorem limited_session (coloured : Bool) (input : List UInt8) (limit : Nat) :
    ((Session.transcript coloured input).whole.output.length ≤ limit →
        (Session.transcript coloured input).within limit =
          (Session.transcript coloured input).whole) ∧
      (limit < (Session.transcript coloured input).whole.output.length →
        ((Session.transcript coloured input).within limit).output =
            (Session.transcript coloured input).whole.output.take limit ∧
          ((Session.transcript coloured input).within limit).failure = some .sinkFull ∧
          (∃ read, Session.ReadBy coloured (Session.answeredRows input)
            (Session.transcript coloured input).whole.output limit read) ∧
          ∀ read, Session.ReadBy coloured (Session.answeredRows input)
              (Session.transcript coloured input).whole.output limit read →
            ((Session.transcript coloured input).within limit).notices = strays read) ∧
      ((Session.transcript coloured input).within limit).notices <+:
        (Session.transcript coloured input).whole.notices := by
  refine ⟨fun hfits => ?_, fun hcut => ?_, Session.notices_within_isPrefix _ limit⟩
  · rw [Session.output_whole] at hfits
    exact Session.deliverWithin_of_le _ hfits
  · obtain ⟨read, hread⟩ := Session.exists_readBy hcut
    have hwithin := Session.within_of_readBy hread
    refine ⟨by rw [hwithin], by rw [hwithin], ⟨read, hread⟩, fun other hother => ?_⟩
    rw [Session.within_of_readBy hother]

/-- The limit falls into a character of two bytes. The second line is no text, but the session does
not come to it. -/
theorem limited_session_cut :
    15 < (Session.transcript false cutInput).whole.output.length ∧
      (Session.transcript false cutInput).whole.failure = some .undecodable ∧
      (Session.transcript false cutInput).within 15 =
        { output := encode ">> ILLEGAL   \"" ++ [0xC3],
          notices := [.stray 'é' ⟨1, 1⟩],
          failure := some .sinkFull } := by
  have hwhole : (Session.transcript false cutInput).whole =
      { output := encode ">> ILLEGAL   \"é\"\n>> ",
        notices := [.stray 'é' ⟨1, 1⟩],
        failure := some .undecodable } := by
    decide +kernel
  have hlong : 15 < (Session.transcript false cutInput).whole.output.length := by
    rw [hwhole]
    decide +kernel
  -- the byte at the limit is one of the line that shows the only token of the first line
  have hrows : Session.answeredRows cutInput = [[⟨.illegal, "é", ⟨1, 1⟩⟩]] := by decide +kernel
  have hread : Session.ReadBy false (Session.answeredRows cutInput)
      (Session.transcript false cutInput).whole.output 15 [⟨.illegal, "é", ⟨1, 1⟩⟩] := by
    refine .inEntry [] [] [] [] ⟨.illegal, "é", ⟨1, 1⟩⟩ hrows ⟨?_, ?_, ?_⟩
    · rw [hwhole]
      decide +kernel
    · decide +kernel
    · decide +kernel
  obtain ⟨-, hcut, -⟩ := limited_session false cutInput 15
  obtain ⟨houtput, hfailure, -, hnotices⟩ := hcut hlong
  refine ⟨hlong, by rw [hwhole], ?_⟩
  rw [hwhole] at houtput
  cases hwithin : (Session.transcript false cutInput).within 15 with
  | mk output notices failure =>
    rw [hwithin] at houtput hfailure hnotices
    obtain rfl := hfailure
    obtain rfl := hnotices _ hread
    obtain rfl := houtput
    decide +kernel

end Macaque

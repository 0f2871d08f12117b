import Macaque.Proofs.Joins
import Macaque.Proofs.Lines
import Macaque.Proofs.Strays
import Macaque.Session.Delivery

/-!
# A session and the whole of its input

A session reads every line by itself, as a text of its own. No token goes over the end of a line, so
that what it answers are the tokens of the input as a whole, line by line, and what it remarks on is
what reading the whole remarks on, but for the number of the line.

## Architecture

- **Lines**: the tokens of a line stand on its first line (`line_of_mem_body`); what comes after it
  is moved by one line (`tokens_append_line`)
- **Transcripts**: what is written and remarked on, without the cut into chunks
- **Rows**: `byLine` sorts tokens by their lines; the first row of a text are the tokens of its
  first line (`byLine_line`)
- **Sessions**: `lists_ofLines`, by induction on the lines of the input, and from it
  `session_lists_tokens`
-/

namespace Macaque

/-! ## Lines -/

theorem counted_of_mem_tokens {source : String} {token : Token} (h : token ∈ tokens source) :
    token.location.Counted := by
  obtain ⟨layout, hlayout⟩ := exists_layout_source source
  rw [tokens_eq_place hlayout] at h
  rcases List.mem_append.1 h with hplace | hlast
  · obtain ⟨before, -, -, hlocation⟩ := exists_split_of_mem_place hplace
    rw [hlocation, ← Location.after_append]
    exact Location.counted_after Location.counted_start _
  · rw [List.mem_singleton.1 hlast]
    exact Location.counted_after Location.counted_start _

section Line

variable {line : String} {body : List Token} {last : Token}

/-- Where a line feed comes last, if at all, every token stands on the first line. -/
theorem line_of_mem_body (hmark : endMark ∉ line.toList) (htokens : tokens line = body ++ [last])
    (hfeed : '\n' ∉ line.toList.dropLast) : ∀ token ∈ body, token.location.line = 1 := by
  obtain ⟨layout, hlayout, rfl, -⟩ := exists_layout_of_tokens hmark htokens
  intro token hmem
  obtain ⟨before, behind, hsplit, hlocation⟩ := exists_split_of_mem_place hmem
  -- what stands in front of a token is not the whole line, since the token has a text
  have hliteral : token.literal.toList ≠ [] := by
    obtain ⟨tile, -, here, rfl⟩ := exists_tile_of_mem_place hmem
    simpa [Lexeme.token, Lexeme.text] using tile.valid.chars_ne_nil
  have hfront : '\n' ∉ layout.lead ++ before := by
    rw [← hlayout, Layout.chars, hsplit, ← List.append_assoc,
      List.dropLast_append_of_ne_nil (List.append_ne_nil_of_left_ne_nil hliteral behind)] at hfeed
    exact fun hmem => hfeed (List.mem_append_left _ hmem)
  rw [hlocation, ← Location.after_append, Location.line_after _ hfront]
  rfl

end Line

/-- The token of a text that has one more line in front of it -/
def Token.nextLine (token : Token) : Token :=
  token.shift ⟨2, 1⟩

theorem Token.location_nextLine (token : Token) :
    token.nextLine.location = ⟨token.location.line + 1, token.location.column⟩ := by
  by_cases hline : token.location.line = 1
  · simp [nextLine, Location.shift, hline]
  · simp only [nextLine, shift_location, Location.shift, if_neg hline, Location.mk.injEq, and_true]
    omega

/-- A line is read by itself, and so is what comes after it. -/
theorem tokens_append_line {run : String} {body : List Token} {last : Token} (rest : String)
    (hmark : endMark ∉ (run ++ "\n").toList) (hfeed : '\n' ∉ run.toList)
    (htokens : tokens (run ++ "\n") = body ++ [last]) :
    tokens (run ++ "\n" ++ rest) = body ++ (tokens rest).map Token.nextLine := by
  have hchars : (run ++ "\n").toList = run.toList ++ ['\n'] := String.toList_append
  have hlast : last.location = ⟨2, 1⟩ := by
    obtain ⟨layout, -, -, rfl⟩ := exists_layout_of_tokens hmark htokens
    rw [hchars]
    exact Location.after_feed .start hfeed
  have hjoined := tokens_append_of_blank rest hmark htokens hchars rfl
  rwa [hlast] at hjoined

/-! ## Transcripts -/

namespace Session

/-- All that a session writes -/
def Transcript.text (transcript : Transcript) : String :=
  String.join (transcript.chunks.map (·.text))

/-- All that a session remarks on -/
def Transcript.notices (transcript : Transcript) : List Notice :=
  transcript.chunks.flatMap (·.notices)

theorem deliver_eq (failure : Option Failure) (chunks : List Chunk) :
    deliver failure chunks =
      { output := chunks.flatMap Chunk.bytes, notices := chunks.flatMap (·.notices), failure } := by
  induction chunks with
  | nil => rfl
  | cons chunk chunks ih =>
    rw [deliver, List.foldr_cons, ← deliver, ih]
    rfl

/-- A sink without a limit takes the whole transcript. -/
theorem Transcript.whole_eq (transcript : Transcript) :
    transcript.whole = { output := encode transcript.text, notices := transcript.notices,
                         failure := transcript.failure } := by
  rw [whole, deliver_eq, text, encode_join, List.flatMap_map]
  rfl

end Session

/-! ## Rows -/

/-- The tokens on the line `k`, the end aside -/
def onLine (k : Nat) (tokens : List Token) : List Token :=
  tokens.filter fun token => token.kind ≠ .endOfText ∧ token.location.line = k

/-- The tokens on each of the first `count` lines, the end aside -/
def byLine (count : Nat) (tokens : List Token) : List (List Token) :=
  (List.range count).map fun k => onLine (k + 1) tokens

/-- Tokens, each on a line of its own -/
def entries (coloured : Bool) (tokens : List Token) : String :=
  String.join (tokens.map fun token => token.entry coloured ++ "\n")

/-- Rows of tokens, a prompt in front of each and of the end -/
def listing (coloured : Bool) (rows : List (List Token)) : String :=
  String.join (rows.map fun row => (Session.prompt coloured).text ++ entries coloured row) ++
    ((Session.prompt coloured).text ++ "\n")

/-- The notices about the illegal tokens, as if each line of them were the first one -/
def straysOnFirstLine (tokens : List Token) : List Notice :=
  (tokens.filter (·.kind = .illegal)).map fun token =>
    .stray token.character ⟨1, token.location.column⟩

section Tokens

variable {body later : List Token}

theorem onLine_append (k : Nat) (first second : List Token) :
    onLine k (first ++ second) = onLine k first ++ onLine k second :=
  List.filter_append _ _

theorem onLine_one_of_body (hend : ∀ token ∈ body, token.kind ≠ .endOfText)
    (hline : ∀ token ∈ body, token.location.line = 1) : onLine 1 body = body := by
  apply List.filter_eq_self.2
  intro token hmem
  simp [hend token hmem, hline token hmem]

theorem onLine_of_body (hline : ∀ token ∈ body, token.location.line = 1) (k : Nat) :
    onLine (k + 2) body = [] := by
  apply List.filter_eq_nil_iff.2
  intro token hmem
  simp [hline token hmem]

theorem onLine_nextLine (later : List Token) (k : Nat) :
    onLine (k + 1) (later.map Token.nextLine) = (onLine k later).map Token.nextLine := by
  have hline (token : Token) : token.nextLine.location.line = k + 1 ↔ token.location.line = k := by
    rw [token.location_nextLine, Nat.succ_inj]
  rw [onLine, List.filter_map, onLine]
  simp only [Function.comp_def, hline]
  rfl

theorem onLine_zero (hcounted : ∀ token ∈ later, token.location.Counted) : onLine 0 later = [] := by
  apply List.filter_eq_nil_iff.2
  intro token hmem
  have hline := (hcounted token hmem).1
  simp
  omega

/-- The first row of tokens that start with those of a line is that line. -/
theorem byLine_line (count : Nat) (hend : ∀ token ∈ body, token.kind ≠ .endOfText)
    (hline : ∀ token ∈ body, token.location.line = 1)
    (hcounted : ∀ token ∈ later, token.location.Counted) :
    byLine (count + 1) (body ++ later.map Token.nextLine) =
      body :: (byLine count later).map (List.map Token.nextLine) := by
  have hfirst : onLine 1 (body ++ later.map Token.nextLine) = body := by
    rw [onLine_append, onLine_one_of_body hend hline, onLine_nextLine, onLine_zero hcounted]
    exact List.append_nil body
  have hlater (k : Nat) : onLine (k + 2) (body ++ later.map Token.nextLine) =
      (onLine (k + 1) later).map Token.nextLine := by
    rw [onLine_append, onLine_of_body hline, onLine_nextLine, List.nil_append]
  rw [byLine, List.range_succ_eq_map, List.map_cons, List.map_map, hfirst, byLine, List.map_map]
  simp only [Function.comp_def, Nat.succ_eq_add_one, hlater]

theorem byLine_last {last : Token} (hend : ∀ token ∈ body, token.kind ≠ .endOfText)
    (hline : ∀ token ∈ body, token.location.line = 1) (hlast : last.kind = .endOfText) :
    byLine 1 (body ++ [last]) = [body] := by
  have honly : onLine 1 [last] = [] := by simp [onLine, hlast]
  rw [byLine, List.range_one, List.map_singleton, onLine_append, onLine_one_of_body hend hline,
    honly, List.append_nil]

/-- An entry does not tell where the token stands. -/
theorem entries_nextLine (coloured : Bool) (tokens : List Token) :
    entries coloured (tokens.map Token.nextLine) = entries coloured tokens := by
  rw [entries, List.map_map]
  rfl

theorem listing_nextLine (coloured : Bool) (rows : List (List Token)) :
    listing coloured (rows.map (List.map Token.nextLine)) = listing coloured rows := by
  simp only [listing, List.map_map, Function.comp_def, entries_nextLine]

theorem listing_cons (coloured : Bool) (row : List Token) (rows : List (List Token)) :
    listing coloured (row :: rows) =
      (Session.prompt coloured).text ++ entries coloured row ++ listing coloured rows := by
  rw [listing, List.map_cons, String.join_cons, String.append_assoc]
  rfl

theorem straysOnFirstLine_append (first second : List Token) :
    straysOnFirstLine (first ++ second) = straysOnFirstLine first ++ straysOnFirstLine second := by
  simp [straysOnFirstLine]

theorem straysOnFirstLine_nextLine (tokens : List Token) :
    straysOnFirstLine (tokens.map Token.nextLine) = straysOnFirstLine tokens := by
  rw [straysOnFirstLine, List.filter_map, List.map_map]
  simp only [Function.comp_def, Token.location_nextLine]
  rfl

theorem straysOnFirstLine_of_body (hline : ∀ token ∈ body, token.location.line = 1) :
    straysOnFirstLine body = strays body := by
  apply List.map_congr_left
  intro token hmem
  rw [← hline token (List.mem_of_mem_filter hmem)]

end Tokens

/-! ## Sessions -/

/-- The tokens of a text on each of its lines -/
def rows (source : String) : List (List Token) :=
  byLine (lines (encode source)).length (tokens source)

section Line

variable {run : String}

theorem rows_last (hmark : endMark ∉ run.toList) (hfeed : '\n' ∉ run.toList) (hne : run ≠ "") :
    rows run = [(tokens run).dropLast] := by
  obtain ⟨last, htokens⟩ := exists_tokens_eq run
  obtain ⟨hend, hlast⟩ := kinds_of_tokens htokens
  have hline := line_of_mem_body hmark htokens fun hmem =>
    hfeed ((List.dropLast_sublist _).subset hmem)
  rw [rows, lines_encode_last hfeed hne, List.length_singleton, htokens,
    byLine_last hend hline hlast, List.dropLast_concat]

theorem rows_line (rest : String) (hmark : endMark ∉ (run ++ "\n").toList)
    (hfeed : '\n' ∉ run.toList) :
    rows (run ++ "\n" ++ rest) =
      (tokens (run ++ "\n")).dropLast :: (rows rest).map (List.map Token.nextLine) := by
  obtain ⟨last, htokens⟩ := exists_tokens_eq (run ++ "\n")
  have hline := line_of_mem_body hmark htokens (by simpa using hfeed)
  rw [rows, lines_encode_feed hfeed, List.length_cons, tokens_append_line rest hmark hfeed htokens,
    byLine_line _ (kinds_of_tokens htokens).1 hline fun _ => counted_of_mem_tokens]
  rfl

end Line

/-- No token is lost, and none changes its place among the others. -/
theorem flatten_rows {source : String} (hmark : endMark ∉ source.toList) :
    (rows source).flatten = (tokens source).dropLast := by
  induction source using line_induction with
  | empty => decide +kernel
  | last run hfeed hne => rw [rows_last hmark hfeed hne, List.flatten_singleton]
  | line run rest hfeed ih =>
    rw [String.toList_append, List.mem_append, not_or] at hmark
    obtain ⟨last, htokens⟩ := exists_tokens_eq (run ++ "\n")
    rw [rows_line rest hmark.1 hfeed, List.flatten_cons, ← List.map_flatten, ih hmark.2,
      tokens_append_line rest hmark.1 hfeed htokens, List.dropLast_append_of_ne_nil
        (by simpa using tokens_ne_nil rest), List.map_dropLast]

namespace Session

/-- A line is answered by its tokens, the end aside. -/
theorem answers_eq (coloured : Bool) (line : String) :
    answers coloured line = (tokens line).dropLast.map fun token =>
      { notices := strays [token], text := token.entry coloured ++ "\n" } := by
  rw [answers, tokens, Cursor.toEnd, ← List.map_dropLast, List.map_map]
  apply List.map_congr_left
  intro step hmem
  rw [answer, Cursor.notices_of_mem_steps ((List.dropLast_sublist _).subset hmem)]
  rfl

theorem text_answers (coloured : Bool) (line : String) :
    String.join ((answers coloured line).map (·.text)) =
      entries coloured (tokens line).dropLast := by
  rw [answers_eq, List.map_map]
  rfl

theorem notices_answers (coloured : Bool) (line : String) :
    (answers coloured line).flatMap (·.notices) = strays (tokens line).dropLast := by
  rw [answers_eq, List.flatMap_map, strays_flatMap]

/-- A session with a line of text more answers that line first. -/
theorem ofLines_encode (coloured : Bool) (line : String) (later : List (List UInt8)) :
    ofLines coloured (encode line :: later) =
      { ofLines coloured later with
        chunks :=
          prompt coloured :: answers coloured line ++ (ofLines coloured later).chunks } := by
  simp [ofLines, reply, decode_encode]

theorem text_ofLines_encode (coloured : Bool) (line : String) (later : List (List UInt8)) :
    (ofLines coloured (encode line :: later)).text =
      (prompt coloured).text ++ entries coloured (tokens line).dropLast ++
        (ofLines coloured later).text := by
  rw [ofLines_encode, Transcript.text, List.cons_append, List.map_cons, List.map_append,
    String.join_cons, String.join_append, text_answers, String.append_assoc]
  rfl

theorem notices_ofLines_encode (coloured : Bool) (line : String) (later : List (List UInt8)) :
    (ofLines coloured (encode line :: later)).notices =
      strays (tokens line).dropLast ++ (ofLines coloured later).notices := by
  rw [ofLines_encode, Transcript.notices, List.cons_append, List.flatMap_cons, List.flatMap_append,
    notices_answers]
  rfl

theorem failure_ofLines_encode (coloured : Bool) (line : String) (later : List (List UInt8)) :
    (ofLines coloured (encode line :: later)).failure = (ofLines coloured later).failure := by
  rw [ofLines_encode]

end Session

/-- What a session does that is given a text: it lists the rows of tokens of the text one by one. -/
structure Lists (coloured : Bool) (source : String) (transcript : Session.Transcript) : Prop where
  text : transcript.text = listing coloured (rows source)
  notices : transcript.notices = straysOnFirstLine (tokens source)
  failure : transcript.failure = none

theorem lists_ofLines (coloured : Bool) {source : String} (hmark : endMark ∉ source.toList) :
    Lists coloured source (Session.ofLines coloured (lines (encode source))) := by
  -- induction on the lines: what comes behind a line is a text of its own, one line further down
  induction source using line_induction with
  | empty =>
    have hrows : rows "" = [] := rfl
    have htokens : tokens "" = [.endAt .start] := by decide +kernel
    refine ⟨?_, ?_, rfl⟩
    · rw [hrows]
      rfl
    · rw [htokens]
      rfl
  | last run hfeed hne =>
    obtain ⟨last, htokens⟩ := exists_tokens_eq run
    have hline := line_of_mem_body hmark htokens fun hmem =>
      hfeed ((List.dropLast_sublist _).subset hmem)
    rw [lines_encode_last hfeed hne]
    refine ⟨?_, ?_, ?_⟩
    · rw [Session.text_ofLines_encode, rows_last hmark hfeed hne, listing_cons]
      rfl
    · have hlast : straysOnFirstLine [last] = [] := by
        simp [straysOnFirstLine, (kinds_of_tokens htokens).2]
      rw [Session.notices_ofLines_encode, htokens, List.dropLast_concat, straysOnFirstLine_append,
        straysOnFirstLine_of_body hline, hlast]
      rfl
    · rw [Session.failure_ofLines_encode]
      rfl
  | line run rest hfeed ih =>
    rw [String.toList_append, List.mem_append, not_or] at hmark
    obtain ⟨last, htokens⟩ := exists_tokens_eq (run ++ "\n")
    have hline := line_of_mem_body hmark.1 htokens (by simpa using hfeed)
    obtain ⟨htext, hnotices, hfailure⟩ := ih hmark.2
    rw [lines_encode_feed hfeed]
    refine ⟨?_, ?_, ?_⟩
    · rw [Session.text_ofLines_encode, htext, rows_line rest hmark.1 hfeed, listing_cons,
        listing_nextLine]
    · rw [Session.notices_ofLines_encode, hnotices, tokens_append_line rest hmark.1 hfeed htokens,
        straysOnFirstLine_append, straysOnFirstLine_nextLine, straysOnFirstLine_of_body hline]
    · rw [Session.failure_ofLines_encode, hfailure]

/-- A session that is given a text lists the tokens of the text line by line, all of them in their
order, and remarks on each illegal one, always as if its line were the first. -/
theorem session_lists_tokens {input : List UInt8} {source : String}
    (hdecode : decode input = some source) (hmark : endMark ∉ source.toList) (coloured : Bool) :
    (Session.transcript coloured input).whole =
        { output := encode (listing coloured (byLine (lines input).length (tokens source))),
          notices := straysOnFirstLine (tokens source),
          failure := none } ∧
      (byLine (lines input).length (tokens source)).flatten = (tokens source).dropLast ∧
      ∀ token ∈ tokens source, token.kind = .illegal →
        token.literal = String.ofList [token.character] := by
  obtain rfl := eq_encode_of_decode hdecode
  obtain ⟨htext, hnotices, hfailure⟩ := lists_ofLines coloured hmark
  refine ⟨?_, flatten_rows hmark, fun token => literal_of_illegal⟩
  rw [Session.Transcript.whole_eq, Session.transcript, htext, hnotices, hfailure]
  rfl

/-- The second line is blank, the third does not end, and the second remark is on the third line. -/
theorem session_lists_tokens_mixed :
    decode (encode "é = 1\r\n\n €x") = some "é = 1\r\n\n €x" ∧
      endMark ∉ "é = 1\r\n\n €x".toList ∧
      (Session.transcript false (encode "é = 1\r\n\n €x")).whole =
        { output := encode (">> ILLEGAL   \"é\"\n=         \"=\"\nINT       \"1\"\n" ++
            ">> " ++ ">> ILLEGAL   \"€\"\nIDENT     \"x\"\n" ++ ">> \n"),
          notices := [.stray 'é' ⟨1, 1⟩, .stray '€' ⟨1, 2⟩],
          failure := none } := by
  have hdecode := decode_encode "é = 1\r\n\n €x"
  have hmark : endMark ∉ "é = 1\r\n\n €x".toList := by decide
  refine ⟨hdecode, hmark, ?_⟩
  rw [(session_lists_tokens hdecode hmark false).1]
  decide +kernel

end Macaque

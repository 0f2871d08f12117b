import Macaque.Proofs.Sessions

/-!
# Sessions with input that is not text

Lines are cut before they are decoded, so that a session notices input that is no text only when it
comes to a line that is none. Up to there it does what it does with the lines in front of it: the
prompt for the bad line is the last thing that is written, and neither that line nor any later one
is looked at.

## Architecture

- **Lines**: the bytes are a text exactly if every line is (`isSome_decode_iff`); `readable` are the
  lines in front of the first one that is none, and they are lines again (`lines_readable`)
- **Sessions**: `Session.failure_ofLines` for lines that are texts and `Session.ofLines_append_bad`
  for a session that fails, both by induction on the lines; `Session.transcript_of_undecodable` puts
  the bad line behind the readable ones, and `undecodable_session` is the result
-/

namespace Macaque

/-! ## Lines -/

/-- Every line of a text is a text. -/
theorem decodes_of_mem_lines_encode (text : String) :
    ∀ line ∈ lines (encode text), (decode line).isSome := by
  have hdecodes (run : String) : (decode (encode run)).isSome := by rw [decode_encode]; rfl
  induction text using line_induction with
  | empty =>
    have hnone : lines (encode "") = [] := rfl
    simp [hnone]
  | last run hfeed hne =>
    rw [lines_encode_last hfeed hne, List.forall_mem_singleton]
    exact hdecodes run
  | line run rest hfeed ih =>
    rw [lines_encode_feed hfeed, List.forall_mem_cons]
    exact ⟨hdecodes _, ih⟩

/-- Texts one after the other are a text. -/
theorem isSome_decode_flatten {pieces : List (List UInt8)}
    (h : ∀ piece ∈ pieces, (decode piece).isSome) : (decode pieces.flatten).isSome := by
  induction pieces with
  | nil =>
    have hempty : decode [] = some "" := decode_encode ""
    simp [hempty]
  | cons piece pieces ih =>
    rw [List.forall_mem_cons] at h
    obtain ⟨first, hfirst⟩ := Option.isSome_iff_exists.1 h.1
    obtain ⟨second, hsecond⟩ := Option.isSome_iff_exists.1 (ih h.2)
    have hjoined := decode_encode (first ++ second)
    rw [encode_append, ← eq_encode_of_decode hfirst, ← eq_encode_of_decode hsecond] at hjoined
    rw [List.flatten_cons, hjoined]
    rfl

/-- Cutting at the line feeds never cuts a character: bytes are a text exactly if all their lines
are. -/
theorem isSome_decode_iff (bytes : List UInt8) :
    (decode bytes).isSome ↔ ∀ line ∈ lines bytes, (decode line).isSome := by
  constructor
  · intro h
    obtain ⟨text, htext⟩ := Option.isSome_iff_exists.1 h
    rw [eq_encode_of_decode htext]
    exact decodes_of_mem_lines_encode text
  · intro h
    rw [← flatten_lines bytes]
    exact isSome_decode_flatten h

/-- The lines in front of the first one that is no text -/
def readable (bytes : List UInt8) : List UInt8 :=
  ((lines bytes).takeWhile fun line => (decode line).isSome).flatten

/-- Lines that are put together again are cut again at the same places. -/
theorem lines_readable (bytes : List UInt8) :
    lines (readable bytes) = (lines bytes).takeWhile fun line => (decode line).isSome := by
  rw [readable]
  generalize (fun line : List UInt8 => (decode line).isSome) = p
  induction bytes using run_induction lineFeed with
  | empty => rfl
  | last run hfeed hne =>
    rw [lines_of_not_mem hfeed hne]
    cases hrun : p run with
    | true => simp [hrun, lines_of_not_mem hfeed hne]
    | false => simp [hrun, lines]
  | line run rest hfeed ih =>
    -- a line that is taken still ends with its line feed, which is where it is cut again
    rw [lines_append_feed hfeed]
    cases hrun : p (run ++ [lineFeed]) with
    | true =>
      rw [List.takeWhile_cons_of_pos hrun, List.flatten_cons, List.append_assoc,
        List.singleton_append, lines_append_feed hfeed, ih]
    | false =>
      rw [List.takeWhile_cons_of_neg (by simp [hrun])]
      rfl

/-- All lines of a text are readable. -/
theorem lines_readable_of_isSome {bytes : List UInt8} (h : (decode bytes).isSome) :
    lines (readable bytes) = lines bytes := by
  rw [lines_readable]
  exact List.takeWhile_eq_self_iff.2 ((isSome_decode_iff bytes).1 h)

theorem decodes_of_mem_lines_readable (bytes : List UInt8) :
    ∀ line ∈ lines (readable bytes), (decode line).isSome := by
  rw [lines_readable]
  exact fun line hmem => List.mem_takeWhile_imp (p := fun line => (decode line).isSome) hmem

/-- Bytes that are no text go on behind their readable lines with a line that is none. -/
theorem exists_lines_of_undecodable {bytes : List UInt8} (h : decode bytes = none) :
    ∃ bad later, lines bytes = lines (readable bytes) ++ bad :: later ∧ decode bad = none := by
  rw [lines_readable]
  have hsplit := List.takeWhile_append_dropWhile (p := fun line => (decode line).isSome)
    (l := lines bytes)
  cases hrest : (lines bytes).dropWhile (fun line => (decode line).isSome) with
  | nil =>
    -- all lines would be texts, and so would the bytes be
    rw [hrest, List.append_nil] at hsplit
    have hall := (isSome_decode_iff bytes).2 (List.takeWhile_eq_self_iff.1 hsplit)
    simp [h] at hall
  | cons bad later =>
    rw [hrest] at hsplit
    have hbad := List.head?_dropWhile_not (fun line => (decode line).isSome) (lines bytes)
    rw [hrest] at hbad
    exact ⟨bad, later, hsplit.symm, by simpa using hbad⟩

/-! ## Sessions -/

namespace Session

/-- A session that is given texts does not fail. -/
theorem failure_ofLines (coloured : Bool) {inputs : List (List UInt8)}
    (h : ∀ line ∈ inputs, (decode line).isSome) : (ofLines coloured inputs).failure = none := by
  induction inputs with
  | nil => rfl
  | cons line later ih =>
    rw [List.forall_mem_cons] at h
    obtain ⟨text, htext⟩ := Option.isSome_iff_exists.1 h.1
    rw [eq_encode_of_decode htext, failure_ofLines_encode, ih h.2]

/-- A session that comes to a line that is no text fails, and what it has written up to the prompt
for that line is what a session with the lines in front of it writes, but for the farewell. -/
theorem ofLines_append_bad (coloured : Bool) {inputs : List (List UInt8)}
    (h : ∀ line ∈ inputs, (decode line).isSome) {bad : List UInt8} (hbad : decode bad = none)
    (later : List (List UInt8)) :
    (ofLines coloured (inputs ++ bad :: later)).failure = some .undecodable ∧
      (ofLines coloured inputs).chunks =
        (ofLines coloured (inputs ++ bad :: later)).chunks ++ [farewell] := by
  induction inputs with
  | nil => simp [ofLines, reply, hbad]
  | cons line inputs ih =>
    rw [List.forall_mem_cons] at h
    obtain ⟨text, htext⟩ := Option.isSome_iff_exists.1 h.1
    obtain ⟨hfailure, hchunks⟩ := ih h.2
    rw [eq_encode_of_decode htext, List.cons_append, ofLines_encode, ofLines_encode]
    refine ⟨hfailure, ?_⟩
    simp only [hchunks, List.append_assoc]

/-- A session that fails is known from the lines in front of the bad one. -/
theorem transcript_of_undecodable (coloured : Bool) {input : List UInt8} (h : decode input = none) :
    transcript coloured input =
      { chunks := (transcript coloured (readable input)).chunks.dropLast,
        failure := some .undecodable } := by
  obtain ⟨bad, later, hlines, hbad⟩ := exists_lines_of_undecodable h
  obtain ⟨hfailure, hchunks⟩ :=
    ofLines_append_bad coloured (decodes_of_mem_lines_readable input) hbad later
  rw [transcript, transcript, hchunks, List.dropLast_concat, hlines, ← hfailure]

theorem transcript_readable (coloured : Bool) {input : List UInt8} (h : decode input = none) :
    transcript coloured (readable input) =
      { chunks := (transcript coloured input).chunks ++ [farewell], failure := none } := by
  obtain ⟨bad, later, hlines, hbad⟩ := exists_lines_of_undecodable h
  have hread := decodes_of_mem_lines_readable input
  rw [transcript, transcript, hlines, ← (ofLines_append_bad coloured hread hbad later).2,
    ← failure_ofLines coloured hread]

/-- The farewell adds a line feed to what a transcript delivers, and nothing else. -/
theorem whole_farewell (transcript : Transcript) (failure : Option Failure) :
    Transcript.whole { chunks := transcript.chunks ++ [farewell], failure } =
      { output := transcript.whole.output ++ [lineFeed],
        notices := transcript.whole.notices, failure } := by
  have hfarewell : farewell.bytes = [lineFeed] := rfl
  simp only [Transcript.whole, deliver_eq, List.flatMap_append, List.flatMap_singleton, hfarewell]
  simp [farewell]

end Session

/-- A session fails exactly if its input is no text. What it has written until then is what it
writes, but for the line feed at the end, when it is given the lines in front of the first one that
is no text, and that is also what it has remarked on. The bad line and what comes behind it do not
matter. -/
theorem undecodable_session (coloured : Bool) (input : List UInt8) :
    (Session.transcript coloured input).whole.failure =
        (if (decode input).isSome then none else some .undecodable) ∧
      (decode input = none →
        (∃ bad later, lines input = lines (readable input) ++ bad :: later ∧
          (∀ line ∈ lines (readable input), (decode line).isSome) ∧ decode bad = none) ∧
        (Session.transcript coloured (readable input)).whole =
          { output := (Session.transcript coloured input).whole.output ++ [lineFeed],
            notices := (Session.transcript coloured input).whole.notices,
            failure := none } ∧
        ∀ other, decode other = none → readable other = readable input →
          Session.transcript coloured other = Session.transcript coloured input) := by
  constructor
  · rw [Session.Transcript.whole_eq]
    cases hdecode : decode input with
    | none =>
      rw [Session.transcript_of_undecodable coloured hdecode]
      rfl
    | some text =>
      exact Session.failure_ofLines coloured ((isSome_decode_iff input).1 (by simp [hdecode]))
  · intro h
    obtain ⟨bad, later, hlines, hbad⟩ := exists_lines_of_undecodable h
    refine ⟨⟨bad, later, hlines, decodes_of_mem_lines_readable input, hbad⟩, ?_, ?_⟩
    · rw [Session.transcript_readable coloured h]
      exact Session.whole_farewell _ none
    · -- each of the two transcripts is told by the readable lines
      intro other hother hsame
      rw [Session.transcript_of_undecodable coloured h,
        Session.transcript_of_undecodable coloured hother, hsame]

/-- A line of text, a line that ends in the middle of a character, and another line of text -/
def cutInput : List UInt8 :=
  encode "é\n" ++ [0xC3, lineFeed] ++ encode "@\n"

/-- The first line is answered, and the prompt is all that comes of the second one. -/
theorem undecodable_session_cut :
    decode cutInput = none ∧
      (Session.transcript false cutInput).whole =
        { output := encode ">> ILLEGAL   \"é\"\n>> ",
          notices := [.stray 'é' ⟨1, 1⟩],
          failure := some .undecodable } := by
  have hdecode : decode cutInput = none := by decide +kernel
  have hread : readable cutInput = encode "é\n" := by decide +kernel
  have hfirst : (Session.transcript false (encode "é\n")).whole =
      { output := encode ">> ILLEGAL   \"é\"\n>> " ++ [lineFeed],
        notices := [.stray 'é' ⟨1, 1⟩],
        failure := none } := by
    decide +kernel
  obtain ⟨hfailure, hstops⟩ := undecodable_session false cutInput
  obtain ⟨-, hwhole, -⟩ := hstops hdecode
  rw [hread, hfirst] at hwhole
  rw [hdecode] at hfailure
  refine ⟨hdecode, ?_⟩
  cases hcut : (Session.transcript false cutInput).whole with
  | mk output notices failure =>
    rw [hcut] at hwhole hfailure
    obtain ⟨houtput, hnotices, -⟩ := Session.Delivery.mk.inj hwhole
    obtain rfl := hfailure
    rw [List.append_cancel_right houtput, hnotices]
    rfl

end Macaque

import Macaque.Source.Lines
import Mathlib.Data.List.TakeWhile

/-!
# The lines of a text

An input is cut into lines before it is decoded, at the bytes that are line feeds. In the bytes of a
text these stand for the line feeds of the text and for nothing else, so that every line of a text
holds a text again.

## Architecture

- **Bytes**: `lines_append_feed` cuts off the first line, `lines_of_not_mem` is the last line;
  `lines_append` cuts at any line feed
- **Text**: `lineFeed_mem_encode` says where the bytes of a text have a line feed;
  `lines_encode_feed` and `lines_encode_last` cut a text
- **Induction**: `run_induction` takes bytes line by line, `line_induction` a text
-/

namespace Macaque

/-! ## Bytes -/

/-- What comes up to the first line feed is a line. -/
theorem lines_append_feed {bytes : List UInt8} (h : lineFeed ∉ bytes) (rest : List UInt8) :
    lines (bytes ++ lineFeed :: rest) = (bytes ++ [lineFeed]) :: lines rest := by
  induction bytes with
  | nil => rfl
  | cons byte bytes ih =>
    rw [List.mem_cons, not_or] at h
    rw [List.cons_append, lines, if_neg (Ne.symm h.1), ih h.2]
    rfl

theorem lines_of_not_mem {bytes : List UInt8} (h : lineFeed ∉ bytes) (hne : bytes ≠ []) :
    lines bytes = [bytes] := by
  induction bytes with
  | nil => exact absurd rfl hne
  | cons byte bytes ih =>
    rw [List.mem_cons, not_or] at h
    rw [lines, if_neg (Ne.symm h.1)]
    cases bytes with
    | nil => rfl
    | cons next bytes => rw [ih h.2 (List.cons_ne_nil _ _)]

/-- The bytes so far end with a line feed, or there are none. -/
def EndsLine (bytes : List UInt8) : Prop :=
  ∀ byte ∈ bytes.getLast?, byte = lineFeed

instance (bytes : List UInt8) : Decidable (EndsLine bytes) :=
  inferInstanceAs (Decidable (∀ byte ∈ bytes.getLast?, byte = lineFeed))

/-- Where a line has ended, what comes next is cut by itself. -/
theorem lines_append {bytes : List UInt8} (h : EndsLine bytes) (rest : List UInt8) :
    lines (bytes ++ rest) = lines bytes ++ lines rest := by
  induction bytes with
  | nil => rfl
  | cons byte bytes ih =>
    have hends : EndsLine bytes := fun last hlast =>
      h last (by rw [List.getLast?_cons, Option.mem_def.1 hlast]; rfl)
    rw [List.cons_append, lines, lines, ih hends]
    by_cases hfeed : byte = lineFeed
    · rw [if_pos hfeed, if_pos hfeed, List.cons_append]
    · -- the line goes on, so that the first line of what is left is the rest of it
      have hne : bytes ≠ [] := by
        rintro rfl
        exact hfeed (h byte rfl)
      obtain ⟨line, later, hlines⟩ := List.exists_cons_of_ne_nil fun hnone : lines bytes = [] =>
        hne (by rw [← flatten_lines bytes, hnone]; rfl)
      rw [if_neg hfeed, if_neg hfeed, hlines]
      rfl

/-! ## Text -/

theorem encode_injective {first second : String} (h : encode first = encode second) :
    first = second := by
  have hdecode := decode_encode first
  rw [h, decode_encode] at hdecode
  exact (Option.some.inj hdecode).symm

theorem encode_append (first second : String) :
    encode (first ++ second) = encode first ++ encode second := by
  simp [encode]

theorem encode_join (texts : List String) :
    encode (String.join texts) = texts.flatMap encode := by
  induction texts with
  | nil => rfl
  | cons text texts ih => rw [String.join_cons, encode_append, ih, List.flatMap_cons]

theorem encode_eq_flatMap (text : String) :
    encode text = text.toList.flatMap String.utf8EncodeChar := by
  rw [encode, String.toUTF8, ← String.utf8Encode_toList, List.utf8Encode]
  simp

/-- Of all characters only the line feed has the byte of a line feed in it. -/
theorem lineFeed_mem_utf8EncodeChar (c : Char) :
    lineFeed ∈ String.utf8EncodeChar c ↔ c = '\n' := by
  constructor
  · intro h
    -- the bytes of characters beyond ASCII are all above it
    have hcode : c.val.toNat = 10 := by
      simp only [String.utf8EncodeChar, lineFeed] at h
      split at h
      · simp only [List.mem_singleton, ← UInt8.toNat_inj, UInt8.toNat_ofNat'] at h
        have : (10 : UInt8).toNat = 10 := rfl
        omega
      · exfalso
        have : (10 : UInt8).toNat = 10 := rfl
        split at h
        · simp only [List.mem_cons, List.not_mem_nil, or_false, ← UInt8.toNat_inj,
            UInt8.toNat_ofNat'] at h
          omega
        · split at h <;> simp only [List.mem_cons, List.not_mem_nil, or_false, ← UInt8.toNat_inj,
            UInt8.toNat_ofNat'] at h <;> omega
    exact Char.ext (UInt32.toNat_inj.1 hcode)
  · rintro rfl
    decide

theorem lineFeed_mem_encode (text : String) : lineFeed ∈ encode text ↔ '\n' ∈ text.toList := by
  simp [encode_eq_flatMap, lineFeed_mem_utf8EncodeChar]

/-- A line of text is cut off, whatever comes next. -/
theorem lines_encode_append {run : String} (h : '\n' ∉ run.toList) (rest : List UInt8) :
    lines (encode (run ++ "\n") ++ rest) = encode (run ++ "\n") :: lines rest := by
  have hfeed : encode "\n" = [lineFeed] := rfl
  rw [encode_append, hfeed, List.append_assoc]
  exact lines_append_feed (by rwa [lineFeed_mem_encode]) _

/-- The first line of a text is the text up to the first line feed. -/
theorem lines_encode_feed {run : String} (h : '\n' ∉ run.toList) (rest : String) :
    lines (encode (run ++ "\n" ++ rest)) = encode (run ++ "\n") :: lines (encode rest) := by
  rw [encode_append]
  exact lines_encode_append h _

/-- A text without a line feed is one line, unless it is empty. -/
theorem lines_encode_last {run : String} (h : '\n' ∉ run.toList) (hne : run ≠ "") :
    lines (encode run) = [encode run] := by
  apply lines_of_not_mem (by rwa [lineFeed_mem_encode])
  intro hempty
  exact hne (encode_injective (hempty.trans rfl))

/-! ## Induction -/

/-- A list is empty, or a last run without the item that ends runs, or it goes on after a run. -/
@[elab_as_elim]
theorem run_induction {α : Type} [DecidableEq α] (feed : α) {motive : List α → Prop}
    (empty : motive []) (last : ∀ run : List α, feed ∉ run → run ≠ [] → motive run)
    (line : ∀ run rest : List α, feed ∉ run → motive rest → motive (run ++ feed :: rest))
    (items : List α) : motive items := by
  -- induction on the length: a run takes an unknown number of items at once
  induction hlength : items.length using Nat.strong_induction_on generalizing items with
  | _ length ih =>
  by_cases hfeed : feed ∈ items
  · obtain ⟨run, rest, rfl, hrun⟩ := List.eq_append_cons_of_mem hfeed
    have hshorter : rest.length < length := by
      rw [← hlength, List.length_append, List.length_cons]
      omega
    exact line run rest hrun (ih rest.length hshorter rest rfl)
  · by_cases hempty : items = []
    · rwa [hempty]
    · exact last items hfeed hempty

/-- Every text is empty, or a last line without a line feed, or it goes on after a line. -/
@[elab_as_elim]
theorem line_induction {motive : String → Prop} (empty : motive "")
    (last : ∀ run : String, '\n' ∉ run.toList → run ≠ "" → motive run)
    (line : ∀ run rest : String, '\n' ∉ run.toList → motive rest → motive (run ++ "\n" ++ rest))
    (text : String) : motive text := by
  suffices h : ∀ chars : List Char, motive (String.ofList chars) by
    simpa using h text.toList
  intro chars
  induction chars using run_induction '\n' with
  | empty => exact empty
  | last run hfeed hne => exact last _ (by simpa using hfeed) (by simpa using hne)
  | line run rest hfeed ih =>
    have hline : String.ofList (run ++ '\n' :: rest) =
        String.ofList run ++ "\n" ++ String.ofList rest := by
      rw [← String.toList_inj]
      simp
    rw [hline]
    exact line _ _ (by simpa using hfeed) ih

end Macaque

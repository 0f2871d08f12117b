import Macaque.Proofs.Messages
import Macaque.Proofs.Sessions

/-!
# Texts and their decoration

An escape sequence is an introducer, a bracket, parameters and a final letter. What is left when all
sequences are taken out of a decorated text is the text that was decorated, whatever is written
before and behind it, provided that the text itself neither has sequences nor begins one that what
follows could complete.

## Architecture

- **Sequences**: `bare` takes them out, from left to right
- **Decoration**: `Text.Decorates` says what is left of a text, whatever comes behind it; texts one
  after the other can therefore be looked at one by one (`Decorates.append`)
- **Sources of texts**: a text without an introducer is left as it is (`Inert.decorates`), and so is
  a stray introducer between apostrophes (`Notice.About.decorates`)
-/

namespace Macaque

namespace Text

/-! ## Sequences -/

/-- The character that an escape sequence starts with -/
def introducer : Char := '\x1b'

/-- Parameters are numbers with semicolons between them -/
def isParameter (c : Char) : Bool :=
  isDigit c || c = ';'

/-- What comes behind a sequence, if the text behind an introducer makes one -/
def afterSequence? : List Char → Option (List Char)
  | '[' :: rest =>
    match rest.dropWhile isParameter with
    | 'm' :: later => some later
    | _ => none
  | _ => none

theorem length_afterSequence? {text later : List Char} (h : afterSequence? text = some later) :
    later.length < text.length := by
  unfold afterSequence? at h
  split at h
  · next rest =>
    split at h
    · next hdrop =>
      obtain rfl := Option.some.inj h
      have hle := (List.dropWhile_suffix isParameter (l := rest)).length_le
      rw [hdrop] at hle
      simp only [List.length_cons] at hle ⊢
      omega
    · cases h
  · cases h

/-- A text with all sequences taken out -/
def bare : List Char → List Char
  | [] => []
  | c :: rest =>
    if c = introducer then
      match _hlater : afterSequence? rest with
      | some later => bare later
      | none => c :: bare rest
    else c :: bare rest
termination_by text => text.length
decreasing_by
  all_goals simp only [List.length_cons]
  · exact Nat.lt_succ_of_lt (length_afterSequence? _hlater)
  · omega
  · omega

theorem bare_of_ne {c : Char} (h : c ≠ introducer) (rest : List Char) :
    bare (c :: rest) = c :: bare rest := by
  rw [bare, if_neg h]

theorem bare_of_none {rest : List Char} (h : afterSequence? rest = none) :
    bare (introducer :: rest) = introducer :: bare rest := by
  rw [bare, if_pos rfl]
  split
  · next hsome => simp [h] at hsome
  · rfl

theorem bare_of_some {rest later : List Char} (h : afterSequence? rest = some later) :
    bare (introducer :: rest) = bare later := by
  rw [bare, if_pos rfl]
  split
  · next hsome => rw [Option.some.inj (hsome.symm.trans h)]
  · next hnone => simp [h] at hnone

/-- A sequence is taken out. -/
theorem bare_sequence {parameters : List Char} (h : ∀ c ∈ parameters, isParameter c)
    (rest : List Char) :
    bare (introducer :: '[' :: (parameters ++ 'm' :: rest)) = bare rest := by
  apply bare_of_some
  -- the final letter is no parameter, so that the parameters end in front of it
  have hdrop : (parameters ++ 'm' :: rest).dropWhile isParameter = 'm' :: rest := by
    rw [List.dropWhile_append_of_pos h]
    rfl
  simp only [afterSequence?, hdrop]

/-! ## Decoration -/

/-- A text with all sequences taken out -/
def undecorated (text : String) : String :=
  String.ofList (bare text.toList)

/-- The first text is the second one and sequences, and does not have a sequence begin that could
end behind it -/
def Decorates (shown plain : String) : Prop :=
  ∀ rest : List Char, bare (shown.toList ++ rest) = plain.toList ++ bare rest

/-- A text without introducers -/
abbrev Inert (text : String) : Prop :=
  Lacks introducer text

theorem Inert.decorates {text : String} (h : Inert text) : Decorates text text := by
  intro rest
  -- induction on the characters in front of the rest, none of which is an introducer
  unfold Inert Lacks at h
  generalize text.toList = characters at h
  induction characters with
  | nil => rfl
  | cons c later ih =>
    rw [List.mem_cons, not_or] at h
    rw [List.cons_append, bare_of_ne (Ne.symm h.1), ih h.2, List.cons_append]

theorem Decorates.append {shown plain shown' plain' : String} (h : Decorates shown plain)
    (h' : Decorates shown' plain') : Decorates (shown ++ shown') (plain ++ plain') := by
  intro rest
  rw [String.toList_append, String.toList_append, List.append_assoc, h, h', List.append_assoc]

theorem Decorates.undecorated_eq {shown plain : String} (h : Decorates shown plain) :
    undecorated shown = plain := by
  have hall := h []
  rw [List.append_nil, bare, List.append_nil] at hall
  rw [undecorated, hall, String.ofList_toList]

theorem decorates_sequence {parameters : String} (h : parameters.toList.all isParameter) :
    Decorates (sequence parameters) "" := by
  intro rest
  have hopening : "\x1b[".toList = [introducer, '['] := by decide
  have htext : (sequence parameters).toList ++ rest =
      introducer :: '[' :: (parameters.toList ++ 'm' :: rest) := by
    rw [sequence, String.toList_append, String.toList_append, hopening]
    simp
  rw [htext, bare_sequence (List.all_eq_true.1 h)]
  rfl

theorem Hue.decorates_start (hue : Hue) : Decorates hue.start "" :=
  decorates_sequence (by cases hue <;> decide)

section Paint

variable (hue : Hue) (coloured : Bool) {text : String}

theorem Hue.decorates_paintIf (h : Inert text) : Decorates (hue.paintIf coloured text) text := by
  cases coloured with
  | false => exact h.decorates
  | true =>
    have hreset : Decorates (sequence "39") "" := decorates_sequence (by decide)
    have hpainted := (hue.decorates_start.append h.decorates).append hreset
    rwa [String.empty_append, String.append_empty] at hpainted

theorem Hue.decorates_paintBoldIf (h : Inert text) :
    Decorates (hue.paintBoldIf coloured text) text := by
  cases coloured with
  | false => exact h.decorates
  | true =>
    have hbold : Decorates (sequence "1") "" := decorates_sequence (by decide)
    have hreset : Decorates (sequence "0") "" := decorates_sequence (by decide)
    have hpainted := ((hue.decorates_start.append hbold).append h.decorates).append hreset
    rwa [String.empty_append, String.empty_append, String.append_empty] at hpainted

end Paint

/-- A character between apostrophes is left as it is, also if it is an introducer. -/
theorem decorates_apostrophes (c : Char) :
    Decorates ("'" ++ String.ofList [c] ++ "'") ("'" ++ String.ofList [c] ++ "'") := by
  intro rest
  have happostrophe (rest : List Char) : bare ('\'' :: rest) = '\'' :: bare rest :=
    bare_of_ne (by decide) rest
  have htext : ("'" ++ String.ofList [c] ++ "'").toList = ['\'', c, '\''] := by
    simp
  rw [htext]
  show bare ('\'' :: c :: '\'' :: rest) = '\'' :: c :: '\'' :: bare rest
  rw [happostrophe]
  -- behind an introducer a sequence goes on with a bracket, and not with an apostrophe
  by_cases hc : c = introducer
  · rw [hc, bare_of_none rfl, happostrophe]
  · rw [bare_of_ne hc, happostrophe]

end Text

open Text

theorem Graphic.inert {text : String} (h : Graphic text) : Inert text :=
  h.lacks (by decide)

/-! ## Tokens and notices -/

theorem Token.decorates_entry (coloured : Bool) (token : Token) :
    Decorates (token.entry coloured) (token.entry false) := by
  have hlabel : Inert (padRight 9 token.kind.label) :=
    (graphic_padRight 9 token.kind.graphic_label).inert
  have hliteral : Inert (quoted token.literal) := (graphic_quoted token.literal).inert
  have hspace : Inert " " := by decide
  have hpainted (hue : Hue) :
      Decorates (hue.paintIf coloured (padRight 9 token.kind.label) ++ " " ++ quoted token.literal)
        (padRight 9 token.kind.label ++ " " ++ quoted token.literal) :=
    ((hue.decorates_paintIf coloured hlabel).append hspace.decorates).append hliteral.decorates
  unfold entry
  split
  · exact ((Hue.decorates_paintBoldIf _ coloured hlabel).append hspace.decorates).append
      (Hue.decorates_paintIf _ coloured hliteral)
  · split
    · exact hpainted .magenta
    · exact hpainted .cyan

theorem Token.decorates_row (coloured : Bool) (token : Token) :
    Decorates (token.row coloured) (token.row false) := by
  have hline : Inert (padLeft 4 (toString token.location.line)) :=
    (graphic_padLeft 4 (graphic_toString _)).inert
  have hcolumn : Inert (padRight 3 (toString token.location.column)) :=
    (graphic_padRight 3 (graphic_toString _)).inert
  have hplace : Inert (padLeft 4 (toString token.location.line) ++ ":" ++
      padRight 3 (toString token.location.column) ++ " ") :=
    ((hline.append (by decide)).append hcolumn).append (by decide)
  exact hplace.decorates.append (token.decorates_entry coloured)

/-- The message of a notice about a text is left as it is, though it may repeat an introducer that
the text has. -/
theorem Notice.About.decorates {source : String} {notice : Notice} (h : notice.About source) :
    Decorates notice.message notice.message := by
  by_cases hinert : Inert notice.message
  · exact hinert.decorates
  · obtain ⟨token, hmem, rfl, hnot, hliteral⟩ :=
      (h.mem_message (not_not.1 hinert)).resolve_left (by decide)
    -- an introducer is no text of a token but of an illegal one, and there it is all of the text
    have hillegal : token.kind = .illegal := by
      by_contra hlegal
      exact absurd ((spelledBy_of_mem_tokens hmem hnot).graphic hlegal _ hliteral) (by decide)
    have hdescribe : token.describe = "'" ++ String.ofList [token.character] ++ "'" := by
      rw [Token.describe, hillegal, literal_of_illegal hmem hillegal]
    have hopening : Inert "skipping " := by decide
    have hplace : Inert (" at " ++ token.location.render) :=
      Lacks.append (by decide) token.location.graphic_render.inert
    have hclosing : Inert ": not a statement" := by decide
    have hmessage := ((hopening.decorates.append (decorates_apostrophes token.character)).append
      hplace.decorates).append hclosing.decorates
    rw [← hdescribe, ← String.append_assoc] at hmessage
    exact hmessage

end Macaque

import Macaque.Report.Notice

/-!
# Reading tokens

A cursor stands in a source text and reads one token at a time. Reading never fails: a character
outside the alphabet makes a token of its own and leaves a notice. Once the cursor has reached the
end it stays there, and every further token is the one that stands for the end.

## Definitions

- `Cursor`: what is left to read, and where that starts
- `Cursor.next`: the next token; `Cursor.next?` gives none at the end
- `Cursor.steps`: the steps up to the end of the text
- `Cursor.toEnd`: the tokens up to the end, which comes last; `Cursor.beforeEnd` leaves it out

## Main statements

- `Cursor.length_next`: a token takes at least one character of what is left
-/

namespace Macaque

/-- A place in a source text from which tokens are read -/
structure Cursor where
  /-- What is left to read -/
  rest : List Char
  /-- Where what is left starts -/
  location : Location := .start
deriving DecidableEq

namespace Cursor

def ofText (source : String) : Cursor :=
  { rest := source.toList }

def drop (count : Nat) (cursor : Cursor) : Cursor :=
  { rest := cursor.rest.drop count, location := cursor.location.after (cursor.rest.take count) }

/-- The cursor after the blanks in front of it -/
def skipBlanks (cursor : Cursor) : Cursor :=
  { rest := cursor.rest.dropWhile isBlank,
    location := cursor.location.after (cursor.rest.takeWhile isBlank) }

/-! ## One token -/

/-- The next token: the longest lexeme after the blanks, or the end -/
def next (cursor : Cursor) : Step Cursor Token :=
  let here := cursor.skipBlanks
  match here.rest with
  | [] => .stay here (.endAt here.location)
  | c :: rest =>
    -- the mark is not passed: from here on every token is the end
    if c = endMark then .stay here (.endAt here.location)
    else
      let lexeme := Lexeme.longest c rest
      { value := lexeme.token here.location,
        notices := lexeme.notices here.location,
        state := here.drop lexeme.chars.length }

/-- The next token, or none when that is the end -/
def next? (cursor : Cursor) : Step Cursor (Option Token) :=
  cursor.next.map fun token => if token.isEnd then none else some token

theorem length_skipBlanks_le (cursor : Cursor) :
    cursor.skipBlanks.rest.length ≤ cursor.rest.length :=
  (List.dropWhile_sublist _).length_le

/-- A token takes at least one character of what is left, and the end takes none. -/
theorem length_next (cursor : Cursor) :
    cursor.next.state.rest.length + (!cursor.next.value.isEnd).toNat ≤ cursor.rest.length := by
  have hblank := cursor.length_skipBlanks_le
  simp only [next]
  generalize cursor.skipBlanks = here at hblank
  obtain ⟨text, location⟩ := here
  cases text with
  | nil => simp [Step.stay, Token.isEnd, Token.endAt]
  | cons c rest =>
    dsimp only at hblank ⊢
    split
    · simpa [Step.stay, Token.isEnd, Token.endAt] using hblank
    · have hpos := List.length_pos_iff.2 (Lexeme.chars_longest_ne_nil c rest)
      have := Bool.toNat_le (!((Lexeme.longest c rest).token location).isEnd)
      simp only [drop, List.length_drop, List.length_cons] at hblank ⊢
      omega

theorem length_next_lt {cursor : Cursor} (h : cursor.next.value.isEnd = false) :
    cursor.next.state.rest.length < cursor.rest.length := by
  simpa [h, Nat.succ_le_iff] using cursor.length_next

/-! ## All tokens -/

/-- The steps up to the end of the text; the last one, and only that, reads the end -/
def steps (cursor : Cursor) : List (Step Cursor Token) :=
  let step := cursor.next
  if step.value.isEnd then [step] else step :: step.state.steps
termination_by cursor.rest.length
decreasing_by exact length_next_lt (Bool.eq_false_iff.2 ‹_›)

theorem steps_of_isEnd {cursor : Cursor} (h : cursor.next.value.isEnd = true) :
    cursor.steps = [cursor.next] := by
  rw [steps]
  exact if_pos h

theorem steps_of_not_isEnd {cursor : Cursor} (h : cursor.next.value.isEnd = false) :
    cursor.steps = cursor.next :: cursor.next.state.steps := by
  rw [steps]
  exact if_neg (Bool.eq_false_iff.1 h)

/-- There is always a step: the end is read even from an empty text. -/
theorem steps_ne_nil (cursor : Cursor) : cursor.steps ≠ [] := by
  cases h : cursor.next.value.isEnd with
  | true => simp [steps_of_isEnd h]
  | false => simp [steps_of_not_isEnd h]

/-- The tokens up to the end, and the token that stands for it -/
def toEnd (cursor : Cursor) : Step Cursor (List Token) :=
  let steps := cursor.steps
  { value := steps.map (·.value),
    notices := steps.flatMap (·.notices),
    state := (steps.getLast?.map (·.state)).getD cursor }

theorem toEnd_ne_nil (cursor : Cursor) : cursor.toEnd.value ≠ [] := by
  simpa [toEnd] using cursor.steps_ne_nil

theorem toEnd_of_isEnd {cursor : Cursor} (h : cursor.next.value.isEnd = true) :
    cursor.toEnd.value = [cursor.next.value] := by
  simp [toEnd, steps_of_isEnd h]

theorem toEnd_of_not_isEnd {cursor : Cursor} (h : cursor.next.value.isEnd = false) :
    cursor.toEnd.value = cursor.next.value :: cursor.next.state.toEnd.value := by
  simp [toEnd, steps_of_not_isEnd h]

/-- The tokens up to the end, without the token that stands for it -/
def beforeEnd (cursor : Cursor) : Step Cursor (List Token) :=
  cursor.toEnd.map List.dropLast

end Cursor

/-- The tokens of a source text; the last one stands for its end -/
def tokens (source : String) : List Token :=
  (Cursor.ofText source).toEnd.value

theorem tokens_ne_nil (source : String) : tokens source ≠ [] :=
  Cursor.toEnd_ne_nil _

end Macaque

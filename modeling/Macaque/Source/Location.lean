/-!
# Source locations

Lines and columns of a source text, both counted from one. Every character takes one column, tabs
and carriage returns included; only a line feed ends a line.
-/

namespace Macaque

/-- A place in a source text -/
structure Location where
  line : Nat := 1
  column : Nat := 1
deriving DecidableEq

namespace Location

/-- Where every source text starts -/
def start : Location := {}

/-- The place just after a character that stands at `location` -/
def advance (location : Location) (c : Char) : Location :=
  if c = '\n' then ⟨location.line + 1, 1⟩ else ⟨location.line, location.column + 1⟩

/-- The place just after a text that starts at `location` -/
def after (location : Location) (text : List Char) : Location :=
  text.foldl advance location

/-- Line and column, with a colon between them -/
def render (location : Location) : String :=
  toString location.line ++ ":" ++ toString location.column

@[simp] theorem after_nil (location : Location) : location.after [] = location := rfl

@[simp] theorem after_cons (location : Location) (c : Char) (text : List Char) :
    location.after (c :: text) = (location.advance c).after text := rfl

theorem after_append (location : Location) (first second : List Char) :
    location.after (first ++ second) = (location.after first).after second :=
  List.foldl_append

/-- Without a line feed the line stays the same. -/
theorem line_after {text : List Char} (location : Location) (h : '\n' ∉ text) :
    (location.after text).line = location.line := by
  induction text generalizing location with
  | nil => rfl
  | cons c text ih =>
    rw [List.mem_cons, not_or] at h
    rw [after_cons, ih _ h.2, advance, if_neg (Ne.symm h.1)]

theorem after_feed (location : Location) {text : List Char} (h : '\n' ∉ text) :
    location.after (text ++ ['\n']) = ⟨location.line + 1, 1⟩ := by
  rw [after_append, ← line_after location h]
  rfl

end Location

end Macaque

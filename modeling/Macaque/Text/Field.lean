/-!
# Fields of a fixed width

A field cuts a text that is over its limit and pads one that is under its width. Text that is wider
than the width but within the limit stays whole: a width never cuts.
-/

namespace Macaque.Text

/-- Where a text stands in a field that is wider than it -/
inductive Alignment where
  | left
  | right
  /-- In the middle, one place to the left of it when the padding is odd -/
  | center
deriving DecidableEq

/-- The shape of a field; widths and limits count characters -/
structure Field where
  /-- Least number of characters written -/
  width : Nat
  alignment : Alignment := .left
  fill : Char := ' '
  /-- Greatest number of characters of the text that are kept -/
  limit : Option Nat := none

namespace Field

/-- The part of a text that the field keeps -/
def cut (field : Field) (text : List Char) : List Char :=
  match field.limit with
  | none => text
  | some most => text.take most

/-- How much of `gap` places of padding goes to the left of the text -/
def lead (field : Field) (gap : Nat) : Nat :=
  match field.alignment with
  | .left => 0
  | .right => gap
  | .center => gap / 2

/-- A text cut, then padded on both sides -/
def place (field : Field) (text : List Char) : List Char :=
  let kept := field.cut text
  let gap := field.width - kept.length
  List.replicate (field.lead gap) field.fill ++ kept ++
    List.replicate (gap - field.lead gap) field.fill

/-- A text as the field shows it -/
def render (field : Field) (text : String) : String :=
  String.ofList (field.place text.toList)

end Field

def padRight (width : Nat) (text : String) : String :=
  Field.render { width } text

/-- A text padded to the left up to a width -/
def padLeft (width : Nat) (text : String) : String :=
  Field.render { width, alignment := .right } text

end Macaque.Text

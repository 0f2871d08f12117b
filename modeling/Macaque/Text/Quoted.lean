import Macaque.Text.Printable

/-!
# Quoted text

Text between quotation marks, on one line and without anything that cannot be seen: what would
disturb the reader is written as an escape.

## Definitions

- `escape`: one character as it stands between two quotation marks
- `enclose`: a text between two quotation marks
- `quoted`, `quotedChar`: the two forms in use, `"..."` for texts and a single-quoted character
-/

namespace Macaque.Text

/-- The letter of a two-character escape, for the characters that have one -/
def escapeLetter? (c : Char) : Option Char :=
  if c = '\x00' then some '0'
  else if c = '\t' then some 't'
  else if c = '\r' then some 'r'
  else if c = '\n' then some 'n'
  else if c = '\\' then some '\\'
  else none

/-- The escape by code point, in lower-case hexadecimal digits without leading zeros -/
def codePointEscape (c : Char) : List Char :=
  ['\\', 'u', '\x7b'] ++ Nat.toDigits 16 c.toNat ++ ['\x7d']

/-- One character as it stands between two marks `quote`: the mark itself takes a backslash, and a
character that is not printable is written by a letter or by its code point -/
def escape (quote c : Char) : List Char :=
  match escapeLetter? c with
  | some letter => ['\\', letter]
  | none =>
    if c = quote then ['\\', c]
    else if isPrintable c then [c]
    else codePointEscape c

/-- A text between two marks `quote` -/
def enclose (quote : Char) (text : List Char) : List Char :=
  quote :: text.flatMap (escape quote) ++ [quote]

/-- A text between double quotation marks -/
def quoted (text : String) : String :=
  String.ofList (enclose '\x22' text.toList)

/-- A character between single quotation marks -/
def quotedChar (c : Char) : String :=
  String.ofList (enclose '\x27' [c])

end Macaque.Text

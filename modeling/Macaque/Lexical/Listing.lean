import Macaque.Lexical.Token
import Macaque.Text.Field
import Macaque.Text.Quoted
import Macaque.Text.Style

/-!
# Listing tokens

A token on one line: the name of its kind in a column of nine characters, and its literal in
quotation marks. Colours tell apart what is illegal, what is reserved, and the rest.
-/

namespace Macaque

namespace Token

/-- A token on one line -/
def entry (coloured : Bool) (token : Token) : String :=
  let label := Text.padRight 9 token.kind.label
  let literal := Text.quoted token.literal
  if token.kind = .illegal then
    Text.Hue.red.paintBoldIf coloured label ++ " " ++ Text.Hue.red.paintIf coloured literal
  else if token.kind.isKeyword then Text.Hue.magenta.paintIf coloured label ++ " " ++ literal
  else Text.Hue.cyan.paintIf coloured label ++ " " ++ literal

/-- A token on one line with its place in front; longer numbers push the rest to the right -/
def row (coloured : Bool) (token : Token) : String :=
  Text.padLeft 4 (toString token.location.line) ++ ":" ++
    Text.padRight 3 (toString token.location.column) ++ " " ++ token.entry coloured

end Token

end Macaque

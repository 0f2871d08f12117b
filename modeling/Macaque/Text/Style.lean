/-!
# Coloured text

Terminal colours as escape sequences: the sequence that sets a colour, the text, and the sequence
that takes the colour back.
-/

namespace Macaque.Text

inductive Hue where
  | red
  | green
  | yellow
  | magenta
  | cyan
  | grey
deriving DecidableEq

/-- Index of a colour in the terminal's palette -/
def Hue.index : Hue → Nat
  | .red => 9
  | .green => 10
  | .yellow => 11
  | .magenta => 13
  | .cyan => 14
  | .grey => 8

/-- An escape sequence of the terminal: introducer, parameters, final letter -/
def sequence (parameters : String) : String :=
  "\x1b[" ++ parameters ++ "m"

def Hue.start (hue : Hue) : String :=
  sequence ("38;5;" ++ toString hue.index)

/-- A text in a colour; the foreground is given back after it -/
def Hue.paint (hue : Hue) (text : String) : String :=
  hue.start ++ text ++ sequence "39"

/-- A text in a colour and in bold; every attribute is given back after it -/
def Hue.paintBold (hue : Hue) (text : String) : String :=
  hue.start ++ sequence "1" ++ text ++ sequence "0"

/-- A text in a colour where colours are wanted, and as it is elsewhere -/
def Hue.paintIf (hue : Hue) (coloured : Bool) (text : String) : String :=
  if coloured then hue.paint text else text

/-- A text in bold and in a colour where colours are wanted, and as it is elsewhere -/
def Hue.paintBoldIf (hue : Hue) (coloured : Bool) (text : String) : String :=
  if coloured then hue.paintBold text else text

end Macaque.Text

import Macaque.Lexical.Lexeme
import Macaque.Source.Location

/-!
# Tokens

A token is a lexeme together with the place where it starts. The end of a source text is a token of
its own, so that a list of tokens says where the text ended.
-/

namespace Macaque

/-- A classified piece of source text -/
structure Token where
  /-- What the token is -/
  kind : Kind
  /-- The text of the token, as the source has it -/
  literal : String
  location : Location
deriving DecidableEq

namespace Token

def endAt (location : Location) : Token :=
  { kind := .endOfText, literal := String.ofList [endMark], location }

def isEnd (token : Token) : Bool :=
  token.kind = .endOfText

/-- A token in words, for messages -/
def describe (token : Token) : String :=
  match token.kind with
  | .endOfText => "end of file"
  | .identifier => "identifier '" ++ token.literal ++ "'"
  | .integer => "int literal " ++ token.literal
  | _ => "'" ++ token.literal ++ "'"

end Token

/-- The token that a lexeme makes at the place where it starts -/
def Lexeme.token (lexeme : Lexeme) (location : Location) : Token :=
  { kind := lexeme.kind, literal := lexeme.text, location }

/-- No lexeme makes the token that stands for the end. -/
theorem Lexeme.kind_ne_endOfText (lexeme : Lexeme) : lexeme.kind ≠ .endOfText := by
  cases lexeme with
  | word letters => simp only [Lexeme.kind, Kind.ofWord]; split <;> simp
  | _ => simp [Lexeme.kind]

end Macaque

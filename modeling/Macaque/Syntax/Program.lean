import Macaque.Lexical.Token

/-!
# Programs

A program is a list of statements. Of the language's statements two are known, `let` and `return`;
of its expressions, names.

## Definitions

- `Name`, `Expression`, `Statement`, `Program`: the syntax
- `render`, for each of them: the source text that it stands for
- `leadLiteral`, for each of them: the literal of the token that it starts with
-/

namespace Macaque

/-! ## Names and expressions -/

/-- A name and the token that it was read from -/
structure Name where
  token : Token
  text : String
deriving DecidableEq

namespace Name

/-- The name that a token spells -/
def ofToken (token : Token) : Name :=
  { token, text := token.literal }

def leadLiteral (name : Name) : String :=
  name.token.literal

def render (name : Name) : String :=
  name.text

end Name

/-- What a statement may compute -/
inductive Expression where
  /-- The value that a name has -/
  | name (name : Name)
deriving DecidableEq

namespace Expression

def leadLiteral : Expression → String
  | name n => n.leadLiteral

def render : Expression → String
  | name n => n.render

end Expression

/-! ## Statements -/

/-- A statement; its value may be left out -/
inductive Statement where
  /-- Gives a value a name -/
  | letting (token : Token) (name : Name) (value : Option Expression)
  /-- Ends with a value -/
  | returning (token : Token) (value : Option Expression)
deriving DecidableEq

namespace Statement

def token : Statement → Token
  | letting token _ _ => token
  | returning token _ => token

def value : Statement → Option Expression
  | letting _ _ value => value
  | returning _ value => value

def leadLiteral (statement : Statement) : String :=
  statement.token.literal

/-- The value of a statement as source text, empty where it is left out -/
def renderValue (value : Option Expression) : String :=
  match value with
  | some expression => expression.render
  | none => ""

/-- A statement as source text -/
def render : Statement → String
  | letting token name value =>
    token.literal ++ " " ++ name.render ++ " = " ++ renderValue value ++ ";"
  | returning token value => token.literal ++ " " ++ renderValue value ++ ";"

end Statement

/-! ## Programs -/

/-- The statements of a source text, in order -/
structure Program where
  statements : List Statement
deriving DecidableEq

namespace Program

def size (program : Program) : Nat :=
  program.statements.length

def isEmpty (program : Program) : Bool :=
  program.statements.isEmpty

/-- The literal of the token that a program starts with; the empty text for an empty program -/
def leadLiteral (program : Program) : String :=
  match program.statements with
  | [] => ""
  | first :: _ => first.leadLiteral

/-- A program as source text, each statement on a line of its own -/
def render (program : Program) : String :=
  String.join (program.statements.map fun statement => statement.render ++ "\n")

end Program

end Macaque

/-!
# Kinds of token

## Definitions

- `Symbol`: operators and delimiters, each with the one way it is spelled
- `Keyword`: reserved words, each with its spelling and its label
- `Kind`: what a token is, and `Kind.label`, the name under which it is shown
- `Kind.ofWord`: a word is a keyword when it is reserved, and an identifier otherwise
-/

namespace Macaque

/-! ## Operators and delimiters -/

inductive Symbol where
  | assign
  | plus
  | minus
  | bang
  | asterisk
  | slash
  | percent
  | less
  | greater
  | equal
  | notEqual
  | comma
  | semicolon
  | openParen
  | closeParen
  | openBrace
  | closeBrace
deriving DecidableEq

namespace Symbol

def chars : Symbol → List Char
  | assign => ['=']
  | plus => ['+']
  | minus => ['-']
  | bang => ['!']
  | asterisk => ['*']
  | slash => ['/']
  | percent => ['%']
  | less => ['<']
  | greater => ['>']
  | equal => ['=', '=']
  | notEqual => ['!', '=']
  | comma => [',']
  | semicolon => [';']
  | openParen => ['(']
  | closeParen => [')']
  | openBrace => ['\x7b']
  | closeBrace => ['\x7d']

def spelling (symbol : Symbol) : String :=
  String.ofList symbol.chars

def all : List Symbol :=
  [assign, plus, minus, bang, asterisk, slash, percent, less, greater, equal, notEqual, comma,
   semicolon, openParen, closeParen, openBrace, closeBrace]

/-- The symbol that one character spells -/
def ofChar? (c : Char) : Option Symbol :=
  all.find? (fun symbol => symbol.chars = [c])

/-- The symbol that takes the place of this one when an equals sign follows at once -/
def withEquals? : Symbol → Option Symbol
  | assign => some equal
  | bang => some notEqual
  | _ => none

end Symbol

/-! ## Reserved words -/

inductive Keyword where
  | fnWord
  | letWord
  | returnWord
  | trueWord
  | falseWord
  | ifWord
  | elseWord
deriving DecidableEq

namespace Keyword

/-- The reserved words, in the order in which they are looked up -/
def all : List Keyword :=
  [fnWord, letWord, returnWord, trueWord, falseWord, ifWord, elseWord]

def spelling : Keyword → String
  | fnWord => "fn"
  | letWord => "let"
  | returnWord => "return"
  | trueWord => "true"
  | falseWord => "false"
  | ifWord => "if"
  | elseWord => "else"

/-- The name under which a reserved word is shown -/
def label : Keyword → String
  | fnWord => "FUNCTION"
  | letWord => "LET"
  | returnWord => "RETURN"
  | trueWord => "TRUE"
  | falseWord => "FALSE"
  | ifWord => "IF"
  | elseWord => "ELSE"

/-- The reserved word with this text; upper and lower case differ -/
def ofText? (text : String) : Option Keyword :=
  all.find? (fun keyword => keyword.spelling = text)

end Keyword

/-! ## Kinds -/

/-- What a token is -/
inductive Kind where
  /-- A character outside the alphabet of the language -/
  | illegal
  /-- The end of the source text -/
  | endOfText
  | identifier
  | integer
  | symbol (symbol : Symbol)
  | keyword (keyword : Keyword)
deriving DecidableEq

namespace Kind

/-- The name under which a kind is shown -/
def label : Kind → String
  | illegal => "ILLEGAL"
  | endOfText => "EOF"
  | identifier => "IDENT"
  | integer => "INT"
  | symbol s => s.spelling
  | keyword w => w.label

def isKeyword : Kind → Bool
  | keyword _ => true
  | _ => false

/-- The kind of a word -/
def ofWord (word : String) : Kind :=
  match Keyword.ofText? word with
  | some w => keyword w
  | none => identifier

end Kind

end Macaque

import Macaque.Lexical.Token

/-!
# Diagnostics

What is wrong with a source text, and where.
-/

namespace Macaque

inductive Complaint where
  /-- The next token is not of the one kind that may stand there -/
  | unexpected (expected found : Kind)
  /-- A complaint in words of its own -/
  | remark (text : String)
deriving DecidableEq

/-- A complaint in words -/
def Complaint.message : Complaint → String
  | unexpected expected found =>
    "expected next token to be " ++ expected.label ++ ", got " ++ found.label
  | remark text => text

/-- A complaint and the place that it is about -/
structure Diagnostic where
  complaint : Complaint
  location : Location
deriving DecidableEq

namespace Diagnostic

/-- The complaint about a token that is found where only the kind `expected` may stand -/
def unexpected (expected : Kind) (found : Token) : Diagnostic :=
  { complaint := .unexpected expected found.kind, location := found.location }

def message (diagnostic : Diagnostic) : String :=
  diagnostic.complaint.message

/-- A diagnostic on one line, the place first -/
def render (diagnostic : Diagnostic) : String :=
  "Parse error at line " ++ toString diagnostic.location.line ++ ", column " ++
    toString diagnostic.location.column ++ ": " ++ diagnostic.message

end Diagnostic

end Macaque

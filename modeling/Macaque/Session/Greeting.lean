/-!
# The greeting

A session opens with a greeting to its user and a picture of the language's name.
-/

namespace Macaque.Session

/-- The name that a user is greeted by, from the two variables that may hold it: the second counts
only if the first is not set, and an empty name is no name -/
def userName (user username : Option String) : String :=
  match user.or username with
  | none => "there"
  | some name => if name = "" then "there" else name

/-- The language's name as a picture -/
def picture : String :=
  "@@@@@@@@@@@@@@@@@@@@@@@@@@@@@@@@@@@@@@@@@@@@@@@@@@\n" ++
  "@@@  @@@@@  @@@@      @@@@  @@@@  @@@  @@@@  @@@@@\n" ++
  "@@@   @@@   @@@  @@@@  @@@   @@@  @@@  @@@  @@@@@@\n" ++
  "@@@  @ @ @  @@@  @@@@  @@@  @ @@  @@@     @@@@@@@@\n" ++
  "@@@  @@ @@  @@@  @@@@  @@@  @@ @  @@@  @@@  @@@@@@\n" ++
  "@@@  @@@@@  @@@@      @@@@  @@@@  @@@  @@@@  @@@@@\n" ++
  "@@@@@@@@@@@@@@@@@@@@@@@@@@@@@@@@@@@@@@@@@@@@@@@@@@\n"

/-- The greeting to a user -/
def greeting (name : String) : String :=
  "Hello " ++ name ++ "! Welcome to the Monkey REPL.\n\n" ++ picture

end Macaque.Session

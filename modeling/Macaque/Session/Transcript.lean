import Macaque.Lexical.Cursor
import Macaque.Lexical.Listing
import Macaque.Report.Failure
import Macaque.Source.Lines

/-!
# Sessions

In a session every line that is entered is answered by a list of its tokens. A prompt stands before
each line, and the prompt that finds the input at its end is followed by an empty line.

## Definitions

- `Chunk`: a piece of output and the notices that go before it
- `answers`: the chunks that answer one line
- `Transcript`, `transcript`: everything that a session writes, and how it ends
-/

namespace Macaque.Session

/-- A piece of output, and the notices that are left behind just before it is written -/
structure Chunk where
  /-- What is passed over while the text is made -/
  notices : List Notice
  text : String
deriving DecidableEq

/-- What invites the next line -/
def prompt (coloured : Bool) : Chunk :=
  { notices := [], text := Text.Hue.green.paintIf coloured ">> " }

/-- What is written when there are no more lines -/
def farewell : Chunk :=
  { notices := [], text := "\n" }

/-- The chunk that shows a token -/
def answer (coloured : Bool) (step : Step Cursor Token) : Chunk :=
  { notices := step.notices, text := step.value.entry coloured ++ "\n" }

/-- The chunks that answer a line of text: its tokens, each on a line of its own, without the end -/
def answers (coloured : Bool) (line : String) : List Chunk :=
  (Cursor.ofText line).steps.dropLast.map (answer coloured)

/-- The chunks that answer a line of bytes, if they are text -/
def reply (coloured : Bool) (line : List UInt8) : Except Failure (List Chunk) :=
  match decode line with
  | some text => .ok (answers coloured text)
  | none => .error .undecodable

/-- Everything that a session writes, and the failure that it ends with, if it does -/
structure Transcript where
  /-- What is written, in order -/
  chunks : List Chunk
  /-- What went wrong -/
  failure : Option Failure
deriving DecidableEq

/-- The transcript of a session in which these lines are entered -/
def ofLines (coloured : Bool) : List (List UInt8) → Transcript
  | [] => { chunks := [prompt coloured, farewell], failure := none }
  | line :: later =>
    match reply coloured line with
    | .error failure => { chunks := [prompt coloured], failure := some failure }
    | .ok chunks =>
      let rest := ofLines coloured later
      { rest with chunks := prompt coloured :: chunks ++ rest.chunks }

/-- The transcript of a session with this input -/
def transcript (coloured : Bool) (input : List UInt8) : Transcript :=
  ofLines coloured (lines input)

end Macaque.Session

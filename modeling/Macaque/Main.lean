import Macaque.Command.Run

/-!
# The program

Hands the command what it sees, and writes what the command answers. A session is written line by
line, so that each answer comes before the next line is read.
-/

namespace Macaque.Main

open Command

/-- Writes a piece of text to its channel -/
def emit (emission : Emission) : IO Unit := do
  let stream ← match emission.channel with
    | .output => IO.getStdout
    | .messages => IO.getStderr
  stream.putStr emission.text
  stream.flush

/-- Writes an outcome and returns its exit status -/
def finish (outcome : Outcome) : IO UInt32 := do
  outcome.emissions.forM emit
  return outcome.status.toUInt32

/-! ## Failures of the system -/

/-- What the system reports, if an error comes from there -/
def systemFailure? : IO.Error → Option SystemFailure
  | .unexpectedEof | .userError _ => none
  | .otherError code details | .resourceBusy code details | .resourceVanished code details
  | .unsupportedOperation code details | .hardwareFault code details
  | .unsatisfiedConstraints code details | .illegalOperation code details
  | .protocolError code details | .timeExpired code details | .alreadyExists _ code details
  | .interrupted _ code details | .noFileOrDirectory _ code details
  | .invalidArgument _ code details | .permissionDenied _ code details
  | .resourceExhausted _ code details | .inappropriateType _ code details
  | .noSuchThing _ code details => some { number := code.toNat, message := details }

/-- Does what may fail, and keeps a failure of the system as a value -/
def attempt {α : Type} (action : IO α) : IO (Except SystemFailure α) := do
  match ← action.toBaseIO with
  | .ok value => return .ok value
  | .error error =>
    match systemFailure? error with
    | some failure => return .error failure
    | none => throw error

/-! ## Sessions -/

/-- The bytes of the next line of the input, none at its end -/
partial def readLine (input : IO.FS.Stream) (line : Array UInt8) : IO (List UInt8) := do
  let byte ← input.read 1
  match byte.data[0]? with
  | none => return line.toList
  | some b => if b = lineFeed then return (line.push b).toList else readLine input (line.push b)

/-- Answers the lines of the input one by one -/
partial def converse (options : Options) (input : IO.FS.Stream) : IO UInt32 := do
  (chunkEmissions options (Session.prompt options.coloured)).forM emit
  match ← attempt (readLine input #[]) with
  | .error failure => finish (giveUp (.system failure))
  | .ok [] =>
    (chunkEmissions options Session.farewell).forM emit
    return 0
  | .ok line =>
    match Session.reply options.coloured line with
    | .error failure => finish (giveUp failure)
    | .ok chunks =>
      (chunks.flatMap (chunkEmissions options)).forM emit
      converse options input

/-! ## Files -/

/-- What a path leads to; where nothing can be read, it counts whether something is there -/
def look (path : String) : IO Entry := do
  match ← attempt (IO.FS.readBinFile path) with
  | .ok content => return .file content.data.toList
  | .error failure =>
    match ← attempt (IO.FS.realPath path) with
    | .ok _ => return .unreadable failure
    | .error _ => return .missing

/-- The path that is read, if the arguments name one -/
def pathOf (arguments : List String) : Option String :=
  match Options.ofArguments arguments with
  | .ok { mode := .check path, .. } => some path
  | .ok { mode := .list path, .. } => some path
  | _ => none

end Macaque.Main

open Macaque Macaque.Command Macaque.Main in
/-- The program `monkey` -/
def main (arguments : List String) : IO UInt32 := do
  let terminal ← (← IO.getStdout).isTty
  let user ← IO.getEnv "USER"
  let username ← IO.getEnv "USERNAME"
  match Options.ofArguments arguments with
  | .ok { mode := .session, coloured, verbose } =>
    emit { channel := .output, text := Session.greeting (Session.userName user username) }
    Main.converse { verbose, coloured := coloured && terminal } (← IO.getStdin)
  | _ =>
    let entry ← match pathOf arguments with
      | some path => look path
      | none => pure .missing
    finish (run { program := "monkey", arguments, entry := fun _ => entry, input := [],
                  user, username, terminal })

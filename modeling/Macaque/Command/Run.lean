import Macaque.Command.Options
import Macaque.Session.Greeting
import Macaque.Session.Transcript
import Macaque.Syntax.Parse

/-!
# What the command does

The command as a function of everything that it can see: its arguments, the files, its input, the
user's name, and whether its output goes to a terminal. What it writes is a list of pieces, each for
the output or for the messages, in the order in which they are written.

## Definitions

- `Setting`: what the command can see
- `Emission`, `Outcome`: what it writes, and the status that it ends with
- `check`, `list`, `converse`: the three modes
- `run`: the command
-/

namespace Macaque.Command

/-! ## What is seen and what is written -/

/-- What a path leads to -/
inductive Entry where
  | missing
  /-- Something that is there, but that the system fails to read -/
  | unreadable (failure : SystemFailure)
  /-- A file with this content -/
  | file (content : List UInt8)
deriving DecidableEq

/-- What the path of a directory leads to: it is there, and cannot be read as a file -/
def Entry.directory : Entry :=
  .unreadable .directory

/-- Everything that the command can see -/
structure Setting where
  program : String
  arguments : List String
  /-- What each path leads to -/
  entry : String → Entry
  input : List UInt8
  /-- The variable that holds the user's name -/
  user : Option String
  /-- The variable that is looked at if `user` is not set -/
  username : Option String
  /-- Whether the output goes to a terminal -/
  terminal : Bool

/-- Where something is written -/
inductive Channel where
  /-- What the command is run for -/
  | output
  /-- Messages to whoever runs it -/
  | messages
deriving DecidableEq

/-- A piece of text that is written -/
structure Emission where
  channel : Channel
  text : String
deriving DecidableEq

def outLine (text : String) : Emission :=
  { channel := .output, text := text ++ "\n" }

def messageLine (text : String) : Emission :=
  { channel := .messages, text := text ++ "\n" }

/-- What the command has written in the end, and its exit status -/
structure Outcome where
  emissions : List Emission
  status : Nat
deriving DecidableEq

/-- All that was written to a channel -/
def Outcome.written (channel : Channel) (outcome : Outcome) : String :=
  String.join ((outcome.emissions.filter fun emission => emission.channel = channel).map (·.text))

/-- An outcome with more written before it -/
def Outcome.precededBy (emissions : List Emission) (outcome : Outcome) : Outcome :=
  { outcome with emissions := emissions ++ outcome.emissions }

def giveUp (failure : Failure) : Outcome :=
  { emissions := [messageLine ("Error: " ++ failure.render)], status := 1 }

/-! ## Notices among the messages -/

def levelHue : Level → Text.Hue
  | .warn => .yellow
  | .debug => .grey

def reportLine (coloured : Bool) (notice : Notice) : Emission :=
  let label := Text.padRight 5 notice.level.label
  messageLine ("[" ++ (levelHue notice.level).paintIf coloured label ++ "] " ++ notice.message)

/-- The lines that report some notices, those that the options ask for -/
def report (options : Options) (notices : List Notice) : List Emission :=
  (notices.filter fun notice => options.reports notice.level).map (reportLine options.coloured)

/-! ## The three modes -/

/-- The lines about a diagnostic of the file `path` -/
def diagnosticLines (coloured : Bool) (path : String) (diagnostic : Diagnostic) : List Emission :=
  [messageLine (Text.Hue.red.paintBoldIf coloured "error" ++ ": " ++ diagnostic.message),
   messageLine ("  --> " ++ path ++ ":" ++ diagnostic.location.render)]

/-- The last lines about a program that was read from the file `path`, and the exit status -/
def verdict (coloured : Bool) (path : String) (parse : Parse) : Outcome :=
  if parse.hasDiagnostics then
    { emissions :=
        parse.diagnostics.flatMap (diagnosticLines coloured path) ++
          [messageLine ("Parsing failed with " ++ toString parse.diagnostics.length ++
            " error(s); " ++ toString parse.program.size ++ " statement(s) recovered.")],
      status := 1 }
  else
    { emissions :=
        [messageLine ("Parsed successfully. Found " ++ toString parse.program.size ++
          " top-level statements.")],
      status := 0 }

/-- Reads the file `path` as a program and writes its statements -/
def check (options : Options) (path source : String) : Outcome :=
  let step := parse source
  -- the whole text is read, and its notices reported, before the first statement is written
  (verdict options.coloured path step.value).precededBy
    (messageLine ("Parsing " ++ path ++ "...") :: report options step.notices ++
      step.value.program.statements.map fun statement => outLine statement.render)

def list (options : Options) (source : String) : Outcome :=
  let step := (Cursor.ofText source).toEnd
  let illegal := step.value.countP fun token => token.kind = .illegal
  let count :=
    if illegal = 0 then []
    else [messageLine ("Found " ++ toString illegal ++ " illegal token(s).")]
  { emissions :=
      report options step.notices ++
        step.value.map (fun token => outLine (token.row options.coloured)) ++ count,
    status := if illegal = 0 then 0 else 1 }

/-- What is written for a chunk of a session: its notices, then its text -/
def chunkEmissions (options : Options) (chunk : Session.Chunk) : List Emission :=
  report options chunk.notices ++ [{ channel := .output, text := chunk.text }]

def converse (options : Options) (user : String) (input : List UInt8) : Outcome :=
  let transcript := Session.transcript options.coloured input
  let ending : Outcome :=
    match transcript.failure with
    | none => { emissions := [], status := 0 }
    | some failure => giveUp failure
  ending.precededBy
    ({ channel := .output, text := Session.greeting user } ::
      transcript.chunks.flatMap (chunkEmissions options))

/-! ## The command -/

/-- Answers arguments that are not accepted; a request for help is no error -/
def refuse (program : String) (refusal : Refusal) : Outcome :=
  match refusal with
  | .helpRequested => { emissions := [outLine (usage program)], status := 0 }
  | _ =>
    { emissions :=
        [messageLine ("Error: " ++ refusal.message), messageLine "", messageLine (usage program)],
      status := 2 }

/-- Goes on with the text of the file at a path, if there is one -/
def withSource (path : String) (entry : Entry) (next : String → Outcome) : Outcome :=
  match entry with
  | .missing =>
    { emissions := [messageLine ("Error: File '" ++ path ++ "' not found")], status := 1 }
  | .unreadable failure => giveUp (.system failure)
  | .file content =>
    match decode content with
    | none => giveUp .undecodable
    | some source => next source

/-- What the options ask for where they are followed; colours are only for terminals -/
def perform (setting : Setting) (options : Options) : Outcome :=
  let options := { options with coloured := options.coloured && setting.terminal }
  match options.mode with
  | .session =>
    converse options (Session.userName setting.user setting.username) setting.input
  | .check path => withSource path (setting.entry path) (check options path)
  | .list path => withSource path (setting.entry path) (list options)

def run (setting : Setting) : Outcome :=
  match Options.ofArguments setting.arguments with
  | .error refusal => refuse setting.program refusal
  | .ok options => perform setting options

end Macaque.Command

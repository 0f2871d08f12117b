import Macaque.Report.Notice

/-!
# Options of the command line

The arguments are read from left to right, and the first one that cannot be accepted decides. An
argument that starts with a hyphen is a flag, unless it is nothing but that hyphen; any other is the
name of the file to read, of which there is at most one.

## Definitions

- `Options`: what the arguments ask for
- `Refusal`: why they are not accepted
- `Options.ofArguments`: reads the arguments
- `usage`: the text that explains them
-/

namespace Macaque.Command

/-- What is to be done -/
inductive Mode where
  /-- Answer each line of the input by its tokens -/
  | session
  /-- Read a file as a program -/
  | check (path : String)
  /-- List the tokens of a file -/
  | list (path : String)
deriving DecidableEq

/-- What the arguments ask for; nothing, a session without further ado -/
structure Options where
  mode : Mode := .session
  /-- Whether the decisions of the reader are reported -/
  verbose : Bool := false
  /-- Whether colours are used where they can be shown -/
  coloured : Bool := true
deriving DecidableEq

/-- Whether the options are those of a command without arguments -/
def Options.isDefault (options : Options) : Bool :=
  options = ({} : Options)

/-- The least level of the notices that are reported: decisions of the reader only on request -/
def Options.level (options : Options) : Level :=
  if options.verbose then .debug else .warn

/-- Whether a notice of the level `level` is reported -/
def Options.reports (options : Options) (level : Level) : Bool :=
  match options.level with
  | .debug => true
  | .warn => level = .warn

/-- Why arguments are not accepted -/
inductive Refusal where
  /-- The usage is asked for, and nothing else is done -/
  | helpRequested
  /-- There is no such flag -/
  | unknownFlag (flag : String)
  | unexpectedArgument (argument : String)
  /-- A list of tokens is asked for without a file -/
  | missingFile
deriving DecidableEq

namespace Refusal

/-- The argument that is refused, where it is one argument's fault -/
def argument? : Refusal → Option String
  | unknownFlag flag => some flag
  | unexpectedArgument argument => some argument
  | _ => none

def message : Refusal → String
  | helpRequested => "help requested"
  | unknownFlag flag => "Unknown option '" ++ flag ++ "'"
  | unexpectedArgument argument =>
    "Unexpected argument '" ++ argument ++ "': only one input file is accepted"
  | missingFile => "--tokens requires an input file"

end Refusal

/-! ## Arguments -/

/-- What a single argument says -/
inductive Argument where
  | help
  | verbose
  | plain
  | tokens
  /-- Any other flag -/
  | unknown (flag : String)
  | file (path : String)
deriving DecidableEq

def Argument.ofText (text : String) : Argument :=
  if text = "-h" ∨ text = "--help" then help
  else if text = "-v" ∨ text = "--verbose" then verbose
  else if text = "--no-color" then plain
  else if text = "--tokens" then tokens
  else if text.toList.head? = some '-' ∧ text ≠ "-" then unknown text
  else file text

/-- What the arguments so far have asked for -/
structure Request where
  file : Option String := none
  tokens : Bool := false
  verbose : Bool := false
  coloured : Bool := true
deriving DecidableEq

namespace Request

def add (request : Request) (argument : String) : Except Refusal Request :=
  match Argument.ofText argument with
  | .help => .error .helpRequested
  | .verbose => .ok { request with verbose := true }
  | .plain => .ok { request with coloured := false }
  | .tokens => .ok { request with tokens := true }
  | .unknown flag => .error (.unknownFlag flag)
  | .file path =>
    match request.file with
    | none => .ok { request with file := some path }
    | some _ => .error (.unexpectedArgument path)

def mode (request : Request) : Except Refusal Mode :=
  match request.file, request.tokens with
  | some path, true => .ok (.list path)
  | some path, false => .ok (.check path)
  | none, true => .error .missingFile
  | none, false => .ok .session

def options (request : Request) : Except Refusal Options :=
  request.mode.map fun mode =>
    { mode, verbose := request.verbose, coloured := request.coloured }

end Request

/-- What the arguments ask for -/
def Options.ofArguments (arguments : List String) : Except Refusal Options :=
  (arguments.foldlM Request.add {}).bind Request.options

/-! ## Usage -/

/-- How the program called `program` is used -/
def usage (program : String) : String :=
  "Usage: " ++ program ++ " [OPTIONS] [FILE]\n" ++
  "\n" ++
  "With no FILE, starts a REPL that prints the tokens of each line.\n" ++
  "\n" ++
  "Options:\n" ++
  "  --tokens      Print the token stream of FILE instead of parsing it\n" ++
  "  -v, --verbose Log parser decisions to stderr\n" ++
  "  --no-color    Disable coloured output\n" ++
  "  -h, --help    Show this message"

end Macaque.Command

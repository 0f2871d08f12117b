import Macaque.Text.Quoted

/-!
# Failures

What keeps a program from reading its input or from writing its output. A failure that the system
reports comes with a number and with words for it; what kind of failure it is follows from the
number alone.

## Definitions

- `SystemFailure`: what the system reports, with its kind `SystemFailure.code`
- `Failure`: all that can go wrong, and how it is told (`Failure.render`)
-/

namespace Macaque

/-! ## What the system reports -/

/-- A failure that the system reports -/
structure SystemFailure where
  /-- The number that the system gives the failure -/
  number : Nat
  /-- The words that the system has for it -/
  message : String
deriving DecidableEq

namespace SystemFailure

/-- The numbers whose failures are of a kind of their own, with those kinds -/
def codes : List (Nat × String) :=
  [(1, "PermissionDenied"), (2, "NotFound"), (4, "Interrupted"), (7, "ArgumentListTooLong"),
   (11, "WouldBlock"), (12, "OutOfMemory"), (13, "PermissionDenied"), (16, "ResourceBusy"),
   (17, "AlreadyExists"), (18, "CrossesDevices"), (20, "NotADirectory"), (21, "IsADirectory"),
   (22, "InvalidInput"), (26, "ExecutableFileBusy"), (27, "FileTooLarge"), (28, "StorageFull"),
   (29, "NotSeekable"), (30, "ReadOnlyFilesystem"), (31, "TooManyLinks"), (32, "BrokenPipe"),
   (35, "Deadlock"), (36, "InvalidFilename"), (38, "Unsupported"), (39, "DirectoryNotEmpty"),
   (40, "FilesystemLoop"), (95, "Unsupported"), (98, "AddrInUse"), (99, "AddrNotAvailable"),
   (100, "NetworkDown"), (101, "NetworkUnreachable"), (103, "ConnectionAborted"),
   (104, "ConnectionReset"), (107, "NotConnected"), (110, "TimedOut"), (111, "ConnectionRefused"),
   (113, "HostUnreachable"), (115, "InProgress"), (116, "StaleNetworkFileHandle"),
   (122, "QuotaExceeded")]

/-- The kind of the failure, in one word -/
def code (failure : SystemFailure) : String :=
  (codes.lookup failure.number).getD "Uncategorized"

/-- What the system reports when a directory is read as if it were a file -/
def directory : SystemFailure :=
  { number := 21, message := "Is a directory" }

end SystemFailure

/-! ## What can go wrong -/

/-- What can go wrong between a program and the world -/
inductive Failure where
  /-- The input is not text -/
  | undecodable
  /-- The output takes no more bytes -/
  | sinkFull
  /-- The system does not do what it is asked for -/
  | system (failure : SystemFailure)
deriving DecidableEq

namespace Failure

/-- The kind of a failure, in one word -/
def code : Failure → String
  | undecodable => "InvalidData"
  | sinkFull => "WriteZero"
  | system failure => failure.code

def message : Failure → String
  | undecodable => "stream did not contain valid UTF-8"
  | sinkFull => "failed to write whole buffer"
  | system failure => failure.message

/-- Where a failure comes from; what the system reports has a number -/
def origin : Failure → String
  | system failure => "Os \x7b code: " ++ toString failure.number ++ ", "
  | _ => "Error \x7b "

/-- A failure with all its details, on one line -/
def render (failure : Failure) : String :=
  failure.origin ++ "kind: " ++ failure.code ++ ", message: " ++ Text.quoted failure.message ++
    " \x7d"

end Failure

end Macaque

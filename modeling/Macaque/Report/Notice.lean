import Macaque.Report.Diagnostic
import Macaque.Text.Quoted

/-!
# Notices

Remarks that reading a source text leaves behind, beside its result. They say what was passed over,
in the order in which it happened.

## Definitions

- `Notice`: a character outside the alphabet, a token that begins no statement, a statement given up
- `Step`: the outcome of one step of a reader, its notices included
- `Step.followedBy`, `Step.andThen`, `Step.onSuccess`: steps one after the other
-/

namespace Macaque

/-! ## Notices -/

/-- How much a notice matters -/
inductive Level where
  /-- The source text is at fault -/
  | warn
  /-- A decision of the reader, of interest to those who want to follow it -/
  | debug
deriving DecidableEq

def Level.label : Level → String
  | warn => "WARN"
  | debug => "DEBUG"

/-- A remark about something that was passed over -/
inductive Notice where
  /-- A character outside the alphabet of the language -/
  | stray (c : Char) (location : Location)
  /-- A token that begins no statement -/
  | skipped (token : Token)
  /-- A statement that was given up -/
  | dropped (diagnostic : Diagnostic)
deriving DecidableEq

namespace Notice

def level : Notice → Level
  | stray _ _ => .warn
  | skipped _ => .debug
  | dropped _ => .debug

def message : Notice → String
  | stray c location =>
    "illegal character " ++ Text.quotedChar c ++ " at " ++ location.render
  | skipped token =>
    "skipping " ++ token.describe ++ " at " ++ token.location.render ++ ": not a statement"
  | dropped diagnostic => "dropping statement: " ++ diagnostic.render

end Notice

/-- The notices about a lexeme that is read at `location` -/
def Lexeme.notices (lexeme : Lexeme) (location : Location) : List Notice :=
  match lexeme with
  | stray c => [.stray c location]
  | _ => []

/-! ## Steps -/

/-- The outcome of one step of a reader with states `σ` -/
structure Step (σ α : Type) where
  /-- What was read -/
  value : α
  /-- What was passed over, in order -/
  notices : List Notice
  /-- The reader after the step -/
  state : σ

namespace Step

/-- The step that reads nothing and stays where it is -/
def stay {σ α : Type} (state : σ) (value : α) : Step σ α :=
  { value, notices := [], state }

def map {σ α β : Type} (f : α → β) (step : Step σ α) : Step σ β :=
  { value := f step.value, notices := step.notices, state := step.state }

/-- One step and the step made after it; the notices of the first come first -/
def followedBy {σ τ α β : Type} (step : Step σ α) (later : Step τ β) : Step τ β :=
  { value := later.value, notices := step.notices ++ later.notices, state := later.state }

/-- One step and the step that its outcome leads to -/
def andThen {σ α β : Type} (step : Step σ α) (next : α → σ → Step σ β) : Step σ β :=
  step.followedBy (next step.value step.state)

/-- One step and, unless it failed, the step that follows it -/
def onSuccess {σ ε α β : Type} (step : Step σ (Except ε α))
    (next : α → σ → Step σ (Except ε β)) : Step σ (Except ε β) :=
  step.andThen fun
    | .ok value, state => next value state
    | .error failure, state => stay state (.error failure)

variable {σ τ ε α β : Type}

@[simp] theorem stay_value (state : σ) (value : α) : (stay state value).value = value := rfl

@[simp] theorem stay_notices (state : σ) (value : α) :
    (stay state value).notices = [] := rfl

@[simp] theorem stay_state (state : σ) (value : α) : (stay state value).state = state := rfl

@[simp] theorem map_value (f : α → β) (step : Step σ α) :
    (step.map f).value = f step.value := rfl

@[simp] theorem map_notices (f : α → β) (step : Step σ α) :
    (step.map f).notices = step.notices := rfl

@[simp] theorem map_state (f : α → β) (step : Step σ α) : (step.map f).state = step.state := rfl

@[simp] theorem followedBy_value (step : Step σ α) (later : Step τ β) :
    (step.followedBy later).value = later.value := rfl

@[simp] theorem followedBy_notices (step : Step σ α) (later : Step τ β) :
    (step.followedBy later).notices = step.notices ++ later.notices := rfl

@[simp] theorem followedBy_state (step : Step σ α) (later : Step τ β) :
    (step.followedBy later).state = later.state := rfl

theorem onSuccess_of_ok {step : Step σ (Except ε α)} {value : α} (h : step.value = .ok value)
    (next : α → σ → Step σ (Except ε β)) :
    step.onSuccess next = step.followedBy (next value step.state) := by
  simp [onSuccess, andThen, h]

theorem onSuccess_of_error {step : Step σ (Except ε α)} {failure : ε}
    (h : step.value = .error failure) (next : α → σ → Step σ (Except ε β)) :
    step.onSuccess next = step.followedBy (stay step.state (.error failure)) := by
  simp [onSuccess, andThen, h]

end Step

end Macaque

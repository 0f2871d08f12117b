import Macaque.Syntax.Program
import Macaque.Syntax.Window

/-!
# Reading programs

A program is read in one pass over the tokens. At each place where a statement may begin, one of
three things is found: a statement, a token that begins none, or a statement that breaks off. What
breaks off is reported and given up, and reading goes on at the next token, so that one pass finds
every fault. What stands between the equals sign of a `let`, or a `return`, and the semicolon is
passed over.

## Definitions

- `Window.statement`: the statement at the current token, if there is one
- `Finding`: what is found where a statement may begin
- `Window.findings`: what is found up to the end of the text
- `Parse`: the statements and the diagnostics among the findings
- `parse`: reads a source text

## Main statements

- `Window.size_advance_finding_lt`: every finding leaves less ahead
-/

namespace Macaque

namespace Window

/-! ## One statement -/

/-- A `let` statement that starts at the current token: a name and an equals sign must follow -/
def letStatement (window : Window) : Step Window (Except Diagnostic Statement) :=
  (window.expect .identifier).onSuccess fun _ named =>
    (named.expect (.symbol .assign)).onSuccess fun _ assigned =>
      assigned.skipToSemicolon.map fun _ =>
        .ok (.letting window.current (.ofToken named.current) none)

/-- Without a name the window stays where it is. -/
theorem letStatement_nameless (window : Window) (hname : window.ahead.kind ≠ .identifier) :
    window.letStatement = .stay window (.error (.unexpected .identifier window.ahead)) := by
  rw [letStatement, expect_of_ne hname, Step.onSuccess_of_error rfl]
  rfl

/-- Without an equals sign the window moves to the name. -/
theorem letStatement_unassigned (window : Window) (hname : window.ahead.kind = .identifier)
    (hsign : window.advance.state.ahead.kind ≠ .symbol .assign) :
    window.letStatement = window.advance.map fun _ =>
      .error (.unexpected (.symbol .assign) window.advance.state.ahead) := by
  rw [letStatement, expect_of_eq hname, Step.onSuccess_of_ok rfl, Step.map_state,
    expect_of_ne hsign, Step.onSuccess_of_error rfl]
  simp [Step.followedBy, Step.map, Step.stay]

/-- With a name and an equals sign the window moves on to the end of the statement. -/
theorem letStatement_letting (window : Window) (hname : window.ahead.kind = .identifier)
    (hsign : window.advance.state.ahead.kind = .symbol .assign) :
    window.letStatement =
      let named := window.advance
      let assigned := named.state.advance
      named.followedBy (assigned.followedBy (assigned.state.skipToSemicolon.map fun _ =>
        .ok (.letting window.current (.ofToken window.ahead) none))) := by
  rw [letStatement, expect_of_eq hname, Step.onSuccess_of_ok rfl, Step.map_state,
    expect_of_eq hsign, Step.onSuccess_of_ok rfl]
  rfl

/-- A `return` statement that starts at the current token; anything may follow -/
def returnStatement (window : Window) : Step Window (Except Diagnostic Statement) :=
  window.advance.andThen fun _ next =>
    next.skipToSemicolon.map fun _ => .ok (.returning window.current none)

/-- The statement at the current token, or none if that token begins no statement -/
def statement (window : Window) : Step Window (Except Diagnostic (Option Statement)) :=
  match window.current.kind with
  | .keyword .letWord => window.letStatement.map (Except.map some)
  | .keyword .returnWord => window.returnStatement.map (Except.map some)
  | _ => .stay window (.ok none)

theorem statement_of_letWord (window : Window)
    (h : window.current.kind = .keyword .letWord) :
    window.statement = window.letStatement.map (Except.map some) := by
  simp [statement, h]

theorem statement_of_returnWord (window : Window)
    (h : window.current.kind = .keyword .returnWord) :
    window.statement = window.returnStatement.map (Except.map some) := by
  simp [statement, h]

theorem statement_of_other (window : Window)
    (hlet : window.current.kind ≠ .keyword .letWord)
    (hreturn : window.current.kind ≠ .keyword .returnWord) :
    window.statement = .stay window (.ok none) := by
  unfold statement
  split
  · next h => exact absurd h hlet
  · next h => exact absurd h hreturn
  · rfl

end Window

/-! ## Findings -/

/-- What is found where a statement may begin -/
inductive Finding where
  | read (statement : Statement)
  /-- A token that begins no statement -/
  | skipped (token : Token)
  /-- A statement that breaks off -/
  | dropped (diagnostic : Diagnostic)
deriving DecidableEq

namespace Finding

/-- The finding that reading a statement at the token `current` amounts to -/
def ofStatement (current : Token) : Except Diagnostic (Option Statement) → Finding
  | .ok (some statement) => read statement
  | .ok none => skipped current
  | .error diagnostic => dropped diagnostic

def statement? : Finding → Option Statement
  | read statement => some statement
  | _ => none

def diagnostic? : Finding → Option Diagnostic
  | dropped diagnostic => some diagnostic
  | _ => none

/-- The notice that a finding leaves behind; statements leave none -/
def notices : Finding → List Notice
  | read _ => []
  | skipped token => [.skipped token]
  | dropped diagnostic => [.dropped diagnostic]

end Finding

namespace Window

def finding (window : Window) : Step Window Finding :=
  let step := window.statement
  let finding := Finding.ofStatement window.current step.value
  { value := finding, notices := step.notices ++ finding.notices, state := step.state }

@[simp] theorem finding_value (window : Window) :
    window.finding.value = Finding.ofStatement window.current window.statement.value := rfl

@[simp] theorem finding_state (window : Window) :
    window.finding.state = window.statement.state := rfl

/-- A statement that is not begun does not move the window; one that is begun leaves no more ahead
than one move would. -/
private theorem size_letStatement_le (window : Window) :
    window.letStatement.state = window ∨
      window.letStatement.state.size ≤ window.advance.state.size := by
  by_cases hname : window.ahead.kind = .identifier
  · right
    by_cases hsign : window.advance.state.ahead.kind = .symbol .assign
    · rw [window.letStatement_letting hname hsign]
      exact Nat.le_trans (size_skipToSemicolon_le _) (size_advance_le _)
    · rw [window.letStatement_unassigned hname hsign]
      exact Nat.le_refl _
  · left
    rw [window.letStatement_nameless hname]
    rfl

/-- Either reading a statement does not move the window, or it leaves no more ahead than one move
would. -/
theorem size_statement_le (window : Window) :
    window.statement.state = window ∨
      window.statement.state.size ≤ window.advance.state.size := by
  unfold statement
  split
  · exact window.size_letStatement_le
  · exact .inr (size_skipToSemicolon_le _)
  · exact .inl rfl

/-- With the move that follows it, every finding leaves less ahead. -/
theorem size_advance_finding_lt {window : Window} (h : window.current.isEnd = false) :
    window.finding.state.advance.state.size < window.size := by
  simp only [finding]
  rcases window.size_statement_le with hstay | hmove
  · rw [hstay]
    exact size_advance_lt h
  · calc
      _ ≤ window.statement.state.size := size_advance_le _
      _ ≤ window.advance.state.size := hmove
      _ < window.size := size_advance_lt h

/-- What is found from the current token up to the end of the text -/
def findings (window : Window) : Step Window (List Finding) :=
  if window.current.isEnd then .stay window []
  else
    let found := window.finding
    -- the token at which the finding ends is always passed, be it a semicolon or what was skipped
    let moved := found.state.advance
    found.followedBy (moved.followedBy (moved.state.findings.map (found.value :: ·)))
termination_by window.size
decreasing_by exact size_advance_finding_lt (Bool.eq_false_iff.2 ‹_›)

theorem findings_of_isEnd {window : Window} (h : window.current.isEnd = true) :
    window.findings = .stay window [] := by
  rw [findings]
  exact if_pos h

theorem findings_of_not_isEnd {window : Window} (h : window.current.isEnd = false) :
    window.findings = window.finding.followedBy (window.finding.state.advance.followedBy
      (window.finding.state.advance.state.findings.map (window.finding.value :: ·))) := by
  rw [findings]
  exact if_neg (Bool.eq_false_iff.1 h)

end Window

/-! ## Programs -/

/-- A program and everything that is wrong with the text that it was read from -/
structure Parse where
  program : Program
  /-- What is wrong, in the order of the text -/
  diagnostics : List Diagnostic
deriving DecidableEq

namespace Parse

/-- The statements and the diagnostics among some findings -/
def ofFindings (findings : List Finding) : Parse :=
  { program := { statements := findings.filterMap Finding.statement? },
    diagnostics := findings.filterMap Finding.diagnostic? }

def hasDiagnostics (parse : Parse) : Bool :=
  !parse.diagnostics.isEmpty

/-- The program, if nothing is wrong; all that is wrong, otherwise -/
def result (parse : Parse) : Except (List Diagnostic) Program :=
  if parse.hasDiagnostics then .error parse.diagnostics else .ok parse.program

end Parse

/-- Reads the rest of a text from a window on it -/
def Window.parse (window : Window) : Step Window Parse :=
  window.findings.map Parse.ofFindings

/-- Reads a source text -/
def parse (source : String) : Step Window Parse :=
  let opened := Window.ofCursor (.ofText source)
  opened.followedBy opened.value.parse

end Macaque

import Macaque.Proofs.Findings
import Macaque.Proofs.Stream
import Mathlib.Data.Nat.Basic

/-!
# What the operations of a window do

A window may be used in any way: its operations can be called one after the other at any token, in
the middle of a statement and at the end of the text as well. Whatever is called, the window shows
two neighbours of the endless stream of tokens, and it never goes back.

## Architecture

- **Moves**: what each operation answers at an index of a row of tokens, and to which index it goes
  on, said of the row alone (`LetMove`, `ReturnMove`, `StatementMove`, `Operation.Moves`)
- **Positions**: `Leads` says that a step takes the window from one index of a cursor's row to
  another and leaves the notices about the tokens read on the way; steps compose
  (`Leads.followedBy`)
- **Steps**: each operation makes its move (`exists_moves`)
- **Runs**: `operations_follow_stream`, by induction on the operations
-/

namespace Macaque

/-! ## Moves -/

/-- Whether a statement ends at a token -/
def Token.Closes (token : Token) : Prop :=
  token.kind = .symbol .semicolon ∨ token.kind = .endOfText

/-- The index `j` is the first one from `i` on at which a statement ends -/
structure FirstClosing (row : Nat → Token) (i j : Nat) : Prop where
  le : i ≤ j
  closes : (row j).Closes
  before : ∀ n, i ≤ n → n < j → ¬ (row n).Closes

/-- What comes of reading a `let` statement at the index `i`, and the index after it -/
inductive LetMove (row : Nat → Token) (i : Nat) : Except Diagnostic Statement → Nat → Prop where
  /-- Without a name nothing moves -/
  | nameless (hname : (row (i + 1)).kind ≠ .identifier) :
      LetMove row i (.error (.unexpected .identifier (row (i + 1)))) i
  /-- Without an equals sign only the name is passed -/
  | unassigned (hname : (row (i + 1)).kind = .identifier)
      (hsign : (row (i + 2)).kind ≠ .symbol .assign) :
      LetMove row i (.error (.unexpected (.symbol .assign) (row (i + 2)))) (i + 1)
  /-- The statement goes on up to the first semicolon or the end after the equals sign -/
  | letting {j : Nat} (hname : (row (i + 1)).kind = .identifier)
      (hsign : (row (i + 2)).kind = .symbol .assign) (hclosing : FirstClosing row (i + 3) j) :
      LetMove row i (.ok (.letting (row i) (.ofToken (row (i + 1))) none)) j

/-- What comes of reading a `return` statement at the index `i`, and the index after it -/
inductive ReturnMove (row : Nat → Token) (i : Nat) : Except Diagnostic Statement → Nat → Prop where
  /-- The statement goes on up to the first semicolon or the end after its first token -/
  | returning {j : Nat} (hclosing : FirstClosing row (i + 1) j) :
      ReturnMove row i (.ok (.returning (row i) none)) j

/-- What comes of reading any statement at the index `i`, and the index after it -/
inductive StatementMove (row : Nat → Token) (i : Nat) :
    Except Diagnostic (Option Statement) → Nat → Prop where
  | letting {result : Except Diagnostic Statement} {j : Nat}
      (hlet : (row i).kind = .keyword .letWord) (hmove : LetMove row i result j) :
      StatementMove row i (result.map some) j
  | returning {result : Except Diagnostic Statement} {j : Nat}
      (hreturn : (row i).kind = .keyword .returnWord) (hmove : ReturnMove row i result j) :
      StatementMove row i (result.map some) j
  /-- Where no statement begins, nothing moves -/
  | other (hlet : (row i).kind ≠ .keyword .letWord)
      (hreturn : (row i).kind ≠ .keyword .returnWord) :
      StatementMove row i (.ok none) i

/-- What can be asked of a window -/
inductive Operation where
  /-- Whether the current token is of a kind -/
  | currentIs (kind : Kind)
  /-- Whether the token ahead is of a kind -/
  | aheadIs (kind : Kind)
  | expect (kind : Kind)
  | statement
  | letStatement
  | returnStatement

namespace Operation

/-- What the answers to an operation are like -/
def Answer : Operation → Type
  | currentIs _ => Bool
  | aheadIs _ => Bool
  | expect _ => Except Diagnostic Unit
  | statement => Except Diagnostic (Option Statement)
  | letStatement => Except Diagnostic Statement
  | returnStatement => Except Diagnostic Statement

/-- An operation, carried out on a window -/
def step (window : Window) : (operation : Operation) → Step Window operation.Answer
  | currentIs kind => .stay window (decide (window.current.kind = kind))
  | aheadIs kind => .stay window (decide (window.ahead.kind = kind))
  | expect kind => window.expect kind
  | statement => window.statement
  | letStatement => window.letStatement
  | returnStatement => window.returnStatement

/-- What an operation answers at the index `i` of a row of tokens, and the index it goes on to -/
def Moves (row : Nat → Token) (i : Nat) :
    (operation : Operation) → operation.Answer → Nat → Prop
  | currentIs kind, answer, j => answer = decide ((row i).kind = kind) ∧ j = i
  | aheadIs kind, answer, j => answer = decide ((row (i + 1)).kind = kind) ∧ j = i
  | expect kind, answer, j =>
    ((row (i + 1)).kind = kind ∧ answer = .ok () ∧ j = i + 1) ∨
      ((row (i + 1)).kind ≠ kind ∧ answer = .error (.unexpected kind (row (i + 1))) ∧ j = i)
  | statement, answer, j => StatementMove row i answer j
  | letStatement, answer, j => LetMove row i answer j
  | returnStatement, answer, j => ReturnMove row i answer j

end Operation

section Moves

variable {row : Nat → Token} {i j : Nat}

theorem LetMove.le {result : Except Diagnostic Statement} (h : LetMove row i result j) : i ≤ j := by
  cases h with
  | nameless => exact Nat.le_refl i
  | unassigned => exact Nat.le_succ i
  | letting _ _ hclosing => exact Nat.le_of_add_right_le hclosing.le

theorem ReturnMove.le {result : Except Diagnostic Statement} (h : ReturnMove row i result j) :
    i ≤ j := by
  cases h with
  | returning hclosing => exact Nat.le_of_succ_le hclosing.le

theorem StatementMove.le {result : Except Diagnostic (Option Statement)}
    (h : StatementMove row i result j) : i ≤ j := by
  cases h with
  | letting _ hmove => exact hmove.le
  | returning _ hmove => exact hmove.le
  | other => exact Nat.le_refl i

/-- No operation goes back. -/
theorem Operation.Moves.le {operation : Operation} {answer : operation.Answer}
    (h : operation.Moves row i answer j) : i ≤ j := by
  cases operation with
  | currentIs kind => exact h.2.ge
  | aheadIs kind => exact h.2.ge
  | expect kind =>
    rcases h with ⟨_, _, rfl⟩ | ⟨_, _, rfl⟩
    · exact Nat.le_succ i
    · exact Nat.le_refl j
  | statement => exact StatementMove.le h
  | letStatement => exact LetMove.le h
  | returnStatement => exact ReturnMove.le h

end Moves

/-! ## Positions -/

theorem Window.notices_ofCursor (cursor : Cursor) :
    (ofCursor cursor).notices = (cursor.pass 2).notices := by
  simp [ofCursor, Step.andThen, Cursor.pass]

/-- The tokens that a cursor reads one after the other -/
def Cursor.row (cursor : Cursor) (n : Nat) : Token :=
  (cursor.pass n).state.next.value

theorem row_ofText (source : String) : (Cursor.ofText source).row = stream source :=
  funext (Cursor.next_pass_ofText source)

/-- The window on the tokens `n` and `n + 1` of a cursor's row -/
def Cursor.windowAt (cursor : Cursor) (n : Nat) : Window :=
  (cursor.pass n).state.window

/-- A step of a window that takes it from the index `n` of a cursor's row to the index `m`, with the
notices of the tokens that are read for it -/
structure Leads {α : Type} (cursor : Cursor) (n m : Nat) (step : Step Window α) : Prop where
  state : step.state = cursor.windowAt m
  notices : (cursor.pass (n + 2)).notices ++ step.notices = (cursor.pass (m + 2)).notices

namespace Leads

variable {α β : Type} {cursor : Cursor} {n m l : Nat}

theorem stay (value : α) : Leads cursor n n (.stay (cursor.windowAt n) value) :=
  ⟨rfl, List.append_nil _⟩

theorem map {step : Step Window α} (h : Leads cursor n m step) (f : α → β) :
    Leads cursor n m (step.map f) :=
  ⟨h.state, h.notices⟩

theorem followedBy {step : Step Window α} {later : Step Window β} (h : Leads cursor n m step)
    (hlater : Leads cursor m l later) : Leads cursor n l (step.followedBy later) := by
  refine ⟨hlater.state, ?_⟩
  rw [Step.followedBy_notices, ← List.append_assoc, h.notices, hlater.notices]

end Leads

namespace Cursor

variable (cursor : Cursor) (n : Nat)

@[simp] theorem windowAt_current : (cursor.windowAt n).current = cursor.row n := rfl

@[simp] theorem windowAt_ahead : (cursor.windowAt n).ahead = cursor.row (n + 1) := by
  rw [row, state_pass_succ]
  rfl

@[simp] theorem state_advance_windowAt :
    (cursor.windowAt n).advance.state = cursor.windowAt (n + 1) := by
  rw [windowAt, advance_window, ← state_pass_succ, windowAt]

/-- A move reads the token behind the two that the window shows. -/
theorem notices_advance_windowAt :
    (cursor.windowAt n).advance.notices = (cursor.pass (n + 2)).state.next.notices := by
  rw [state_pass_succ, state_pass_succ]
  exact List.append_nil _

theorem leads_advance : Leads cursor n (n + 1) (cursor.windowAt n).advance := by
  refine ⟨cursor.state_advance_windowAt n, ?_⟩
  rw [notices_advance_windowAt, ← notices_pass_succ]

/-! ## Steps -/

/-- Skipping to a semicolon ends at the first place from the current token on where a statement
ends. -/
theorem exists_skipToSemicolon : ∃ j, FirstClosing cursor.row n j ∧
    Leads cursor n j (cursor.windowAt n).skipToSemicolon := by
  generalize hwindow : cursor.windowAt n = window
  fun_induction Window.skipToSemicolon window generalizing n with
  | case1 window hsemicolon =>
    subst hwindow
    exact ⟨n, ⟨Nat.le_refl n, .inl hsemicolon, by omega⟩, .stay _⟩
  | case2 window _ hend =>
    subst hwindow
    exact ⟨n, ⟨Nat.le_refl n, .inr (of_decide_eq_true hend), by omega⟩, .stay _⟩
  | case3 window hsemicolon hend moved ih =>
    subst hwindow
    obtain ⟨j, hclosing, hleads⟩ := ih (n + 1) (cursor.state_advance_windowAt n).symm
    refine ⟨j, ⟨Nat.le_of_succ_le hclosing.le, hclosing.closes, fun k hle hlt => ?_⟩,
      (cursor.leads_advance n).followedBy hleads⟩
    rcases hle.eq_or_lt with rfl | hlater
    · -- the token that was passed is neither a semicolon nor the end
      rintro (hkind | hkind)
      · exact hsemicolon hkind
      · exact hend (decide_eq_true hkind)
    · exact hclosing.before k hlater hlt

theorem exists_letStatement : ∃ j, LetMove cursor.row n (cursor.windowAt n).letStatement.value j ∧
    Leads cursor n j (cursor.windowAt n).letStatement := by
  by_cases hname : (cursor.row (n + 1)).kind = .identifier
  · by_cases hsign : (cursor.row (n + 2)).kind = .symbol .assign
    · rw [(cursor.windowAt n).letStatement_letting (by simpa using hname) (by simpa using hsign),
        windowAt_ahead]
      obtain ⟨j, hclosing, hleads⟩ := cursor.exists_skipToSemicolon (n + 2)
      -- the sign itself ends no statement, so the search may as well begin behind it
      have hne : j ≠ n + 2 := by
        rintro rfl
        rcases hclosing.closes with hkind | hkind <;> simp [hsign] at hkind
      have hbehind : FirstClosing cursor.row (n + 3) j :=
        ⟨by have := hclosing.le; omega, hclosing.closes,
          fun k hle hlt => hclosing.before k (by omega) hlt⟩
      have hassigned := cursor.leads_advance (n + 1)
      rw [← state_advance_windowAt] at hassigned
      rw [← state_advance_windowAt, ← state_advance_windowAt] at hleads
      exact ⟨j, .letting hname hsign hbehind,
        (cursor.leads_advance n).followedBy (hassigned.followedBy (hleads.map _))⟩
    · rw [(cursor.windowAt n).letStatement_unassigned (by simpa using hname) (by simpa using hsign),
        state_advance_windowAt, windowAt_ahead]
      exact ⟨n + 1, .unassigned hname hsign, (cursor.leads_advance n).map _⟩
  · rw [(cursor.windowAt n).letStatement_nameless (by simpa using hname), windowAt_ahead]
    exact ⟨n, .nameless hname, .stay _⟩

theorem exists_returnStatement :
    ∃ j, ReturnMove cursor.row n (cursor.windowAt n).returnStatement.value j ∧
      Leads cursor n j (cursor.windowAt n).returnStatement := by
  obtain ⟨j, hclosing, hleads⟩ := cursor.exists_skipToSemicolon (n + 1)
  rw [← state_advance_windowAt] at hleads
  exact ⟨j, .returning hclosing, (cursor.leads_advance n).followedBy (hleads.map _)⟩

theorem exists_statement :
    ∃ j, StatementMove cursor.row n (cursor.windowAt n).statement.value j ∧
      Leads cursor n j (cursor.windowAt n).statement := by
  by_cases hlet : (cursor.row n).kind = .keyword .letWord
  · obtain ⟨j, hmove, hleads⟩ := cursor.exists_letStatement n
    rw [Window.statement_of_letWord _ hlet]
    exact ⟨j, .letting hlet hmove, hleads.map _⟩
  · by_cases hreturn : (cursor.row n).kind = .keyword .returnWord
    · obtain ⟨j, hmove, hleads⟩ := cursor.exists_returnStatement n
      rw [Window.statement_of_returnWord _ hreturn]
      exact ⟨j, .returning hreturn hmove, hleads.map _⟩
    · rw [Window.statement_of_other _ hlet hreturn]
      exact ⟨n, .other hlet hreturn, .stay _⟩

/-- Every operation makes its move. -/
theorem exists_moves (operation : Operation) :
    ∃ j, operation.Moves cursor.row n (operation.step (cursor.windowAt n)).value j ∧
      Leads cursor n j (operation.step (cursor.windowAt n)) := by
  cases operation with
  | currentIs kind => exact ⟨n, ⟨rfl, rfl⟩, .stay _⟩
  | aheadIs kind => exact ⟨n, ⟨by rw [Operation.step, windowAt_ahead]; rfl, rfl⟩, .stay _⟩
  | expect kind =>
    simp only [Operation.step]
    by_cases hkind : (cursor.row (n + 1)).kind = kind
    · rw [Window.expect_of_eq (by simpa using hkind)]
      exact ⟨n + 1, .inl ⟨hkind, rfl, rfl⟩, (cursor.leads_advance n).map _⟩
    · rw [Window.expect_of_ne (by simpa using hkind), windowAt_ahead]
      exact ⟨n, .inr ⟨hkind, rfl, rfl⟩, .stay _⟩
  | statement => exact cursor.exists_statement n
  | letStatement => exact cursor.exists_letStatement n
  | returnStatement => exact cursor.exists_returnStatement n

end Cursor

/-! ## Runs -/

/-- Throws away the first tokens of a source text and opens a window on what follows -/
def openBehind (source : String) (skipped : Nat) : Step Cursor Window :=
  let passed := (Cursor.ofText source).pass skipped
  passed.followedBy (Window.ofCursor passed.state)

/-- A window on the tokens `i` and `i + 1` of what follows the first tokens of a source text, where
nothing but the tokens read so far has left notices -/
structure Shows (source : String) (skipped i : Nat) (window : Window) (notices : List Notice) :
    Prop where
  current : window.current = stream source (skipped + i)
  ahead : window.ahead = stream source (skipped + (i + 1))
  notices : notices = strays ((List.range (skipped + i + 2)).map (stream source))

/-- Operations that are carried out on a window one after the other, starting at the index `i`:
after each of them the window shows two neighbours of the stream, the index being the one to which
the operation moves -/
inductive Follows (source : String) (skipped : Nat) :
    Nat → Window → List Notice → List Operation → Prop where
  | done {i : Nat} {window : Window} {notices : List Notice}
      (hshows : Shows source skipped i window notices) : Follows source skipped i window notices []
  | step {i j : Nat} {window : Window} {notices : List Notice} {operation : Operation}
      {later : List Operation} (hshows : Shows source skipped i window notices)
      (hmoves : operation.Moves (fun n => stream source (skipped + n)) i
        (operation.step window).value j)
      (hle : i ≤ j)
      (hlater : Follows source skipped j (operation.step window).state
        (notices ++ (operation.step window).notices) later) :
      Follows source skipped i window notices (operation :: later)

theorem row_pass (source : String) (skipped n : Nat) :
    ((Cursor.ofText source).pass skipped).state.row n = stream source (skipped + n) := by
  rw [← Cursor.next_pass_ofText, Cursor.pass_add, Step.followedBy_state, Cursor.row]

theorem shows_windowAt (source : String) (skipped i : Nat) :
    Shows source skipped i (((Cursor.ofText source).pass skipped).state.windowAt i)
      ((Cursor.ofText source).pass (skipped + (i + 2))).notices where
  current := row_pass source skipped i
  ahead := by rw [Cursor.windowAt_ahead, row_pass]
  notices := Cursor.notices_pass_ofText source (skipped + i + 2)

/-- From any index on, operations follow the stream. -/
theorem follows_windowAt (source : String) (skipped i : Nat) (operations : List Operation) :
    Follows source skipped i (((Cursor.ofText source).pass skipped).state.windowAt i)
      ((Cursor.ofText source).pass (skipped + (i + 2))).notices operations := by
  induction operations generalizing i with
  | nil => exact .done (shows_windowAt source skipped i)
  | cons operation later ih =>
    obtain ⟨j, hmoves, hleads⟩ :=
      ((Cursor.ofText source).pass skipped).state.exists_moves i operation
    rw [funext (row_pass source skipped)] at hmoves
    refine .step (shows_windowAt source skipped i) hmoves hmoves.le ?_
    -- with what was left before the window opened, the notices are those up to the index `j`
    have hnotices : ((Cursor.ofText source).pass (skipped + (i + 2))).notices ++
        (operation.step (((Cursor.ofText source).pass skipped).state.windowAt i)).notices =
          ((Cursor.ofText source).pass (skipped + (j + 2))).notices := by
      rw [Cursor.pass_add _ skipped (i + 2), Cursor.pass_add _ skipped (j + 2),
        Step.followedBy_notices, Step.followedBy_notices, List.append_assoc, hleads.notices]
    rw [hleads.state, hnotices]
    exact ih j

/-- Whatever is asked of a window, it shows two neighbours of the stream, starting at the first and
never going back, and each operation answers and moves as the stream says. -/
theorem operations_follow_stream (source : String) (skipped : Nat) (operations : List Operation) :
    Follows source skipped 0 (openBehind source skipped).value (openBehind source skipped).notices
      operations := by
  have hopened : (openBehind source skipped).notices =
      ((Cursor.ofText source).pass (skipped + (0 + 2))).notices := by
    rw [Cursor.pass_add]
    simp [openBehind, Window.ofCursor, Step.andThen, Cursor.pass]
  rw [hopened]
  exact follows_windowAt source skipped 0 operations

end Macaque

import Macaque.Lexical.Cursor

/-!
# A window of two tokens

Statements are recognised with one token of lookahead. The window shows the current token and the
one ahead of it; the cursor behind them reads on only when the window moves.

## Definitions

- `Window`: the two tokens and the cursor that reads the next one
- `Window.advance`: moves by one token
- `Window.expect`: moves by one token if that is of the kind that must come next
- `Window.skipToSemicolon`: moves to the end of the statement

## Main statements

- `Window.size_advance_lt`: moving leaves less ahead, unless the end has been reached
-/

namespace Macaque

/-- The current token, the token ahead of it, and the cursor after both -/
structure Window where
  current : Token
  ahead : Token
  /-- The cursor that reads the tokens after the one ahead -/
  cursor : Cursor
deriving DecidableEq

namespace Window

/-- The window on the next two tokens of a cursor -/
def ofCursor (cursor : Cursor) : Step Cursor Window :=
  cursor.next.andThen fun current afterCurrent =>
    let step := afterCurrent.next
    step.map fun ahead => { current, ahead, cursor := step.state }

/-! ## Moving -/

/-- The window one token further on -/
def advance (window : Window) : Step Window Unit :=
  let step := window.cursor.next
  step.followedBy
    (.stay { current := window.ahead, ahead := step.value, cursor := step.state } ())

/-- Moves to the token ahead if it is of the kind `expected`, and complains about it otherwise -/
def expect (expected : Kind) (window : Window) : Step Window (Except Diagnostic Unit) :=
  if window.ahead.kind = expected then window.advance.map .ok
  else .stay window (.error (.unexpected expected window.ahead))

theorem expect_of_eq {window : Window} {expected : Kind} (h : window.ahead.kind = expected) :
    window.expect expected = window.advance.map .ok :=
  if_pos h

theorem expect_of_ne {window : Window} {expected : Kind} (h : window.ahead.kind ≠ expected) :
    window.expect expected = .stay window (.error (.unexpected expected window.ahead)) :=
  if_neg h

/-! ## How much lies ahead -/

/-- Bounds the number of moves before the current token is the end -/
def size (window : Window) : Nat :=
  (!window.current.isEnd).toNat + (!window.ahead.isEnd).toNat + window.cursor.rest.length

/-- A move takes the current token away from what lies ahead. -/
theorem size_advance_add_le (window : Window) :
    window.advance.state.size + (!window.current.isEnd).toNat ≤ window.size := by
  have := window.cursor.length_next
  simp only [advance, Step.followedBy, Step.stay, size]
  omega

theorem size_advance_le (window : Window) : window.advance.state.size ≤ window.size :=
  Nat.le_trans (Nat.le_add_right _ _) window.size_advance_add_le

/-- A move leaves less ahead, unless the end has been reached. -/
theorem size_advance_lt {window : Window} (h : window.current.isEnd = false) :
    window.advance.state.size < window.size := by
  simpa [h, Nat.succ_le_iff] using window.size_advance_add_le

/-- Moves on until the current token is a semicolon or the end -/
def skipToSemicolon (window : Window) : Step Window Unit :=
  if window.current.kind = .symbol .semicolon then .stay window ()
  else if window.current.isEnd then .stay window ()
  else
    let moved := window.advance
    moved.followedBy moved.state.skipToSemicolon
termination_by window.size
decreasing_by exact size_advance_lt (Bool.eq_false_iff.2 ‹_›)

theorem skipToSemicolon_of_semicolon {window : Window}
    (h : window.current.kind = .symbol .semicolon) : window.skipToSemicolon = .stay window () := by
  rw [skipToSemicolon]
  exact if_pos h

theorem skipToSemicolon_of_isEnd {window : Window} (h : window.current.isEnd = true) :
    window.skipToSemicolon = .stay window () := by
  rw [skipToSemicolon]
  split
  · rfl
  · rfl

theorem skipToSemicolon_of_other {window : Window}
    (hsemicolon : window.current.kind ≠ .symbol .semicolon)
    (hend : window.current.isEnd = false) :
    window.skipToSemicolon = window.advance.followedBy window.advance.state.skipToSemicolon := by
  rw [skipToSemicolon, if_neg hsemicolon]
  exact if_neg (Bool.eq_false_iff.1 hend)

theorem size_skipToSemicolon_le (window : Window) :
    window.skipToSemicolon.state.size ≤ window.size := by
  fun_induction skipToSemicolon window with
  | case1 => exact Nat.le_refl _
  | case2 => exact Nat.le_refl _
  | case3 window _ _ _ ih => exact Nat.le_trans ih window.size_advance_le

end Window

end Macaque

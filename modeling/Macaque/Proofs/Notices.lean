import Macaque.Syntax.Parse

/-!
# What reading remarks on

Reading a program leaves two sorts of notices. The tokens leave those of level `warn`, about
characters outside the alphabet; the decisions of the reader leave those of level `debug`, and these
are the notices of its findings, no more and no fewer, in their order.

## Architecture

- **Steps**: `Step.WarnsOnly` holds of a step that is made of steps for which it holds
- **Tokens**: everything below a finding only warns (`warnsOnly_next`, and from it
  `warnsOnly_statement`)
- **Decisions**: `debug_findings` sums up a run, by induction on its findings
-/

namespace Macaque

/-! ## Steps -/

/-- No decision is among the notices of a step. -/
def Step.WarnsOnly {σ α : Type} (step : Step σ α) : Prop :=
  ∀ notice ∈ step.notices, notice.level = .warn

namespace Step.WarnsOnly

variable {σ τ ε α β : Type}

theorem stay (state : σ) (value : α) : (Step.stay state value).WarnsOnly := by
  simp [Step.WarnsOnly]

theorem map {step : Step σ α} (h : step.WarnsOnly) (f : α → β) : (step.map f).WarnsOnly :=
  h

theorem followedBy {step : Step σ α} {later : Step τ β} (h : step.WarnsOnly)
    (hlater : later.WarnsOnly) : (step.followedBy later).WarnsOnly := by
  intro notice hmem
  rcases List.mem_append.1 hmem with hstep | hmem
  · exact h notice hstep
  · exact hlater notice hmem

theorem onSuccess {step : Step σ (Except ε α)} {next : α → σ → Step σ (Except ε β)}
    (h : step.WarnsOnly) (hnext : ∀ value, (next value step.state).WarnsOnly) :
    (step.onSuccess next).WarnsOnly := by
  cases hvalue : step.value with
  | error failure =>
    rw [Step.onSuccess_of_error hvalue]
    exact h.followedBy (stay _ _)
  | ok value =>
    rw [Step.onSuccess_of_ok hvalue]
    exact h.followedBy (hnext value)

/-- A step that only warns adds nothing to the decisions. -/
theorem filter_debug {step : Step σ α} (h : step.WarnsOnly) :
    step.notices.filter (·.level = .debug) = [] := by
  apply List.filter_eq_nil_iff.2
  intro notice hmem
  simp [h notice hmem]

end Step.WarnsOnly

/-! ## Tokens -/

/-- Of the lexemes only a stray character leaves a notice, and that is no decision. -/
theorem Cursor.warnsOnly_next (cursor : Cursor) : cursor.next.WarnsOnly := by
  simp only [Cursor.next]
  split
  · exact .stay _ _
  · split
    · exact .stay _ _
    · next c rest _ _ =>
      intro notice hmem
      -- the forms of lexeme differ in what they leave, so they are taken one by one
      cases hlexeme : Lexeme.longest c rest with
      | stray d =>
        obtain rfl : notice = .stray d _ := by simpa [hlexeme, Lexeme.notices] using hmem
        rfl
      | _ => simp [hlexeme, Lexeme.notices] at hmem

namespace Window

theorem warnsOnly_advance (window : Window) : window.advance.WarnsOnly :=
  window.cursor.warnsOnly_next.followedBy (.stay _ _)

theorem warnsOnly_expect (expected : Kind) (window : Window) :
    (window.expect expected).WarnsOnly := by
  unfold expect
  split
  · exact window.warnsOnly_advance.map _
  · exact .stay _ _

theorem warnsOnly_skipToSemicolon (window : Window) : window.skipToSemicolon.WarnsOnly := by
  fun_induction skipToSemicolon window with
  | case1 => exact .stay _ _
  | case2 => exact .stay _ _
  | case3 window _ _ moved ih => exact window.warnsOnly_advance.followedBy ih

theorem warnsOnly_letStatement (window : Window) : window.letStatement.WarnsOnly := by
  apply (window.warnsOnly_expect _).onSuccess
  intro _
  apply (warnsOnly_expect _ _).onSuccess
  intro _
  exact (warnsOnly_skipToSemicolon _).map _

theorem warnsOnly_returnStatement (window : Window) : window.returnStatement.WarnsOnly :=
  window.warnsOnly_advance.followedBy ((warnsOnly_skipToSemicolon _).map _)

/-- Reading a statement takes no decision: whether it was one is decided by the finding. -/
theorem warnsOnly_statement (window : Window) : window.statement.WarnsOnly := by
  unfold statement
  split
  · exact window.warnsOnly_letStatement.map _
  · exact window.warnsOnly_returnStatement.map _
  · exact .stay _ _

/-! ## Decisions -/

theorem debug_of_mem_finding (finding : Finding) :
    finding.notices.filter (·.level = .debug) = finding.notices := by
  cases finding <;> rfl

/-- The decisions among the notices of a run are those about its findings, in order. -/
theorem debug_findings (window : Window) :
    window.findings.notices.filter (·.level = .debug) =
      window.findings.value.flatMap Finding.notices := by
  fun_induction findings window with
  | case1 => rfl
  | case2 window _ found moved ih =>
    -- of the four parts of the notices only the finding and what comes later hold decisions
    calc
      _ = window.statement.notices.filter (·.level = .debug) ++
            found.value.notices.filter (·.level = .debug) ++
          (moved.notices.filter (·.level = .debug) ++
            moved.state.findings.notices.filter (·.level = .debug)) := by
        simp [found, finding, List.filter_append]
      _ = found.value.notices ++ moved.state.findings.value.flatMap Finding.notices := by
        rw [window.warnsOnly_statement.filter_debug, debug_of_mem_finding,
          (warnsOnly_advance _).filter_debug, ih, List.nil_append, List.nil_append]
      _ = _ := rfl

end Window

/-- The decisions among the notices of a source text are those about its findings: opening the
window takes none. -/
theorem debug_parse (source : String) :
    (parse source).notices.filter (·.level = .debug) =
      (Window.ofCursor (.ofText source)).value.findings.value.flatMap Finding.notices := by
  have hopened : (Window.ofCursor (.ofText source)).WarnsOnly :=
    (Cursor.warnsOnly_next _).followedBy ((Cursor.warnsOnly_next _).map _)
  rw [parse, Step.followedBy_notices, List.filter_append, hopened.filter_debug, List.nil_append]
  exact Window.debug_findings _

end Macaque

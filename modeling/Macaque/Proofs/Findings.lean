import Macaque.Proofs.Layout
import Macaque.Proofs.Segments

/-!
# What a window finds

A window reads tokens as it needs them and shows two at a time. What it finds on its way is
nevertheless what the list of all tokens shows: the segments of that list, one by one.

The invariant is that a window always stands where some cursor stands that has yet to read both of
its tokens. Every operation of the window is then an operation of that cursor, which reads one token
for each token that the window passes.

## Architecture

- **Windows**: `Cursor.window` is the window that opens at a cursor; `advance_window` is the
  invariant of one move
- **Statements**: where each operation leaves the cursor
- **Simulation**: `Cursor.exists_finds` is one step, with `Cursor.Finds` for what it comes to;
  `Cursor.findings_window` is the whole run, by induction on what the cursor has left to read
-/

namespace Macaque

/-- The finding that a segment of a list of tokens amounts to -/
def Segment.finding : Segment Token → Finding
  | letting first name => .read (.letting first (.ofToken name) none)
  | returning first => .read (.returning first none)
  | passed token => .skipped token
  | broken expected found => .dropped (.unexpected expected found)

namespace Cursor

/-! ## Windows -/

def window (cursor : Cursor) : Window :=
  (Window.ofCursor cursor).value

@[simp] theorem window_current (cursor : Cursor) : cursor.window.current = cursor.next.value := rfl

@[simp] theorem window_ahead (cursor : Cursor) :
    cursor.window.ahead = cursor.next.state.next.value := rfl

/-- A window that moves stands where the cursor stands after one token. -/
@[simp] theorem advance_window (cursor : Cursor) :
    cursor.window.advance.state = cursor.next.state.window := rfl

theorem exists_toEnd_eq_cons (cursor : Cursor) :
    ∃ later, cursor.toEnd.value = cursor.next.value :: later := by
  cases hend : cursor.next.value.isEnd with
  | true => exact ⟨[], toEnd_of_isEnd hend⟩
  | false => exact ⟨_, toEnd_of_not_isEnd hend⟩

theorem segments_toEnd_of_isEnd {cursor : Cursor} (h : cursor.next.value.isEnd = true) :
    segments Token.kind cursor.toEnd.value = [] := by
  rw [toEnd_of_isEnd h]
  exact segments_end [] (of_decide_eq_true h)

/-! ## Statements -/

/-- Skipping to a semicolon ends where the tokens after the semicolon come next, or at the end. -/
theorem skipToSemicolon_window (cursor : Cursor) :
    ∃ later : Cursor, cursor.window.skipToSemicolon.state = later.window ∧
      segments Token.kind later.next.state.toEnd.value =
        segments Token.kind (pastSemicolon Token.kind cursor.toEnd.value) ∧
      later.rest.length ≤ cursor.rest.length := by
  -- the tokens agree as segments only: at the end, reading on gives the end once more
  induction hlength : cursor.rest.length using Nat.strong_induction_on generalizing cursor with
  | _ length ih =>
  cases hend : cursor.next.value.isEnd with
  | true =>
    refine ⟨cursor, ?_, ?_, hlength.le⟩
    · rw [Window.skipToSemicolon_of_isEnd (by simpa using hend), Step.stay_state]
    · have hkind : cursor.next.value.kind ≠ .symbol .semicolon := by
        rw [of_decide_eq_true hend]
        simp
      rw [segments_toEnd_of_isEnd (by rwa [next_next_of_isEnd hend]), toEnd_of_isEnd hend,
        pastSemicolon_of_other _ hkind, pastSemicolon, segments_nil]
  | false =>
    by_cases hkind : cursor.next.value.kind = .symbol .semicolon
    · refine ⟨cursor, ?_, ?_, hlength.le⟩
      · rw [Window.skipToSemicolon_of_semicolon (by simpa using hkind), Step.stay_state]
      · rw [toEnd_of_not_isEnd hend, pastSemicolon_of_semicolon _ hkind]
    · have hshorter := length_next_lt hend
      obtain ⟨later, hstate, hsegments, hle⟩ := ih _ (hlength ▸ hshorter) cursor.next.state rfl
      refine ⟨later, ?_, ?_, by omega⟩
      · rw [Window.skipToSemicolon_of_other (by simpa using hkind) (by simpa using hend),
          Step.followedBy_state, advance_window, hstate]
      · rw [toEnd_of_not_isEnd hend, pastSemicolon_of_other _ hkind, hsegments]

theorem returnStatement_window (cursor : Cursor) :
    cursor.window.returnStatement.value = .ok (.returning cursor.next.value none) ∧
      cursor.window.returnStatement.state = cursor.next.state.window.skipToSemicolon.state :=
  ⟨rfl, rfl⟩

/-! ## Simulation -/

/-- What one finding comes to: at `cursor` the window finds `segment`, and with the move after it
stands at `later`, where the tokens of the next segment come next. -/
structure Finds (cursor : Cursor) (segment : Segment Token) (later : Cursor) : Prop where
  value : cursor.window.finding.value = segment.finding
  state : cursor.window.finding.state.advance.state = later.window
  tokens : segments Token.kind cursor.toEnd.value =
    segment :: segments Token.kind later.toEnd.value
  shorter : later.rest.length < cursor.rest.length

private theorem finds_nameless {cursor : Cursor}
    (hlet : cursor.next.value.kind = .keyword .letWord)
    (hname : cursor.next.state.next.value.kind ≠ .identifier) :
    Finds cursor (.broken .identifier cursor.next.state.next.value) cursor.next.state := by
  have hend : cursor.next.value.isEnd = false := by simp [Token.isEnd, hlet]
  obtain ⟨rest, hrest⟩ := cursor.next.state.exists_toEnd_eq_cons
  have hstatement := cursor.window.statement_of_letWord hlet
  rw [cursor.window.letStatement_nameless hname] at hstatement
  refine ⟨?_, ?_, ?_, length_next_lt hend⟩
  · rw [Window.finding_value, hstatement]
    rfl
  · rw [Window.finding_state, hstatement]
    rfl
  · rw [toEnd_of_not_isEnd hend, hrest, segments_nameless _ hlet hname]

private theorem finds_unassigned {cursor : Cursor}
    (hlet : cursor.next.value.kind = .keyword .letWord)
    (hname : cursor.next.state.next.value.kind = .identifier)
    (hsign : cursor.next.state.next.state.next.value.kind ≠ .symbol .assign) :
    Finds cursor (.broken (.symbol .assign) cursor.next.state.next.state.next.value)
      cursor.next.state.next.state := by
  have hend : cursor.next.value.isEnd = false := by simp [Token.isEnd, hlet]
  have hsecond : cursor.next.state.next.value.isEnd = false := by simp [Token.isEnd, hname]
  obtain ⟨rest, hrest⟩ := cursor.next.state.next.state.exists_toEnd_eq_cons
  have hstatement := cursor.window.statement_of_letWord hlet
  rw [cursor.window.letStatement_unassigned hname hsign] at hstatement
  refine ⟨?_, ?_, ?_, (length_next_lt hsecond).trans (length_next_lt hend)⟩
  · rw [Window.finding_value, hstatement]
    rfl
  · rw [Window.finding_state, hstatement]
    rfl
  · rw [toEnd_of_not_isEnd hend, toEnd_of_not_isEnd hsecond, hrest,
      segments_unassigned _ hlet hname hsign]

private theorem finds_letting {cursor : Cursor}
    (hlet : cursor.next.value.kind = .keyword .letWord)
    (hname : cursor.next.state.next.value.kind = .identifier)
    (hsign : cursor.next.state.next.state.next.value.kind = .symbol .assign) :
    ∃ later, Finds cursor (.letting cursor.next.value cursor.next.state.next.value) later := by
  have hend : cursor.next.value.isEnd = false := by simp [Token.isEnd, hlet]
  have hsecond : cursor.next.state.next.value.isEnd = false := by simp [Token.isEnd, hname]
  have hthird : cursor.next.state.next.state.next.value.isEnd = false := by
    simp [Token.isEnd, hsign]
  -- the window skips from the sign on, the segments from behind it
  have hnotSemicolon : cursor.next.state.next.state.next.value.kind ≠ .symbol .semicolon := by
    simp [hsign]
  obtain ⟨later, hskip, hsegments, hle⟩ := skipToSemicolon_window cursor.next.state.next.state
  have hstatement := cursor.window.statement_of_letWord hlet
  rw [cursor.window.letStatement_letting hname hsign] at hstatement
  refine ⟨later.next.state, ?_, ?_, ?_, ?_⟩
  · rw [Window.finding_value, hstatement]
    rfl
  · rw [Window.finding_state, hstatement, ← advance_window, ← hskip]
    rfl
  · rw [toEnd_of_not_isEnd hthird, pastSemicolon_of_other _ hnotSemicolon] at hsegments
    rw [toEnd_of_not_isEnd hend, toEnd_of_not_isEnd hsecond, toEnd_of_not_isEnd hthird,
      segments_letting _ hlet hname hsign, hsegments]
  · have hfirst := length_next_lt hend
    have := length_next_lt hsecond
    have := later.length_next
    omega

private theorem finds_returning {cursor : Cursor}
    (hreturn : cursor.next.value.kind = .keyword .returnWord) :
    ∃ later, Finds cursor (.returning cursor.next.value) later := by
  have hend : cursor.next.value.isEnd = false := by simp [Token.isEnd, hreturn]
  obtain ⟨later, hskip, hsegments, hle⟩ := skipToSemicolon_window cursor.next.state
  obtain ⟨hvalue, hstate⟩ := cursor.returnStatement_window
  have hstatement := cursor.window.statement_of_returnWord hreturn
  refine ⟨later.next.state, ?_, ?_, ?_, ?_⟩
  · rw [Window.finding_value, hstatement, Step.map_value, hvalue]
    rfl
  · rw [Window.finding_state, hstatement, Step.map_state, hstate, hskip, advance_window]
  · rw [toEnd_of_not_isEnd hend, segments_returning _ hreturn, hsegments]
  · have hfirst := length_next_lt hend
    have := later.length_next
    omega

private theorem finds_passed {cursor : Cursor} (hend : cursor.next.value.isEnd = false)
    (hlet : cursor.next.value.kind ≠ .keyword .letWord)
    (hreturn : cursor.next.value.kind ≠ .keyword .returnWord) :
    Finds cursor (.passed cursor.next.value) cursor.next.state := by
  have hkind : cursor.next.value.kind ≠ .endOfText := of_decide_eq_false hend
  have hstatement := cursor.window.statement_of_other hlet hreturn
  refine ⟨?_, ?_, ?_, length_next_lt hend⟩
  · rw [Window.finding_value, hstatement]
    rfl
  · rw [Window.finding_state, hstatement, Step.stay_state, advance_window]
  · rw [toEnd_of_not_isEnd hend, segments_passed _ hkind hlet hreturn]

/-- One finding is one segment of the tokens that are left. -/
theorem exists_finds {cursor : Cursor} (hend : cursor.next.value.isEnd = false) :
    ∃ segment later, Finds cursor segment later := by
  by_cases hlet : cursor.next.value.kind = .keyword .letWord
  · by_cases hname : cursor.next.state.next.value.kind = .identifier
    · by_cases hsign : cursor.next.state.next.state.next.value.kind = .symbol .assign
      · exact ⟨_, finds_letting hlet hname hsign⟩
      · exact ⟨_, _, finds_unassigned hlet hname hsign⟩
    · exact ⟨_, _, finds_nameless hlet hname⟩
  · by_cases hreturn : cursor.next.value.kind = .keyword .returnWord
    · exact ⟨_, finds_returning hreturn⟩
    · exact ⟨_, _, finds_passed hend hlet hreturn⟩

/-- What a window finds are the segments of the tokens that are left where it opens. -/
theorem findings_window (cursor : Cursor) :
    cursor.window.findings.value =
      (segments Token.kind cursor.toEnd.value).map Segment.finding := by
  -- induction on what the cursor has yet to read, which every finding makes shorter
  induction hlength : cursor.rest.length using Nat.strong_induction_on generalizing cursor with
  | _ length ih =>
  cases hend : cursor.next.value.isEnd with
  | true =>
    rw [Window.findings_of_isEnd (by simpa using hend), segments_toEnd_of_isEnd hend]
    rfl
  | false =>
    obtain ⟨segment, later, hfinds⟩ := exists_finds hend
    have hlater := ih _ (hlength ▸ hfinds.shorter) later rfl
    rw [Window.findings_of_not_isEnd (by simpa using hend), hfinds.tokens, List.map_cons,
      ← hlater, ← hfinds.state, ← hfinds.value]
    rfl

end Cursor

/-! ## Programs -/

/-- The statement that a segment is, if it is one -/
def Segment.statement? : Segment Token → Option Statement
  | letting first name => some (.letting first (.ofToken name) none)
  | returning first => some (.returning first none)
  | _ => none

/-- The words in which a segment that breaks off is reported, and the place that is reported -/
def Segment.report? : Segment Token → Option (String × Location)
  | broken expected found =>
    some ("expected next token to be " ++ expected.label ++ ", got " ++ found.kind.label,
      found.location)
  | _ => none

/-- What is read from a source text are the findings at the segments of its tokens. -/
theorem parse_value (source : String) :
    (parse source).value =
      Parse.ofFindings ((segments Token.kind (tokens source)).map Segment.finding) := by
  have hfindings := (Cursor.ofText source).findings_window
  exact congrArg Parse.ofFindings hfindings

theorem Segment.statement?_finding (segment : Segment Token) :
    segment.finding.statement? = segment.statement? := by
  cases segment <;> rfl

theorem Segment.report?_finding (segment : Segment Token) :
    segment.finding.diagnostic?.map (fun d => (d.message, d.location)) = segment.report? := by
  cases segment <;> rfl

theorem statements_parse (source : String) :
    (parse source).value.program.statements =
      (segments Token.kind (tokens source)).filterMap Segment.statement? := by
  simp only [parse_value, Parse.ofFindings, List.filterMap_map, Function.comp_def,
    Segment.statement?_finding]

theorem reports_parse (source : String) :
    (parse source).value.diagnostics.map (fun d => (d.message, d.location)) =
      (segments Token.kind (tokens source)).filterMap Segment.report? := by
  simp only [parse_value, Parse.ofFindings, List.filterMap_map, List.map_filterMap,
    Function.comp_def, Segment.report?_finding]

/-- A source text is read as the segments of its tokens: the statements and the reports among them,
in their order. -/
theorem parse_eq_segments (source : String) :
    (parse source).value.program.statements =
        (segments Token.kind (tokens source)).filterMap Segment.statement? ∧
      (parse source).value.diagnostics.map (fun d => (d.message, d.location)) =
        (segments Token.kind (tokens source)).filterMap Segment.report? :=
  ⟨statements_parse source, reports_parse source⟩

end Macaque

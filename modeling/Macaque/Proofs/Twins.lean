import Macaque.Proofs.Operations
import Macaque.Proofs.Output

/-!
# Texts that differ in their words only

Reading a program looks at the kinds of the tokens and at nothing else. Two texts whose tokens have
the same kinds, whatever their blanks, names, numbers and illegal characters, are read in lockstep:
statement by statement, fault by fault and notice by notice they are about the tokens with the same
indices.

The invariant is that both windows are at the same index. Everything that a window shows is then a
pair of twins, tokens of the one text and of the other with the same index and kind, and every
operation takes the same way on both sides.

## Architecture

- **Twins**: `Token.Twin` pairs the tokens of two texts by their indices; statements, diagnostics,
  notices and findings are twins if they are the same up to twin tokens
- **Lockstep**: `Step.Twin` relates two steps, and is kept by the combinators of steps
- **Windows**: each operation of a window on twin windows is a twin step, up to
  `Window.Twin.findings`, by induction on the run of the first window
- **Texts**: `twin_parse` for whole texts; `parse_of_tokens_eq` is the case of texts with the same
  tokens, `parse_of_sameKinds` the general one
-/

namespace Macaque

/-! ## Twins -/

/-- The tokens of two texts have the same kinds -/
def SameKinds (first second : String) : Prop :=
  (tokens first).map (·.kind) = (tokens second).map (·.kind)

instance (first second : String) : Decidable (SameKinds first second) :=
  inferInstanceAs (Decidable ((tokens first).map (·.kind) = (tokens second).map (·.kind)))

section Twins

variable (first second : String)

/-- Tokens of two texts with the same index -/
def Token.Twin (token other : Token) : Prop :=
  ∃ i : Nat, (tokens first)[i]? = some token ∧ (tokens second)[i]? = some other

/-- Statements of the same form, made of tokens with the same indices, and without values -/
inductive Statement.Twin : Statement → Statement → Prop where
  | letting {token other name name' : Token} (htoken : token.Twin first second other)
      (hname : name.Twin first second name') :
      Statement.Twin (.letting token (.ofToken name) none) (.letting other (.ofToken name') none)
  | returning {token other : Token} (htoken : token.Twin first second other) :
      Statement.Twin (.returning token none) (.returning other none)

/-- The same complaint about tokens with the same index -/
structure Diagnostic.Twin (diagnostic other : Diagnostic) : Prop where
  complaint : diagnostic.complaint = other.complaint
  location : ∃ token token' : Token, token.Twin first second token' ∧
    diagnostic.location = token.location ∧ other.location = token'.location

/-- Notices of the same sort about tokens with the same index -/
inductive Notice.Twin : Notice → Notice → Prop where
  | stray {token other : Token} (htoken : token.Twin first second other)
      (hkind : token.kind = .illegal) :
      Notice.Twin (.stray token.character token.location) (.stray other.character other.location)
  | skipped {token other : Token} (htoken : token.Twin first second other) :
      Notice.Twin (.skipped token) (.skipped other)
  | dropped {diagnostic other : Diagnostic} (hdiagnostic : diagnostic.Twin first second other) :
      Notice.Twin (.dropped diagnostic) (.dropped other)

/-- Findings of the same sort that are twins -/
inductive Finding.Twin : Finding → Finding → Prop where
  | read {statement other : Statement} (hstatement : statement.Twin first second other) :
      Finding.Twin (.read statement) (.read other)
  | skipped {token other : Token} (htoken : token.Twin first second other) :
      Finding.Twin (.skipped token) (.skipped other)
  | dropped {diagnostic other : Diagnostic} (hdiagnostic : diagnostic.Twin first second other) :
      Finding.Twin (.dropped diagnostic) (.dropped other)

theorem Finding.Twin.notices {first second : String} {finding other : Finding}
    (h : finding.Twin first second other) :
    List.Forall₂ (Notice.Twin first second) finding.notices other.notices := by
  cases h with
  | read _ => exact .nil
  | skipped htoken => exact .cons (.skipped htoken) .nil
  | dropped hdiagnostic => exact .cons (.dropped hdiagnostic) .nil

/-- Two attempts that both succeed, with results that `R` relates, or both fail, with twins -/
inductive Attempt {α : Type} (R : α → α → Prop) :
    Except Diagnostic α → Except Diagnostic α → Prop where
  | ok {value other : α} (hvalue : R value other) : Attempt R (.ok value) (.ok other)
  | error {diagnostic other : Diagnostic} (hdiagnostic : diagnostic.Twin first second other) :
      Attempt R (.error diagnostic) (.error other)

/-- Windows on two texts at the same index -/
def Window.Twin (window other : Window) : Prop :=
  ∃ n, window = (Cursor.ofText first).windowAt n ∧ other = (Cursor.ofText second).windowAt n

/-- Steps of two windows in lockstep: `R` relates the values, and all else are twins -/
structure Step.Twin {α : Type} (R : α → α → Prop) (step other : Step Window α) : Prop where
  value : R step.value other.value
  notices : List.Forall₂ (Notice.Twin first second) step.notices other.notices
  state : step.state.Twin first second other.state

end Twins

/-! ## Tokens -/

section Tokens

variable {first second : String} (hkinds : SameKinds first second)
include hkinds

theorem SameKinds.length_eq : (tokens first).length = (tokens second).length := by
  simpa using congrArg List.length hkinds

/-- The streams of the two texts run in parallel, also where the end is repeated. -/
theorem twin_stream (n : Nat) : (stream first n).Twin first second (stream second n) := by
  have hlength := hkinds.length_eq
  by_cases hn : n < (tokens first).length
  · exact ⟨n, by rw [stream_of_lt hn]; simp, by rw [stream_of_lt (by omega)]; simp⟩
  · refine ⟨(tokens first).length - 1, ?_, ?_⟩
    · rw [stream, List.getD_eq_default _ _ (by omega), ← List.getLast?_eq_getElem?]
      exact List.getLast?_eq_some_getLast _
    · rw [stream, List.getD_eq_default _ _ (by omega), hlength, ← List.getLast?_eq_getElem?]
      exact List.getLast?_eq_some_getLast _

theorem Token.Twin.kind_eq {token other : Token} (h : token.Twin first second other) :
    token.kind = other.kind := by
  obtain ⟨i, htoken, hother⟩ := h
  have hi := congrArg (·[i]?) hkinds
  simpa [htoken, hother] using hi

theorem Token.Twin.isEnd_eq {token other : Token} (h : token.Twin first second other) :
    token.isEnd = other.isEnd := by
  rw [isEnd, isEnd, h.kind_eq hkinds]

theorem Token.Twin.unexpected {token other : Token} (h : token.Twin first second other)
    (expected : Kind) : (Diagnostic.unexpected expected token).Twin first second
      (.unexpected expected other) where
  complaint := by rw [Diagnostic.unexpected, Diagnostic.unexpected, h.kind_eq hkinds]
  location := ⟨token, other, h, rfl, rfl⟩

theorem Token.Twin.strays {token other : Token} (h : token.Twin first second other) :
    List.Forall₂ (Notice.Twin first second) (strays [token]) (Macaque.strays [other]) := by
  by_cases hkind : token.kind = .illegal
  · have hother : other.kind = .illegal := h.kind_eq hkinds ▸ hkind
    simpa [Macaque.strays, hkind, hother] using Notice.Twin.stray h hkind
  · rw [strays_of_legal hkind, strays_of_legal (h.kind_eq hkinds ▸ hkind)]
    exact .nil

end Tokens

/-! ## Lockstep -/

namespace Step.Twin

variable {first second : String} {α β : Type} {R : α → α → Prop} {S : β → β → Prop}

theorem stay {window window' : Window} (h : window.Twin first second window') {value other : α}
    (hvalue : R value other) : (Step.stay window value).Twin first second R (.stay window' other) :=
  ⟨hvalue, .nil, h⟩

theorem map {step other : Step Window α} (h : step.Twin first second R other) {f g : α → β}
    (hmap : ∀ {value value' : α}, R value value' → S (f value) (g value')) :
    (step.map f).Twin first second S (other.map g) :=
  ⟨hmap h.value, h.notices, h.state⟩

theorem followedBy {step other : Step Window α} {later later' : Step Window β}
    (h : step.Twin first second R other) (hlater : later.Twin first second S later') :
    (step.followedBy later).Twin first second S (other.followedBy later') :=
  ⟨hlater.value, List.rel_append h.notices hlater.notices, hlater.state⟩

/-- Where the steps succeed, those that follow them must be in lockstep too. -/
theorem onSuccess {step other : Step Window (Except Diagnostic α)}
    (h : step.Twin first second (Attempt first second R) other)
    {next next' : α → Window → Step Window (Except Diagnostic β)}
    (hnext : ∀ {value value' : α} {window window' : Window}, R value value' →
      window.Twin first second window' →
        (next value window).Twin first second (Attempt first second S) (next' value' window')) :
    (step.onSuccess next).Twin first second (Attempt first second S) (other.onSuccess next') := by
  obtain ⟨hvalue, hnotices, hstate⟩ := h
  generalize hresult : step.value = result at hvalue
  generalize hresult' : other.value = result' at hvalue
  cases hvalue with
  | ok hvalue =>
    rw [Step.onSuccess_of_ok hresult, Step.onSuccess_of_ok hresult']
    have hlater := hnext hvalue hstate
    exact ⟨hlater.value, List.rel_append hnotices hlater.notices, hlater.state⟩
  | error hdiagnostic =>
    rw [Step.onSuccess_of_error hresult, Step.onSuccess_of_error hresult']
    exact ⟨.error hdiagnostic, List.rel_append hnotices .nil, hstate⟩

end Step.Twin

/-! ## Windows -/

namespace Window.Twin

variable {first second : String} {window other : Window}

section Kinds

variable (hkinds : SameKinds first second) (h : window.Twin first second other)
include hkinds h

theorem current : window.current.Twin first second other.current := by
  obtain ⟨n, rfl, rfl⟩ := h
  rw [Cursor.windowAt_current, Cursor.windowAt_current, row_ofText, row_ofText]
  exact twin_stream hkinds n

theorem ahead : window.ahead.Twin first second other.ahead := by
  obtain ⟨n, rfl, rfl⟩ := h
  rw [Cursor.windowAt_ahead, Cursor.windowAt_ahead, row_ofText, row_ofText]
  exact twin_stream hkinds (n + 1)

theorem advance : window.advance.Twin first second (fun _ _ => True) other.advance := by
  obtain ⟨n, rfl, rfl⟩ := h
  refine ⟨trivial, ?_, n + 1, ?_, ?_⟩
  · rw [Cursor.notices_advance_windowAt, Cursor.notices_advance_windowAt, Cursor.notices_next,
      Cursor.notices_next, Cursor.next_pass_ofText, Cursor.next_pass_ofText]
    exact (twin_stream hkinds (n + 2)).strays hkinds
  · exact Cursor.state_advance_windowAt _ n
  · exact Cursor.state_advance_windowAt _ n

theorem expect (expected : Kind) : (window.expect expected).Twin first second
    (Attempt first second fun _ _ => True) (other.expect expected) := by
  have hahead := h.ahead hkinds
  by_cases hkind : window.ahead.kind = expected
  · rw [expect_of_eq hkind, expect_of_eq (hahead.kind_eq hkinds ▸ hkind)]
    exact (h.advance hkinds).map fun _ => .ok trivial
  · rw [expect_of_ne hkind, expect_of_ne (hahead.kind_eq hkinds ▸ hkind)]
    exact .stay h (.error (hahead.unexpected hkinds expected))

theorem skipToSemicolon :
    window.skipToSemicolon.Twin first second (fun _ _ => True) other.skipToSemicolon := by
  fun_induction Window.skipToSemicolon window generalizing other with
  | case1 window hsemicolon =>
    rw [skipToSemicolon_of_semicolon ((h.current hkinds).kind_eq hkinds ▸ hsemicolon)]
    exact .stay h trivial
  | case2 window _ hend =>
    rw [skipToSemicolon_of_isEnd ((h.current hkinds).isEnd_eq hkinds ▸ hend)]
    exact .stay h trivial
  | case3 window hsemicolon hend moved =>
    rename_i ih
    have hmoved := h.advance hkinds
    rw [(h.current hkinds).kind_eq hkinds] at hsemicolon
    rw [(h.current hkinds).isEnd_eq hkinds] at hend
    rw [skipToSemicolon_of_other hsemicolon (Bool.eq_false_iff.2 hend)]
    exact hmoved.followedBy (ih hmoved.state)

theorem letStatement : window.letStatement.Twin first second
    (Attempt first second (Statement.Twin first second)) other.letStatement := by
  refine (h.expect hkinds .identifier).onSuccess fun _ hnamed => ?_
  refine (hnamed.expect hkinds (.symbol .assign)).onSuccess fun _ hassigned => ?_
  exact (hassigned.skipToSemicolon hkinds).map fun _ =>
    .ok (.letting (h.current hkinds) (hnamed.current hkinds))

theorem returnStatement : window.returnStatement.Twin first second
    (Attempt first second (Statement.Twin first second)) other.returnStatement :=
  have hnext := h.advance hkinds
  hnext.followedBy ((hnext.state.skipToSemicolon hkinds).map fun _ =>
    .ok (.returning (h.current hkinds)))

theorem statement : window.statement.Twin first second
    (Attempt first second (Option.Rel (Statement.Twin first second))) other.statement := by
  have hkind := (h.current hkinds).kind_eq hkinds
  have hsome {result result' : Except Diagnostic Statement}
      (hresult : Attempt first second (Statement.Twin first second) result result') :
      Attempt first second (Option.Rel (Statement.Twin first second))
        (result.map some) (result'.map some) := by
    cases hresult with
    | ok hvalue => exact .ok (.some hvalue)
    | error hdiagnostic => exact .error hdiagnostic
  -- the kind of the current token decides which form is read, and it is the same on both sides
  by_cases hlet : window.current.kind = .keyword .letWord
  · rw [statement_of_letWord _ hlet, statement_of_letWord _ (hkind ▸ hlet)]
    exact (h.letStatement hkinds).map hsome
  · by_cases hreturn : window.current.kind = .keyword .returnWord
    · rw [statement_of_returnWord _ hreturn, statement_of_returnWord _ (hkind ▸ hreturn)]
      exact (h.returnStatement hkinds).map hsome
    · rw [statement_of_other _ hlet hreturn, statement_of_other _ (hkind ▸ hlet) (hkind ▸ hreturn)]
      exact .stay h (.ok .none)

theorem finding : window.finding.Twin first second (Finding.Twin first second) other.finding := by
  obtain ⟨hvalue, hnotices, hstate⟩ := h.statement hkinds
  have hfinding : (Finding.ofStatement window.current window.statement.value).Twin first second
      (Finding.ofStatement other.current other.statement.value) := by
    generalize window.statement.value = result at hvalue
    generalize other.statement.value = result' at hvalue
    cases hvalue with
    | ok hvalue =>
      cases hvalue with
      | some hstatement => exact .read hstatement
      | none => exact .skipped (h.current hkinds)
    | error hdiagnostic => exact .dropped hdiagnostic
  exact ⟨hfinding, List.rel_append hnotices hfinding.notices, hstate⟩

/-- Two windows in lockstep find the same, up to twins, and leave the same notices. -/
theorem findings : window.findings.Twin first second
    (List.Forall₂ (Finding.Twin first second)) other.findings := by
  -- induction on the run of the first window, which the second one follows at each finding
  fun_induction Window.findings window generalizing other with
  | case1 window hend =>
    rw [findings_of_isEnd ((h.current hkinds).isEnd_eq hkinds ▸ hend)]
    exact .stay h .nil
  | case2 window hend found moved =>
    rename_i ih
    have hfound := h.finding hkinds
    have hmoved := hfound.state.advance hkinds
    rw [(h.current hkinds).isEnd_eq hkinds] at hend
    rw [findings_of_not_isEnd (Bool.eq_false_iff.2 hend)]
    exact hfound.followedBy (hmoved.followedBy ((ih hmoved.state).map fun hlater =>
      .cons hfound.value hlater))

end Kinds

end Window.Twin

/-! ## Texts -/

section Texts

variable {first second : String} (hkinds : SameKinds first second)
include hkinds

theorem twin_strays (n : Nat) : List.Forall₂ (Notice.Twin first second)
    (strays ((List.range n).map (stream first))) (strays ((List.range n).map (stream second))) := by
  induction n with
  | zero => exact .nil
  | succ n ih =>
    rw [List.range_succ, List.map_append, List.map_append, strays_append, strays_append]
    exact List.rel_append ih ((twin_stream hkinds n).strays hkinds)

/-- Two texts whose tokens have the same kinds are read in lockstep. -/
theorem twin_parse :
    List.Forall₂ (Statement.Twin first second) (parse first).value.program.statements
        (parse second).value.program.statements ∧
      List.Forall₂ (Diagnostic.Twin first second) (parse first).value.diagnostics
        (parse second).value.diagnostics ∧
      List.Forall₂ (Notice.Twin first second) (parse first).notices (parse second).notices := by
  have hwindow : ((Cursor.ofText first).windowAt 0).Twin first second
      ((Cursor.ofText second).windowAt 0) := ⟨0, rfl, rfl⟩
  obtain ⟨hfindings, hnotices, -⟩ := hwindow.findings hkinds
  refine ⟨?_, ?_, ?_⟩
  · refine List.rel_filterMap (fun _ _ hfinding => ?_) hfindings
    cases hfinding with
    | read hstatement => exact .some hstatement
    | skipped _ => exact .none
    | dropped _ => exact .none
  · refine List.rel_filterMap (fun _ _ hfinding => ?_) hfindings
    cases hfinding with
    | read _ => exact .none
    | skipped _ => exact .none
    | dropped hdiagnostic => exact .some hdiagnostic
  · -- the windows open on two tokens each, whose notices come before those of the findings
    refine List.rel_append ?_ hnotices
    rw [Window.notices_ofCursor, Window.notices_ofCursor, Cursor.notices_pass_ofText,
      Cursor.notices_pass_ofText]
    exact twin_strays hkinds 2

end Texts

/-! ### Texts with the same tokens -/

section Equal

variable {first second : String} (htokens : tokens first = tokens second)
include htokens

theorem Token.Twin.eq {token other : Token} (h : token.Twin first second other) :
    token = other := by
  obtain ⟨i, htoken, hother⟩ := h
  rw [htokens, hother] at htoken
  exact (Option.some.inj htoken).symm

theorem Diagnostic.Twin.eq {diagnostic other : Diagnostic}
    (h : diagnostic.Twin first second other) : diagnostic = other := by
  obtain ⟨hcomplaint, token, token', htoken, hlocation, hlocation'⟩ := h
  cases diagnostic
  cases other
  simp_all [htoken.eq htokens]

theorem Notice.Twin.eq {notice other : Notice} (h : notice.Twin first second other) :
    notice = other := by
  cases h with
  | stray htoken _ => rw [htoken.eq htokens]
  | skipped htoken => rw [htoken.eq htokens]
  | dropped hdiagnostic => rw [hdiagnostic.eq htokens]

/-- Only its tokens count for what is read from a text, and for what is remarked on meanwhile. -/
theorem parse_of_tokens_eq :
    (parse first).value = (parse second).value ∧
      (parse first).notices = (parse second).notices := by
  refine ⟨by rw [parse_value, parse_value, htokens], ?_⟩
  obtain ⟨-, -, hnotices⟩ := twin_parse (congrArg (List.map Token.kind) htokens)
  rw [← List.forall₂_eq_eq_eq]
  exact hnotices.imp fun _ _ hnotice => Notice.Twin.eq htokens hnotice

end Equal

/-! ### Texts with the same literals -/

section Literals

variable {first second : String}
  (hliterals : (tokens first).map (·.literal) = (tokens second).map (·.literal))
include hliterals

theorem Token.Twin.literal_eq {token other : Token} (h : token.Twin first second other) :
    token.literal = other.literal := by
  obtain ⟨i, htoken, hother⟩ := h
  have hi := congrArg (·[i]?) hliterals
  simpa [htoken, hother] using hi

theorem Statement.Twin.render_eq {statement other : Statement}
    (h : statement.Twin first second other) : statement.render = other.render := by
  cases h with
  | letting htoken hname =>
    simp only [Statement.render, Name.render, Name.ofToken, htoken.literal_eq hliterals,
      hname.literal_eq hliterals]
  | returning htoken => simp only [Statement.render, htoken.literal_eq hliterals]

/-- With the same kinds and literals, two texts are read as programs with the same text. -/
theorem render_parse_of_literals (hkinds : SameKinds first second) :
    (parse first).value.program.render = (parse second).value.program.render := by
  have hstatements := (twin_parse hkinds).1
  rw [Program.render, Program.render]
  congr 1
  rw [← List.forall₂_eq_eq_eq, List.forall₂_map_left_iff, List.forall₂_map_right_iff]
  exact hstatements.imp fun _ _ hstatement => by rw [hstatement.render_eq hliterals]

end Literals

/-- Reading a program looks at the kinds of the tokens only. Two texts whose tokens have the same
kinds are read as statements of the same forms, made of the tokens with the same indices; the same
is wrong with them, at the tokens with the same indices; and what is remarked on is of the same
sorts, about the tokens with the same indices. If the literals are the same too, the programs have
the same text, and runs on files with these texts write the same output and end with the same
status. -/
theorem parse_of_sameKinds {first second : String} (hkinds : SameKinds first second) :
    List.Forall₂ (Statement.Twin first second) (parse first).value.program.statements
        (parse second).value.program.statements ∧
      List.Forall₂ (Diagnostic.Twin first second) (parse first).value.diagnostics
        (parse second).value.diagnostics ∧
      (parse first).value.diagnostics.map Diagnostic.message =
        (parse second).value.diagnostics.map Diagnostic.message ∧
      List.Forall₂ (Notice.Twin first second) (parse first).notices (parse second).notices ∧
      ((tokens first).map (·.literal) = (tokens second).map (·.literal) →
        (parse first).value.program.render = (parse second).value.program.render ∧
        ∀ (setting other : Command.Setting) (path path' : String), setting.Checks path →
          other.Checks path' → setting.entry path = .file (encode first) →
          other.entry path' = .file (encode second) →
            (Command.run setting).written .output = (Command.run other).written .output ∧
              (Command.run setting).status = (Command.run other).status) := by
  obtain ⟨hstatements, hdiagnostics, hnotices⟩ := twin_parse hkinds
  have hmessages : (parse first).value.diagnostics.map Diagnostic.message =
      (parse second).value.diagnostics.map Diagnostic.message := by
    rw [← List.forall₂_eq_eq_eq, List.forall₂_map_left_iff, List.forall₂_map_right_iff]
    exact hdiagnostics.imp fun _ _ hdiagnostic => congrArg Complaint.message hdiagnostic.complaint
  refine ⟨hstatements, hdiagnostics, hmessages, hnotices, fun hliterals => ?_⟩
  have hrender := render_parse_of_literals hliterals hkinds
  refine ⟨hrender, fun setting other path path' hsetting hother hentry hentry' => ?_⟩
  obtain ⟨options, hrun⟩ := hsetting.exists_run_check hentry
  obtain ⟨options', hrun'⟩ := hother.exists_run_check hentry'
  -- the status depends on the diagnostics only in that there are some or none
  have hempty : (parse first).value.diagnostics = [] ↔ (parse second).value.diagnostics = [] := by
    rw [← List.length_eq_zero_iff, hdiagnostics.length_eq, List.length_eq_zero_iff]
  rw [hrun, hrun', Command.written_check, Command.written_check, Command.status_check,
    Command.status_check]
  exact ⟨hrender, by simp only [hempty]⟩

/-- Other names, numbers, illegal characters and blanks leave everything in its place; other blanks
alone leave the output as it is. -/
theorem parse_of_sameKinds_renamed :
    SameKinds "let a = 1; @ let 5" "\tlet bc=22;\né let\r\n60" ∧
      List.Forall₂ (Notice.Twin "let a = 1; @ let 5" "\tlet bc=22;\né let\r\n60")
        (parse "let a = 1; @ let 5").notices (parse "\tlet bc=22;\né let\r\n60").notices ∧
      (parse "let a = 1; @ let 5").value.diagnostics.map Diagnostic.message =
        ["expected next token to be IDENT, got INT"] ∧
      SameKinds "let x=5;return @" "let x\n= 5;\n\n return@" ∧
      (Command.run (Command.callOn "a" (encode "let x=5;return @"))).written .output =
        (Command.run (Command.callOn "b" (encode "let x\n= 5;\n\n return@"))).written .output := by
  have hrenamed : SameKinds "let a = 1; @ let 5" "\tlet bc=22;\né let\r\n60" := by decide +kernel
  have hrelaid : SameKinds "let x=5;return @" "let x\n= 5;\n\n return@" := by decide +kernel
  obtain ⟨-, -, hmessages, hnotices, -⟩ := parse_of_sameKinds hrenamed
  obtain ⟨-, -, -, -, hsame⟩ := parse_of_sameKinds hrelaid
  obtain ⟨-, hruns⟩ := hsame (by decide +kernel)
  refine ⟨hrenamed, hnotices, ?_, hrelaid, ?_⟩
  · rw [hmessages]
    decide +kernel
  · exact (hruns (Command.callOn "a" (encode "let x=5;return @"))
      (Command.callOn "b" (encode "let x\n= 5;\n\n return@")) "a" "b"
      ⟨{ mode := .check "a" }, by decide, rfl⟩ ⟨{ mode := .check "b" }, by decide, rfl⟩ rfl rfl).1

end Macaque

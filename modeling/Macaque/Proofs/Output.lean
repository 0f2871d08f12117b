import Macaque.Command.Run
import Macaque.Proofs.Reprint

/-!
# The command on its own output

What the command writes when it reads a program is the text of that program, whatever is wrong with
the file and whatever it remarks about it: all of that goes to the messages. A file that holds the
output of such a run is therefore a program that is printed, and reading it again changes nothing.

## Architecture

- **Channels**: `textOn` is what some emissions put on a channel; messages put nothing on the output
- **Output**: `written_check` for a file, `Setting.Checks.exists_written_eq` for a whole run
- **Again**: `parse_undoes_render` for programs, for source texts and for runs
-/

namespace Macaque.Command

/-! ## Channels -/

/-- All that some emissions put on a channel -/
def textOn (channel : Channel) (emissions : List Emission) : String :=
  String.join ((emissions.filter fun emission => emission.channel = channel).map (·.text))

theorem textOn_append (channel : Channel) (first second : List Emission) :
    textOn channel (first ++ second) = textOn channel first ++ textOn channel second := by
  simp only [textOn, List.filter_append, List.map_append, String.join_append]

theorem textOn_cons (channel : Channel) (first : Emission) (later : List Emission) :
    textOn channel (first :: later) =
      (if first.channel = channel then first.text else "") ++ textOn channel later := by
  by_cases hchannel : first.channel = channel
  · rw [textOn, List.filter_cons_of_pos (by simpa using hchannel), if_pos hchannel, List.map_cons,
      String.join_cons, textOn]
  · rw [textOn, List.filter_cons_of_neg (by simpa using hchannel), if_neg hchannel,
      String.empty_append, textOn]

theorem textOn_eq_empty {channel : Channel} {emissions : List Emission}
    (h : ∀ emission ∈ emissions, emission.channel ≠ channel) : textOn channel emissions = "" := by
  have hnone : emissions.filter (fun emission => emission.channel = channel) = [] := by
    apply List.filter_eq_nil_iff.2
    intro emission hmem
    simp [h emission hmem]
  rw [textOn, hnone]
  rfl

theorem written_precededBy (channel : Channel) (emissions : List Emission) (outcome : Outcome) :
    (outcome.precededBy emissions).written channel =
      textOn channel emissions ++ outcome.written channel :=
  textOn_append channel emissions outcome.emissions

/-! ## Output -/

theorem textOn_output_report (options : Options) (notices : List Notice) :
    textOn .output (report options notices) = "" := by
  apply textOn_eq_empty
  intro emission hmem
  obtain ⟨notice, _, rfl⟩ := List.mem_map.1 hmem
  rintro ⟨⟩

/-- Everything that is said about a program in the end is a message. -/
theorem written_output_verdict (coloured : Bool) (path : String) (parse : Parse) :
    (verdict coloured path parse).written .output = "" := by
  apply textOn_eq_empty
  unfold verdict
  split
  · intro emission hmem
    rcases List.mem_append.1 hmem with hlines | hlast
    · obtain ⟨diagnostic, _, hline⟩ := List.mem_flatMap.1 hlines
      rcases List.mem_pair.1 hline with rfl | rfl <;> rintro ⟨⟩
    · obtain rfl := List.mem_singleton.1 hlast
      rintro ⟨⟩
  · intro emission hmem
    obtain rfl := List.mem_singleton.1 hmem
    rintro ⟨⟩

theorem textOn_output_statements (program : Program) :
    textOn .output (program.statements.map fun statement => outLine statement.render) =
      program.render := by
  simp [textOn, Program.render, outLine, List.filter_map, Function.comp_def]

theorem written_check (options : Options) (path source : String) :
    (check options path source).written .output = (parse source).value.program.render := by
  have hstart : textOn .output (messageLine ("Parsing " ++ path ++ "...") ::
      report options (parse source).notices) = "" :=
    textOn_output_report options _
  rw [check, written_precededBy, written_output_verdict, textOn_append, hstart,
    textOn_output_statements, String.empty_append, String.append_empty]

/-- A list of tokens is all that is written where one is asked for. -/
theorem written_list (options : Options) (source : String) :
    (list options source).written .output =
      String.join ((tokens source).map fun token => token.row options.coloured ++ "\n") := by
  have hrows : textOn .output ((tokens source).map fun token =>
      outLine (token.row options.coloured)) =
        String.join ((tokens source).map fun token => token.row options.coloured ++ "\n") := by
    simp [textOn, outLine, List.filter_map, Function.comp_def]
  have hcount (count : Nat) : textOn .output (if count = 0 then []
      else [messageLine ("Found " ++ toString count ++ " illegal token(s).")]) = "" := by
    split <;> rfl
  rw [list, Outcome.written]
  show textOn .output (_ ++ (tokens source).map _ ++ _) = _
  rw [textOn_append, textOn_append, textOn_output_report, hrows, hcount, String.empty_append,
    String.append_empty]

theorem status_check (options : Options) (path source : String) :
    (check options path source).status =
      if (parse source).value.diagnostics = [] then 0 else 1 := by
  rw [check, Outcome.precededBy, verdict, Parse.hasDiagnostics]
  cases (parse source).value.diagnostics with
  | nil => rfl
  | cons diagnostic later => rfl

section Perform

variable {setting : Setting} {options : Options} {path source : String}

theorem withSource_encode (path source : String) (next : String → Outcome) :
    withSource path (.file (encode source)) next = next source := by
  simp only [withSource, decode_encode]

/-- A path leads to a text, or else one message says why it does not, and the run fails. -/
theorem withSource_cases (path : String) (entry : Entry) :
    (∃ source, entry = .file (encode source)) ∨
      ∃ reason, ∀ next, withSource path entry next =
        { emissions := [messageLine ("Error: " ++ reason)], status := 1 } := by
  cases entry with
  | missing =>
    refine .inr ⟨"File '" ++ path ++ "' not found", fun next => ?_⟩
    simp only [withSource, String.append_assoc]
    rfl
  | unreadable failure => exact .inr ⟨Failure.render (.system failure), fun next => rfl⟩
  | file content =>
    cases hdecode : decode content with
    | none =>
      refine .inr ⟨Failure.render .undecodable, fun next => ?_⟩
      rw [withSource, hdecode]
      rfl
    | some source => exact .inl ⟨source, congrArg Entry.file (eq_encode_of_decode hdecode)⟩

/-- A directory is there, but what is said is why it cannot be read. -/
example (next : String → Outcome) :
    withSource "." .directory next =
      { emissions := [messageLine
          "Error: Os \x7b code: 21, kind: IsADirectory, message: \"Is a directory\" \x7d"],
        status := 1 } := by
  rfl

theorem perform_check (hmode : options.mode = .check path)
    (hentry : setting.entry path = .file (encode source)) :
    perform setting options =
      check { options with coloured := options.coloured && setting.terminal } path source := by
  simp only [perform, hmode, hentry, withSource_encode]

theorem perform_list (hmode : options.mode = .list path)
    (hentry : setting.entry path = .file (encode source)) :
    perform setting options =
      list { options with coloured := options.coloured && setting.terminal } source := by
  simp only [perform, hmode, hentry, withSource_encode]

end Perform

/-- Whether a setting asks for the file at a path to be read as a program -/
def Setting.Checks (setting : Setting) (path : String) : Prop :=
  ∃ options, Options.ofArguments setting.arguments = .ok options ∧ options.mode = .check path

/-- Where a file is to be read as a program, the command reads that file and no other. -/
theorem Setting.Checks.exists_run_eq {setting : Setting} {path : String}
    (h : setting.Checks path) :
    ∃ options, run setting = withSource path (setting.entry path) (check options path) := by
  obtain ⟨options, hoptions, hmode⟩ := h
  refine ⟨{ options with coloured := options.coloured && setting.terminal }, ?_⟩
  simp only [run, hoptions, perform, hmode]

theorem Setting.Checks.exists_run_check {setting : Setting} {path source : String}
    (h : setting.Checks path) (hentry : setting.entry path = .file (encode source)) :
    ∃ options, run setting = check options path source := by
  obtain ⟨options, hrun⟩ := h.exists_run_eq
  exact ⟨options, by rw [hrun, hentry, withSource_encode]⟩

/-- Whatever the path leads to, what is written is the program of some source text; where there is
no text to read, of the empty one. -/
theorem Setting.Checks.exists_written_eq {setting : Setting} {path : String}
    (h : setting.Checks path) :
    ∃ source, (run setting).written .output = (parse source).value.program.render := by
  have hempty : (parse "").value.program.render = "" := by
    rw [show "" = Program.render ⟨[]⟩ from rfl, parse_render (by simp [Program.Printable])]
    rfl
  obtain ⟨options, hrun⟩ := h.exists_run_eq
  rcases withSource_cases path (setting.entry path) with ⟨source, hentry⟩ | ⟨reason, hfails⟩
  · rw [hrun, hentry, withSource_encode]
    exact ⟨source, written_check options path source⟩
  · -- where there is no text to read, all that is written is a message
    rw [hrun, hfails]
    exact ⟨"", hempty.symm⟩

/-! ## Again -/

/-- The text of a program that was read from a source text is read without fault, statement by line,
as a program with the same text. -/
theorem parse_render_parse (source : String) :
    (parse (parse source).value.program.render).value.diagnostics = [] ∧
      (∀ (i : Nat) (statement : Statement),
        (parse (parse source).value.program.render).value.program.statements[i]? =
          some statement → statement.token.location = ⟨i + 1, 1⟩) ∧
      (parse (parse source).value.program.render).value.program.render =
        (parse source).value.program.render := by
  have hparts := printable_parse source
  have hprintable : (parse source).value.program.Printable :=
    fun statement hmem => (hparts statement hmem).1
  rw [parse_render hprintable]
  refine ⟨rfl, fun i statement hmem => ?_, ?_⟩
  · rw [location_rereadAll 1 hparts i statement hmem, Nat.add_comm]
  · -- the same lines make the same text
    rw [← String.toList_inj, Program.toList_render, Program.toList_render]
    exact lines_rereadAll .start hparts

/-- A run on the output of a run succeeds and has that output too. -/
theorem run_run {first second : Setting} {path again : String} (hfirst : first.Checks path)
    (hsecond : second.Checks again)
    (hentry : second.entry again = .file (encode ((run first).written .output))) :
    (run second).status = 0 ∧
      (run second).written .output = (run first).written .output := by
  -- the first run wrote the program of some text, so the second one reads a printed program
  obtain ⟨source, hsource⟩ := hfirst.exists_written_eq
  obtain ⟨options, hrun⟩ := hsecond.exists_run_check (hsource ▸ hentry)
  obtain ⟨hclean, -, hsame⟩ := parse_render_parse source
  rw [hrun, status_check, if_pos hclean, written_check, hsource]
  exact ⟨rfl, hsame⟩

/-- Reading undoes printing. A printable program comes back statement by statement, without a fault
and without a token that is skipped; whatever is read from a source text is printable, and comes
back with its text, each statement on the line of its number; and a run on the output of a run
succeeds and has that output too. -/
theorem parse_undoes_render :
    (∀ program : Program, program.Printable →
      (parse program.render).value.diagnostics = [] ∧
        (∀ token, .skipped token ∉ (parse program.render).notices) ∧
        List.Forall₂ Statement.ComesBackAs program.statements
          (parse program.render).value.program.statements) ∧
    (∀ source : String,
      (parse source).value.program.Printable ∧
        (parse (parse source).value.program.render).value.diagnostics = [] ∧
        (∀ (i : Nat) (statement : Statement),
          (parse (parse source).value.program.render).value.program.statements[i]? =
            some statement → statement.token.location = ⟨i + 1, 1⟩) ∧
        (parse (parse source).value.program.render).value.program.render =
          (parse source).value.program.render) ∧
    ∀ (first second : Setting) (path again : String), first.Checks path → second.Checks again →
      second.entry again = .file (encode ((run first).written .output)) →
        (run second).status = 0 ∧
          (run second).written .output = (run first).written .output := by
  refine ⟨fun program hprintable => ?_, fun source => ?_, fun _ _ _ _ => run_run⟩
  · refine ⟨?_, not_skipped_render hprintable, ?_⟩
    · rw [parse_render hprintable]
    · rw [parse_render hprintable]
      exact comesBackAs_rereadAll _ _
  · exact ⟨fun statement hmem => (printable_parse source statement hmem).1,
      parse_render_parse source⟩

/-- A program whose values look like the end of a sign, like words and like another line -/
def hostileProgram : Program :=
  { statements :=
      [.letting (Keyword.letWord.tokenAt .start) (.ofToken (nameAt .start "answer"))
        (some (.name (.ofToken (nameAt .start "= let return @\n5")))),
       .returning (Keyword.returnWord.tokenAt .start)
        (some (.name (.ofToken (nameAt .start "let"))))] }

/-- The setting of a command that is called with the name of a file -/
def callOn (path : String) (content : List UInt8) : Setting :=
  { program := "macaque", arguments := [path], entry := fun _ => .file content, input := [],
    user := none, username := none, terminal := false }

/-- The statements of the hostile program come back, and so does the output for a faulty file. -/
theorem parse_undoes_render_hostile :
    hostileProgram.Printable ∧ (parse hostileProgram.render).value.diagnostics = [] ∧
      List.Forall₂ Statement.ComesBackAs hostileProgram.statements
        (parse hostileProgram.render).value.program.statements ∧
      (run (callOn "b" (encode ((run (callOn "a" (encode "let 5; return @"))).written
        .output)))).status = 0 := by
  have hname : Kind.identifier.SpelledBy "answer".toList :=
    .identifier (by decide) (List.all_eq_true.1 (by decide)) fun w => by cases w <;> decide
  have hprintable : hostileProgram.Printable := by
    intro statement hmem
    rcases List.mem_pair.1 hmem with rfl | rfl
    · refine ⟨rfl, hname, ?_⟩
      rintro _ ⟨⟩
      decide
    · refine ⟨rfl, ?_⟩
      rintro _ ⟨⟩
      decide
  obtain ⟨hprograms, -, hruns⟩ := parse_undoes_render
  obtain ⟨hclean, -, hback⟩ := hprograms hostileProgram hprintable
  have hagain := hruns (callOn "a" (encode "let 5; return @"))
    (callOn "b" (encode ((run (callOn "a" (encode "let 5; return @"))).written .output)))
    "a" "b" ⟨{ mode := .check "a" }, by decide, rfl⟩ ⟨{ mode := .check "b" }, by decide, rfl⟩ rfl
  exact ⟨hprintable, hclean, hback, hagain.1⟩

end Macaque.Command

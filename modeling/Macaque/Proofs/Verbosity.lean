import Macaque.Proofs.Arguments
import Macaque.Proofs.Messages
import Macaque.Proofs.Output
import Macaque.Proofs.Sessions

/-!
# Asking for the decisions of the reader

Whoever asks for the decisions of the reader gets a line for each of them among the messages, and
nothing else changes: neither the output nor the exit status, nor any other line of the messages.
Only reading a file as a program takes decisions, so that elsewhere nothing changes at all.

## Architecture

- **Lines of messages**: every message ends its line, so that the lines of the messages are those of
  each message (`messageLines_message`); a notice takes one (`noticeLines_of_oneLine`)
- **Modes**: sessions and lists only warn, which is always reported (`report_louder`); in a check
  the decisions are inserted (`check_louder`)
- **Runs**: `verbosity_adds_lines` puts this together with what the arguments ask for
-/

namespace Macaque

namespace Command

/-! ## Lines of messages -/

/-- The lines that some emissions put among the messages -/
def messageLines (emissions : List Emission) : List (List UInt8) :=
  lines (encode (textOn .messages emissions))

theorem endsLine_message (text : String) : EndsLine (encode (text ++ "\n")) := by
  have hfeed : encode "\n" = [lineFeed] := rfl
  intro byte hbyte
  rw [encode_append, hfeed, List.getLast?_concat] at hbyte
  exact (Option.some.inj hbyte).symm

/-- A message ends its line, so that the next one has lines of its own. -/
theorem messageLines_message (text : String) (later : List Emission) :
    messageLines (messageLine text :: later) =
      lines (encode (text ++ "\n")) ++ messageLines later := by
  have htext : textOn .messages (messageLine text :: later) =
      text ++ "\n" ++ textOn .messages later := String.join_cons
  rw [messageLines, htext, encode_append, lines_append (endsLine_message text)]
  rfl

/-- The lines of a notice that is reported -/
def noticeLines (coloured : Bool) (notice : Notice) : List (List UInt8) :=
  lines (encode (reportLine coloured notice).text)

theorem messageLines_notices (coloured : Bool) (notices : List Notice) (later : List Emission) :
    messageLines (notices.map (reportLine coloured) ++ later) =
      notices.flatMap (noticeLines coloured) ++ messageLines later := by
  induction notices with
  | nil => rfl
  | cons notice notices ih =>
    rw [List.map_cons, List.cons_append, List.flatMap_cons, List.append_assoc, ← ih]
    exact messageLines_message _ _

theorem lines_encode_message {text : String} (h : OneLine text) :
    lines (encode (messageLine text).text) = [encode (messageLine text).text] := by
  have hlines := lines_encode_append h []
  rw [List.append_nil] at hlines
  exact hlines

theorem noticeLines_of_oneLine (coloured : Bool) {notice : Notice} (h : OneLine notice.message) :
    noticeLines coloured notice = [encode (reportLine coloured notice).text] := by
  have hlabel : OneLine ("[" ++ (levelHue notice.level).paintIf coloured
      (Text.padRight 5 notice.level.label) ++ "] ") := by
    cases notice.level <;> cases coloured <;> decide +kernel
  exact lines_encode_message (hlabel.append h)

/-- The line that tells a decision -/
def decisionLine (coloured : Bool) (decision : Decision) : List UInt8 :=
  encode (reportLine coloured decision.notice).text

/-! ## Modes -/

section Report

variable {options : Options} {notices : List Notice}

/-- Warnings are always reported. -/
theorem report_of_warn (h : ∀ notice ∈ notices, notice.level = .warn) :
    report options notices = notices.map (reportLine options.coloured) := by
  have hall : notices.filter (fun notice => options.reports notice.level) = notices := by
    apply List.filter_eq_self.2
    intro notice hmem
    rw [h notice hmem, Options.reports]
    cases options.level <;> rfl
  rw [report, hall]

theorem report_louder (more : Bool) (h : ∀ notice ∈ notices, notice.level = .warn) :
    report (options.louder more) notices = report options notices := by
  rw [report_of_warn h, report_of_warn h]
  rfl

/-- Unless the decisions are asked for, only warnings are reported. -/
theorem report_quiet (h : options.verbose = false) :
    report options notices =
      (notices.filter (·.level = .warn)).map (reportLine options.coloured) := by
  simp [report, Options.reports, Options.level, h]

theorem report_verbose (h : options.verbose = true) :
    report options notices = notices.map (reportLine options.coloured) := by
  simp [report, Options.reports, Options.level, h]

end Report

/-- All lines that an outcome puts among the messages -/
def Outcome.messages (outcome : Outcome) : List (List UInt8) :=
  lines (encode (outcome.written .messages))

/-- An outcome that differs from another one by some lines more among the messages, and by nothing
else -/
structure Outcome.Adds (outcome : Outcome) (added : List (List UInt8)) (more : Outcome) : Prop where
  status : more.status = outcome.status
  output : more.written .output = outcome.written .output
  messages : Inserted outcome.messages added more.messages

theorem Outcome.Adds.refl (outcome : Outcome) : outcome.Adds [] outcome :=
  ⟨rfl, rfl, .refl _⟩

theorem level_of_mem_answers {coloured : Bool} {line : String} {chunk : Session.Chunk}
    (h : chunk ∈ Session.answers coloured line) :
    ∀ notice ∈ chunk.notices, notice.level = .warn := by
  rw [Session.answers_eq] at h
  obtain ⟨token, -, rfl⟩ := List.mem_map.1 h
  exact fun notice hmem => level_of_mem_strays hmem

/-- A session takes no decisions. -/
theorem level_of_mem_chunks {coloured : Bool} {inputs : List (List UInt8)} {chunk : Session.Chunk}
    (h : chunk ∈ (Session.ofLines coloured inputs).chunks) :
    ∀ notice ∈ chunk.notices, notice.level = .warn := by
  have hsilent {chunk : Session.Chunk} (hnone : chunk.notices = []) :
      ∀ notice ∈ chunk.notices, notice.level = .warn := by simp [hnone]
  induction inputs with
  | nil => rcases List.mem_pair.1 h with rfl | rfl <;> exact hsilent rfl
  | cons line later ih =>
    rw [Session.ofLines] at h
    cases hdecode : decode line with
    | none =>
      simp only [Session.reply, hdecode, List.mem_singleton] at h
      exact hsilent (by rw [h]; rfl)
    | some text =>
      simp only [Session.reply, hdecode] at h
      rcases List.mem_append.1 h with hline | hlater
      · rcases List.mem_cons.1 hline with rfl | hanswer
        · exact hsilent rfl
        · exact level_of_mem_answers hanswer
      · exact ih hlater

theorem converse_louder (more : Bool) (options : Options) (user : String) (input : List UInt8) :
    converse (options.louder more) user input = converse options user input := by
  have hchunks : (Session.transcript options.coloured input).chunks.flatMap
      (chunkEmissions (options.louder more)) =
        (Session.transcript options.coloured input).chunks.flatMap (chunkEmissions options) := by
    apply List.flatMap_congr
    intro chunk hmem
    rw [chunkEmissions, report_louder more (level_of_mem_chunks hmem)]
    rfl
  simp only [converse]
  rw [show (options.louder more).coloured = options.coloured from rfl, hchunks]

/-- A list of tokens takes no decisions, and stays as it is when they are asked for. -/
theorem list_louder (more : Bool) (options : Options) (source : String) :
    list (options.louder more) source = list options source := by
  simp only [list, report_louder more (Cursor.level_of_mem_toEnd _)]
  rfl

/-- The lines of a check: the notices that are reported come behind the first line. -/
theorem messages_check {options : Options} {path source : String} {notices : List Notice}
    (hreport : report options (parse source).notices =
      notices.map (reportLine options.coloured)) :
    (check options path source).messages =
      lines (encode ("Parsing " ++ path ++ "..." ++ "\n")) ++
        notices.flatMap (noticeLines options.coloured) ++
        messageLines (((parse source).value.program.statements.map fun statement =>
          outLine statement.render) ++
            (verdict options.coloured path (parse source).value).emissions) := by
  have hemissions : (check options path source).emissions =
      messageLine ("Parsing " ++ path ++ "...") ::
        (notices.map (reportLine options.coloured) ++
          (((parse source).value.program.statements.map fun statement =>
            outLine statement.render) ++
              (verdict options.coloured path (parse source).value).emissions)) := by
    simp [check, Outcome.precededBy, hreport]
  show messageLines (check options path source).emissions = _
  rw [hemissions, messageLines_message, messageLines_notices, List.append_assoc]

/-- Where the decisions are not reported, asking for them adds a line for each of them. -/
theorem check_louder {options : Options} (path source : String) (h : options.verbose = false) :
    ∃ decisions, Decides (stream source) 0 decisions ∧
      decisions.filterMap Decision.diagnostic? = (parse source).value.diagnostics ∧
      (check options path source).Adds (decisions.map (decisionLine options.coloured))
        (check (options.louder true) path source) := by
  obtain ⟨decisions, hdecides, hnotices, hdiagnostics⟩ := exists_decides_parse source
  refine ⟨decisions, hdecides, hdiagnostics.symm, ?_, ?_, ?_⟩
  · rw [status_check, status_check]
  · rw [written_check, written_check]
  · -- what is no warning is the notice of a decision
    have hlevel : (fun notice : Notice => !decide (notice.level = .warn)) =
        fun notice => decide (notice.level = .debug) := by
      funext notice
      cases notice <;> rfl
    have hdebug : (parse source).notices.filter (fun notice => !decide (notice.level = .warn)) =
        decisions.map Decision.notice := by
      rw [hlevel, hnotices, filter_debug_merged]
    have hlines : (decisions.map Decision.notice).flatMap (noticeLines options.coloured) =
        decisions.map (decisionLine options.coloured) := by
      rw [List.flatMap_map, List.map_eq_flatMap]
      exact List.flatMap_congr fun decision hmem =>
        noticeLines_of_oneLine _ (hdecides.about decision hmem).oneLine
    -- the notices are the warnings with the decisions inserted, and so are their lines
    have hinserted := (Inserted.filter (fun notice : Notice => decide (notice.level = .warn))
      (parse source).notices).flatMap (noticeLines options.coloured)
    rw [hdebug, hlines] at hinserted
    have hverbose : (options.louder true).verbose = true := Bool.or_true _
    rw [messages_check (report_quiet h), messages_check (report_verbose hverbose)]
    exact hinserted.between _ _

theorem Options.louder_false (options : Options) : options.louder false = options := by
  rw [louder, Bool.or_false]

theorem Options.louder_of_verbose {options : Options} (h : options.verbose = true) (more : Bool) :
    options.louder more = options := by
  rw [louder, h, Bool.true_or, ← h]

/-! ## Runs -/

/-- Whether a setting has the file at a path read as a program, and this is the text of that file -/
def Setting.Reads (setting : Setting) (path source : String) : Prop :=
  setting.Checks path ∧ setting.entry path = .file (encode source)

/-- Where no text is read as a program, there is nothing to decide. -/
theorem perform_louder (more : Bool) {setting : Setting} {options : Options}
    (h : ∀ path source, options.mode = .check path → setting.entry path ≠ .file (encode source)) :
    perform setting (options.louder more) = perform setting options := by
  obtain ⟨mode, verbose, coloured⟩ := options
  cases mode with
  | session => exact converse_louder more ⟨.session, verbose, coloured && setting.terminal⟩ _ _
  | list path =>
    have hlist := funext (list_louder more ⟨.list path, verbose, coloured && setting.terminal⟩)
    exact congrArg (withSource path (setting.entry path)) hlist
  | check path =>
    show withSource path (setting.entry path) _ = withSource path (setting.entry path) _
    rcases withSource_cases path (setting.entry path) with ⟨source, hentry⟩ | ⟨reason, hfails⟩
    · exact absurd hentry (h path source rfl)
    · rw [hfails, hfails]

section Runs

variable {setting : Setting} {flags more : List String}
  (hmore : Inserted setting.arguments flags more) (hflags : ∀ flag ∈ flags, AsksDecisions flag)
include hmore hflags

/-- The arguments are refused as they were, or else the same is performed, with the decisions. -/
theorem run_inserted :
    run { setting with arguments := more } =
      match Options.ofArguments setting.arguments with
      | .error refusal => refuse setting.program refusal
      | .ok options => perform setting (options.louder (!flags.isEmpty)) := by
  rw [run]
  show (match Options.ofArguments more with
    | .error refusal => refuse setting.program refusal
    | .ok options => perform setting options) = _
  rw [decisionSwitch.ofArguments_inserted hmore hflags]
  cases Options.ofArguments setting.arguments <;> rfl

theorem run_unchanged (hnot : ∀ path source, ¬ setting.Reads path source) :
    run { setting with arguments := more } = run setting := by
  rw [run_inserted hmore hflags, run]
  cases hoptions : Options.ofArguments setting.arguments with
  | error refusal => rfl
  | ok options =>
    apply perform_louder
    intro path source hmode hentry
    exact hnot path source ⟨⟨options, hoptions, hmode⟩, hentry⟩

theorem exists_run_check {path source : String} (hreads : setting.Reads path source) :
    ∃ options, run setting = check options path source ∧
      run { setting with arguments := more } =
        check (options.louder (!flags.isEmpty)) path source ∧
      ((∀ argument ∈ setting.arguments, ¬ AsksDecisions argument) → options.verbose = false) := by
  obtain ⟨⟨options, hoptions, hmode⟩, hentry⟩ := hreads
  have hmode' : (options.louder (!flags.isEmpty)).mode = .check path := hmode
  refine ⟨{ options with coloured := options.coloured && setting.terminal }, ?_, ?_, ?_⟩
  · rw [run, hoptions]
    exact perform_check hmode hentry
  · rw [run_inserted hmore hflags, hoptions]
    exact perform_check hmode' hentry
  · intro hquiet
    show options.verbose = false
    exact Options.verbose_of_ofArguments hquiet hoptions

/-- An argument that asks for the decisions of the reader may be put anywhere among the others, and
any number of times. The exit status and the output stay as they are, and among the messages there
are some lines more, each of which tells a decision. Unless a text is read as a program, there is
none; and where none was asked for before, there is one for each token that is skipped where a
statement could begin and for each diagnostic, in order. -/
theorem verbosity_adds_lines :
    (∃ added, (run setting).Adds added (run { setting with arguments := more }) ∧
      ∀ line ∈ added, ∃ coloured notice, notice.level = .debug ∧
        line = encode (reportLine coloured notice).text) ∧
    ((∀ path source, ¬ setting.Reads path source) →
      run { setting with arguments := more } = run setting) ∧
    ∀ path source, setting.Reads path source → flags ≠ [] →
      (∀ argument ∈ setting.arguments, ¬ AsksDecisions argument) →
        ∃ coloured decisions, Decides (stream source) 0 decisions ∧
          decisions.filterMap Decision.diagnostic? = (parse source).value.diagnostics ∧
          (run setting).Adds (decisions.map (decisionLine coloured))
            (run { setting with arguments := more }) := by
  refine ⟨?_, run_unchanged hmore hflags, fun path source hreads hsome hquiet => ?_⟩
  · -- only reading a text as a program takes decisions that could be told
    by_cases hreads : ∃ path source, setting.Reads path source
    · obtain ⟨path, source, hreads⟩ := hreads
      obtain ⟨options, hrun, hrun', -⟩ := exists_run_check hmore hflags hreads
      rw [hrun, hrun']
      have hsame : (check options path source).Adds [] (check options path source) := .refl _
      cases hverbose : options.verbose with
      | true =>
        -- what is told already is not told again
        rw [options.louder_of_verbose hverbose]
        exact ⟨[], hsame, by simp⟩
      | false =>
        cases !flags.isEmpty with
        | false =>
          rw [options.louder_false]
          exact ⟨[], hsame, by simp⟩
        | true =>
          obtain ⟨decisions, -, -, hadds⟩ := check_louder path source hverbose
          refine ⟨_, hadds, fun line hline => ?_⟩
          obtain ⟨decision, -, rfl⟩ := List.mem_map.1 hline
          exact ⟨_, decision.notice, decision.level_notice, rfl⟩
    · rw [run_unchanged hmore hflags fun path source h => hreads ⟨path, source, h⟩]
      exact ⟨[], .refl _, by simp⟩
  · obtain ⟨options, hrun, hrun', hnone⟩ := exists_run_check hmore hflags hreads
    have hflag : (!flags.isEmpty) = true := by simpa using hsome
    obtain ⟨decisions, hdecides, hdiagnostics, hadds⟩ := check_louder path source (hnone hquiet)
    rw [hrun, hrun', hflag]
    exact ⟨_, decisions, hdecides, hdiagnostics, hadds⟩

end Runs

/-- A name is skipped, a statement is dropped, and what is left of it is skipped; the decisions are
asked for twice, in front of the path and behind it. -/
theorem verbosity_adds_lines_faults :
    Inserted ["a"] ["--verbose", "-v"] ["--verbose", "a", "-v"] ∧
      (∀ flag ∈ ["--verbose", "-v"], AsksDecisions flag) ∧
      (callOn "a" (encode "x let 5 @")).Reads "a" "x let 5 @" ∧
      (run { callOn "a" (encode "x let 5 @") with
        arguments := ["--verbose", "a", "-v"] }).status = 1 ∧
      ∃ coloured decisions, Decides (stream "x let 5 @") 0 decisions ∧
        (run (callOn "a" (encode "x let 5 @"))).Adds (decisions.map (decisionLine coloured))
          (run { callOn "a" (encode "x let 5 @") with arguments := ["--verbose", "a", "-v"] }) := by
  have hmore : Inserted ["a"] ["--verbose", "-v"] ["--verbose", "a", "-v"] :=
    .add _ (.keep _ (.add _ .nil))
  have hflags : ∀ flag ∈ ["--verbose", "-v"], AsksDecisions flag := by
    intro flag hmem
    rcases List.mem_pair.1 hmem with rfl | rfl
    · exact .inr rfl
    · exact .inl rfl
  have hreads : (callOn "a" (encode "x let 5 @")).Reads "a" "x let 5 @" :=
    ⟨⟨{ mode := .check "a" }, by decide, rfl⟩, rfl⟩
  have hquiet : ∀ argument ∈ ["a"], ¬ AsksDecisions argument := by
    intro argument hmem
    rw [List.mem_singleton.1 hmem, AsksDecisions]
    decide
  obtain ⟨coloured, decisions, hdecides, -, hadds⟩ :=
    (@verbosity_adds_lines (callOn "a" (encode "x let 5 @")) _ _ hmore hflags).2.2 "a" "x let 5 @"
      hreads (List.cons_ne_nil _ _) hquiet
  refine ⟨hmore, hflags, hreads, ?_, coloured, decisions, hdecides, hadds⟩
  rw [hadds.status]
  decide +kernel

end Command

end Macaque

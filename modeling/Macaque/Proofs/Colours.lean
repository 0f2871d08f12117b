import Macaque.Proofs.Arguments
import Macaque.Proofs.Output
import Macaque.Proofs.Sequences

/-!
# Colours as decoration

On a terminal the command writes what it writes elsewhere, with escape sequences in between. They
come from the command alone: a text that it repeats may have introducers, but none of them begins a
sequence, neither with what follows in that text nor with what the command writes behind it.

## Architecture

- **Pieces**: `Emission.Decorates` compares what is written piece by piece; `decorates_textOn` goes
  on to all that is written on a channel
- **Modes**: each mode with colours decorates what it writes without them (`decorates_check`,
  `decorates_list`, `decorates_converse`); what depends on no option is left as it is
- **Runs**: `colours_decorate`
-/

namespace Macaque

open Text

/-! ## Programs -/

/-- What a source text is read as is printed in letters, blanks and signs. -/
theorem Statement.graphic_render {statement : Statement} (h : statement.Printable)
    (hvalue : statement.value = none) : Graphic statement.render := by
  cases statement with
  | letting token name value =>
    obtain ⟨hword, hname, -⟩ := h
    obtain rfl : value = none := hvalue
    have hopening : Graphic (token.literal ++ " ") := by
      rw [hword]
      decide
    have hnamed : Graphic name.render := hname.graphic (by decide)
    exact (((hopening.append hnamed).append (by decide)).append (by decide)).append (by decide)
  | returning token value =>
    obtain ⟨hword, -⟩ := h
    obtain rfl : value = none := hvalue
    rw [render, hword]
    decide

/-- What is wrong with a source text is said in graphic characters. -/
theorem graphic_of_mem_diagnostics {source : String} {diagnostic : Diagnostic}
    (h : diagnostic ∈ (parse source).value.diagnostics) : Graphic diagnostic.message := by
  obtain ⟨decisions, hdecides, -, hdiagnostics⟩ := exists_decides_parse source
  rw [hdiagnostics] at h
  -- a diagnostic is what a statement is dropped for, and that is a token of an unexpected kind
  obtain ⟨decision, hmem, hdiagnostic⟩ := List.mem_filterMap.1 h
  have habout := hdecides.about decision hmem
  cases decision with
  | skips index token => cases hdiagnostic
  | drops index dropped =>
    obtain rfl : dropped = diagnostic := Option.some.inj hdiagnostic
    cases habout with
    | dropped expected found => exact Diagnostic.graphic_message expected found

namespace Command

/-! ## Pieces -/

/-- A piece on the same channel that decorates the text of another one -/
structure Emission.Decorates (shown plain : Emission) : Prop where
  channel : shown.channel = plain.channel
  text : Text.Decorates shown.text plain.text

/-- An outcome that decorates another one piece by piece, and has its status -/
structure Outcome.Decorates (shown plain : Outcome) : Prop where
  emissions : List.Forall₂ Emission.Decorates shown.emissions plain.emissions
  status : shown.status = plain.status

theorem decorates_messageLine {shown plain : String} (h : Text.Decorates shown plain) :
    (messageLine shown).Decorates (messageLine plain) :=
  ⟨rfl, h.append (Inert.decorates (by decide))⟩

theorem decorates_outLine {shown plain : String} (h : Text.Decorates shown plain) :
    (outLine shown).Decorates (outLine plain) :=
  ⟨rfl, h.append (Inert.decorates (by decide))⟩

theorem decorates_map {α : Type} {shown plain : α → Emission} {items : List α}
    (h : ∀ item ∈ items, (shown item).Decorates (plain item)) :
    List.Forall₂ Emission.Decorates (items.map shown) (items.map plain) := by
  rw [List.forall₂_map_left_iff, List.forall₂_map_right_iff]
  exact List.forall₂_same.2 h

theorem decorates_flatMap {α : Type} {shown plain : α → List Emission} {items : List α}
    (h : ∀ item ∈ items, List.Forall₂ Emission.Decorates (shown item) (plain item)) :
    List.Forall₂ Emission.Decorates (items.flatMap shown) (items.flatMap plain) := by
  induction items with
  | nil => exact .nil
  | cons item items ih =>
    rw [List.forall_mem_cons] at h
    exact List.rel_append h.1 (ih h.2)

theorem Outcome.Decorates.precededBy {shown plain : Outcome} (h : shown.Decorates plain)
    {before before' : List Emission} (hbefore : List.Forall₂ Emission.Decorates before before') :
    (shown.precededBy before).Decorates (plain.precededBy before') :=
  ⟨List.rel_append hbefore h.emissions, h.status⟩

theorem decorates_textOn (channel : Channel) {shown plain : List Emission}
    (h : List.Forall₂ Emission.Decorates shown plain) :
    Text.Decorates (textOn channel shown) (textOn channel plain) := by
  induction h with
  | nil => exact Inert.decorates (show Inert "" by decide)
  | cons hfirst _ ih =>
    rw [textOn_cons, textOn_cons, hfirst.channel]
    split
    · exact hfirst.text.append ih
    · exact (Inert.decorates (by decide)).append ih

/-! ## Messages -/

theorem decorates_report (options : Options) {source : String} {notices : List Notice}
    (h : ∀ notice ∈ notices, notice.About source) :
    List.Forall₂ Emission.Decorates (report options notices)
      (report { options with coloured := false } notices) := by
  apply decorates_map
  intro notice hmem
  have hlabel : Inert (padRight 5 notice.level.label) := by
    cases notice.level <;> decide
  have hopening : Inert "[" := by decide
  have hclosing : Inert "] " := by decide
  exact decorates_messageLine (((hopening.decorates.append
    (Hue.decorates_paintIf _ options.coloured hlabel)).append hclosing.decorates).append
      (h notice (List.mem_of_mem_filter hmem)).decorates)

theorem decorates_diagnosticLines (coloured : Bool) {path : String} (hpath : Inert path)
    {diagnostic : Diagnostic} (h : Graphic diagnostic.message) :
    List.Forall₂ Emission.Decorates (diagnosticLines coloured path diagnostic)
      (diagnosticLines false path diagnostic) := by
  have herror : Inert "error" := by decide
  have hcolon : Inert ": " := by decide
  have hplace : Inert ("  --> " ++ path ++ ":" ++ diagnostic.location.render) :=
    ((Lacks.append (by decide) hpath).append (by decide)).append
      diagnostic.location.graphic_render.inert
  have hlabel := ((Hue.red.decorates_paintBoldIf coloured herror).append hcolon.decorates).append
    h.inert.decorates
  exact .cons (decorates_messageLine hlabel) (.cons (decorates_messageLine hplace.decorates) .nil)

theorem decorates_verdict (coloured : Bool) {path : String} (hpath : Inert path) {parse : Parse}
    (h : ∀ diagnostic ∈ parse.diagnostics, Graphic diagnostic.message) :
    (verdict coloured path parse).Decorates (verdict false path parse) := by
  unfold verdict
  split
  · have hfailed : Inert ("Parsing failed with " ++ toString parse.diagnostics.length ++
        " error(s); " ++ toString parse.program.size ++ " statement(s) recovered.") :=
      (((Lacks.append (by decide) (graphic_toString _).inert).append (by decide)).append
        (graphic_toString _).inert).append (by decide)
    refine ⟨List.rel_append ?_ (.cons (decorates_messageLine hfailed.decorates) .nil), rfl⟩
    exact decorates_flatMap fun diagnostic hmem =>
      decorates_diagnosticLines coloured hpath (h diagnostic hmem)
  · have hdone : Inert ("Parsed successfully. Found " ++ toString parse.program.size ++
        " top-level statements.") :=
      (Lacks.append (by decide) (graphic_toString _).inert).append (by decide)
    exact ⟨.cons (decorates_messageLine hdone.decorates) .nil, rfl⟩

theorem decorates_giveUp (failure : Failure) : (giveUp failure).Decorates (giveUp failure) := by
  have hmessage : Inert ("Error: " ++ failure.render) :=
    Lacks.append (by decide) failure.graphic_render.inert
  exact ⟨.cons (decorates_messageLine hmessage.decorates) .nil, rfl⟩

/-! ## Modes -/

section Modes

variable (options : Options)

theorem decorates_check {path : String} (hpath : Inert path) (source : String) :
    (check options path source).Decorates
      (check { options with coloured := false } path source) := by
  have hopening : Inert ("Parsing " ++ path ++ "...") :=
    (Lacks.append (by decide) hpath).append (by decide)
  -- the first line, the notices and the statements stand before the verdict
  refine (decorates_verdict options.coloured hpath fun diagnostic hmem =>
    graphic_of_mem_diagnostics hmem).precededBy (List.rel_append (.cons ?_ ?_) ?_)
  · exact decorates_messageLine hopening.decorates
  · exact decorates_report options fun notice hmem => about_of_mem_parse hmem
  · apply decorates_map
    intro statement hmem
    obtain ⟨hprintable, hvalue⟩ := printable_parse source statement hmem
    exact decorates_outLine (statement.graphic_render hprintable hvalue).inert.decorates

theorem decorates_list (source : String) :
    (list options source).Decorates (list { options with coloured := false } source) := by
  -- the notices, the tokens and their count
  refine ⟨List.rel_append (List.rel_append ?_ ?_) ?_, rfl⟩
  · have habout : ∀ notice ∈ (Cursor.ofText source).toEnd.notices, notice.About source := by
      rw [Cursor.notices_toEnd]
      exact fun notice hmem => about_of_mem_strays hmem
    exact decorates_report options habout
  · exact decorates_map fun token _ => decorates_outLine (token.decorates_row options.coloured)
  · split
    · exact .nil
    · have hfound : Inert ("Found " ++ toString ((Cursor.ofText source).toEnd.value.countP
          fun token => token.kind = .illegal) ++ " illegal token(s).") :=
        (Lacks.append (by decide) (graphic_toString _).inert).append (by decide)
      exact .cons (decorates_messageLine hfound.decorates) .nil

theorem decorates_chunk (tokens : List Token) {shown plain : String}
    (h : Text.Decorates shown plain) :
    List.Forall₂ Emission.Decorates (chunkEmissions options ⟨strays tokens, shown⟩)
      (chunkEmissions { options with coloured := false } ⟨strays tokens, plain⟩) := by
  have habout : ∀ notice ∈ strays tokens, notice.About "" := fun notice hmem =>
    about_of_mem_strays hmem
  exact List.rel_append (decorates_report options habout) (.cons ⟨rfl, h⟩ .nil)

theorem decorates_answers (line : String) :
    List.Forall₂ Emission.Decorates
      ((Session.answers options.coloured line).flatMap (chunkEmissions options))
      ((Session.answers false line).flatMap
        (chunkEmissions { options with coloured := false })) := by
  rw [Session.answers_eq, Session.answers_eq, List.flatMap_map, List.flatMap_map]
  exact decorates_flatMap fun token _ => decorates_chunk options [token]
    ((token.decorates_entry options.coloured).append (Inert.decorates (by decide)))

/-- A session with colours decorates one without, up to the line that it fails at. -/
theorem decorates_chunks (inputs : List (List UInt8)) :
    List.Forall₂ Emission.Decorates
        ((Session.ofLines options.coloured inputs).chunks.flatMap (chunkEmissions options))
        ((Session.ofLines false inputs).chunks.flatMap
          (chunkEmissions { options with coloured := false })) ∧
      (Session.ofLines options.coloured inputs).failure =
        (Session.ofLines false inputs).failure := by
  have hsign : Inert ">> " := by decide
  have hfeed : Inert "\n" := by decide
  have hprompt := decorates_chunk options [] (Hue.decorates_paintIf .green options.coloured hsign)
  have hfarewell := decorates_chunk options [] hfeed.decorates
  induction inputs with
  | nil =>
    -- the prompt that finds no line
    exact ⟨List.rel_append hprompt (List.rel_append hfarewell .nil), rfl⟩
  | cons line later ih =>
    rw [Session.ofLines, Session.ofLines]
    cases hdecode : decode line with
    | none =>
      -- the prompt for the bad line is the last thing that is written
      simp only [Session.reply, hdecode]
      exact ⟨List.rel_append hprompt .nil, trivial⟩
    | some text =>
      simp only [Session.reply, hdecode, List.flatMap_append, List.cons_append, List.flatMap_cons]
      exact ⟨List.rel_append hprompt (List.rel_append (decorates_answers options text) ih.1), ih.2⟩

theorem decorates_converse {user : String} (huser : Inert user) (input : List UInt8) :
    (converse options user input).Decorates
      (converse { options with coloured := false } user input) := by
  obtain ⟨hchunks, hfailure⟩ := decorates_chunks options (lines input)
  have hgreeting : Inert (Session.greeting user) := by
    have hpicture : Inert Session.picture := by
      -- line by line
      refine .append (.append (.append (.append (.append (.append ?_ ?_) ?_) ?_) ?_) ?_) ?_
      all_goals decide
    exact ((Lacks.append (by decide) huser).append (by decide)).append hpicture
  unfold converse Session.transcript
  refine Outcome.Decorates.precededBy ?_ (.cons ⟨rfl, hgreeting.decorates⟩ hchunks)
  dsimp only
  rw [hfailure]
  cases (Session.ofLines false (lines input)).failure with
  | none => exact ⟨.nil, rfl⟩
  | some failure => exact decorates_giveUp failure

theorem decorates_withSource {path : String} (hpath : Inert path) (entry : Entry)
    {shown plain : String → Outcome} (h : ∀ source, (shown source).Decorates (plain source)) :
    (withSource path entry shown).Decorates (withSource path entry plain) := by
  cases entry with
  | missing =>
    have hmessage : Inert ("Error: File '" ++ path ++ "' not found") :=
      (Lacks.append (by decide) hpath).append (by decide)
    exact ⟨.cons (decorates_messageLine hmessage.decorates) .nil, rfl⟩
  | unreadable failure => exact decorates_giveUp (.system failure)
  | file content =>
    simp only [withSource]
    cases decode content with
    | none => exact decorates_giveUp .undecodable
    | some source => exact h source

end Modes

/-! ## Runs -/

/-- A setting in which no argument, the name of the program included, and neither name of the user
has an introducer -/
structure Setting.Inert (setting : Setting) : Prop where
  program : Text.Inert setting.program
  arguments : ∀ argument ∈ setting.arguments, Text.Inert argument
  user : ∀ name ∈ setting.user, Text.Inert name
  username : ∀ name ∈ setting.username, Text.Inert name

section Runs

variable {setting : Setting}

theorem Setting.Inert.userName (h : setting.Inert) :
    Text.Inert (Session.userName setting.user setting.username) := by
  unfold Session.userName
  split
  · decide
  · next name hname =>
    split
    · decide
    · rcases Option.or_eq_some_iff.1 hname with huser | ⟨-, husername⟩
      · exact h.user name huser
      · exact h.username name husername

theorem inert_usage {program : String} (h : Text.Inert program) : Text.Inert (usage program) := by
  have hopening : Text.Inert ("Usage: " ++ program) := .append (by decide) h
  -- line by line
  refine .append (.append (.append (.append (.append (.append (.append (.append (.append
    hopening ?_) ?_) ?_) ?_) ?_) ?_) ?_) ?_) ?_
  all_goals decide

theorem inert_refusal {refusal : Refusal}
    (h : ∀ argument ∈ refusal.argument?, Text.Inert argument) : Text.Inert refusal.message := by
  cases refusal with
  | helpRequested => decide
  | unknownFlag flag => exact .append (.append (by decide) (h flag rfl)) (by decide)
  | unexpectedArgument argument => exact .append (.append (by decide) (h argument rfl)) (by decide)
  | missingFile => decide

theorem decorates_refuse {program : String} (hprogram : Text.Inert program) {refusal : Refusal}
    (h : ∀ argument ∈ refusal.argument?, Text.Inert argument) :
    (refuse program refusal).Decorates (refuse program refusal) := by
  have husage := inert_usage hprogram
  have hmessage : Text.Inert ("Error: " ++ refusal.message) := .append (by decide) (inert_refusal h)
  have hempty : Text.Inert "" := by decide
  have hlines := List.Forall₂.cons (decorates_messageLine hmessage.decorates)
    (.cons (decorates_messageLine hempty.decorates)
      (.cons (decorates_messageLine husage.decorates) .nil))
  cases refusal with
  | helpRequested => exact ⟨.cons (decorates_outLine husage.decorates) .nil, rfl⟩
  | _ => exact ⟨hlines, rfl⟩

theorem decorates_run (h : setting.Inert) :
    (run setting).Decorates (run { setting with terminal := false }) := by
  simp only [run]
  cases hoptions : Options.ofArguments setting.arguments with
  | error refusal =>
    exact decorates_refuse h.program fun argument hmem =>
      h.arguments argument (argument_mem_of_ofArguments hoptions argument hmem)
  | ok options =>
    -- a path is repeated in messages, and it is one of the arguments
    have hpath : ∀ path ∈ options.mode.path?, Text.Inert path := fun path hmem =>
      h.arguments path (path_mem_of_ofArguments hoptions path hmem)
    obtain ⟨mode, verbose, coloured⟩ := options
    simp only [perform, Bool.and_false]
    cases mode with
    | session =>
      exact decorates_converse ⟨.session, verbose, coloured && setting.terminal⟩ h.userName _
    | check path =>
      exact decorates_withSource (hpath path rfl) _
        (decorates_check ⟨.check path, verbose, coloured && setting.terminal⟩ (hpath path rfl))
    | list path =>
      exact decorates_withSource (hpath path rfl) _
        (decorates_list ⟨.list path, verbose, coloured && setting.terminal⟩)

/-- Where an argument refuses colours, the command does what it does without a terminal. -/
theorem run_plain {more : List String} (h : Inserted setting.arguments ["--no-color"] more)
    (terminal : Bool) :
    run { setting with arguments := more, terminal } = run { setting with terminal := false } := by
  have hflags : ∀ flag ∈ ["--no-color"], plainSwitch.Flag flag := fun flag hmem =>
    List.mem_singleton.1 hmem
  have harguments : Options.ofArguments more =
      (Options.ofArguments setting.arguments).map (Options.plainer true) :=
    plainSwitch.ofArguments_inserted h hflags
  simp only [run, harguments]
  cases Options.ofArguments setting.arguments with
  | error refusal => rfl
  | ok options =>
    -- colours are refused, or there is no terminal for them
    simp [Except.map, perform, Options.plainer]

end Runs

/-- Colours are decoration. Unless an argument or a user's name has an introducer, what the command
writes on a terminal is what it writes elsewhere once all escape sequences are taken out, on both
channels, and it ends with the same status; the files and the input may hold anything. An argument
that refuses colours, wherever it is put, makes a terminal like anything else, and elsewhere it
changes nothing. In particular an entry of any token is decorated only. -/
theorem colours_decorate :
    (∀ setting : Setting, setting.Inert →
      (∀ channel, undecorated ((run { setting with terminal := true }).written channel) =
          (run { setting with terminal := false }).written channel) ∧
        (run { setting with terminal := true }).status =
          (run { setting with terminal := false }).status) ∧
    (∀ (setting : Setting) (more : List String), Inserted setting.arguments ["--no-color"] more →
      ∀ terminal, run { setting with arguments := more, terminal } =
        run { setting with terminal := false }) ∧
    ∀ token : Token, undecorated (token.entry true) = token.entry false := by
  refine ⟨fun setting hinert => ?_, fun setting more hmore => run_plain hmore, fun token =>
    (token.decorates_entry true).undecorated_eq⟩
  -- whether there is a terminal is no text
  have hterminal : { setting with terminal := true }.Inert :=
    ⟨hinert.program, hinert.arguments, hinert.user, hinert.username⟩
  obtain ⟨hemissions, hstatus⟩ := decorates_run hterminal
  exact ⟨fun channel => (decorates_textOn channel hemissions).undecorated_eq, hstatus⟩

/-- A call on a file that holds an escape sequence and an introducer that begins none, with all that
is done reported -/
def sequenceCall : Setting :=
  { callOn "a" (encode "\x1b[0m\x1b let 5;") with arguments := ["-v", "a"] }

/-- The introducers of the file are among the messages, and they stay. -/
theorem colours_decorate_introducers :
    sequenceCall.Inert ∧
      (∃ emission ∈ (run { sequenceCall with terminal := false }).emissions,
        emission.channel = .messages ∧ introducer ∈ emission.text.toList) ∧
      run { sequenceCall with terminal := true } ≠ run { sequenceCall with terminal := false } ∧
      undecorated ((run { sequenceCall with terminal := true }).written .messages) =
        (run { sequenceCall with terminal := false }).written .messages ∧
      Inserted sequenceCall.arguments ["--no-color"] ["-v", "--no-color", "a"] ∧
      run { sequenceCall with arguments := ["-v", "--no-color", "a"], terminal := true } =
        run { sequenceCall with terminal := false } := by
  have hinert : sequenceCall.Inert := by
    refine ⟨by decide, ?_, by simp [sequenceCall, callOn], by simp [sequenceCall, callOn]⟩
    intro argument hmem
    rcases List.mem_pair.1 hmem with rfl | rfl <;> decide
  have hmore : Inserted sequenceCall.arguments ["--no-color"] ["-v", "--no-color", "a"] :=
    .keep _ (.add _ (.keep _ .nil))
  obtain ⟨hruns, hplain, -⟩ := colours_decorate
  exact ⟨hinert, by decide +kernel, by decide +kernel, (hruns sequenceCall hinert).1 .messages,
    hmore, hplain sequenceCall _ hmore true⟩

end Command

end Macaque

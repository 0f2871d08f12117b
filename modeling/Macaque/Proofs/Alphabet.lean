import Macaque.Proofs.Verbosity

/-!
# Reporting characters outside the alphabet

Whether a character belongs to the alphabet is a matter of that character alone. Reading a file
warns of each one before the mark that does not, once and with its place, and it makes no difference
whether the file is read as a program or listed token by token, nor what the character stands in.

## Architecture

- **Alphabet**: `InAlphabet` lists the characters; the others are the stray ones
  (`isStray_iff_not_inAlphabet`)
- **Foreign characters**: `foreign` goes through a source text character by character; the warnings
  about its tokens are about these (`strays_tokens`), by induction on a layout of the text
- **Records**: a warning is told apart from all other messages by how it starts; `warnings_check`
  and `warnings_list` find the same ones
-/

namespace Macaque

/-! ## Alphabet -/

/-- The characters of operators and delimiters -/
def signs : List Char :=
  ['=', '!', '+', '-', '*', '/', '%', '<', '>', ',', ';', '(', ')', '\x7b', '\x7d']

/-- The characters that a source text may hold: blanks, letters, digits and signs, all of them
ASCII -/
def InAlphabet (c : Char) : Prop :=
  c ∈ [' ', '\t', '\n', '\r'] ∨ 'A' ≤ c ∧ c ≤ 'Z' ∨ 'a' ≤ c ∧ c ≤ 'z' ∨ c = '_' ∨
    '0' ≤ c ∧ c ≤ '9' ∨ c ∈ signs

instance : DecidablePred InAlphabet := fun _ => inferInstanceAs (Decidable (_ ∨ _))

theorem mem_signs_iff (c : Char) : c ∈ signs ↔ ∃ s ∈ Symbol.all, c ∈ s.chars := by
  have hsigns : signs.all fun c => Symbol.all.any fun s => c ∈ s.chars := by decide
  have hsymbols : Symbol.all.all fun s => s.chars.all fun c => c ∈ signs := by decide
  simp only [List.all_eq_true, List.any_eq_true, decide_eq_true_eq] at hsigns hsymbols
  exact ⟨hsigns c, fun ⟨s, hs, hc⟩ => hsymbols s hs c hc⟩

theorem inAlphabet_iff (c : Char) :
    InAlphabet c ↔ isBlank c = true ∨ isLetter c = true ∨ isDigit c = true ∨
      ∃ s ∈ Symbol.all, c ∈ s.chars := by
  rw [isBlank_iff, isLetter_iff, isDigit_iff, ← mem_signs_iff, InAlphabet, or_assoc, or_assoc]

/-- Outside the alphabet there are the stray characters, and the mark. -/
theorem isStray_iff_not_inAlphabet {c : Char} (hmark : c ≠ endMark) :
    IsStray c ↔ ¬ InAlphabet c := by
  rw [isStray_iff, inAlphabet_iff]
  simp [hmark, not_or]

/-! ## Foreign characters -/

/-- The characters of a text that starts at `location`, each with its place -/
def placed (location : Location) : List Char → List (Char × Location)
  | [] => []
  | c :: rest => (c, location) :: placed (location.advance c) rest

/-- The characters of a text that are not in the alphabet, each with its place -/
def foreignFrom (location : Location) (text : List Char) : List (Char × Location) :=
  (placed location text).filter fun item => ¬ InAlphabet item.1

/-- The characters of a source text up to its mark that are not in the alphabet, in order and each
with its place -/
def foreign (source : String) : List (Char × Location) :=
  foreignFrom .start (source.toList.takeWhile (· ≠ endMark))

/-- The warning about a character with its place -/
def Notice.ofItem (item : Char × Location) : Notice :=
  .stray item.1 item.2

theorem placed_append (location : Location) (first second : List Char) :
    placed location (first ++ second) =
      placed location first ++ placed (location.after first) second := by
  induction first generalizing location with
  | nil => rfl
  | cons c first ih =>
    rw [List.cons_append, placed, placed, ih]
    rfl

theorem foreignFrom_append (location : Location) (first second : List Char) :
    foreignFrom location (first ++ second) =
      foreignFrom location first ++ foreignFrom (location.after first) second := by
  rw [foreignFrom, placed_append, List.filter_append]
  rfl

theorem foreignFrom_of_inAlphabet {location : Location} {text : List Char}
    (h : ∀ c ∈ text, InAlphabet c) : foreignFrom location text = [] := by
  induction text generalizing location with
  | nil => rfl
  | cons c text ih =>
    rw [List.forall_mem_cons] at h
    have hrest : foreignFrom (location.advance c) text = [] := ih h.2
    have hfirst : decide (¬ InAlphabet c) = false := decide_eq_false (not_not_intro h.1)
    rw [foreignFrom, placed, List.filter_cons_of_neg (by simp [hfirst])]
    exact hrest

/-- Of the lexemes, those with a foreign character are the ones that are warned of. -/
theorem Lexeme.Valid.notices_eq {lexeme : Lexeme} (h : lexeme.Valid) (location : Location) :
    lexeme.notices location = (foreignFrom location lexeme.chars).map Notice.ofItem := by
  -- all forms but the last are made of characters of the alphabet, and nothing is remarked on
  cases lexeme with
  | word letters =>
    have hletters : ∀ c ∈ (word letters).chars, InAlphabet c := fun c hc =>
      (inAlphabet_iff c).2 (.inr (.inl (h.2 c hc)))
    rw [foreignFrom_of_inAlphabet hletters]
    rfl
  | number digits =>
    have hdigits : ∀ c ∈ (number digits).chars, InAlphabet c := fun c hc =>
      (inAlphabet_iff c).2 (.inr (.inr (.inl (h.2 c hc))))
    rw [foreignFrom_of_inAlphabet hdigits]
    rfl
  | symbol s =>
    have hsigns : ∀ c ∈ (symbol s).chars, InAlphabet c := fun c hc =>
      (inAlphabet_iff c).2 (.inr (.inr (.inr ⟨s, by cases s <;> decide, hc⟩)))
    rw [foreignFrom_of_inAlphabet hsigns]
    rfl
  | stray c =>
    have hforeign : ¬ InAlphabet c := (isStray_iff_not_inAlphabet (IsStray.ne_endMark h)).1 h
    simp [foreignFrom, chars, placed, hforeign, notices, Notice.ofItem]

theorem strays_place (location : Location) (tiles : List Tile) :
    strays (place location tiles) = (foreignFrom location (lay tiles)).map Notice.ofItem := by
  induction tiles generalizing location with
  | nil => rfl
  | cons tile tiles ih =>
    -- the blanks behind a lexeme are in the alphabet, and they move what comes behind them
    have hgap : ∀ c ∈ tile.gap, InAlphabet c := fun c hc =>
      (inAlphabet_iff c).2 (.inl (tile.blank c hc))
    rw [place, strays_cons, ih, ← Lexeme.notices_eq_strays, tile.valid.notices_eq, lay_cons,
      foreignFrom_append, Tile.chars, foreignFrom_append, foreignFrom_of_inAlphabet hgap,
      List.append_nil, List.map_append]

/-- The tokens of a source text are warned of exactly where it holds a foreign character. -/
theorem strays_tokens (source : String) :
    strays (tokens source) = (foreign source).map Notice.ofItem := by
  obtain ⟨layout, hlayout⟩ := exists_layout_source source
  -- neither the blanks in front of the tiles nor the end behind them are warned of
  have hlead : ∀ c ∈ layout.lead, InAlphabet c := fun c hc =>
    (inAlphabet_iff c).2 (.inl (layout.lead_blank c hc))
  have hend : strays [.endAt (Location.start.after layout.chars)] = [] :=
    strays_of_legal (by simp [Token.endAt])
  rw [tokens_eq_place hlayout, strays_append, hend, List.append_nil, strays_place, foreign,
    ← hlayout, Layout.chars, foreignFrom_append, foreignFrom_of_inAlphabet hlead, List.nil_append]

/-- There are as many illegal tokens as foreign characters. -/
theorem countP_illegal (source : String) :
    (tokens source).countP (fun token => token.kind = .illegal) = (foreign source).length := by
  have hlength := congrArg List.length (strays_tokens source)
  rw [strays, List.length_map, List.length_map] at hlength
  rw [List.countP_eq_length_filter, ← hlength]

namespace Command

/-! ## Records -/

/-- How the record of a notice starts: with its level -/
def recordStart (coloured : Bool) (level : Level) : String :=
  "[" ++ (levelHue level).paintIf coloured (Text.padRight 5 level.label) ++ "] "

/-- Whether something written is the record of a warning -/
def Emission.IsWarning (coloured : Bool) (emission : Emission) : Prop :=
  emission.channel = .messages ∧
    (recordStart coloured .warn).toList <+: emission.text.toList

instance (coloured : Bool) : DecidablePred (Emission.IsWarning coloured) :=
  fun _ => inferInstanceAs (Decidable (_ ∧ _))

/-- The records of warnings among all that is written, in order -/
def Outcome.warnings (coloured : Bool) (outcome : Outcome) : List Emission :=
  outcome.emissions.filter (·.IsWarning coloured)

/-- The record that warns of a foreign character -/
def foreignRecord (coloured : Bool) (item : Char × Location) : Emission :=
  reportLine coloured (.ofItem item)

/-- Texts that differ within their first `n` characters do not start one another, however they go
on. -/
theorem not_isPrefix_of_take_ne {start first : List Char} (n : Nat) (hstart : n ≤ start.length)
    (hfirst : n ≤ first.length) (hne : start.take n ≠ first.take n) (rest : List Char) :
    ¬ start <+: first ++ rest := by
  rintro ⟨more, hmore⟩
  apply hne
  have htake := congrArg (List.take n) hmore
  rwa [List.take_append_of_le_length hstart, List.take_append_of_le_length hfirst] at htake

theorem isWarning_reportLine (coloured : Bool) (notice : Notice) :
    (reportLine coloured notice).IsWarning coloured ↔ notice.level = .warn := by
  have hrecord : reportLine coloured notice =
      messageLine (recordStart coloured notice.level ++ notice.message) := rfl
  rw [hrecord]
  cases hlevel : notice.level with
  | warn =>
    refine iff_of_true ⟨rfl, ?_⟩ rfl
    rw [messageLine, String.append_assoc, String.toList_append]
    exact List.prefix_append _ _
  | debug =>
    refine iff_of_false ?_ (by decide)
    rintro ⟨-, hstart⟩
    rw [messageLine, String.append_assoc, String.toList_append] at hstart
    -- colours differ behind what all their sequences start with
    revert hstart
    cases coloured with
    | false => exact not_isPrefix_of_take_ne 2 (by decide) (by decide) (by decide +kernel) _
    | true =>
      exact not_isPrefix_of_take_ne 9 (by decide +kernel) (by decide +kernel) (by decide +kernel) _

theorem warnings_report (options : Options) (notices : List Notice) :
    (report options notices).filter (·.IsWarning options.coloured) =
      (notices.filter (·.level = .warn)).map (reportLine options.coloured) := by
  rw [report, List.filter_map, List.filter_filter]
  congr 1
  apply List.filter_congr
  intro notice _
  -- warnings are reported whatever the options, and of what is reported they alone start so
  have hreports : notice.level = .warn → options.reports notice.level = true := by
    intro hwarn
    rw [hwarn, Options.reports]
    cases options.level <;> rfl
  simp only [Function.comp_apply, isWarning_reportLine]
  by_cases hwarn : notice.level = .warn
  · rw [hreports hwarn, Bool.and_true]
  · rw [decide_eq_false hwarn, Bool.false_and]

/-- What is written to the output is no message. -/
theorem warnings_outLines {α : Type} (coloured : Bool) (items : List α) (text : α → String) :
    (items.map fun item => outLine (text item)).filter (·.IsWarning coloured) = [] := by
  apply List.filter_eq_nil_iff.2
  intro emission hmem
  obtain ⟨item, -, rfl⟩ := List.mem_map.1 hmem
  simp [Emission.IsWarning, outLine]

theorem head?_toList_append {first : String} {c : Char} (h : first.toList.head? = some c)
    (rest : String) : (first ++ rest).toList.head? = some c := by
  rw [String.toList_append, List.head?_append, h]
  rfl

/-- Messages that start with another character than records are no warnings. -/
theorem not_isWarning_of_head {coloured : Bool} {text : String} {c : Char}
    (hhead : text.toList.head? = some c) (hc : c ≠ '[') :
    ¬ (messageLine text).IsWarning coloured := by
  rintro ⟨-, more, hmore⟩
  -- the bracket stands in front of the colour
  have hstart : (recordStart coloured .warn).toList.head? = some '[' :=
    head?_toList_append (head?_toList_append (by decide) _) _
  have hsame := congrArg List.head? hmore
  rw [List.head?_append, hstart, messageLine, head?_toList_append hhead] at hsame
  exact hc (Option.some.inj hsame).symm

/-- What is said in the end of a check is no warning. -/
theorem warnings_verdict (coloured : Bool) (path : String) (parse : Parse) :
    (verdict coloured path parse).warnings coloured = [] := by
  apply List.filter_eq_nil_iff.2
  intro emission hmem
  rw [decide_eq_true_eq]
  -- each of the lines is told apart from a record by its first character
  unfold verdict at hmem
  split at hmem
  · rcases List.mem_append.1 hmem with hlines | hlast
    · obtain ⟨diagnostic, -, hline⟩ := List.mem_flatMap.1 hlines
      rcases List.mem_pair.1 hline with rfl | rfl
      · -- the label starts with its colour, if it has one
        obtain ⟨c, hlabel, hc⟩ : ∃ c, (Text.Hue.red.paintBoldIf coloured "error").toList.head? =
            some c ∧ c ≠ '[' := by
          cases coloured with
          | false => exact ⟨'e', by decide, by decide⟩
          | true => exact ⟨'\x1b', by decide +kernel, by decide⟩
        exact not_isWarning_of_head (head?_toList_append (head?_toList_append hlabel _) _) hc
      · have hopening : "  --> ".toList.head? = some ' ' := by decide
        exact not_isWarning_of_head (head?_toList_append (head?_toList_append
          (head?_toList_append hopening _) _) _) (by decide)
    · rw [List.mem_singleton.1 hlast]
      have hopening : "Parsing failed with ".toList.head? = some 'P' := by decide
      exact not_isWarning_of_head (head?_toList_append (head?_toList_append (head?_toList_append
        (head?_toList_append hopening _) _) _) _) (by decide)
  · rw [List.mem_singleton.1 hmem]
    have hopening : "Parsed successfully. Found ".toList.head? = some 'P' := by decide
    exact not_isWarning_of_head (head?_toList_append (head?_toList_append hopening _) _)
      (by decide)

/-! ## The two modes -/

section Modes

variable (options : Options)

theorem warnings_check (path source : String) :
    (check options path source).warnings options.coloured =
      (foreign source).map (foreignRecord options.coloured) := by
  have hopening : ¬ (messageLine ("Parsing " ++ path ++ "...")).IsWarning options.coloured := by
    have hhead : "Parsing ".toList.head? = some 'P' := by decide
    exact not_isWarning_of_head (head?_toList_append (head?_toList_append hhead _) _) (by decide)
  have hverdict := warnings_verdict options.coloured path (parse source).value
  rw [Outcome.warnings] at hverdict
  rw [Outcome.warnings, check, Outcome.precededBy, List.filter_append, hverdict, List.append_nil,
    List.cons_append, List.filter_cons_of_neg (by simpa using hopening), List.filter_append,
    warnings_report, warnings_outLines, List.append_nil, filter_warn_parse, strays_tokens,
    List.map_map]
  rfl

/-- The line that counts the illegal tokens; where there are none, there is no such line -/
def countLines (count : Nat) : List Emission :=
  if count = 0 then []
  else [messageLine ("Found " ++ toString count ++ " illegal token(s).")]

/-- A list of tokens consists of the records of foreign characters, the tokens, and the count. -/
theorem list_eq (source : String) :
    list options source =
      { emissions :=
          (foreign source).map (foreignRecord options.coloured) ++
            (tokens source).map (fun token => outLine (token.row options.coloured)) ++
              countLines (foreign source).length,
        status := if foreign source = [] then 0 else 1 } := by
  have hreport : report options (Cursor.ofText source).toEnd.notices =
      (foreign source).map (foreignRecord options.coloured) := by
    rw [report_of_warn (Cursor.level_of_mem_toEnd _), Cursor.notices_toEnd, ← tokens,
      strays_tokens, List.map_map]
    rfl
  -- the tokens are counted that are warned of
  have hcount := countP_illegal source
  rw [tokens] at hcount
  simp only [list, hreport, hcount, countLines, List.length_eq_zero_iff]
  rfl

theorem warnings_list (source : String) :
    (list options source).warnings options.coloured =
      (foreign source).map (foreignRecord options.coloured) := by
  have hrecords : ∀ emission ∈ (foreign source).map (foreignRecord options.coloured),
      emission.IsWarning options.coloured := by
    intro emission hmem
    obtain ⟨item, -, rfl⟩ := List.mem_map.1 hmem
    exact (isWarning_reportLine _ _).2 rfl
  have hcount :
      (countLines (foreign source).length).filter (·.IsWarning options.coloured) = [] := by
    unfold countLines
    split
    · rfl
    · have hhead : "Found ".toList.head? = some 'F' := by decide
      have hfound : ¬ (messageLine ("Found " ++ toString (foreign source).length ++
          " illegal token(s).")).IsWarning options.coloured :=
        not_isWarning_of_head (head?_toList_append (head?_toList_append hhead _) _) (by decide)
      rw [List.filter_cons_of_neg (by simpa using hfound), List.filter_nil]
  rw [list_eq, Outcome.warnings, List.filter_append, List.filter_append, hcount, List.append_nil,
    warnings_outLines, List.append_nil, List.filter_eq_self.2 (by simpa using hrecords)]

theorem oneLine_foreign {source : String} {item : Char × Location} (h : item ∈ foreign source) :
    OneLine (Notice.ofItem item).message := by
  have hmem : Notice.ofItem item ∈ strays (tokens source) := by
    rw [strays_tokens]
    exact List.mem_map_of_mem h
  have habout : (Notice.ofItem item).About source := about_of_mem_strays hmem
  exact habout.oneLine

/-- The messages of a list of tokens are a line for each foreign character, and the count. -/
theorem messages_list (source : String) :
    (list options source).messages =
      (foreign source).map (fun item => encode (foreignRecord options.coloured item).text) ++
        (countLines (foreign source).length).map (fun line => encode line.text) := by
  -- the tokens themselves are no messages, so that the count comes at once behind the records
  have hrows (later : List Emission) :
      messageLines ((tokens source).map (fun token => outLine (token.row options.coloured)) ++
        later) = messageLines later := by
    rw [messageLines, textOn_append, textOn_eq_empty, String.empty_append]
    · rfl
    · intro emission hmem
      obtain ⟨token, -, rfl⟩ := List.mem_map.1 hmem
      rintro ⟨⟩
  have hcount : messageLines (countLines (foreign source).length) =
      (countLines (foreign source).length).map (fun line => encode line.text) := by
    unfold countLines
    split
    · rfl
    · have hfound :
          OneLine ("Found " ++ toString (foreign source).length ++ " illegal token(s).") :=
        (Lacks.append (by decide) (graphic_toString _).oneLine).append (by decide)
      rw [messageLines_message]
      exact congrArg (· ++ []) (lines_encode_message hfound)
  have hrecords : ((foreign source).map Notice.ofItem).flatMap (noticeLines options.coloured) =
      (foreign source).map (fun item => encode (foreignRecord options.coloured item).text) := by
    rw [List.flatMap_map, List.map_eq_flatMap]
    exact List.flatMap_congr fun item hmem => noticeLines_of_oneLine _ (oneLine_foreign hmem)
  have hmap : (foreign source).map (foreignRecord options.coloured) =
      ((foreign source).map Notice.ofItem).map (reportLine options.coloured) := by
    rw [List.map_map]
    rfl
  show messageLines (list options source).emissions = _
  rw [list_eq, hmap, List.append_assoc, messageLines_notices, hrows, hcount, hrecords]

end Modes

/-- A file is warned of exactly where it holds, before the mark, a character that is not in the
alphabet: each such character has one record with its place, in order, whether the file is read as a
program or listed. A list says at last how many there are and fails, or there are none and it says
nothing. -/
theorem foreign_characters_reported {setting : Setting} {options : Options} {path source : String}
    (hoptions : Options.ofArguments setting.arguments = .ok options)
    (hmode : options.mode = .check path ∨ options.mode = .list path)
    (hentry : setting.entry path = .file (encode source)) :
    (run setting).warnings (options.coloured && setting.terminal) =
        (foreign source).map (foreignRecord (options.coloured && setting.terminal)) ∧
      (options.mode = .list path →
        (run setting).messages =
            (foreign source).map (fun item =>
              encode (foreignRecord (options.coloured && setting.terminal) item).text) ++
              (countLines (foreign source).length).map (fun line => encode line.text) ∧
          (run setting).status = if foreign source = [] then 0 else 1) := by
  -- what is followed are the options with the colours that can be shown
  obtain ⟨shown, hshown⟩ : ∃ shown : Options,
      shown = { options with coloured := options.coloured && setting.terminal } := ⟨_, rfl⟩
  have hcoloured : (options.coloured && setting.terminal) = shown.coloured := by rw [hshown]
  rw [run, hoptions, hcoloured]
  show (perform setting options).warnings _ = _ ∧ (_ → (perform setting options).messages = _ ∧
    (perform setting options).status = _)
  rcases hmode with hcheck | hlist
  · rw [perform_check hcheck hentry, ← hshown]
    exact ⟨warnings_check shown path source, fun hlist => by simp [hcheck] at hlist⟩
  · rw [perform_list hlist hentry, ← hshown]
    exact ⟨warnings_list shown source, fun _ => ⟨messages_list shown source, by rw [list_eq]⟩⟩

/-- A foreign character that a statement is dropped for, one in what is left of it, one of two bytes
on the next line, and one behind the mark -/
def strayText : String :=
  "let @ 5 #;\n\té\x00$"

/-- Of the foreign characters of a text, all but the one behind the mark are reported, by a check as
by a list. -/
theorem foreign_characters_reported_dropped :
    foreign strayText = [('@', ⟨1, 5⟩), ('#', ⟨1, 9⟩), ('é', ⟨2, 2⟩)] ∧
      (run (callOn "a" (encode strayText))).warnings false =
        [messageLine "[WARN ] illegal character '@' at 1:5",
         messageLine "[WARN ] illegal character '#' at 1:9",
         messageLine "[WARN ] illegal character 'é' at 2:2"] ∧
      (run { callOn "a" (encode strayText) with arguments := ["--tokens", "a"] }).messages =
        [encode "[WARN ] illegal character '@' at 1:5\n",
         encode "[WARN ] illegal character '#' at 1:9\n",
         encode "[WARN ] illegal character 'é' at 2:2\n",
         encode "Found 3 illegal token(s).\n"] ∧
      (run { callOn "a" (encode strayText) with arguments := ["--tokens", "a"] }).status = 1 := by
  have hforeign : foreign strayText = [('@', ⟨1, 5⟩), ('#', ⟨1, 9⟩), ('é', ⟨2, 2⟩)] := by
    decide +kernel
  have hrecords :
      [('@', ⟨1, 5⟩), ('#', ⟨1, 9⟩), ('é', ⟨2, 2⟩)].map (foreignRecord false) =
        [messageLine "[WARN ] illegal character '@' at 1:5",
         messageLine "[WARN ] illegal character '#' at 1:9",
         messageLine "[WARN ] illegal character 'é' at 2:2"] := by
    decide +kernel
  obtain ⟨hchecked, -⟩ := @foreign_characters_reported (callOn "a" (encode strayText))
    { mode := .check "a" } "a" strayText (by decide) (.inl rfl) rfl
  obtain ⟨-, hlisted⟩ := @foreign_characters_reported
    { callOn "a" (encode strayText) with arguments := ["--tokens", "a"] }
    { mode := .list "a" } "a" strayText (by decide) (.inr rfl) rfl
  obtain ⟨hmessages, hstatus⟩ := hlisted rfl
  refine ⟨hforeign, ?_, ?_, ?_⟩
  · rw [← hrecords, ← hforeign]
    exact hchecked
  · rw [hmessages, hforeign]
    decide +kernel
  · rw [hstatus, hforeign]
    decide

end Command

end Macaque

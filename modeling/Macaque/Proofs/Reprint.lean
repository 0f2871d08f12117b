import Macaque.Proofs.Findings
import Macaque.Proofs.Notices
import Macaque.Proofs.Tokens

/-!
# Printing a program and reading it again

A program that is printed and read again comes back without its values, each statement at the start
of a line of its own. What a value is printed as is passed over, whatever it is, as long as it
neither ends the statement nor the text; the blanks around it keep it apart from the words of the
statement.

## Architecture

- **Class**: `Statement.Printable` says which statements come back; `printable_parse` that this goes
  for whatever is read from a source text
- **One line**: `pastSemicolon_toEnd` passes a value, `toEnd_letWords` reads what stands in front of
  it, and `findings_line` reads the line of a statement
- **All lines**: `findings_lines` reads a program, by induction on its statements, and
  `parse_render` is what comes of it
- **Without values**: the text comes back with the program (`lines_rereadAll`), and each statement
  is on the line of its number (`location_rereadAll`)
-/

namespace Macaque

/-! ## Programs that come back -/

/-- Values whose text ends neither the statement nor the source text -/
def Expression.Plain (expression : Expression) : Prop :=
  ∀ c ∈ expression.render.toList, c ≠ ';' ∧ c ≠ endMark

instance : DecidablePred Expression.Plain := fun expression =>
  List.decidableBAll _ expression.render.toList

def Keyword.tokenAt (location : Location) (w : Keyword) : Token :=
  { kind := .keyword w, literal := w.spelling, location }

def nameAt (location : Location) (name : String) : Token :=
  { kind := .identifier, literal := name, location }

namespace Statement

/-- Statements that are printed with their word, a name that is one, and a plain value -/
def Printable : Statement → Prop
  | letting token name value =>
    token.literal = "let" ∧ Kind.identifier.SpelledBy name.text.toList ∧
      ∀ expression ∈ value, expression.Plain
  | returning token value => token.literal = "return" ∧ ∀ expression ∈ value, expression.Plain

/-- A statement and what comes back of it: the same form and name, without the value -/
inductive ComesBackAs : Statement → Statement → Prop where
  | letting {token token' : Token} {name name' : Name} {value : Option Expression}
      (hname : name'.text = name.text) :
      ComesBackAs (letting token name value) (letting token' name' none)
  | returning {token token' : Token} {value : Option Expression} :
      ComesBackAs (returning token value) (returning token' none)

/-- The line of text that a statement is printed as -/
def line (statement : Statement) : List Char :=
  statement.render.toList ++ ['\n']

/-- The statement that is read from the line of a statement where that starts at `location` -/
def reread (location : Location) : Statement → Statement
  | letting _ name _ =>
    letting (Keyword.letWord.tokenAt location)
      (.ofToken (nameAt (location.after "let ".toList) name.text)) none
  | returning _ _ => returning (Keyword.returnWord.tokenAt location) none

end Statement

def Program.Printable (program : Program) : Prop :=
  ∀ statement ∈ program.statements, statement.Printable

def rereadAll (location : Location) : List Statement → List Statement
  | [] => []
  | statement :: later =>
    statement.reread location :: rereadAll (location.after statement.line) later

/-! ## One line -/

/-- A text without a semicolon or the mark is passed up to the semicolon behind it. -/
theorem pastSemicolon_toEnd {text : List Char} (more : List Char) (location : Location)
    (htext : ∀ c ∈ text, c ≠ ';' ∧ c ≠ endMark) :
    pastSemicolon Token.kind (Cursor.toEnd ⟨text ++ (';' :: more), location⟩).value =
      (Cursor.toEnd ⟨more, location.after (text ++ [';'])⟩).value := by
  obtain ⟨layout, rfl⟩ := exists_layout text fun hmem => (htext _ hmem).2 rfl
  -- nothing goes on with a semicolon, so the text is read as it would be on its own
  have htail : ∀ lexeme : Lexeme, lexeme.EndsBefore (';' :: more) := by
    intro lexeme c hc
    obtain rfl : ';' = c := by simpa using hc
    cases lexeme <;> simp [Lexeme.takes] <;> decide
  -- no lexeme of the text is the semicolon, for then the text would have its character
  have hother : ∀ token ∈ place (location.after layout.lead) layout.tiles,
      token.kind ≠ .symbol .semicolon := by
    intro token htoken hkind
    obtain ⟨tile, hmem, here, rfl⟩ := exists_tile_of_mem_place htoken
    have hspelled := tile.valid.spelledBy_kind
    rw [show tile.lexeme.kind = .symbol .semicolon from hkind] at hspelled
    have hsemicolon : ';' ∈ tile.chars := by
      simp [Tile.chars, hspelled.eq_chars, Symbol.chars]
    have hlaid : ';' ∈ layout.chars :=
      List.mem_append_right _ (List.mem_flatMap.2 ⟨tile, hmem, hsemicolon⟩)
    exact (htext _ hlaid).1 rfl
  have hread := Cursor.toEnd_of_lexeme [] (location.after layout.chars) (by simp)
    (show (Lexeme.symbol .semicolon).Valid from trivial)
    (show (Lexeme.symbol .semicolon).EndsBefore more from fun _ _ => rfl)
  calc
    _ = pastSemicolon Token.kind (place (location.after layout.lead) layout.tiles ++
          (Cursor.toEnd ⟨';' :: more, location.after layout.chars⟩).value) := by
      rw [Layout.chars, List.append_assoc,
        Cursor.toEnd_lay location layout.lead_blank layout.apart htail]
    _ = pastSemicolon Token.kind
          (Cursor.toEnd ⟨';' :: more, location.after layout.chars⟩).value :=
      pastSemicolon_append _ hother
    _ = (Cursor.toEnd ⟨more, (location.after layout.chars).after [';']⟩).value :=
      (congrArg (pastSemicolon Token.kind) hread).trans (if_pos rfl)
    _ = _ := by rw [Location.after_append]

theorem toEnd_keyword (w : Keyword) (more : List Char) (location : Location)
    (hmore : ∀ c ∈ more.head?, isBlank c) :
    (Cursor.toEnd ⟨w.spelling.toList ++ more, location⟩).value =
      w.tokenAt location ::
        (Cursor.toEnd ⟨more, location.after w.spelling.toList⟩).value := by
  have hends := Lexeme.endsBefore_of_isBlank (.word w.spelling.toList) hmore
  have hread := Cursor.toEnd_of_lexeme [] location (by simp) (Lexeme.valid_spelling w) hends
  have hkind : Kind.ofWord w.spelling = .keyword w := (Kind.ofWord_eq_keyword_iff _ w).2 rfl
  simpa [Lexeme.chars, Lexeme.token, Lexeme.kind, Lexeme.text, Keyword.tokenAt, hkind] using hread

/-- A lexeme between blanks is a token of its own. -/
theorem toEnd_spaced {lexeme : Lexeme} (more : List Char) (location : Location)
    (hvalid : lexeme.Valid) (hmore : ∀ c ∈ more.head?, isBlank c) :
    (Cursor.toEnd ⟨' ' :: (lexeme.chars ++ more), location⟩).value =
      lexeme.token (location.after [' ']) ::
        (Cursor.toEnd ⟨more, location.after (' ' :: lexeme.chars)⟩).value :=
  Cursor.toEnd_of_lexeme [' '] location (by simp [isBlank]) hvalid
    (lexeme.endsBefore_of_isBlank hmore)

theorem toEnd_name {name : String} (more : List Char) (location : Location)
    (hname : Kind.identifier.SpelledBy name.toList) (hmore : ∀ c ∈ more.head?, isBlank c) :
    (Cursor.toEnd ⟨' ' :: (name.toList ++ more), location⟩).value =
      nameAt (location.after [' ']) name ::
        (Cursor.toEnd ⟨more, location.after (' ' :: name.toList)⟩).value := by
  have hvalid : (Lexeme.word name.toList).Valid := hname.letters
  have hkind : Kind.ofWord name = .identifier :=
    (Kind.ofWord_eq_identifier_iff name).2 fun w hw => hname.ne_keyword w (congrArg _ hw)
  have hread := toEnd_spaced more location hvalid hmore
  simpa [Lexeme.chars, Lexeme.token, Lexeme.kind, Lexeme.text, nameAt, hkind] using hread

/-- How the line of a `let` statement begins -/
def letWords (name : String) : List Char :=
  Keyword.letWord.spelling.toList ++ (' ' :: (name.toList ++ [' ', '=']))

/-- In front of a blank, the beginning of a `let` statement is read as its three tokens. -/
theorem toEnd_letWords {name : String} (more : List Char) (location : Location)
    (hname : Kind.identifier.SpelledBy name.toList) (hmore : ∀ c ∈ more.head?, isBlank c) :
    ∃ sign : Token, sign.kind = .symbol .assign ∧
      (Cursor.toEnd ⟨letWords name ++ more, location⟩).value =
        Keyword.letWord.tokenAt location :: nameAt (location.after "let ".toList) name :: sign ::
          (Cursor.toEnd ⟨more, location.after (letWords name)⟩).value := by
  have hletRead := toEnd_keyword .letWord (' ' :: (name.toList ++ (' ' :: '=' :: more))) location
    (by simp [isBlank])
  have hnameRead := toEnd_name (' ' :: '=' :: more)
    (location.after Keyword.letWord.spelling.toList) hname (by simp [isBlank])
  have hsignRead := toEnd_spaced more
    ((location.after Keyword.letWord.spelling.toList).after (' ' :: name.toList))
    (show (Lexeme.symbol .assign).Valid from trivial) hmore
  refine ⟨(Lexeme.symbol .assign).token (((location.after Keyword.letWord.spelling.toList).after
    (' ' :: name.toList)).after [' ']), rfl, ?_⟩
  simp only [letWords, List.append_assoc, List.cons_append, List.nil_append]
  rw [hletRead, hnameRead]
  simpa [Location.after_append, Lexeme.chars, Symbol.chars, Keyword.spelling] using hsignRead

/-- How a line goes on after its words: a blank, the value, a semicolon and the line's end -/
def closing (value : Option Expression) : List Char :=
  ' ' :: (Statement.renderValue value).toList ++ [';', '\n']

/-- With a plain value, what a line ends with is passed. -/
theorem pastSemicolon_closing {value : Option Expression} (more : List Char) (location : Location)
    (hvalue : ∀ expression ∈ value, expression.Plain) :
    pastSemicolon Token.kind (Cursor.toEnd ⟨closing value ++ more, location⟩).value =
      (Cursor.toEnd ⟨more, location.after (closing value)⟩).value := by
  -- the blank in front of the value is passed with it, the line's end behind the semicolon is not
  have hplain : ∀ c ∈ ' ' :: (Statement.renderValue value).toList, c ≠ ';' ∧ c ≠ endMark := by
    rw [List.forall_mem_cons]
    refine ⟨by decide, ?_⟩
    cases value with
    | none => simp [Statement.renderValue]
    | some expression => exact hvalue expression rfl
  have hpassed := pastSemicolon_toEnd ('\n' :: more) location hplain
  have hbreak := Cursor.toEnd_of_blanks ['\n'] more
    (location.after (' ' :: (Statement.renderValue value).toList ++ [';'])) (by simp [isBlank])
  calc
    _ = (Cursor.toEnd ⟨['\n'] ++ more,
          location.after (' ' :: (Statement.renderValue value).toList ++ [';'])⟩).value := by
      simpa [closing] using hpassed
    _ = _ := by
      rw [hbreak, ← Location.after_append]
      simp [closing]

/-- The line of a statement is read as that statement. -/
theorem findings_line {statement : Statement} (more : List Char) (location : Location)
    (h : statement.Printable) :
    (Cursor.window ⟨statement.line ++ more, location⟩).findings.value =
      .read (statement.reread location) ::
        (Cursor.window ⟨more, location.after statement.line⟩).findings.value := by
  rw [Cursor.findings_window, Cursor.findings_window]
  cases statement with
  | letting token name value =>
    obtain ⟨hword, hname, hvalue⟩ := h
    have hline : (Statement.letting token name value).line =
        letWords name.text ++ closing value := by
      simp [Statement.line, Statement.render, Name.render, letWords, Keyword.spelling, closing,
        hword]
    -- the blank after the sign keeps it apart from a value that begins with another one
    obtain ⟨sign, hsign, hread⟩ := toEnd_letWords (closing value ++ more) location hname
      (by simp [closing, isBlank])
    have hkeyword : (Keyword.letWord.tokenAt location).kind = .keyword .letWord := rfl
    have hidentifier : (nameAt (location.after "let ".toList) name.text).kind = .identifier := rfl
    rw [hline, List.append_assoc, hread, segments_letting _ hkeyword hidentifier hsign,
      pastSemicolon_closing _ _ hvalue, Location.after_append]
    rfl
  | returning token value =>
    obtain ⟨hword, hvalue⟩ := h
    have hline : (Statement.returning token value).line =
        Keyword.returnWord.spelling.toList ++ closing value := by
      simp [Statement.line, Statement.render, Keyword.spelling, closing, hword]
    -- the blank after the word keeps it apart from a value that begins with letters
    have hread := toEnd_keyword .returnWord (closing value ++ more) location
      (by simp [closing, isBlank])
    have hkeyword : (Keyword.returnWord.tokenAt location).kind = .keyword .returnWord := rfl
    rw [hline, List.append_assoc, hread, segments_returning _ hkeyword,
      pastSemicolon_closing _ _ hvalue, Location.after_append]
    rfl

/-! ## All lines -/

theorem findings_lines {statements : List Statement} (location : Location)
    (h : ∀ statement ∈ statements, statement.Printable) :
    (Cursor.window ⟨statements.flatMap Statement.line, location⟩).findings.value =
      (rereadAll location statements).map .read := by
  induction statements generalizing location with
  | nil =>
    rw [List.flatMap_nil, Window.findings_of_isEnd rfl]
    rfl
  | cons statement later ih =>
    rw [List.forall_mem_cons] at h
    rw [List.flatMap_cons, findings_line _ location h.1, ih _ h.2]
    rfl

theorem Program.toList_render (program : Program) :
    program.render.toList = program.statements.flatMap Statement.line := by
  simp only [Program.render, String.toList_join, List.map_map, List.flatMap_def]
  congr 1
  exact List.map_congr_left fun statement _ => String.toList_append

theorem findings_render {program : Program} (h : program.Printable) :
    (Window.ofCursor (.ofText program.render)).value.findings.value =
      (rereadAll .start program.statements).map .read := by
  have hlines := findings_lines .start h
  rwa [← Program.toList_render] at hlines

/-- Nothing is wrong with the text of a program, and all its statements come back. -/
theorem parse_render {program : Program} (h : program.Printable) :
    (parse program.render).value = ⟨⟨rereadAll .start program.statements⟩, []⟩ := by
  calc
    _ = Parse.ofFindings ((rereadAll .start program.statements).map .read) :=
      congrArg Parse.ofFindings (findings_render h)
    _ = _ := by
      simp [Parse.ofFindings, List.filterMap_map, Function.comp_def, Finding.statement?,
        Finding.diagnostic?]

/-- No token of the text of a program is skipped where a statement may begin. -/
theorem not_skipped_render {program : Program} (h : program.Printable) (token : Token) :
    .skipped token ∉ (parse program.render).notices := by
  intro hmem
  -- a notice of that sort is a decision, and the decisions are those about the findings
  have hdebug : Notice.skipped token ∈
      (parse program.render).notices.filter (·.level = .debug) :=
    List.mem_filter.2 ⟨hmem, rfl⟩
  rw [debug_parse, findings_render h] at hdebug
  simp [Finding.notices] at hdebug

/-- Statement by statement, what comes back has the same form and name. -/
theorem comesBackAs_rereadAll (location : Location) (statements : List Statement) :
    List.Forall₂ Statement.ComesBackAs statements (rereadAll location statements) := by
  induction statements generalizing location with
  | nil => exact .nil
  | cons statement later ih =>
    refine .cons ?_ (ih _)
    cases statement with
    | letting token name value => exact .letting rfl
    | returning token value => exact .returning

/-! ## Programs without values -/

/-- What is read from a source text can be printed and read again, and has no values. -/
theorem printable_parse (source : String) :
    ∀ statement ∈ (parse source).value.program.statements,
      statement.Printable ∧ statement.value = none := by
  -- the kind of a token says what its literal is
  have hword : ∀ {w : Keyword} {token : Token}, token ∈ tokens source →
      token.kind = .keyword w → token.literal = w.spelling := by
    intro w token hmem hkind
    have hspelled := spelledBy_of_mem_tokens hmem (by simp [hkind])
    rw [hkind] at hspelled
    exact String.toList_inj.1 hspelled.eq_spelling
  rw [statements_parse]
  intro statement hmem
  obtain ⟨segment, hsegment, hstatement⟩ := List.mem_filterMap.1 hmem
  have hof := of_mem_segments _ segment hsegment
  cases segment with
  | letting first name =>
    obtain rfl := Option.some.inj hstatement
    obtain ⟨⟨hfirst, hlet⟩, hname, hidentifier⟩ := hof
    have hspelled := spelledBy_of_mem_tokens hname (by simp [hidentifier])
    rw [hidentifier] at hspelled
    exact ⟨⟨hword hfirst hlet, hspelled, by simp⟩, rfl⟩
  | returning first =>
    obtain rfl := Option.some.inj hstatement
    obtain ⟨hfirst, hreturn⟩ := hof
    exact ⟨⟨hword hfirst hreturn, by simp⟩, rfl⟩
  | passed _ => simp [Segment.statement?] at hstatement
  | broken _ _ => simp [Segment.statement?] at hstatement

/-- A statement without a value is printed in letters, blanks and signs, none of which ends its
line. -/
theorem not_feed_render {statement : Statement} (h : statement.Printable)
    (hvalue : statement.value = none) : '\n' ∉ statement.render.toList := by
  cases statement with
  | letting token name value =>
    obtain ⟨hword, hname, -⟩ := h
    obtain rfl : value = none := hvalue
    -- a name may be of any length, but it is all letters
    have hletters : '\n' ∉ name.text.toList := fun hmem =>
      absurd (hname.letters.2 _ hmem) (by decide)
    simp [Statement.render, Name.render, Statement.renderValue, hword, hletters]
  | returning token value =>
    obtain ⟨hword, -⟩ := h
    obtain rfl : value = none := hvalue
    simp [Statement.render, Statement.renderValue, hword]

theorem line_reread {statement : Statement} (location : Location) (h : statement.Printable)
    (hvalue : statement.value = none) : (statement.reread location).line = statement.line := by
  cases statement with
  | letting token name value =>
    obtain ⟨hword, -, -⟩ := h
    obtain rfl : value = none := hvalue
    simp [Statement.line, Statement.render, Statement.reread, Name.render, Name.ofToken, nameAt,
      Keyword.tokenAt, Keyword.spelling, hword]
  | returning token value =>
    obtain ⟨hword, -⟩ := h
    obtain rfl : value = none := hvalue
    simp [Statement.line, Statement.render, Statement.reread, Keyword.tokenAt, Keyword.spelling,
      hword]

theorem lines_rereadAll {statements : List Statement} (location : Location)
    (h : ∀ statement ∈ statements, statement.Printable ∧ statement.value = none) :
    (rereadAll location statements).flatMap Statement.line = statements.flatMap Statement.line := by
  induction statements generalizing location with
  | nil => rfl
  | cons statement later ih =>
    rw [List.forall_mem_cons] at h
    rw [rereadAll, List.flatMap_cons, List.flatMap_cons, line_reread _ h.1.1 h.1.2, ih _ h.2]

/-- Statements without values come back on one line each. -/
theorem location_rereadAll {statements : List Statement} (first : Nat)
    (h : ∀ statement ∈ statements, statement.Printable ∧ statement.value = none) (i : Nat) :
    ∀ statement ∈ (rereadAll ⟨first, 1⟩ statements)[i]?,
      statement.token.location = ⟨first + i, 1⟩ := by
  induction statements generalizing first i with
  | nil => simp [rereadAll]
  | cons statement later ih =>
    rw [List.forall_mem_cons] at h
    have hnext : Location.after ⟨first, 1⟩ statement.line = ⟨first + 1, 1⟩ :=
      Location.after_feed _ (not_feed_render h.1.1 h.1.2)
    rw [rereadAll, hnext]
    cases i with
    | zero =>
      intro read hread
      obtain rfl := Option.some.inj hread
      cases statement <;> rfl
    | succ i =>
      intro read hread
      rw [ih (first + 1) h.2 i read hread]
      simp only [Nat.add_comm, Nat.add_left_comm]

end Macaque

import Macaque.Proofs.Records
import Macaque.Report.Failure
import Macaque.Text.Field

/-!
# The characters of messages

Messages repeat what stands in a source text, and that may be anything. Quoting keeps control
characters out of them; where a text is repeated without quotation, it is the text of one token.

## Architecture

- **Graphic texts**: a text is `Graphic` if it holds no control character; numbers, labels, quoted
  texts and failures are graphic
- **Texts without a character**: `Lacks` is closed under append, and a graphic text lacks every
  control character, so line feeds (`OneLine`) and introducers are looked for in the same way
- **Notices**: `Notice.About` says what reading a text may remark on (`about_of_mem_parse`), and
  `Notice.About.mem_message` that control characters come into its messages from tokens alone
-/

namespace Macaque

/-! ## Graphic texts -/

/-- A text without control characters -/
def Graphic (text : String) : Prop :=
  ∀ c ∈ text.toList, ' ' ≤ c

instance (text : String) : Decidable (Graphic text) :=
  List.decidableBAll (' ' ≤ ·) text.toList

theorem Graphic.append {first second : String} (h : Graphic first) (h' : Graphic second) :
    Graphic (first ++ second) := by
  intro c hc
  rw [String.toList_append] at hc
  rcases List.mem_append.1 hc with hfirst | hsecond
  · exact h c hfirst
  · exact h' c hsecond

/-- What a number is written with are digits of its base. -/
theorem exists_digit_of_mem_toDigits {base n : Nat} (hbase : 1 < base) {c : Char}
    (h : c ∈ Nat.toDigits base n) : ∃ digit < base, c = Nat.digitChar digit := by
  induction n using Nat.strong_induction_on with
  | _ n ih =>
  rw [Nat.toDigits_eq_if hbase] at h
  split at h
  · next hlt => exact ⟨n, hlt, List.mem_singleton.1 h⟩
  · next hge =>
    rcases List.mem_append.1 h with hfront | hlast
    · exact ih _ (Nat.div_lt_self (by omega) hbase) hfront
    · exact ⟨n % base, Nat.mod_lt n (Nat.zero_lt_of_lt hbase), List.mem_singleton.1 hlast⟩

/-- Digits are graphic characters, those above nine too. -/
theorem graphic_of_mem_toDigits {base n : Nat} (hbase : 1 < base) (hle : base ≤ 16) {c : Char}
    (h : c ∈ Nat.toDigits base n) : ' ' ≤ c := by
  have hdigit : ∀ d < 16, ' ' ≤ Nat.digitChar d := by decide
  obtain ⟨d, hlt, rfl⟩ := exists_digit_of_mem_toDigits hbase h
  exact hdigit d (Nat.lt_of_lt_of_le hlt hle)

theorem graphic_toString (n : Nat) : Graphic (toString n) := by
  intro c hc
  rw [Nat.toString_eq_repr, Nat.toList_repr] at hc
  exact graphic_of_mem_toDigits (by decide) (by decide) hc

theorem Location.graphic_render (location : Location) : Graphic location.render :=
  ((graphic_toString _).append (by decide)).append (graphic_toString _)

theorem Kind.graphic_label (kind : Kind) : Graphic kind.label := by
  cases kind with
  | symbol s => cases s <;> decide
  | keyword w => cases w <;> decide
  | _ => decide

/-- Only what is illegal may be spelled by a control character. -/
theorem Kind.SpelledBy.graphic {kind : Kind} {text : List Char} (h : kind.SpelledBy text)
    (hlegal : kind ≠ .illegal) : ∀ c ∈ text, ' ' ≤ c := by
  cases h with
  | keyword w =>
    have hspelling : Graphic w.spelling := by cases w <;> decide
    exact hspelling
  | identifier _ hletters _ =>
    intro c hc
    rcases (isLetter_iff c).1 (hletters c hc) with ⟨hupper, -⟩ | ⟨hlower, -⟩ | rfl
    · exact Char.le_trans (by decide) hupper
    · exact Char.le_trans (by decide) hlower
    · decide
  | integer _ hdigits =>
    intro c hc
    exact Char.le_trans (by decide) ((isDigit_iff c).1 (hdigits c hc)).1
  | symbol s =>
    -- a symbol is shown as it is spelled
    have hspelling : Graphic s.spelling := Kind.graphic_label (.symbol s)
    rwa [Graphic, Symbol.spelling, String.toList_ofList] at hspelling
  | illegal _ => exact absurd rfl hlegal

theorem Diagnostic.graphic_message (expected : Kind) (found : Token) :
    Graphic (unexpected expected found).message :=
  ((Graphic.append (by decide) expected.graphic_label).append (by decide)).append
    found.kind.graphic_label

theorem Diagnostic.graphic_render (expected : Kind) (found : Token) :
    Graphic (unexpected expected found).render := by
  have hline : Graphic ("Parse error at line " ++ toString found.location.line) :=
    Graphic.append (by decide) (graphic_toString _)
  have hplace : Graphic ("Parse error at line " ++ toString found.location.line ++ ", column " ++
      toString found.location.column) :=
    (hline.append (by decide)).append (graphic_toString _)
  exact (hplace.append (by decide)).append (graphic_message expected found)

namespace Text

/-- Control characters are not shown as themselves. -/
theorem graphic_of_isPrintable {c : Char} (h : isPrintable c = true) : ' ' ≤ c := by
  by_contra hcontrol
  have hcode : c.toNat ≤ 0x1F := by
    rw [Char.le_def, UInt32.le_iff_toNat_le] at hcontrol
    exact Nat.le_of_lt_succ (Nat.lt_of_not_le hcontrol)
  -- they are the first range of the characters without an image
  have hunseen : unseen.contains c.toNat = true := by
    unfold unseen Ranges.contains
    rw [if_neg (Nat.not_lt_zero _), if_pos hcode]
  simp [isPrintable, hunseen] at h

theorem graphic_of_escapeLetter {c letter : Char} (h : escapeLetter? c = some letter) :
    ' ' ≤ letter := by
  unfold escapeLetter? at h
  repeat' split at h
  all_goals cases h
  all_goals decide

theorem graphic_codePointEscape (c : Char) : ∀ d ∈ codePointEscape c, ' ' ≤ d := by
  have hopening : Graphic (String.ofList ['\\', 'u', '\x7b']) := by decide
  intro d hd
  rcases List.mem_append.1 hd with hfront | hlast
  · rcases List.mem_append.1 hfront with hmem | hdigits
    · exact hopening d (String.toList_ofList ▸ hmem)
    · exact graphic_of_mem_toDigits (by decide) (by decide) hdigits
  · rw [List.mem_singleton.1 hlast]
    decide

/-- Escapes are graphic if the marks around them are. -/
theorem graphic_escape {mark : Char} (hmark : ' ' ≤ mark) (c : Char) :
    ∀ d ∈ escape mark c, ' ' ≤ d := by
  have hpair (second : Char) (hsecond : ' ' ≤ second) : ∀ d ∈ ['\\', second], ' ' ≤ d := by
    rw [List.forall_mem_cons, List.forall_mem_singleton]
    exact ⟨by decide, hsecond⟩
  unfold escape
  split
  · next letter hletter => exact hpair letter (graphic_of_escapeLetter hletter)
  · split
    · next hsame => exact hpair c (hsame ▸ hmark)
    · split
      · next hprintable =>
        rw [List.forall_mem_singleton]
        exact graphic_of_isPrintable hprintable
      · exact graphic_codePointEscape c

theorem graphic_enclose {mark : Char} (hmark : ' ' ≤ mark) (text : List Char) :
    ∀ c ∈ enclose mark text, ' ' ≤ c := by
  intro c hc
  rcases List.mem_append.1 hc with hfront | hlast
  · rcases List.mem_cons.1 hfront with rfl | htext
    · exact hmark
    · obtain ⟨d, -, hescape⟩ := List.mem_flatMap.1 htext
      exact graphic_escape hmark d c hescape
  · exact List.mem_singleton.1 hlast ▸ hmark

/-- What is quoted is graphic, whatever the text. -/
theorem graphic_quoted (text : String) : Graphic (quoted text) := by
  rw [Graphic, quoted, String.toList_ofList]
  exact graphic_enclose (by decide) _

/-- A field is graphic if it is filled up with a graphic character. -/
theorem Field.graphic_render {field : Field} {text : String} (hfill : ' ' ≤ field.fill)
    (h : Graphic text) : Graphic (field.render text) := by
  have hkept : ∀ c ∈ field.cut text.toList, ' ' ≤ c := by
    unfold cut
    split
    · exact h
    · exact fun c hc => h c (List.mem_of_mem_take hc)
  intro c hc
  rw [render, String.toList_ofList, place, List.mem_append, List.mem_append] at hc
  rcases hc with (hlead | hcut) | htail
  · exact (List.eq_of_mem_replicate hlead) ▸ hfill
  · exact hkept c hcut
  · exact (List.eq_of_mem_replicate htail) ▸ hfill

theorem graphic_padRight (width : Nat) {text : String} (h : Graphic text) :
    Graphic (padRight width text) :=
  Field.graphic_render (show ' ' ≤ ' ' by decide) h

theorem graphic_padLeft (width : Nat) {text : String} (h : Graphic text) :
    Graphic (padLeft width text) :=
  Field.graphic_render (show ' ' ≤ ' ' by decide) h

theorem graphic_quotedChar (c : Char) : Graphic (quotedChar c) := by
  rw [Graphic, quotedChar, String.toList_ofList]
  exact graphic_enclose (by decide) _

end Text

/-- The kind of a failure is told in letters, whether or not the number of the failure is known. -/
theorem SystemFailure.graphic_code (failure : SystemFailure) : Graphic failure.code := by
  have hcodes : ∀ entry ∈ codes, Graphic entry.2 := by decide
  unfold code
  cases hlookup : codes.lookup failure.number with
  | none =>
    show Graphic "Uncategorized"
    decide
  | some kind =>
    obtain ⟨before, after, hsplit, -⟩ := List.lookup_eq_some_iff.1 hlookup
    exact hcodes (failure.number, kind) (hsplit ▸ List.mem_append_right before List.mem_cons_self)

/-- A failure is told in graphic characters, whatever the words that the system has for it. -/
theorem Failure.graphic_render (failure : Failure) : Graphic failure.render := by
  have hcode : Graphic failure.code := by
    cases failure with
    | system failure => exact failure.graphic_code
    | _ => decide
  have horigin : Graphic failure.origin := by
    cases failure with
    | system failure => exact (Graphic.append (by decide) (graphic_toString _)).append (by decide)
    | _ => decide
  exact ((((horigin.append (by decide)).append hcode).append (by decide)).append
    (Text.graphic_quoted _)).append (by decide)

/-! ## Texts without a character -/

/-- A text in which a character does not stand -/
def Lacks (c : Char) (text : String) : Prop :=
  c ∉ text.toList

instance (c : Char) (text : String) : Decidable (Lacks c text) :=
  inferInstanceAs (Decidable (c ∉ text.toList))

theorem Lacks.append {c : Char} {first second : String} (h : Lacks c first) (h' : Lacks c second) :
    Lacks c (first ++ second) := by
  rw [Lacks, String.toList_append, List.mem_append, not_or]
  exact ⟨h, h'⟩

/-- A graphic text has no control characters. -/
theorem Graphic.lacks {text : String} (h : Graphic text) {c : Char} (hc : ¬ ' ' ≤ c) :
    Lacks c text :=
  fun hmem => hc (h c hmem)

/-- A text without a line feed -/
abbrev OneLine (text : String) : Prop :=
  Lacks '\n' text

theorem Graphic.oneLine {text : String} (h : Graphic text) : OneLine text :=
  h.lacks (by decide)

/-! ## Notices -/

/-- A description holds the text of the token, and apart from that it is graphic. -/
theorem Token.mem_describe {token : Token} {c : Char} (h : c ∈ token.describe.toList) :
    ' ' ≤ c ∨ c ∈ token.literal.toList := by
  have hbehind {before : String} (hbefore : Graphic before)
      (hc : c ∈ (before ++ token.literal).toList) : ' ' ≤ c ∨ c ∈ token.literal.toList := by
    rw [String.toList_append, List.mem_append] at hc
    exact hc.imp_left (hbefore c)
  have hbetween {before after : String} (hbefore : Graphic before) (hafter : Graphic after)
      (hc : c ∈ (before ++ token.literal ++ after).toList) :
      ' ' ≤ c ∨ c ∈ token.literal.toList := by
    rw [String.toList_append, List.mem_append] at hc
    exact hc.elim (hbehind hbefore) fun hlast => .inl (hafter c hlast)
  have hend : Graphic "end of file" := by decide
  have hidentifier : Graphic "identifier '" := by decide
  have hnumber : Graphic "int literal " := by decide
  have hmark : Graphic "'" := by decide
  unfold describe at h
  split at h
  · exact .inl (hend c h)
  · exact hbetween hidentifier hmark h
  · exact hbehind hnumber h
  · exact hbetween hmark hmark h

/-- What reading a source text may remark on -/
inductive Notice.About (source : String) : Notice → Prop where
  | stray (c : Char) (location : Location) : About source (.stray c location)
  /-- A token of the text, but not its end, is skipped -/
  | skipped {token : Token} (hmem : token ∈ tokens source) (hnot : token.kind ≠ .endOfText) :
      About source (.skipped token)
  /-- A statement is dropped for a token of another kind than the one expected -/
  | dropped (expected : Kind) (found : Token) : About source (.dropped (.unexpected expected found))

/-- All that reading a statement complains about is a token of another kind than expected. -/
theorem StatementMove.exists_unexpected {row : Nat → Token} {i j : Nat} {diagnostic : Diagnostic}
    (h : StatementMove row i (.error diagnostic) j) :
    ∃ (expected : Kind) (n : Nat), diagnostic = .unexpected expected (row n) := by
  generalize hresult : Except.error diagnostic = result at h
  cases h with
  | letting _ hmove =>
    cases hmove with
    | nameless _ => exact ⟨_, _, Except.error.inj hresult⟩
    | unassigned _ _ => exact ⟨_, _, Except.error.inj hresult⟩
    | letting _ _ _ => cases hresult
  | returning _ hmove =>
    cases hmove
    cases hresult
  | other _ _ => cases hresult

/-- Decisions about a text are taken at its tokens. -/
theorem Decides.about {source : String} {i : Nat} {decisions : List Decision}
    (h : Decides (stream source) i decisions) :
    ∀ decision ∈ decisions, decision.notice.About source := by
  induction h with
  | done _ => simp
  | reads _ _ _ ih => exact ih
  | @skips i later hnot _ _ ih =>
    rw [List.forall_mem_cons]
    refine ⟨?_, ih⟩
    -- the token is one of the text, since behind it there is nothing but the end
    have hlt : i < (tokens source).length := by
      by_contra hge
      exact hnot (stream_of_ge (Nat.le_of_not_lt hge))
    exact .skipped (stream_of_lt hlt ▸ List.getElem_mem hlt) hnot
  | drops _ hmove _ ih =>
    rw [List.forall_mem_cons]
    obtain ⟨expected, n, rfl⟩ := hmove.exists_unexpected
    exact ⟨.dropped expected _, ih⟩

theorem about_of_mem_strays {source : String} {tokens : List Token} {notice : Notice}
    (h : notice ∈ strays tokens) : notice.About source := by
  obtain ⟨token, -, rfl⟩ := List.mem_map.1 h
  exact .stray _ _

theorem about_of_mem_parse {source : String} {notice : Notice}
    (h : notice ∈ (parse source).notices) : notice.About source := by
  cases hlevel : notice.level with
  | warn =>
    have hwarn : notice ∈ (parse source).notices.filter (·.level = .warn) :=
      List.mem_filter.2 ⟨h, decide_eq_true hlevel⟩
    rw [filter_warn_parse] at hwarn
    exact about_of_mem_strays hwarn
  | debug =>
    obtain ⟨decisions, hdecides, hnotices, -⟩ := exists_decides_parse source
    have hdebug : notice ∈ (parse source).notices.filter (·.level = .debug) :=
      List.mem_filter.2 ⟨h, decide_eq_true hlevel⟩
    rw [hnotices, filter_debug_merged] at hdebug
    obtain ⟨decision, hmem, rfl⟩ := List.mem_map.1 hdebug
    exact hdecides.about decision hmem

/-- Control characters come into a message by the text of a token that is skipped, and in no other
way. -/
theorem Notice.About.mem_message {source : String} {notice : Notice} (h : notice.About source)
    {c : Char} (hc : c ∈ notice.message.toList) :
    ' ' ≤ c ∨ ∃ token ∈ tokens source, notice = .skipped token ∧ token.kind ≠ .endOfText ∧
      c ∈ token.literal.toList := by
  have hat : Graphic " at " := by decide
  cases h with
  | stray d location =>
    have hopening : Graphic "illegal character " := by decide
    have hmessage : Graphic (Notice.stray d location).message :=
      ((hopening.append (Text.graphic_quotedChar d)).append hat).append location.graphic_render
    exact .inl (hmessage c hc)
  | @skipped token hmem hnot =>
    have hopening : Graphic "skipping " := by decide
    have hclosing : Graphic ": not a statement" := by decide
    -- every part of the message but the description is graphic
    replace hc : c ∈ ("skipping " ++ token.describe ++ " at " ++ token.location.render ++
        ": not a statement").toList := hc
    simp only [String.toList_append, List.mem_append] at hc
    rcases hc with (((hfirst | hdescribe) | hmiddle) | hplace) | hlast
    · exact .inl (hopening c hfirst)
    · exact (Token.mem_describe hdescribe).imp_right fun hliteral =>
        ⟨token, hmem, rfl, hnot, hliteral⟩
    · exact .inl (hat c hmiddle)
    · exact .inl (token.location.graphic_render c hplace)
    · exact .inl (hclosing c hlast)
  | dropped expected found =>
    have hopening : Graphic "dropping statement: " := by decide
    have hmessage : Graphic (Notice.dropped (.unexpected expected found)).message :=
      hopening.append (Diagnostic.graphic_render expected found)
    exact .inl (hmessage c hc)

/-- A notice about a text is told on one line. -/
theorem Notice.About.oneLine {source : String} {notice : Notice} (h : notice.About source) :
    OneLine notice.message := by
  intro hfeed
  rcases h.mem_message hfeed with hgraphic | ⟨token, hmem, -, hnot, hliteral⟩
  · revert hgraphic
    decide
  · exact feed_not_mem_literal hmem hnot hliteral

end Macaque

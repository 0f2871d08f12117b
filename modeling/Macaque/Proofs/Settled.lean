import Macaque.Proofs.Order

/-!
# What later text leaves alone

A text that grows at its end may change what was read last: its last token may go on, and with it
the statement or the diagnostic that came of it, or even two of them. Nothing else changes. A
statement that has reached its semicolon stays as it is, and so does a diagnostic about a token that
another token follows.

## Architecture

- **Tokens**: `exists_tokens_append` says which tokens of a text stay, whatever comes behind it
- **Segments**: `BeginsWith` says which segments a list begins with, however it goes on;
  `exists_beginsWith` finds them, by induction on the list
- **Settled results**: `Statement.Settled` and `Diagnostic.Settled` are the results that stay; the
  statements among them begin in front of the last semicolon (`settled_of_closed`), the diagnostics
  are about tokens in front of the last one (`settled_of_found`)
- **Texts**: `settled_append`
-/

namespace Macaque

/-! ## Tokens -/

/-- The tokens of a row of tiles are split where the tiles are. -/
theorem exists_split_of_place {location : Location} {tiles : List Tile} {kept more : List Token}
    (h : place location tiles = kept ++ more) :
    ∃ before behind, tiles = before ++ behind ∧ kept = place location before ∧
      more = place (location.after (lay before)) behind := by
  induction kept generalizing location tiles with
  | nil => exact ⟨[], tiles, rfl, rfl, h.symm⟩
  | cons token kept ih =>
    cases tiles with
    | nil => simp [place] at h
    | cons tile tiles =>
      rw [place, List.cons_append, List.cons.injEq] at h
      obtain ⟨rfl, hrest⟩ := h
      obtain ⟨before, behind, rfl, rfl, rfl⟩ := ih hrest
      exact ⟨tile :: before, behind, rfl, rfl, by rw [lay_cons, Location.after_append]⟩

/-- Whatever comes behind a text, its tokens stay that another token follows, and so does a
semicolon that it ends with. -/
theorem exists_tokens_append {first : String} {kept more : List Token} {last : Token}
    (hmark : endMark ∉ first.toList) (htokens : tokens first = kept ++ more ++ [last])
    (hclosed : more = [] → Closed Token.kind kept) (second : String) :
    ∃ other, tokens (first ++ second) = kept ++ other := by
  obtain ⟨layout, hlayout, hbody, -⟩ := exists_layout_of_tokens hmark htokens
  obtain ⟨before, behind, htiles, rfl, rfl⟩ := exists_split_of_place hbody.symm
  refine ⟨_, tokens_append_of_split hlayout htiles ?_⟩
  -- with a lexeme behind them, those in front end there; else the last of them is a semicolon
  cases behind with
  | cons next behind => exact layout.endsBefore_of_split htiles second.toList
  | nil =>
    intro tile htile
    obtain ⟨earlier, rfl⟩ := List.getLast?_eq_some_iff.1 htile
    apply Lexeme.endsBefore_of_semicolon
    exact hclosed rfl _ (by rw [place_concat]; exact List.getLast?_concat)

/-! ## Segments -/

/-- The items behind the first semicolon of a list that goes on are those of the list and some of
what it goes on with. -/
theorem exists_pastSemicolon_append (items more : List Token) :
    ∃ rest, rest <:+ more ∧
      pastSemicolon Token.kind (items ++ more) = pastSemicolon Token.kind items ++ rest := by
  induction items with
  | nil => exact ⟨_, pastSemicolon_suffix Token.kind more, rfl⟩
  | cons item items ih =>
    by_cases hitem : item.kind = .symbol .semicolon
    · refine ⟨more, List.suffix_refl more, ?_⟩
      rw [List.cons_append, pastSemicolon_of_semicolon _ hitem, pastSemicolon_of_semicolon _ hitem]
    · rw [List.cons_append, pastSemicolon_of_other _ hitem, pastSemicolon_of_other _ hitem]
      exact ih

/-- Segments that a list begins with, however it goes on: behind them nothing is found that is in
the list -/
structure BeginsWith (kept : List Token) (common : List (Segment Token)) : Prop where
  found_mem : common.filterMap Segment.found? ⊆ kept
  goes_on : ∀ tail, ∃ rest, segments Token.kind (kept ++ tail) = common ++ rest ∧
    rest.filterMap Segment.found? ⊆ tail

theorem BeginsWith.of_founds {kept : List Token} (h : ∀ tail, founds (kept ++ tail) ⊆ tail) :
    BeginsWith kept [] where
  found_mem := List.nil_subset kept
  goes_on tail := ⟨_, rfl, h tail⟩

/-- A list begins with a segment and those of the list that is left behind it. -/
theorem BeginsWith.cons {kept left : List Token} {common : List (Segment Token)}
    (h : BeginsWith left common) (segment : Segment Token) (hleft : left ⊆ kept)
    (hfound : ∀ found ∈ segment.found?, found ∈ kept)
    (hsegments : ∀ tail, ∃ later ⊆ tail,
      segments Token.kind (kept ++ tail) = segment :: segments Token.kind (left ++ later)) :
    BeginsWith kept (segment :: common) where
  found_mem := by
    intro found hmem
    obtain ⟨other, hother, hsome⟩ := List.mem_filterMap.1 hmem
    rcases List.mem_cons.1 hother with rfl | hlater
    · exact hfound found hsome
    · exact hleft (h.found_mem (List.mem_filterMap.2 ⟨other, hlater, hsome⟩))
  goes_on tail := by
    obtain ⟨later, hlater, hsplit⟩ := hsegments tail
    obtain ⟨rest, hrest, hsubset⟩ := h.goes_on later
    exact ⟨rest, by rw [hsplit, hrest, List.cons_append], List.Subset.trans hsubset hlater⟩

/-- What a list goes on with behind a word and a name is all that anything is found in. -/
theorem founds_subset_of_name {word name : Token} (tail : List Token)
    (hword : word.kind = .keyword .letWord) (hname : name.kind = .identifier) :
    founds (word :: name :: tail) ⊆ tail := by
  cases tail with
  | nil =>
    rw [founds, segments]
    simp [hword, hname]
  | cons sign rest =>
    by_cases hsign : sign.kind = .symbol .assign
    · have hfounds : founds (word :: name :: sign :: rest) =
          founds (pastSemicolon Token.kind rest) := by
        rw [founds, segments_letting _ hword hname hsign]
        rfl
      rw [hfounds]
      apply List.Subset.trans (founds_sublist_self _).subset
      exact List.subset_cons_of_subset _ (pastSemicolon_subset Token.kind rest)
    · have hfounds : founds (word :: name :: sign :: rest) = sign :: founds (sign :: rest) := by
        rw [founds, segments_unassigned _ hword hname hsign]
        rfl
      rw [hfounds]
      exact List.cons_subset_cons sign (founds_sublist (sign :: rest)).subset

/-- However a list goes on, it begins with the same segments. -/
theorem exists_beginsWith (kept : List Token) : ∃ common, BeginsWith kept common := by
  -- a statement that does not end within the list swallows some of what comes behind, but then
  -- nothing of the list is left
  fun_induction segments Token.kind kept with
  | case1 => exact ⟨[], .of_founds fun tail => (founds_sublist_self tail).subset⟩
  | case2 first rest hfirst =>
    refine ⟨[], .of_founds fun tail => ?_⟩
    rw [founds, List.cons_append, segments_end _ hfirst]
    exact List.nil_subset tail
  -- a word, or a word and a name, may yet begin anything
  | case3 first _ hlet => exact ⟨[], .of_founds fun tail => (founds_sublist (first :: tail)).subset⟩
  | case4 first _ hlet name hname =>
    exact ⟨[], .of_founds fun tail => founds_subset_of_name tail hlet hname⟩
  | case5 first _ hlet name hname sign rest hsign ih =>
    obtain ⟨common, hcommon⟩ := ih
    refine ⟨_, hcommon.cons (.letting first name) ?_ (by simp [Segment.found?]) fun tail => ?_⟩
    · apply List.Subset.trans (pastSemicolon_subset Token.kind rest)
      exact List.subset_append_right [first, name, sign] rest
    · obtain ⟨later, hlater, hpast⟩ := exists_pastSemicolon_append rest tail
      refine ⟨later, hlater.subset, ?_⟩
      rw [← hpast]
      exact segments_letting _ hlet hname hsign
  | case6 first _ hlet name hname sign rest hsign ih =>
    obtain ⟨common, hcommon⟩ := ih
    refine ⟨_, hcommon.cons (.broken (.symbol .assign) sign) ?_ (by simp [Segment.found?])
      fun tail => ⟨tail, List.Subset.refl tail, segments_unassigned _ hlet hname hsign⟩⟩
    exact List.subset_append_right [first, name] (sign :: rest)
  | case7 first _ hlet name rest hname ih =>
    obtain ⟨common, hcommon⟩ := ih
    refine ⟨_, hcommon.cons (.broken .identifier name) ?_ (by simp [Segment.found?]) fun tail =>
      ⟨tail, List.Subset.refl tail, segments_nameless _ hlet hname⟩⟩
    exact List.subset_append_right [first] (name :: rest)
  | case8 first rest _ _ hreturn ih =>
    obtain ⟨common, hcommon⟩ := ih
    refine ⟨_, hcommon.cons (.returning first) ?_ (by simp [Segment.found?]) fun tail => ?_⟩
    · exact List.subset_cons_of_subset first (pastSemicolon_subset Token.kind rest)
    · obtain ⟨later, hlater, hpast⟩ := exists_pastSemicolon_append rest tail
      refine ⟨later, hlater.subset, ?_⟩
      rw [← hpast]
      exact segments_returning _ hreturn
  | case9 first rest hfirst hlet hreturn ih =>
    obtain ⟨common, hcommon⟩ := ih
    refine ⟨_, hcommon.cons (.passed first) ?_ (by simp [Segment.found?]) fun tail =>
      ⟨tail, List.Subset.refl tail, segments_passed _ hfirst hlet hreturn⟩⟩
    exact List.subset_cons_self first rest

/-! ## Settled results -/

/-- A statement that ends with a semicolon -/
def Statement.Settled (source : String) (statement : Statement) : Prop :=
  ∃ stop ∈ endOf? (tokens source) statement.token, stop.kind = .symbol .semicolon

instance (source : String) : DecidablePred (Statement.Settled source) := fun statement =>
  inferInstanceAs (Decidable (∃ stop ∈ endOf? (tokens source) statement.token,
    stop.kind = .symbol .semicolon))

/-- A diagnostic about a token in front of the last one, where the end does not count -/
def Diagnostic.Settled (source : String) (diagnostic : Diagnostic) : Prop :=
  ∃ token ∈ (tokens source).dropLast.dropLast, token.location = diagnostic.location

instance (source : String) : DecidablePred (Diagnostic.Settled source) := fun diagnostic =>
  inferInstanceAs (Decidable (∃ token ∈ (tokens source).dropLast.dropLast,
    token.location = diagnostic.location))

/-- Every list of tokens is one up to a semicolon and then tokens that are none. -/
theorem exists_closed_append (items : List Token) :
    ∃ closed opened, items = closed ++ opened ∧ Closed Token.kind closed ∧
      ∀ token ∈ opened, token.kind ≠ .symbol .semicolon := by
  induction items using List.reverseRecOn with
  | nil => exact ⟨[], [], rfl, by simp [Closed], by simp⟩
  | append_singleton items last ih =>
    by_cases hlast : last.kind = .symbol .semicolon
    · exact ⟨items ++ [last], [], (List.append_nil _).symm, by simp [Closed, hlast], by simp⟩
    · obtain ⟨closed, opened, rfl, hclosed, hopened⟩ := ih
      refine ⟨closed, opened ++ [last], List.append_assoc _ _ _, hclosed, ?_⟩
      rw [List.forall_mem_append]
      exact ⟨hopened, by simpa using hlast⟩

/-- A statement begins with a token of the list, at which it does not end. -/
theorem Segment.Of.token_mem {items : List Token} {segment : Segment Token} {statement : Statement}
    (h : segment.Of Token.kind items) (hstatement : segment.statement? = some statement) :
    statement.token ∈ items ∧ ¬ statement.token.Closes := by
  cases segment with
  | letting first name =>
    obtain rfl := Option.some.inj hstatement
    exact ⟨h.1.1, by simp [Statement.token, Token.Closes, h.1.2]⟩
  | returning first =>
    obtain rfl := Option.some.inj hstatement
    exact ⟨h.1, by simp [Statement.token, Token.Closes, h.2]⟩
  | passed item => simp [statement?] at hstatement
  | broken expected found => simp [statement?] at hstatement

section Statements

variable {source : String} {closed opened : List Token} {last : Token}

/-- Statements that begin in front of the last semicolon are settled, for they end with one. -/
theorem settled_of_closed (htokens : tokens source = closed ++ opened ++ [last])
    (hclosed : Closed Token.kind closed) {statement : Statement}
    (hmem : statement ∈ (segments Token.kind closed).filterMap Segment.statement?) :
    statement.Settled source := by
  obtain ⟨segment, hsegment, hstatement⟩ := List.mem_filterMap.1 hmem
  obtain ⟨htoken, hnot⟩ := (of_mem_segments closed segment hsegment).token_mem hstatement
  obtain ⟨before, behind, rfl⟩ := List.append_of_mem htoken
  have hsplit : tokens source = before ++ statement.token :: (behind ++ (opened ++ [last])) := by
    rw [htokens]
    simp
  -- the closed list ends behind the token with a semicolon
  have hrest := hclosed.of_append before
  have hne : behind ≠ [] := hrest.ne_nil fun hkind => hnot (.inl hkind)
  have hlast := (hrest.of_append [statement.token]) _ (List.getLast?_eq_some_getLast hne)
  obtain ⟨stop, hstop⟩ : ∃ stop, behind.find? (fun token => token.Closes) = some stop := by
    rw [← Option.isSome_iff_exists, List.find?_isSome]
    exact ⟨_, List.getLast_mem hne, decide_eq_true (.inl hlast)⟩
  have hmem : stop ∈ before ++ statement.token :: behind ++ opened := by
    simp [List.mem_of_find?_eq_some hstop]
  have hcloses : stop.Closes := by simpa using List.find?_some hstop
  refine ⟨stop, ?_, hcloses.resolve_right ((kinds_of_tokens htokens).1 stop hmem)⟩
  rw [hsplit, endOf?_append_cons (not_mem_of_split hsplit), List.find?_append, hstop]
  rfl

/-- Statements that begin behind the last semicolon are not settled, for they end with the text. -/
theorem not_settled_of_opened (htokens : tokens source = closed ++ opened ++ [last])
    (hopened : ∀ token ∈ opened, token.kind ≠ .symbol .semicolon) {statement : Statement}
    (hmem : statement ∈ (segments Token.kind (opened ++ [last])).filterMap Segment.statement?) :
    ¬ statement.Settled source := by
  obtain ⟨segment, hsegment, hstatement⟩ := List.mem_filterMap.1 hmem
  obtain ⟨htoken, -⟩ := (of_mem_segments _ segment hsegment).token_mem hstatement
  obtain ⟨before, behind, hbehind⟩ := List.append_of_mem htoken
  have hsplit : tokens source = (closed ++ before) ++ statement.token :: behind := by
    rw [htokens, List.append_assoc, hbehind, List.append_assoc]
  rintro ⟨stop, hstop, hkind⟩
  rw [hsplit, endOf?_append_cons (not_mem_of_split hsplit)] at hstop
  have hmem : stop ∈ opened ++ [last] := by
    rw [hbehind]
    simp [List.mem_of_find?_eq_some hstop]
  rcases List.mem_append.1 hmem with hinside | hlast
  · exact hopened stop hinside hkind
  · rw [List.mem_singleton.1 hlast, (kinds_of_tokens htokens).2] at hkind
    simp at hkind

end Statements

section Diagnostics

variable {source : String} {kept more : List Token} {found : List (Segment Token)}
  {diagnostic : Diagnostic}

/-- Diagnostics about tokens in front of the last one are settled. -/
theorem settled_of_found (hkept : (tokens source).dropLast.dropLast = kept)
    (hfound : found.filterMap Segment.found? ⊆ kept)
    (hmem : diagnostic ∈ found.filterMap Segment.diagnostic?) : diagnostic.Settled source := by
  obtain ⟨token, htoken, hsame⟩ := exists_found_of_mem hmem
  exact ⟨token, hkept ▸ hfound htoken, hsame⟩

/-- Diagnostics about the last token, or about the end, are not settled. -/
theorem not_settled_of_found (hkept : (tokens source).dropLast.dropLast = kept)
    (htokens : tokens source = kept ++ more) (hfound : found.filterMap Segment.found? ⊆ more)
    (hmem : diagnostic ∈ found.filterMap Segment.diagnostic?) : ¬ diagnostic.Settled source := by
  obtain ⟨token, htoken, hsame⟩ := exists_found_of_mem hmem
  rintro ⟨other, hother, hplace⟩
  rw [hkept] at hother
  -- no two tokens stand at the same place
  exact (precedes_of_split htokens other hother token (hfound htoken)).ne (hplace.trans hsame.symm)

end Diagnostics

/-- A list is filtered where it is split into what passes and what does not. -/
theorem filter_append_of_split {α : Type} {p : α → Prop} [DecidablePred p] {first second : List α}
    (hfirst : ∀ item ∈ first, p item) (hsecond : ∀ item ∈ second, ¬ p item) :
    (first ++ second).filter (fun item => p item) = first := by
  have hkept : first.filter (fun item => p item) = first := by simpa using hfirst
  have hleft : second.filter (fun item => p item) = [] := by simpa using hsecond
  rw [List.filter_append, hkept, hleft, List.append_nil]

/-! ## Texts -/

section Texts

variable {first : String}

/-- Statements are settled up to the last semicolon, and none is behind it. -/
theorem settled_statements_isPrefix (hmark : endMark ∉ first.toList) (second : String) :
    (parse first).value.program.statements.filter (·.Settled first) <+:
        (parse first).value.program.statements ∧
      (parse first).value.program.statements.filter (·.Settled first) <+:
        (parse (first ++ second)).value.program.statements := by
  obtain ⟨last, htokens⟩ := exists_tokens_eq first
  obtain ⟨closed, opened, hbody, hclosed, hopened⟩ := exists_closed_append (tokens first).dropLast
  rw [hbody] at htokens
  obtain ⟨other, hother⟩ := exists_tokens_append hmark htokens (fun _ => hclosed) second
  -- in front of the last semicolon both lists of tokens are cut in the same places
  have hcut (items : List Token) := segments_append items hclosed fun token hmem =>
    (kinds_of_tokens htokens).1 token (List.mem_append_left opened hmem)
  have hsettled : (parse first).value.program.statements.filter (·.Settled first) =
      (segments Token.kind closed).filterMap Segment.statement? := by
    rw [statements_parse, htokens, List.append_assoc, hcut, List.filterMap_append]
    exact filter_append_of_split (fun _ => settled_of_closed htokens hclosed)
      (fun _ => not_settled_of_opened htokens hopened)
  rw [hsettled, statements_parse, statements_parse, htokens, hother, List.append_assoc, hcut, hcut,
    List.filterMap_append, List.filterMap_append]
  exact ⟨List.prefix_append _ _, List.prefix_append _ _⟩

/-- Diagnostics are settled up to the last token, and none is about that or about the end. -/
theorem settled_diagnostics_isPrefix (hmark : endMark ∉ first.toList) (second : String) :
    (parse first).value.diagnostics.filter (·.Settled first) <+: (parse first).value.diagnostics ∧
      (parse first).value.diagnostics.filter (·.Settled first) <+:
        (parse (first ++ second)).value.diagnostics := by
  obtain ⟨last, htokens⟩ := exists_tokens_eq first
  obtain ⟨kept, hkept⟩ : ∃ kept, (tokens first).dropLast.dropLast = kept := ⟨_, rfl⟩
  obtain ⟨more, hmore, hempty⟩ : ∃ more, (tokens first).dropLast = kept ++ more ∧
      (more = [] → Closed Token.kind kept) := by
    -- only in a text without tokens is there no last one to be kept out
    rcases List.eq_nil_or_concat' (tokens first).dropLast with hnil | ⟨earlier, token, hconcat⟩
    · rw [hnil, List.dropLast_nil] at hkept
      exact ⟨[], by rw [hnil, ← hkept, List.append_nil], by simp [← hkept, Closed]⟩
    · rw [hconcat, List.dropLast_concat] at hkept
      exact ⟨[token], by rw [hconcat, hkept], by simp⟩
  rw [hmore] at htokens
  obtain ⟨other, hother⟩ := exists_tokens_append hmark htokens hempty second
  rw [List.append_assoc] at htokens
  obtain ⟨common, hcommon⟩ := exists_beginsWith kept
  obtain ⟨later, hlater, hfound⟩ := hcommon.goes_on (more ++ [last])
  obtain ⟨joined, hjoined, -⟩ := hcommon.goes_on other
  have hsettled : (parse first).value.diagnostics.filter (·.Settled first) =
      common.filterMap Segment.diagnostic? := by
    rw [diagnostics_parse, htokens, hlater, List.filterMap_append]
    exact filter_append_of_split (fun _ => settled_of_found hkept hcommon.found_mem)
      (fun _ => not_settled_of_found hkept htokens hfound)
  rw [hsettled, diagnostics_parse, diagnostics_parse, htokens, hother, hlater, hjoined,
    List.filterMap_append, List.filterMap_append]
  exact ⟨List.prefix_append _ _, List.prefix_append _ _⟩

end Texts

/-- What comes behind a text takes back none of its settled statements and diagnostics: they are the
first statements and the first diagnostics of the text, and also of the longer one. -/
theorem settled_append {first : String} (hmark : endMark ∉ first.toList) (second : String) :
    (∀ statement ∈ (parse first).value.program.statements, statement.Settled first →
        statement ∈ (parse (first ++ second)).value.program.statements) ∧
      (∀ diagnostic ∈ (parse first).value.diagnostics, diagnostic.Settled first →
        diagnostic ∈ (parse (first ++ second)).value.diagnostics) ∧
      (parse first).value.program.statements.filter (·.Settled first) <+:
        (parse first).value.program.statements ∧
      (parse first).value.program.statements.filter (·.Settled first) <+:
        (parse (first ++ second)).value.program.statements ∧
      (parse first).value.diagnostics.filter (·.Settled first) <+: (parse first).value.diagnostics ∧
      (parse first).value.diagnostics.filter (·.Settled first) <+:
        (parse (first ++ second)).value.diagnostics := by
  obtain ⟨hstatements, hstatements'⟩ := settled_statements_isPrefix hmark second
  obtain ⟨hdiagnostics, hdiagnostics'⟩ := settled_diagnostics_isPrefix hmark second
  refine ⟨fun statement hmem hsettled => ?_, fun diagnostic hmem hsettled => ?_, hstatements,
    hstatements', hdiagnostics, hdiagnostics'⟩
  · exact hstatements'.subset (List.mem_filter.2 ⟨hmem, decide_eq_true hsettled⟩)
  · exact hdiagnostics'.subset (List.mem_filter.2 ⟨hmem, decide_eq_true hsettled⟩)

/-- What comes behind makes the last word a name. Of three diagnostics, those about this word and
about the end go, and a statement comes in their place. -/
theorem settled_append_name :
    endMark ∉ "let x = 1; let let let".toList ∧
      [.letting ⟨.keyword .letWord, "let", ⟨1, 1⟩⟩ (.ofToken ⟨.identifier, "x", ⟨1, 5⟩⟩) none] <+:
        (parse ("let x = 1; let let let" ++ "ter = 1;")).value.program.statements ∧
      [⟨.unexpected .identifier (.keyword .letWord), ⟨1, 16⟩⟩] <+:
        (parse ("let x = 1; let let let" ++ "ter = 1;")).value.diagnostics ∧
      (parse "let x = 1; let let let").value.diagnostics.length = 3 ∧
      (parse ("let x = 1; let let let" ++ "ter = 1;")).value.diagnostics.length = 1 := by
  have hmark : endMark ∉ "let x = 1; let let let".toList := by decide
  have hstatements : (parse "let x = 1; let let let").value.program.statements.filter
      (·.Settled "let x = 1; let let let") =
        [.letting ⟨.keyword .letWord, "let", ⟨1, 1⟩⟩
          (.ofToken ⟨.identifier, "x", ⟨1, 5⟩⟩) none] := by
    decide +kernel
  have hdiagnostics : (parse "let x = 1; let let let").value.diagnostics.filter
      (·.Settled "let x = 1; let let let") =
        [⟨.unexpected .identifier (.keyword .letWord), ⟨1, 16⟩⟩] := by
    decide +kernel
  obtain ⟨-, -, -, hprefix, -, hprefix'⟩ := settled_append hmark "ter = 1;"
  rw [hstatements] at hprefix
  rw [hdiagnostics] at hprefix'
  exact ⟨hmark, hprefix, hprefix', by decide +kernel, by decide +kernel⟩

end Macaque

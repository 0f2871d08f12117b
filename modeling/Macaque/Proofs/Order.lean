import Macaque.Proofs.Boundaries
import Macaque.Proofs.Offsets
import Macaque.Proofs.Operations

/-!
# The order of statements and diagnostics

What a statement breaks off at is only looked at and may begin the next statement. Still no token is
reported twice, and no report comes from within a statement that was read: along the tokens, the
first tokens of statements come one after the other, and so do the tokens that statements break off
at, none of which lies behind the first token of a statement and in front of its end.

## Architecture

- **Ends**: `EndsOnce` is what the tokens of a text are like, `endOf?` says where a statement ends;
  `exists_stop` finds the end of a statement where the segments go on behind it
- **Segments**: the first tokens of statements are some of the tokens in their order
  (`starts_sublist`), and so are those of the others at which statements break off
  (`founds_sublist`); `clear_of_mem_starts` keeps the two apart, `blames_of_mem_segments` says what
  stands in front of the latter
- **Texts**: `statements_diagnostics_ordered`
-/

namespace Macaque

/-! ## Ends -/

instance : DecidablePred Token.Closes := fun token =>
  inferInstanceAs (Decidable (token.kind = .symbol .semicolon ∨ token.kind = .endOfText))

/-- Tokens of which the last one, and no other, stands for the end -/
inductive EndsOnce : List Token → Prop where
  | last {token : Token} (hend : token.kind = .endOfText) : EndsOnce [token]
  | cons {token : Token} {rest : List Token} (hnot : token.kind ≠ .endOfText)
      (hrest : EndsOnce rest) : EndsOnce (token :: rest)

theorem EndsOnce.of_cons {token : Token} {rest : List Token} (h : EndsOnce (token :: rest))
    (hnot : token.kind ≠ .endOfText) : EndsOnce rest := by
  cases h with
  | last hend => exact absurd hend hnot
  | cons _ hrest => exact hrest

theorem endsOnce_tokens (source : String) : EndsOnce (tokens source) := by
  obtain ⟨last, htokens⟩ := exists_tokens_eq source
  obtain ⟨hbody, hlast⟩ := kinds_of_tokens htokens
  rw [htokens]
  generalize (tokens source).dropLast = body at hbody
  induction body with
  | nil => exact .last hlast
  | cons token body ih =>
    rw [List.forall_mem_cons] at hbody
    exact .cons hbody.1 (ih hbody.2)

/-- The token at which a statement ends that begins with the token `first`: the first semicolon
behind it, or the end -/
def endOf? (tokens : List Token) (first : Token) : Option Token :=
  (tokens.dropWhile (· ≠ first)).tail.find? fun token => token.Closes

/-- The end is looked for behind the place where the first token stands first. -/
theorem endOf?_append_cons {before behind : List Token} {first : Token} (hbefore : first ∉ before) :
    endOf? (before ++ first :: behind) first = behind.find? fun token => token.Closes := by
  have hskip : ∀ token ∈ before, decide (token ≠ first) = true := by
    intro token hmem
    simpa using fun h : token = first => hbefore (h ▸ hmem)
  rw [endOf?, List.dropWhile_append_of_pos hskip, List.dropWhile_cons_of_neg (by simp),
    List.tail_cons]

theorem endOf?_of_split {items before inside behind : List Token} {first stop : Token}
    (hitems : items = before ++ first :: (inside ++ stop :: behind)) (hbefore : first ∉ before)
    (hinside : ∀ token ∈ inside, ¬ token.Closes) (hstop : stop.Closes) :
    endOf? items first = some stop := by
  rw [hitems, endOf?_append_cons hbefore, List.find?_eq_some_iff_append]
  exact ⟨by simpa using hstop, inside, behind, rfl, by simpa using hinside⟩

/-- From within a statement there is its end, and the segments go on behind it, if anything comes
there. -/
theorem exists_stop {rest : List Token} (h : EndsOnce rest) :
    ∃ inside stop behind, rest = inside ++ stop :: behind ∧
      (∀ token ∈ inside, ¬ token.Closes) ∧ stop.Closes ∧
      pastSemicolon Token.kind rest = behind ∧ (behind = [] ∨ EndsOnce behind) := by
  induction h with
  | @last token hend =>
    refine ⟨[], token, [], rfl, by simp, .inr hend, ?_, .inl rfl⟩
    rw [pastSemicolon_of_other _ (by simp [hend])]
    rfl
  | @cons token rest hnot hrest ih =>
    by_cases hsemicolon : token.kind = .symbol .semicolon
    · exact ⟨[], token, rest, rfl, by simp, .inl hsemicolon,
        pastSemicolon_of_semicolon _ hsemicolon, .inr hrest⟩
    · obtain ⟨inside, stop, behind, rfl, hinside, hstop, hpast, hbehind⟩ := ih
      refine ⟨token :: inside, stop, behind, rfl, ?_, hstop, ?_, hbehind⟩
      · rw [List.forall_mem_cons]
        exact ⟨fun hcloses => hcloses.elim hsemicolon hnot, hinside⟩
      · rw [pastSemicolon_of_other _ hsemicolon, hpast]

/-! ## Segments -/

namespace Segment

/-- The token that a statement begins with -/
def start? : Segment Token → Option Token
  | letting first _ => some first
  | returning first => some first
  | _ => none

/-- The token that a statement breaks off at -/
def found? : Segment Token → Option Token
  | broken _ found => some found
  | _ => none

end Segment

/-- The tokens that statements begin with -/
def starts (items : List Token) : List Token :=
  (segments Token.kind items).filterMap Segment.start?

/-- The tokens that statements break off at -/
def founds (items : List Token) : List Token :=
  (segments Token.kind items).filterMap Segment.found?

/-- Statements begin with tokens of the list, in the order of the list. -/
theorem starts_sublist (items : List Token) : (starts items).Sublist items := by
  unfold starts
  fun_induction segments Token.kind items with
  | case1 => exact .slnil
  | case2 => exact List.nil_sublist _
  | case3 => exact List.nil_sublist _
  | case4 => exact List.nil_sublist _
  | case5 first _ _ name _ sign rest _ ih =>
    have hrest := ih.trans (pastSemicolon_suffix Token.kind rest).sublist
    exact ((hrest.cons sign).cons name).cons_cons first
  | case6 first _ _ name _ sign rest _ ih => exact (ih.cons name).cons first
  | case7 first _ _ name rest _ ih => exact ih.cons first
  | case8 first rest _ _ _ ih =>
    exact (ih.trans (pastSemicolon_suffix Token.kind rest).sublist).cons_cons first
  | case9 first rest _ _ _ ih => exact ih.cons first

/-- Statements break off at tokens behind the first one of the list, in the order of the list. -/
theorem founds_sublist (items : List Token) : (founds items).Sublist items.tail := by
  unfold founds
  -- the token that breaks a statement off is the first one of the list that the segments go on
  -- with, so that it is not found again
  fun_induction segments Token.kind items with
  | case1 => exact .slnil
  | case2 => exact List.nil_sublist _
  | case3 => exact List.nil_sublist _
  | case4 => exact List.nil_sublist _
  | case5 first _ _ name _ sign rest _ ih =>
    have hrest :=
      (ih.trans (List.tail_sublist _)).trans (pastSemicolon_suffix Token.kind rest).sublist
    exact (hrest.cons sign).cons name
  | case6 first _ _ name _ sign rest _ ih => exact (ih.cons_cons sign).cons name
  | case7 first _ _ name rest _ ih => exact ih.cons_cons name
  | case8 first rest _ _ _ ih =>
    exact (ih.trans (List.tail_sublist _)).trans (pastSemicolon_suffix Token.kind rest).sublist
  | case9 first rest _ _ _ ih => exact ih.trans (List.tail_sublist _)

theorem founds_sublist_self (items : List Token) : (founds items).Sublist items :=
  (founds_sublist items).trans (List.tail_sublist items)

/-- The tokens `founds` lie apart from the statement that begins with the token `first`: each of
them is that token, or in front of it, or behind the end of the statement. -/
inductive Clear (items founds : List Token) (first : Token) : Prop where
  | intro (before inside behind : List Token) (stop : Token)
      (hitems : items = before ++ first :: (inside ++ stop :: behind))
      (hinside : ∀ token ∈ inside, ¬ token.Closes) (hstop : stop.Closes)
      (hfounds : ∀ found ∈ founds, found ∈ before ∨ found = first ∨ found ∈ behind)

/-- More tokens in front of the list may be found, and its first one, which is looked at from
there. -/
theorem Clear.append {items found more : List Token} {first : Token} (h : Clear items found first)
    (front : List Token) (hmore : ∀ token ∈ more, token ∈ found ∨ token ∈ items.head?) :
    Clear (front ++ items) more first := by
  obtain ⟨before, inside, behind, stop, hitems, hinside, hstop, hfounds⟩ := h
  refine .intro (front ++ before) inside behind stop (by rw [hitems, List.append_assoc]) hinside
    hstop ?_
  intro token hmem
  rcases hmore token hmem with hfound | hhead
  -- what was found stays where it is, and the first token is this statement or in front of it
  · rcases hfounds token hfound with hbefore | hrest
    · exact .inl (List.mem_append_right _ hbefore)
    · exact .inr hrest
  · cases before with
    | nil =>
      rw [hitems, List.nil_append, List.head?_cons, Option.mem_some_iff] at hhead
      exact .inr (.inl hhead.symm)
    | cons other before =>
      rw [hitems, List.cons_append, List.head?_cons, Option.mem_some_iff] at hhead
      exact .inl (by simp [hhead])

/-- A statement that is read first lies apart from what is found behind its end. -/
theorem clear_first {first : Token} (words : List Token) {rest found : List Token}
    (hends : EndsOnce rest)
    (hwords : ∀ token ∈ words, ¬ token.Closes)
    (hfound : ∀ token ∈ found, token ∈ pastSemicolon Token.kind rest) :
    Clear (first :: (words ++ rest)) found first := by
  obtain ⟨inside, stop, behind, rfl, hinside, hstop, hpast, -⟩ := exists_stop hends
  refine .intro [] (words ++ inside) behind stop (by simp) ?_ hstop ?_
  · rw [List.forall_mem_append]
    exact ⟨hwords, hinside⟩
  · rw [hpast] at hfound
    exact fun token hmem => .inr (.inr (hfound token hmem))

/-- Statements that are read later lie apart from the same tokens, whether or not a statement stands
in front of them. -/
theorem clear_later {first later : Token} (words : List Token) {rest found : List Token}
    (hends : EndsOnce rest)
    (h : pastSemicolon Token.kind rest = [] ∨ EndsOnce (pastSemicolon Token.kind rest) →
      Clear (pastSemicolon Token.kind rest) found later) :
    Clear (first :: (words ++ rest)) found later := by
  obtain ⟨inside, stop, behind, hrest, -, -, hpast, hbehind⟩ := exists_stop hends
  rw [hpast] at h
  have hfront : first :: (words ++ rest) = (first :: (words ++ inside) ++ [stop]) ++ behind := by
    rw [hrest]
    simp
  rw [hfront]
  exact (h hbehind).append _ fun token hmem => .inl hmem

/-- What a statement passes over up to its end is not found, nor is its end. -/
theorem clear_of_mem_starts {items : List Token} (h : items = [] ∨ EndsOnce items) :
    ∀ first ∈ starts items, Clear items (founds items) first := by
  unfold starts founds
  fun_induction segments Token.kind items with
  | case1 => simp
  | case2 => simp
  | case3 => simp
  | case4 => simp
  | case5 first _ hlet name hname sign rest hsign ih =>
    have hends : EndsOnce rest := by
      have hall := h.resolve_left (by simp)
      exact ((hall.of_cons (by simp [hlet])).of_cons (by simp [hname])).of_cons (by simp [hsign])
    intro start hstart
    -- this statement comes before all that is found, the others come behind it
    rcases List.mem_cons.1 hstart with rfl | hlater
    · refine clear_first [name, sign] hends ?_ fun token hmem =>
        (founds_sublist_self _).subset hmem
      simp [Token.Closes, hname, hsign]
    · exact clear_later [name, sign] hends fun hpast => ih hpast start hlater
  | case6 first _ hlet name hname sign rest _ ih =>
    have hends : EndsOnce (sign :: rest) := by
      have hall := h.resolve_left (by simp)
      exact (hall.of_cons (by simp [hlet])).of_cons (by simp [hname])
    intro start hstart
    -- a statement that breaks off is none, but one may begin with the token that it breaks off at
    refine (ih (.inr hends) start hstart).append [first, name] fun token hmem => ?_
    rcases List.mem_cons.1 hmem with rfl | hlater
    · exact .inr rfl
    · exact .inl hlater
  | case7 first _ hlet name rest _ ih =>
    have hends : EndsOnce (name :: rest) := (h.resolve_left (by simp)).of_cons (by simp [hlet])
    intro start hstart
    refine (ih (.inr hends) start hstart).append [first] fun token hmem => ?_
    rcases List.mem_cons.1 hmem with rfl | hlater
    · exact .inr rfl
    · exact .inl hlater
  | case8 first rest _ _ hreturn ih =>
    have hends : EndsOnce rest := (h.resolve_left (by simp)).of_cons (by simp [hreturn])
    intro start hstart
    rcases List.mem_cons.1 hstart with rfl | hlater
    · exact clear_first [] hends (by simp) fun token hmem =>
        (founds_sublist_self _).subset hmem
    · exact clear_later [] hends fun hpast => ih hpast start hlater
  | case9 first rest hnot _ _ ih =>
    have hends : EndsOnce rest := (h.resolve_left (by simp)).of_cons hnot
    intro start hstart
    exact (ih (.inr hends) start hstart).append [first] fun token hmem => .inl hmem

/-- What a diagnostic says, and what stands in front of the token that it is about -/
inductive Blames (items : List Token) (diagnostic : Diagnostic) : Prop where
  /-- Where a name is missing, the word that begins the statement -/
  | nameless (before behind : List Token) (word found : Token)
      (hitems : items = before ++ word :: found :: behind) (hword : word.kind = .keyword .letWord)
      (hlocation : diagnostic.location = found.location)
      (hmessage : diagnostic.message = "expected next token to be IDENT, got " ++ found.kind.label)
  /-- Where the equals sign is missing, the word that begins the statement and the name -/
  | unassigned (before behind : List Token) (word name found : Token)
      (hitems : items = before ++ word :: name :: found :: behind)
      (hword : word.kind = .keyword .letWord) (hname : name.kind = .identifier)
      (hlocation : diagnostic.location = found.location)
      (hmessage : diagnostic.message = "expected next token to be =, got " ++ found.kind.label)

theorem Blames.of_suffix {items more : List Token} {diagnostic : Diagnostic}
    (h : Blames items diagnostic) (hsuffix : items <:+ more) : Blames more diagnostic := by
  obtain ⟨front, rfl⟩ := hsuffix
  cases h with
  | nameless before behind word found hitems hword hlocation hmessage =>
    exact .nameless (front ++ before) behind word found (by rw [hitems, List.append_assoc]) hword
      hlocation hmessage
  | unassigned before behind word name found hitems hword hname hlocation hmessage =>
    exact .unassigned (front ++ before) behind word name found (by rw [hitems, List.append_assoc])
      hword hname hlocation hmessage

/-- Statements break off behind the word that begins them, or behind their name. -/
theorem blames_of_mem_segments (items : List Token) {segment : Segment Token}
    {diagnostic : Diagnostic} (h : segment ∈ segments Token.kind items)
    (hdiagnostic : segment.diagnostic? = some diagnostic) : Blames items diagnostic := by
  -- every case goes on with a suffix of the list, and two of them report something themselves
  fun_induction segments Token.kind items with
  | case1 => simp at h
  | case2 => simp at h
  | case3 => simp at h
  | case4 => simp at h
  | case5 first _ _ name _ sign rest _ ih =>
    rcases List.mem_cons.1 h with rfl | hlater
    · simp [Segment.diagnostic?, Segment.finding, Finding.diagnostic?] at hdiagnostic
    · exact (ih hlater).of_suffix ((pastSemicolon_suffix Token.kind rest).trans
        (List.suffix_append [first, name, sign] rest))
  | case6 first _ hlet name hname sign rest _ ih =>
    rcases List.mem_cons.1 h with rfl | hlater
    · obtain rfl := Option.some.inj hdiagnostic
      exact .unassigned [] rest first name sign rfl hlet hname rfl rfl
    · exact (ih hlater).of_suffix (List.suffix_append [first, name] (sign :: rest))
  | case7 first _ hlet name rest _ ih =>
    rcases List.mem_cons.1 h with rfl | hlater
    · obtain rfl := Option.some.inj hdiagnostic
      exact .nameless [] rest first name rfl hlet rfl rfl
    · exact (ih hlater).of_suffix (List.suffix_cons first (name :: rest))
  | case8 first rest _ _ _ ih =>
    rcases List.mem_cons.1 h with rfl | hlater
    · simp [Segment.diagnostic?, Segment.finding, Finding.diagnostic?] at hdiagnostic
    · exact (ih hlater).of_suffix ((pastSemicolon_suffix Token.kind rest).trans
        (List.suffix_cons first rest))
  | case9 first rest _ _ _ ih =>
    rcases List.mem_cons.1 h with rfl | hlater
    · simp [Segment.diagnostic?, Segment.finding, Finding.diagnostic?] at hdiagnostic
    · exact (ih hlater).of_suffix (List.suffix_cons first rest)

/-! ## Texts -/

theorem pairwise_clears_tokens (source : String) : (tokens source).Pairwise Token.Clears := by
  obtain ⟨layout, hlayout⟩ := exists_layout_source source
  rw [tokens_eq_place hlayout, Layout.chars, Location.after_append]
  exact pairwise_clears_place _ _

/-- Where the tokens are split, those in front come before those behind. -/
theorem precedes_of_split {source : String} {before behind : List Token}
    (h : tokens source = before ++ behind) :
    ∀ token ∈ before, ∀ later ∈ behind, token.location.Precedes later.location := by
  have hpairwise := pairwise_clears_tokens source
  rw [h, List.pairwise_append] at hpairwise
  intro token htoken later hlater
  exact (hpairwise.2.2 token htoken later hlater).precedes

theorem not_mem_of_split {source : String} {before behind : List Token} {token : Token}
    (h : tokens source = before ++ token :: behind) : token ∉ before :=
  fun hmem => (precedes_of_split h token hmem token List.mem_cons_self).ne rfl

/-- The places of some of the tokens, in their order, are in order. -/
theorem pairwise_precedes_of_sublist {source : String} {some : List Token}
    (h : some.Sublist (tokens source)) :
    (some.map (·.location)).Pairwise Location.Precedes :=
  List.pairwise_map.2 (((pairwise_clears_tokens source).sublist h).imp Token.Clears.precedes)

theorem map_token_statements (source : String) :
    (parse source).value.program.statements.map Statement.token = starts (tokens source) := by
  have hstart (segment : Segment Token) :
      segment.statement?.map Statement.token = segment.start? := by
    cases segment <;> rfl
  rw [statements_parse, List.map_filterMap, starts]
  simp only [hstart]

/-- Segments are reported where they break off. -/
theorem map_location_filterMap (segments : List (Segment Token)) :
    (segments.filterMap Segment.diagnostic?).map (·.location) =
      (segments.filterMap Segment.found?).map (·.location) := by
  have hfound (segment : Segment Token) :
      segment.diagnostic?.map (·.location) = segment.found?.map (·.location) := by
    cases segment <;> rfl
  simp only [List.map_filterMap, hfound]

/-- What is reported is reported of a token that was found. -/
theorem exists_found_of_mem {segments : List (Segment Token)} {diagnostic : Diagnostic}
    (h : diagnostic ∈ segments.filterMap Segment.diagnostic?) :
    ∃ found ∈ segments.filterMap Segment.found?, found.location = diagnostic.location := by
  rw [← List.mem_map, ← map_location_filterMap]
  exact List.mem_map_of_mem h

theorem map_location_diagnostics (source : String) :
    (parse source).value.diagnostics.map (·.location) =
      (founds (tokens source)).map (·.location) := by
  rw [diagnostics_parse, map_location_filterMap, founds]

/-- What precedes something does not come after it. -/
theorem Location.Precedes.asymm {location later : Location} (h : location.Precedes later) :
    ¬ later.Precedes location := by
  unfold Location.Precedes at h ⊢
  omega

/-- A statement ends somewhere, and what is reported behind its first token is behind its end. -/
theorem exists_endOf? {source : String} {statement : Statement}
    (h : statement ∈ (parse source).value.program.statements) :
    ∃ stop, endOf? (tokens source) statement.token = some stop ∧
      ∀ diagnostic ∈ (parse source).value.diagnostics,
        statement.token.location.Precedes diagnostic.location →
          stop.location.Precedes diagnostic.location := by
  have hstart : statement.token ∈ starts (tokens source) := by
    rw [← map_token_statements]
    exact List.mem_map_of_mem h
  obtain ⟨before, inside, behind, stop, hitems, hinside, hstop, hfounds⟩ :=
    clear_of_mem_starts (.inr (endsOnce_tokens source)) _ hstart
  refine ⟨stop, endOf?_of_split hitems (not_mem_of_split hitems) hinside hstop, ?_⟩
  intro diagnostic hdiagnostic hlater
  rw [diagnostics_parse] at hdiagnostic
  obtain ⟨found, hfound, hlocation⟩ := exists_found_of_mem hdiagnostic
  rw [← hlocation] at hlater ⊢
  -- what is found lies in front of the statement, at its first token or behind its end
  rcases hfounds found hfound with hmem | rfl | hmem
  · exact absurd hlater (precedes_of_split hitems _ hmem _ List.mem_cons_self).asymm
  · exact absurd rfl hlater.ne
  · have hstops : tokens source = (before ++ statement.token :: inside ++ [stop]) ++ behind := by
      rw [hitems]
      simp
    exact precedes_of_split hstops stop (by simp) found hmem

/-- All diagnostics but the last one are about tokens in front of the end. -/
theorem precedes_end {source : String} {diagnostic : Diagnostic} {token : Token}
    (h : diagnostic ∈ (parse source).value.diagnostics.dropLast) (htoken : token ∈ tokens source)
    (hend : token.kind = .endOfText) : diagnostic.location.Precedes token.location := by
  obtain ⟨last, htokens⟩ := exists_tokens_eq source
  obtain ⟨hbody, -⟩ := kinds_of_tokens htokens
  obtain rfl : token = last := by
    rw [htokens, List.mem_append, List.mem_singleton] at htoken
    exact htoken.resolve_left fun hmem => hbody token hmem hend
  -- what is found before something else is found is not the last token
  have hsublist : (founds (tokens source)).dropLast.Sublist (tokens source).dropLast := by
    have hreverse := (founds_sublist_self (tokens source)).reverse.tail
    rwa [List.tail_reverse, List.tail_reverse, List.reverse_sublist] at hreverse
  obtain ⟨found, hfound, hlocation⟩ :
      ∃ found ∈ (founds (tokens source)).dropLast, found.location = diagnostic.location := by
    rw [← List.mem_map, List.map_dropLast, ← map_location_diagnostics, ← List.map_dropLast]
    exact List.mem_map_of_mem h
  rw [← hlocation]
  exact precedes_of_split htokens found (hsublist.subset hfound) token List.mem_cons_self

/-- A statement may begin with the very token at which the one before it broke off. -/
theorem exists_diagnostic_at_start : ∃ source : String,
    ∃ statement ∈ (parse source).value.program.statements,
      ∃ diagnostic ∈ (parse source).value.diagnostics,
        diagnostic.location = statement.token.location := by
  have hstatements : (parse "let return;").value.program.statements =
      [.returning ⟨.keyword .returnWord, "return", ⟨1, 5⟩⟩ none] := by
    decide +kernel
  have hdiagnostics : (parse "let return;").value.diagnostics =
      [⟨.unexpected .identifier (.keyword .returnWord), ⟨1, 5⟩⟩] := by
    decide +kernel
  refine ⟨"let return;", ?_⟩
  simp [hstatements, hdiagnostics, Statement.token]

/-- Statements stand in the order of their first tokens and diagnostics in the order of their
places, no two at the same place and all but the last one in front of the end. A diagnostic may be
about the first token of a statement, but about no other token up to the end of that statement: if
it is behind the first one, it is behind the end. It names the kind of the token that it is about,
in front of which stand the words that call for another one. -/
theorem statements_diagnostics_ordered (source : String) :
    ((parse source).value.program.statements.map (·.token.location)).Pairwise Location.Precedes ∧
      ((parse source).value.diagnostics.map (·.location)).Pairwise Location.Precedes ∧
      (∀ diagnostic ∈ (parse source).value.diagnostics.dropLast, ∀ token ∈ tokens source,
        token.kind = .endOfText → diagnostic.location.Precedes token.location) ∧
      (∀ statement ∈ (parse source).value.program.statements,
        ∃ stop, endOf? (tokens source) statement.token = some stop ∧
          ∀ diagnostic ∈ (parse source).value.diagnostics,
            statement.token.location.Precedes diagnostic.location →
              stop.location.Precedes diagnostic.location) ∧
      (∀ diagnostic ∈ (parse source).value.diagnostics, Blames (tokens source) diagnostic) ∧
      ∃ other : String, ∃ statement ∈ (parse other).value.program.statements,
        ∃ diagnostic ∈ (parse other).value.diagnostics,
          diagnostic.location = statement.token.location := by
  refine ⟨?_, ?_, ?_, fun _ => exists_endOf?, ?_, exists_diagnostic_at_start⟩
  · have hstarts := pairwise_precedes_of_sublist (starts_sublist (tokens source))
    rw [← map_token_statements, List.map_map] at hstarts
    exact hstarts
  · rw [map_location_diagnostics]
    exact pairwise_precedes_of_sublist (founds_sublist_self (tokens source))
  · intro diagnostic hmem token htoken hend
    exact precedes_end hmem htoken hend
  · intro diagnostic hmem
    rw [diagnostics_parse] at hmem
    obtain ⟨segment, hsegment, hdiagnostic⟩ := List.mem_filterMap.1 hmem
    exact blames_of_mem_segments _ hsegment hdiagnostic

end Macaque

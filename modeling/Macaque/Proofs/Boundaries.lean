import Macaque.Proofs.Findings
import Macaque.Proofs.Joins

/-!
# Statements on both sides of a semicolon

A semicolon separates what comes before it from what comes after it. Whatever is wrong before it, no
statement that breaks off there, no token that is passed over and no lookahead reaches behind it:
two texts of which the first one ends with a semicolon are read one after the other.

## Architecture

- **Lists**: `Closed` lists of items end with a semicolon; `segments_append` cuts such a list and
  the items behind it one after the other
- **Moved texts**: what is read from a text that begins elsewhere is what is read from the text
  itself, moved (`Segment.statement?_map`, `Segment.diagnostic?_map`)
- **Texts**: `parse_append`
-/

namespace Macaque

/-! ## Lists -/

variable {α β : Type} {kind : α → Kind}

/-- A list of items that is empty or ends with a semicolon -/
def Closed (kind : α → Kind) (items : List α) : Prop :=
  ∀ item ∈ items.getLast?, kind item = .symbol .semicolon

instance (items : List α) : Decidable (Closed kind items) :=
  inferInstanceAs (Decidable (∀ item ∈ items.getLast?, kind item = .symbol .semicolon))

theorem Closed.of_append (before : List α) {items : List α} (h : Closed kind (before ++ items)) :
    Closed kind items := by
  intro item hitem
  exact h item (by rw [List.getLast?_append, hitem]; rfl)

/-- Behind an item that is no semicolon a closed list goes on. -/
theorem Closed.ne_nil {item : α} {rest : List α} (h : Closed kind (item :: rest))
    (hitem : kind item ≠ .symbol .semicolon) : rest ≠ [] := by
  rintro rfl
  exact hitem (h item rfl)

theorem pastSemicolon_suffix (kind : α → Kind) (items : List α) :
    pastSemicolon kind items <:+ items := by
  induction items with
  | nil => exact List.suffix_refl _
  | cons item rest ih =>
    unfold pastSemicolon
    split
    · exact List.suffix_cons item rest
    · exact ih.trans (List.suffix_cons item rest)

theorem Closed.pastSemicolon {items : List α} (h : Closed kind items) :
    Closed kind (pastSemicolon kind items) := by
  obtain ⟨before, hbefore⟩ := pastSemicolon_suffix kind items
  rw [← hbefore] at h
  exact h.of_append before

/-- A statement that is not yet over ends within a closed list. -/
theorem Closed.pastSemicolon_append {items : List α} (h : Closed kind items) (hne : items ≠ [])
    (more : List α) :
    Macaque.pastSemicolon kind (items ++ more) = Macaque.pastSemicolon kind items ++ more := by
  induction items with
  | nil => exact absurd rfl hne
  | cons item rest ih =>
    by_cases hitem : kind item = .symbol .semicolon
    · rw [List.cons_append, pastSemicolon_of_semicolon _ hitem, pastSemicolon_of_semicolon _ hitem]
    · rw [List.cons_append, pastSemicolon_of_other _ hitem, pastSemicolon_of_other _ hitem,
        ih (Closed.of_append [item] h) (h.ne_nil hitem)]

/-- A closed list is cut as it would be if nothing came behind it, and what comes behind it as if
nothing came before. -/
theorem segments_append {items : List α} (more : List α) (hclosed : Closed kind items)
    (hend : ∀ item ∈ items, kind item ≠ .endOfText) :
    segments kind (items ++ more) = segments kind items ++ segments kind more := by
  fun_induction segments kind items with
  | case1 => rfl
  | case2 first rest hfirst => exact absurd hfirst (hend first List.mem_cons_self)
  -- a closed list does not stop at a `let` or at its name
  | case3 first _ hlet => simpa [hlet] using hclosed first rfl
  | case4 first _ hlet second hname => simpa [hname] using hclosed second rfl
  | case5 first _ hlet name hname sign rest hsign ih =>
    have hrest : Closed kind rest := Closed.of_append [first, name, sign] hclosed
    have hne : rest ≠ [] :=
      Closed.ne_nil (Closed.of_append [first, name] hclosed) (by simp [hsign])
    rw [List.cons_append, List.cons_append, List.cons_append, segments_letting _ hlet hname hsign,
      hrest.pastSemicolon_append hne, ih hrest.pastSemicolon fun item hmem =>
        hend item (by simp [pastSemicolon_subset kind rest hmem])]
    rfl
  | case6 first _ hlet name hname sign rest hsign ih =>
    rw [List.cons_append, List.cons_append, List.cons_append,
      segments_unassigned _ hlet hname hsign, ← List.cons_append,
      ih (Closed.of_append [first, name] hclosed) fun item hmem =>
        hend item (List.mem_cons_of_mem _ (List.mem_cons_of_mem _ hmem))]
    rfl
  | case7 first _ hlet name rest hname ih =>
    rw [List.cons_append, List.cons_append, segments_nameless _ hlet hname, ← List.cons_append,
      ih (Closed.of_append [first] hclosed) fun item hmem =>
        hend item (List.mem_cons_of_mem _ hmem)]
    rfl
  | case8 first rest _ _ hreturn ih =>
    have hrest : Closed kind rest := Closed.of_append [first] hclosed
    have hne : rest ≠ [] := hclosed.ne_nil (by simp [hreturn])
    rw [List.cons_append, segments_returning _ hreturn, hrest.pastSemicolon_append hne,
      ih hrest.pastSemicolon fun item hmem =>
        hend item (List.mem_cons_of_mem _ (pastSemicolon_subset kind rest hmem))]
    rfl
  | case9 first rest hfirst hlet hreturn ih =>
    rw [List.cons_append, segments_passed _ hfirst hlet hreturn,
      ih (Closed.of_append [first] hclosed) fun item hmem =>
        hend item (List.mem_cons_of_mem _ hmem)]
    rfl

/-! ## Moved texts -/

def Name.shift (origin : Location) (name : Name) : Name :=
  { name with token := name.token.shift origin }

def Expression.shift (origin : Location) : Expression → Expression
  | name n => name (n.shift origin)

def Statement.shift (origin : Location) : Statement → Statement
  | letting token name value =>
    letting (token.shift origin) (name.shift origin) (value.map (Expression.shift origin))
  | returning token value => returning (token.shift origin) (value.map (Expression.shift origin))

def Diagnostic.shift (origin : Location) (diagnostic : Diagnostic) : Diagnostic :=
  { diagnostic with location := origin.shift diagnostic.location }

/-- A segment of other items -/
def Segment.map (f : α → β) : Segment α → Segment β
  | letting first name => letting (f first) (f name)
  | returning first => returning (f first)
  | passed item => passed (f item)
  | broken expected found => broken expected (f found)

theorem pastSemicolon_map {kind' : β → Kind} {f : α → β}
    (hkind : ∀ item, kind' (f item) = kind item) (items : List α) :
    pastSemicolon kind' (items.map f) = (pastSemicolon kind items).map f := by
  induction items with
  | nil => rfl
  | cons item rest ih =>
    simp only [List.map_cons, pastSemicolon, hkind, ih]
    split <;> rfl

/-- Other items of the same kinds are cut in the same places. -/
theorem segments_map {kind' : β → Kind} {f : α → β} (hkind : ∀ item, kind' (f item) = kind item)
    (items : List α) :
    segments kind' (items.map f) = (segments kind items).map (Segment.map f) := by
  fun_induction segments kind items with
  | case1 => exact segments_nil
  | case2 first rest hfirst => exact segments_end _ (by rwa [hkind])
  | case3 first _ hlet =>
    rw [List.map_cons, List.map_nil, segments]
    simp [hkind, hlet]
  | case4 first _ hlet second hname =>
    rw [List.map_cons, List.map_cons, List.map_nil, segments]
    simp [hkind, hlet, hname]
  | case5 first _ hlet name hname sign rest hsign ih =>
    rw [List.map_cons, List.map_cons, List.map_cons, segments_letting _ (by rwa [hkind])
      (by rwa [hkind]) (by rwa [hkind]), pastSemicolon_map hkind, ih]
    rfl
  | case6 first _ hlet name hname sign rest hsign ih =>
    rw [List.map_cons, List.map_cons, List.map_cons, segments_unassigned _ (by rwa [hkind])
      (by rwa [hkind]) (by rwa [hkind]), ← List.map_cons, ih]
    rfl
  | case7 first _ hlet name rest hname ih =>
    rw [List.map_cons, List.map_cons, segments_nameless _ (by rwa [hkind]) (by rwa [hkind]),
      ← List.map_cons, ih]
    rfl
  | case8 first rest _ _ hreturn ih =>
    rw [List.map_cons, segments_returning _ (by rwa [hkind]), pastSemicolon_map hkind, ih]
    rfl
  | case9 first rest hfirst hlet hreturn ih =>
    rw [List.map_cons, segments_passed _ (by rwa [hkind]) (by rwa [hkind]) (by rwa [hkind]), ih]
    rfl

theorem Segment.statement?_map (origin : Location) (segment : Segment Token) :
    (segment.map (Token.shift origin)).statement? =
      segment.statement?.map (Statement.shift origin) := by
  cases segment <;> rfl

/-- The diagnostic about a segment that breaks off -/
def Segment.diagnostic? (segment : Segment Token) : Option Diagnostic :=
  segment.finding.diagnostic?

theorem Segment.diagnostic?_map (origin : Location) (segment : Segment Token) :
    (segment.map (Token.shift origin)).diagnostic? =
      segment.diagnostic?.map (Diagnostic.shift origin) := by
  cases segment <;> rfl

theorem diagnostics_parse (source : String) :
    (parse source).value.diagnostics =
      (segments Token.kind (tokens source)).filterMap Segment.diagnostic? := by
  simp only [parse_value, Parse.ofFindings, List.filterMap_map]
  rfl

/-! ## Texts -/

/-- A text that ends with a semicolon, or has no tokens, is read as it would be by itself, and the
text behind it as well, moved to where the first one ends. -/
theorem parse_append {first : String} {body : List Token} {last : Token}
    (hmark : endMark ∉ first.toList) (htokens : tokens first = body ++ [last])
    (hclosed : Closed Token.kind body) (second : String) :
    (parse (first ++ second)).value.program.statements =
        (parse first).value.program.statements ++
          (parse second).value.program.statements.map (Statement.shift last.location) ∧
      (parse (first ++ second)).value.diagnostics =
        (parse first).value.diagnostics ++
          (parse second).value.diagnostics.map (Diagnostic.shift last.location) := by
  obtain ⟨hnotEnd, hend⟩ := kinds_of_tokens htokens
  -- what stands behind the closed list is the end alone, and it begins no segment
  have hfirst : segments Token.kind (tokens first) = segments Token.kind body := by
    rw [htokens, segments_append [last] hclosed hnotEnd, segments_end [] hend,
      List.append_nil]
  have hjoined : segments Token.kind (tokens (first ++ second)) =
      segments Token.kind (tokens first) ++
        (segments Token.kind (tokens second)).map (Segment.map (Token.shift last.location)) := by
    rw [tokens_append_of_semicolon second hmark htokens hclosed, hfirst,
      segments_append _ hclosed hnotEnd, segments_map (Token.shift_kind last.location)]
  constructor
  · simp only [statements_parse, hjoined, List.filterMap_append, List.filterMap_map,
      List.map_filterMap, Function.comp_def, Segment.statement?_map]
  · simp only [diagnostics_parse, hjoined, List.filterMap_append, List.filterMap_map,
      List.map_filterMap, Function.comp_def, Segment.diagnostic?_map]

/-- Statements that break off in front of a semicolon leave alone what comes behind it: there, the
faults and the statement are those of the second text. -/
theorem parse_append_broken :
    endMark ∉ "let let x\n;".toList ∧ Closed Token.kind (tokens "let let x\n;").dropLast ∧
      (parse ("let let x\n;" ++ "let let y = 1;\nlet")).value.program.statements =
        [.letting ⟨.keyword .letWord, "let", ⟨2, 6⟩⟩ (.ofToken ⟨.identifier, "y", ⟨2, 10⟩⟩) none] ∧
      (parse ("let let x\n;" ++ "let let y = 1;\nlet")).value.diagnostics =
        [⟨.unexpected .identifier (.keyword .letWord), ⟨1, 5⟩⟩,
          ⟨.unexpected (.symbol .assign) (.symbol .semicolon), ⟨2, 1⟩⟩,
          ⟨.unexpected .identifier (.keyword .letWord), ⟨2, 6⟩⟩,
          ⟨.unexpected .identifier .endOfText, ⟨3, 4⟩⟩] := by
  have hmark : endMark ∉ "let let x\n;".toList := by decide
  have htokens : tokens "let let x\n;" = (tokens "let let x\n;").dropLast ++ [.endAt ⟨2, 2⟩] := by
    decide +kernel
  have hclosed : Closed Token.kind (tokens "let let x\n;").dropLast := by decide +kernel
  obtain ⟨hstatements, hdiagnostics⟩ := parse_append hmark htokens hclosed "let let y = 1;\nlet"
  refine ⟨hmark, hclosed, ?_, ?_⟩
  · rw [hstatements]
    decide +kernel
  · rw [hdiagnostics]
    decide +kernel

end Macaque

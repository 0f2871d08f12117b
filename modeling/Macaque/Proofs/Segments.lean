import Macaque.Syntax.Parse

/-!
# Segments of a program

How a list of tokens falls into statements and what is between them, read off the whole list from
left to right: no window, no cursor, no state. Only the kinds of the tokens count, so the items of
the list may be anything that has a kind.

## Architecture

- **Cut**: `pastSemicolon` is where a statement ends, `segments` cuts a list at these places
- **Clauses**: one equation for each way in which a segment may begin (`segments_letting` and so on)
- **Parts**: `Segment.Of` says which kinds the items of a segment have; `of_mem_segments` that they
  have them, and that they are items of the list
-/

namespace Macaque

/-! ## Cutting a list -/

/-- A piece of a list of items, from one place where a statement may begin to the next -/
inductive Segment (α : Type) where
  /-- A `let` statement that starts with the item `first` and binds the name of `name` -/
  | letting (first name : α)
  /-- A `return` statement that starts with the item `first` -/
  | returning (first : α)
  /-- An item that begins no statement -/
  | passed (item : α)
  /-- A `let` statement that breaks off at `found`, where only the kind `expected` may stand -/
  | broken (expected : Kind) (found : α)

/-- The items after the first semicolon; none if there is no semicolon -/
def pastSemicolon {α : Type} (kind : α → Kind) : List α → List α
  | [] => []
  | item :: rest => if kind item = .symbol .semicolon then rest else pastSemicolon kind rest

theorem length_pastSemicolon_le {α : Type} (kind : α → Kind) (items : List α) :
    (pastSemicolon kind items).length ≤ items.length := by
  induction items with
  | nil => exact Nat.le_refl _
  | cons item rest ih =>
    unfold pastSemicolon
    split
    · exact Nat.le_succ _
    · exact Nat.le_succ_of_le ih

/-- The segments of a list of items up to the one that stands for the end -/
def segments {α : Type} (kind : α → Kind) : List α → List (Segment α)
  | [] => []
  | first :: rest =>
    if kind first = .endOfText then []
    else if kind first = .keyword .letWord then
      match rest with
      | [] => []
      | name :: rest =>
        if kind name = .identifier then
          match rest with
          | [] => []
          | sign :: rest =>
            if kind sign = .symbol .assign then
              .letting first name :: segments kind (pastSemicolon kind rest)
            else
              -- the item that breaks the statement off may begin the next one
              .broken (.symbol .assign) sign :: segments kind (sign :: rest)
        else .broken .identifier name :: segments kind (name :: rest)
    else if kind first = .keyword .returnWord then
      -- whatever comes between the word and the semicolon belongs to the statement
      .returning first :: segments kind (pastSemicolon kind rest)
    else .passed first :: segments kind rest
termination_by items => items.length
decreasing_by
  · have := length_pastSemicolon_le kind rest
    simp only [List.length_cons]
    omega
  · exact Nat.lt_succ_of_le (Nat.le_succ _)
  · exact Nat.lt_succ_self _
  · exact Nat.lt_succ_of_le (length_pastSemicolon_le kind rest)
  · exact Nat.lt_succ_self _

variable {α : Type} {kind : α → Kind}

/-! ## Clauses -/

theorem pastSemicolon_of_semicolon {item : α} (rest : List α)
    (h : kind item = .symbol .semicolon) : pastSemicolon kind (item :: rest) = rest :=
  if_pos h

theorem pastSemicolon_of_other {item : α} (rest : List α) (h : kind item ≠ .symbol .semicolon) :
    pastSemicolon kind (item :: rest) = pastSemicolon kind rest :=
  if_neg h

theorem pastSemicolon_append {before : List α} (later : List α)
    (h : ∀ item ∈ before, kind item ≠ .symbol .semicolon) :
    pastSemicolon kind (before ++ later) = pastSemicolon kind later := by
  induction before with
  | nil => rfl
  | cons item before ih =>
    rw [List.forall_mem_cons] at h
    rw [List.cons_append, pastSemicolon_of_other _ h.1, ih h.2]

theorem segments_nil : segments kind ([] : List α) = [] := by
  rw [segments]

/-- Nothing is looked at from the end on. -/
theorem segments_end {first : α} (rest : List α) (h : kind first = .endOfText) :
    segments kind (first :: rest) = [] := by
  rw [segments.eq_def]
  exact if_pos h

/-- A name and an equals sign make a `let` statement, which goes on up to the first semicolon. -/
theorem segments_letting {first name sign : α} (rest : List α)
    (hlet : kind first = .keyword .letWord) (hname : kind name = .identifier)
    (hsign : kind sign = .symbol .assign) :
    segments kind (first :: name :: sign :: rest) =
      .letting first name :: segments kind (pastSemicolon kind rest) := by
  rw [segments]
  simp [hlet, hname, hsign]

theorem segments_unassigned {first name sign : α} (rest : List α)
    (hlet : kind first = .keyword .letWord) (hname : kind name = .identifier)
    (hsign : kind sign ≠ .symbol .assign) :
    segments kind (first :: name :: sign :: rest) =
      .broken (.symbol .assign) sign :: segments kind (sign :: rest) := by
  rw [segments]
  simp [hlet, hname, hsign]

theorem segments_nameless {first name : α} (rest : List α)
    (hlet : kind first = .keyword .letWord) (hname : kind name ≠ .identifier) :
    segments kind (first :: name :: rest) =
      .broken .identifier name :: segments kind (name :: rest) := by
  rw [segments.eq_def]
  simp [hlet, hname]

theorem segments_returning {first : α} (rest : List α)
    (hreturn : kind first = .keyword .returnWord) :
    segments kind (first :: rest) =
      .returning first :: segments kind (pastSemicolon kind rest) := by
  rw [segments.eq_def]
  simp [hreturn]

theorem segments_passed {first : α} (rest : List α) (hend : kind first ≠ .endOfText)
    (hlet : kind first ≠ .keyword .letWord) (hreturn : kind first ≠ .keyword .returnWord) :
    segments kind (first :: rest) = .passed first :: segments kind rest := by
  rw [segments.eq_def]
  simp [hend, hlet, hreturn]

/-! ## Parts -/

theorem pastSemicolon_subset (kind : α → Kind) (items : List α) :
    pastSemicolon kind items ⊆ items := by
  induction items with
  | nil => exact List.Subset.refl _
  | cons item rest ih =>
    unfold pastSemicolon
    split
    · exact List.subset_cons_self _ _
    · exact List.subset_cons_of_subset _ ih

/-- What a segment consists of: items of the list, each of the kind that it must be of -/
def Segment.Of (kind : α → Kind) (items : List α) : Segment α → Prop
  | letting first name =>
    (first ∈ items ∧ kind first = .keyword .letWord) ∧ name ∈ items ∧ kind name = .identifier
  | returning first => first ∈ items ∧ kind first = .keyword .returnWord
  | passed item => item ∈ items
  | broken expected found => found ∈ items ∧ kind found ≠ expected

theorem Segment.Of.mono {items more : List α} {segment : Segment α} (h : segment.Of kind items)
    (hsubset : items ⊆ more) : segment.Of kind more := by
  cases segment with
  | letting first name => exact ⟨⟨hsubset h.1.1, h.1.2⟩, hsubset h.2.1, h.2.2⟩
  | returning first => exact ⟨hsubset h.1, h.2⟩
  | passed item => exact hsubset h
  | broken expected found => exact ⟨hsubset h.1, h.2⟩

/-- Every segment of a list consists of items of that list. -/
theorem of_mem_segments (items : List α) :
    ∀ segment ∈ segments kind items, segment.Of kind items := by
  fun_induction segments kind items with
  | case1 => simp
  | case2 => simp
  | case3 => simp
  | case4 => simp
  -- every case adds items in front of those that the rest of the segments consist of
  | case5 first _ hlet name hname sign rest _ ih =>
    rw [List.forall_mem_cons]
    refine ⟨⟨⟨by simp, hlet⟩, by simp, hname⟩, fun segment hmem => (ih segment hmem).mono ?_⟩
    exact List.subset_cons_of_subset _ (List.subset_cons_of_subset _
      (List.subset_cons_of_subset _ (pastSemicolon_subset kind rest)))
  | case6 first _ _ name _ sign rest hsign ih =>
    rw [List.forall_mem_cons]
    refine ⟨⟨by simp, hsign⟩, fun segment hmem => (ih segment hmem).mono ?_⟩
    exact List.subset_cons_of_subset _ (List.subset_cons_self _ _)
  | case7 first _ _ name rest hname ih =>
    rw [List.forall_mem_cons]
    exact ⟨⟨by simp, hname⟩, fun segment hmem =>
      (ih segment hmem).mono (List.subset_cons_self _ _)⟩
  | case8 first rest _ _ hreturn ih =>
    rw [List.forall_mem_cons]
    refine ⟨⟨by simp, hreturn⟩, fun segment hmem => (ih segment hmem).mono ?_⟩
    exact List.subset_cons_of_subset _ (pastSemicolon_subset kind rest)
  | case9 first rest _ _ _ ih =>
    rw [List.forall_mem_cons]
    exact ⟨List.mem_cons_self, fun segment hmem =>
      (ih segment hmem).mono (List.subset_cons_self _ _)⟩

end Macaque

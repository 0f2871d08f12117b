import Macaque.Proofs.Tokens

/-!
# Places of tokens

A token stands where the text in front of it ends. In a text that has another one in front of it,
all places are moved by the end of that one.

## Architecture

- **Moved places**: `Location.shift` moves a place from a text to one that has another text in front
  of it; `Location.after_eq_shift` says that reading moves along
- **Tokens**: `exists_split_of_mem_place` says where a token stands, `place_shift` where it stands
  after a move
-/

namespace Macaque

/-! ## Moved places -/

/-- Where something at `location` in a text of its own stands if that text begins at `origin` -/
def Location.shift (origin location : Location) : Location :=
  if location.line = 1 then ⟨origin.line, origin.column + location.column - 1⟩
  else ⟨origin.line + location.line - 1, location.column⟩

namespace Location

/-- Lines and columns are counted from one. -/
def Counted (location : Location) : Prop :=
  1 ≤ location.line ∧ 1 ≤ location.column

theorem Counted.advance {location : Location} (h : location.Counted) (c : Char) :
    (location.advance c).Counted := by
  unfold Location.advance
  split
  · exact ⟨Nat.le_add_left 1 _, Nat.le_refl 1⟩
  · exact ⟨h.1, Nat.le_add_left 1 _⟩

theorem counted_after {location : Location} (h : location.Counted) (text : List Char) :
    (location.after text).Counted := by
  induction text generalizing location with
  | nil => exact h
  | cons c text ih => exact ih (h.advance c)

theorem counted_start : start.Counted :=
  ⟨Nat.le_refl 1, Nat.le_refl 1⟩

theorem shift_advance {location : Location} (origin : Location) (h : location.Counted) (c : Char) :
    origin.shift (location.advance c) = (origin.shift location).advance c := by
  obtain ⟨hline, hcolumn⟩ := h
  unfold advance
  split
  · -- from the second line on only lines are counted on
    have hlater : location.line + 1 ≠ 1 := by omega
    simp only [shift, if_neg hlater]
    split <;> simp only [mk.injEq, and_true] <;> omega
  · simp only [shift]
    split <;> simp only [mk.injEq, true_and]
    omega

/-- A text that begins at `origin` ends where it would end by itself, moved. -/
theorem after_eq_shift (origin : Location) (text : List Char) :
    origin.after text = origin.shift (start.after text) := by
  have hmoved : ∀ location : Location, location.Counted →
      (origin.shift location).after text = origin.shift (location.after text) := by
    intro location hcounted
    induction text generalizing location with
    | nil => rfl
    | cons c text ih =>
      rw [after_cons, after_cons, ← shift_advance origin hcounted, ih _ (hcounted.advance c)]
  exact hmoved start counted_start

end Location

/-! ## Tokens -/

def Token.shift (origin : Location) (token : Token) : Token :=
  { token with location := origin.shift token.location }

@[simp] theorem Token.shift_kind (origin : Location) (token : Token) :
    (token.shift origin).kind = token.kind := rfl

@[simp] theorem Token.shift_location (origin : Location) (token : Token) :
    (token.shift origin).location = origin.shift token.location := rfl

theorem place_shift (origin : Location) (lead : List Char) (tiles : List Tile) :
    place (origin.after lead) tiles =
      (place (Location.start.after lead) tiles).map (Token.shift origin) := by
  induction tiles generalizing lead with
  | nil => rfl
  | cons tile tiles ih =>
    have hlater := ih (lead ++ tile.chars)
    rw [Location.after_append, Location.after_append] at hlater
    rw [place, place, List.map_cons, hlater, Location.after_eq_shift]
    rfl

/-- A token of a row of tiles stands where the text in front of it ends. -/
theorem exists_split_of_mem_place {location : Location} {tiles : List Tile} {token : Token}
    (h : token ∈ place location tiles) :
    ∃ before behind : List Char, lay tiles = before ++ (token.literal.toList ++ behind) ∧
      token.location = location.after before := by
  induction tiles generalizing location with
  | nil => simp [place] at h
  | cons tile tiles ih =>
    rcases List.mem_cons.1 h with rfl | hlater
    · exact ⟨[], tile.gap ++ lay tiles, by simp [Tile.chars, Lexeme.token, Lexeme.text], rfl⟩
    · obtain ⟨before, behind, hsplit, hlocation⟩ := ih hlater
      refine ⟨tile.chars ++ before, behind, ?_, ?_⟩
      · rw [lay_cons, hsplit, List.append_assoc]
      · rw [hlocation, Location.after_append]

end Macaque

import Macaque.Proofs.Places
import Mathlib.Data.List.DropRight

/-!
# Where tokens begin

The place of a token is told by its offset alone, the number of characters in front of it: the line
by the line feeds among them, the column by what comes after the last of these. Since each token
lies behind the text of the one before it, places only grow along a list of tokens.

## Architecture

- **Places**: `Location.after_start` tells the place behind a text; `Location.Precedes` is the order
  of places
- **Offsets**: `Offsets` says where tokens begin, from their literals and the blanks between them;
  such offsets exist (`offsets_front`) and are the only ones (`Offsets.unique`)
- **Rows**: `pairwise_clears_place` says that each token lies behind those before it
- **Texts**: `locations_exact`
-/

namespace Macaque

/-! ## Places -/

namespace Location

/-- A place comes before another one in the order of lines and columns. -/
def Precedes (location later : Location) : Prop :=
  location.line < later.line ∨ location.line = later.line ∧ location.column < later.column

theorem line_after_eq (location : Location) (text : List Char) :
    (location.after text).line = location.line + text.count '\n' := by
  induction text generalizing location with
  | nil => rfl
  | cons c text ih =>
    rw [after_cons, ih, List.count_cons, advance]
    by_cases hfeed : c = '\n'
    · simp [hfeed, Nat.add_assoc, Nat.add_comm 1]
    · simp [hfeed]

/-- Within a line every character takes one column. -/
theorem column_after {text : List Char} (location : Location) (h : '\n' ∉ text) :
    (location.after text).column = location.column + text.length := by
  induction text generalizing location with
  | nil => rfl
  | cons c text ih =>
    rw [List.mem_cons, not_or] at h
    rw [after_cons, ih _ h.2, advance, if_neg (Ne.symm h.1), List.length_cons]
    exact Nat.add_right_comm _ _ _

/-- The place behind a text: as many lines down as it has line feeds, and as many columns to the
right as there are characters after the last of them. -/
theorem after_start (text : List Char) :
    start.after text = ⟨1 + text.count '\n', 1 + (text.rtakeWhile (· ≠ '\n')).length⟩ := by
  -- only the last character counts for the column, so the text is taken from its end
  induction text using List.reverseRecOn with
  | nil => rfl
  | append_singleton text c ih =>
    rw [after_append, ih, after_cons, after_nil, advance, List.count_append, List.rtakeWhile_concat]
    by_cases hfeed : c = '\n'
    · simp [hfeed, Nat.add_assoc]
    · simp [hfeed, Nat.add_assoc]

/-- Behind a text that is not empty is a later place. -/
theorem precedes_after (location : Location) {text : List Char} (hne : text ≠ []) :
    location.Precedes (location.after text) := by
  by_cases hfeed : '\n' ∈ text
  · have hcount := List.count_pos_iff.2 hfeed
    rw [Precedes, line_after_eq]
    omega
  · have hlength := List.length_pos_iff.2 hne
    rw [Precedes, line_after location hfeed, column_after location hfeed]
    omega

theorem Precedes.ne {location later : Location} (h : location.Precedes later) :
    location ≠ later := by
  rintro rfl
  rcases h with hline | ⟨_, hcolumn⟩
  · exact Nat.lt_irrefl _ hline
  · exact Nat.lt_irrefl _ hcolumn

end Location

/-! ## Offsets -/

/-- Where the tokens of a source text begin, as numbers of characters in front of them: the text of
a token stands there, and between it and the next token, as in front of the first one, there are
only blanks. The end is at the mark, or else behind the last character. -/
structure Offsets (source : String) (offset : Nat → Nat) : Prop where
  first : ∀ c ∈ source.toList.take (offset 0), isBlank c
  next : ∀ {i : Nat} {token : Token}, (tokens source)[i]? = some token →
    token.kind ≠ .endOfText → ∃ gap : List Char, (∀ c ∈ gap, isBlank c) ∧
      token.literal.toList ++ gap <+: source.toList.drop (offset i) ∧
      offset (i + 1) = offset i + token.literal.length + gap.length
  last : ∀ {i : Nat} {token : Token}, (tokens source)[i]? = some token →
    token.kind = .endOfText → offset i = (source.toList.takeWhile (· ≠ endMark)).length

/-- What comes in front of the tile `i` of a layout -/
def Layout.front (layout : Layout) (i : Nat) : List Char :=
  layout.lead ++ lay (layout.tiles.take i)

section Layout

variable {source : String} {layout : Layout}

theorem Layout.front_append (layout : Layout) (i : Nat) :
    layout.front i ++ lay (layout.tiles.drop i) = layout.chars := by
  rw [front, List.append_assoc, ← lay_append, List.take_append_drop, chars]

theorem Layout.front_succ {i : Nat} (hi : i < layout.tiles.length) :
    layout.front (i + 1) = layout.front i ++ layout.tiles[i].chars := by
  rw [front, front, List.take_succ_eq_append_getElem hi, lay_append, List.append_assoc]
  simp

theorem getElem?_place (location : Location) (tiles : List Tile) (i : Nat) :
    (place location tiles)[i]? =
      tiles[i]?.map fun tile => tile.lexeme.token (location.after (lay (tiles.take i))) := by
  induction tiles generalizing location i with
  | nil => rfl
  | cons tile tiles ih =>
    cases i with
    | zero => rfl
    | succ i => simp [place, ih, Location.after_append]

/-- The token `i` of a text is made by the tile `i` of its layout; behind all tiles is the end. -/
theorem getElem?_tokens (h : layout.chars = source.toList.takeWhile (· ≠ endMark)) {i : Nat}
    {token : Token} (htoken : (tokens source)[i]? = some token) :
    (∃ hi : i < layout.tiles.length,
        token = layout.tiles[i].lexeme.token (Location.start.after (layout.front i))) ∨
      i = layout.tiles.length ∧ token = .endAt (Location.start.after (layout.front i)) := by
  have hlength : (place (Location.start.after layout.lead) layout.tiles).length =
      layout.tiles.length := by
    simpa using congrArg List.length (content_place (Location.start.after layout.lead) layout.tiles)
  rw [tokens_eq_place h] at htoken
  by_cases hi : i < layout.tiles.length
  · rw [List.getElem?_append_left (by omega), getElem?_place, List.getElem?_eq_getElem hi] at htoken
    refine .inl ⟨hi, ?_⟩
    rw [← Option.some.inj htoken, Layout.front, Location.after_append]
  · -- there is only one token more than there are tiles
    obtain rfl : i = layout.tiles.length := by
      have hlt := (List.getElem?_eq_some_iff.1 htoken).1
      rw [List.length_append, hlength, List.length_singleton] at hlt
      omega
    rw [List.getElem?_append_right (by omega), hlength, Nat.sub_self] at htoken
    refine .inr ⟨rfl, ?_⟩
    rw [← Option.some.inj htoken, Layout.front, List.take_length, Layout.chars]

theorem Layout.take_front (h : layout.chars = source.toList.takeWhile (· ≠ endMark)) (i : Nat) :
    source.toList.take (layout.front i).length = layout.front i := by
  have hprefix : layout.front i <+: source.toList := by
    have hchars : layout.chars <+: source.toList := by
      rw [h]
      exact List.takeWhile_prefix _
    exact (layout.front_append i ▸ List.prefix_append _ _).trans hchars
  exact (List.prefix_iff_eq_take.1 hprefix).symm

theorem offsets_front (h : layout.chars = source.toList.takeWhile (· ≠ endMark)) :
    Offsets source fun i => (layout.front i).length where
  first := by
    rw [Layout.take_front h]
    simpa [Layout.front] using layout.lead_blank
  next := by
    intro i token htoken hend
    rcases getElem?_tokens h htoken with ⟨hi, rfl⟩ | ⟨_, rfl⟩
    · refine ⟨layout.tiles[i].gap, layout.tiles[i].blank, ?_, ?_⟩
      · -- the next front is this one and the tile, and both are fronts of the text
        have hnext := Layout.take_front h (i + 1)
        rw [Layout.front_succ hi, List.length_append, List.take_add, Layout.take_front h,
          List.append_cancel_left_eq] at hnext
        have htile := List.take_prefix layout.tiles[i].chars.length
          (source.toList.drop (layout.front i).length)
        rw [hnext] at htile
        simpa [Tile.chars, Lexeme.token, Lexeme.text] using htile
      · rw [Layout.front_succ hi]
        simp [Tile.chars, Lexeme.token, Lexeme.text, Nat.add_assoc]
    · exact absurd rfl hend
  last := by
    intro i token htoken hend
    rcases getElem?_tokens h htoken with ⟨hi, rfl⟩ | ⟨rfl, rfl⟩
    · exact absurd hend (Lexeme.kind_ne_endOfText _)
    · rw [← h, Layout.front, List.take_length, Layout.chars]

end Layout

/-- What stands where a token begins is no blank. -/
theorem Offsets.not_blank {source : String} {offset : Nat → Nat} (h : Offsets source offset)
    {i : Nat} {token : Token} (htoken : (tokens source)[i]? = some token) :
    ∀ c ∈ (source.toList.drop (offset i)).head?, isBlank c = false := by
  obtain ⟨layout, hlayout⟩ := exists_layout_source source
  intro c hc
  rcases getElem?_tokens hlayout htoken with ⟨hi, rfl⟩ | ⟨rfl, rfl⟩
  · -- a token begins with the first character of its lexeme
    obtain ⟨gap, -, ⟨rest, hrest⟩, -⟩ := h.next htoken (Lexeme.kind_ne_endOfText _)
    have hvalid := layout.tiles[i].valid
    obtain ⟨d, chars, hchars⟩ := List.exists_cons_of_ne_nil hvalid.chars_ne_nil
    simp only [Lexeme.token, Lexeme.text, String.toList_ofList, hchars, List.cons_append] at hrest
    rw [← hrest, List.head?_cons, Option.mem_some_iff] at hc
    exact (hvalid.not_blank_of_mem (by simp [hchars, hc])).1
  · -- behind what comes before the mark is the mark, if anything is
    have hlast := h.last htoken rfl
    have hsplit : source.toList.drop (offset layout.tiles.length) =
        source.toList.dropWhile (· ≠ endMark) := by
      rw [hlast]
      nth_rewrite 2 [← List.takeWhile_append_dropWhile (p := (· ≠ endMark)) (l := source.toList)]
      exact List.drop_left
    have hmark := not_head_dropWhile (· ≠ endMark) source.toList c (hsplit ▸ hc)
    obtain rfl : c = endMark := by simpa using hmark
    decide

theorem Offsets.le_length {source : String} {offset : Nat → Nat} (h : Offsets source offset)
    {i : Nat} {token : Token} (htoken : (tokens source)[i]? = some token) :
    offset i ≤ source.toList.length := by
  by_cases hend : token.kind = .endOfText
  · rw [h.last htoken hend]
    exact (List.takeWhile_prefix _).length_le
  · obtain ⟨gap, -, hstands, -⟩ := h.next htoken hend
    obtain ⟨lexeme, hvalid, -, hchars⟩ :=
      (spelledBy_of_mem_tokens (List.mem_of_getElem? htoken) hend).exists_lexeme
    have hpos := List.length_pos_iff.2 hvalid.chars_ne_nil
    have hlength := hstands.length_le
    rw [← hchars] at hlength
    rw [List.length_append, List.length_drop] at hlength
    omega

/-- The first token begins behind the blanks in front of the text. -/
theorem Offsets.eq_zero {source : String} {offset : Nat → Nat} (h : Offsets source offset) :
    offset 0 = (source.toList.takeWhile isBlank).length := by
  have htoken := List.getElem?_eq_getElem (List.length_pos_iff.2 (tokens_ne_nil source))
  have hsplit := List.take_append_drop (offset 0) source.toList
  rw [← hsplit, takeWhile_append_of_ends h.first (h.not_blank htoken), List.length_take,
    Nat.min_eq_left (h.le_length htoken)]

/-- Behind a token that is not the end, the next one begins behind the blanks that follow. -/
theorem Offsets.eq_succ {source : String} {offset : Nat → Nat} (h : Offsets source offset) {i : Nat}
    {token : Token} (htoken : (tokens source)[i]? = some token) (hend : token.kind ≠ .endOfText)
    {next : Token} (hnext : (tokens source)[i + 1]? = some next) :
    offset (i + 1) = offset i + token.literal.length +
      ((source.toList.drop (offset i + token.literal.length)).takeWhile isBlank).length := by
  obtain ⟨gap, hgap, ⟨rest, hrest⟩, hoffset⟩ := h.next htoken hend
  have hbehind : source.toList.drop (offset i + token.literal.length) = gap ++ rest := by
    rw [← List.drop_drop, ← hrest, List.append_assoc, ← String.length_toList, List.drop_left]
  -- behind the blanks the next token begins, so that there are no more of them
  have hrestDrop : source.toList.drop (offset (i + 1)) = rest := by
    rw [hoffset, ← List.drop_drop, hbehind, List.drop_left]
  rw [hbehind, takeWhile_append_of_ends hgap (hrestDrop ▸ h.not_blank hnext), hoffset]

/-- There is only one way to say where the tokens of a text begin. -/
theorem Offsets.unique {source : String} {offset other : Nat → Nat} (h : Offsets source offset)
    (hother : Offsets source other) {i : Nat} (hi : i < (tokens source).length) :
    offset i = other i := by
  induction i with
  | zero => rw [h.eq_zero, hother.eq_zero]
  | succ i ih =>
    have hnext := List.getElem?_eq_getElem hi
    have htoken := List.getElem?_eq_getElem (Nat.lt_of_succ_lt hi)
    have hend := kind_ne_endOfText_of_lt hi
    rw [h.eq_succ htoken hend hnext, hother.eq_succ htoken hend hnext, ih (Nat.lt_of_succ_lt hi)]

/-! ## Rows -/

/-- The token `later` stands behind the text of `token`: its place is a later one, and where the
line is the same, to the right of that text. -/
structure Token.Clears (token later : Token) : Prop where
  precedes : token.location.Precedes later.location
  column : token.location.line = later.location.line →
    token.location.column + token.literal.length ≤ later.location.column

theorem exists_after_of_mem {location : Location} {tiles : List Tile} {token : Token}
    (h : token ∈ place location tiles ++ [.endAt (location.after (lay tiles))]) :
    ∃ text, token.location = location.after text := by
  rcases List.mem_append.1 h with hplace | hlast
  · obtain ⟨before, -, -, hlocation⟩ := exists_split_of_mem_place hplace
    exact ⟨before, hlocation⟩
  · exact ⟨lay tiles, by rw [List.mem_singleton.1 hlast]; rfl⟩

/-- A lexeme is without line feeds, so what comes behind it clears its token. -/
theorem Lexeme.Valid.clears {lexeme : Lexeme} (hvalid : lexeme.Valid) {location : Location}
    {later : Token} {text : List Char}
    (hlater : later.location = location.after (lexeme.chars ++ text)) :
    (lexeme.token location).Clears later where
  precedes := by
    rw [hlater]
    exact location.precedes_after (List.append_ne_nil_of_left_ne_nil hvalid.chars_ne_nil text)
  column := by
    intro hline
    rw [hlater, Location.line_after_eq] at hline
    have hfeed : '\n' ∉ lexeme.chars ++ text := by
      rw [← List.count_eq_zero]
      exact (Nat.left_eq_add.1 hline)
    rw [hlater, Location.column_after _ hfeed, List.length_append]
    simp [Lexeme.token, Lexeme.text]

/-- Each token of a row of tiles, and the end behind them, clears those before it. -/
theorem pairwise_clears_place (location : Location) (tiles : List Tile) :
    (place location tiles ++ [Token.endAt (location.after (lay tiles))]).Pairwise Token.Clears := by
  induction tiles generalizing location with
  | nil => exact List.pairwise_singleton _ _
  | cons tile tiles ih =>
    rw [place, List.cons_append, lay_cons, Location.after_append]
    refine .cons (fun later hmem => ?_) (ih _)
    obtain ⟨text, hlater⟩ := exists_after_of_mem hmem
    rw [← Location.after_append, Tile.chars, List.append_assoc] at hlater
    exact tile.valid.clears hlater

/-! ## Texts -/

/-- The place of a token is told by the number of characters in front of it: one line more than
there are line feeds among them, and one column more than there are characters behind the last of
these. Along the text places grow, no two are the same, no token goes over the end of its line, and
the next token on that line comes after its text. -/
theorem locations_exact (source : String) :
    (∃ offset, Offsets source offset) ∧
      (∀ offset, Offsets source offset → ∀ (i : Nat) (token : Token),
        (tokens source)[i]? = some token →
          token.location.line = 1 + (source.toList.take (offset i)).count '\n' ∧
          token.location.column =
            1 + ((source.toList.take (offset i)).rtakeWhile (· ≠ '\n')).length) ∧
      (tokens source).Pairwise Token.Clears ∧
      ((tokens source).map (·.location)).Nodup ∧
      ∀ token ∈ tokens source, token.kind ≠ .endOfText → '\n' ∉ token.literal.toList := by
  obtain ⟨layout, hlayout⟩ := exists_layout_source source
  have hfront := offsets_front hlayout
  have hclears : (tokens source).Pairwise Token.Clears := by
    rw [tokens_eq_place hlayout, Layout.chars, Location.after_append]
    exact pairwise_clears_place _ _
  refine ⟨⟨_, hfront⟩, fun offset hoffset i token htoken => ?_, hclears, ?_,
    fun _ hmem hend => feed_not_mem_literal hmem hend⟩
  · have hi := (List.getElem?_eq_some_iff.1 htoken).1
    have hlocation : token.location = Location.start.after (source.toList.take (offset i)) := by
      rw [hoffset.unique hfront hi, Layout.take_front hlayout]
      rcases getElem?_tokens hlayout htoken with ⟨_, rfl⟩ | ⟨_, rfl⟩ <;> rfl
    rw [hlocation, Location.after_start]
    exact ⟨rfl, rfl⟩
  · exact List.pairwise_map.2 (hclears.imp fun h => h.precedes.ne)

end Macaque

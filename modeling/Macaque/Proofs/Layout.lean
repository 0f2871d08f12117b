import Macaque.Proofs.Lexemes
import Mathlib.Data.List.Chain

/-!
# Layouts

A source text is laid out as lexemes with blanks around them. Reading and laying out undo each
other: every text up to the mark has a layout whose lexemes are its tokens, and a text that is laid
out is read as the lexemes that it was made of, whatever the blanks.

## Architecture

- **Layout**: `Tile` is a valid lexeme with the blanks after it; a `Layout` is a row of tiles of
  which no two fuse
- **Reading a layout**: `next_of_lexeme` reads one tile, `toEnd_lay_of_last` all of them, by
  induction on the tiles
- **Finding a layout**: `exists_layout` lays out any text without the mark, by induction on its
  length
-/

namespace Macaque

/-! ## Layouts -/

/-- A valid lexeme and the blanks that follow it -/
structure Tile where
  /-- The lexeme -/
  lexeme : Lexeme
  /-- The blanks between it and the next one -/
  gap : List Char
  valid : lexeme.Valid
  blank : ∀ c ∈ gap, isBlank c

namespace Tile

/-- The text of a tile -/
def chars (tile : Tile) : List Char :=
  tile.lexeme.chars ++ tile.gap

/-- Tiles that may stand side by side: without a blank between them, their lexemes do not fuse -/
def Apart (tile next : Tile) : Prop :=
  tile.gap = [] → tile.lexeme.fuses next.lexeme = false

end Tile

/-- The text of a row of tiles -/
def lay (tiles : List Tile) : List Char :=
  tiles.flatMap Tile.chars

/-- A text as blanks and then lexemes, each with the blanks that follow it -/
structure Layout where
  /-- The blanks in front of the first lexeme -/
  lead : List Char
  /-- The lexemes -/
  tiles : List Tile
  lead_blank : ∀ c ∈ lead, isBlank c
  apart : tiles.IsChain Tile.Apart

/-- The text that is laid out -/
def Layout.chars (layout : Layout) : List Char :=
  layout.lead ++ lay layout.tiles

/-- The tokens that a row of tiles makes where it starts at `location` -/
def place (location : Location) : List Tile → List Token
  | [] => []
  | tile :: tiles => tile.lexeme.token location :: place (location.after tile.chars) tiles

@[simp] theorem lay_nil : lay [] = [] := rfl

@[simp] theorem lay_cons (tile : Tile) (tiles : List Tile) :
    lay (tile :: tiles) = tile.chars ++ lay tiles := rfl

theorem lay_append (first second : List Tile) : lay (first ++ second) = lay first ++ lay second :=
  List.flatMap_append

/-- A text ends with its last lexeme and the blanks behind that. -/
theorem Layout.chars_of_concat {layout : Layout} {before : List Tile} {tile : Tile}
    (htiles : layout.tiles = before ++ [tile]) :
    layout.chars = layout.lead ++ lay before ++ tile.lexeme.chars ++ tile.gap := by
  simp [chars, htiles, lay_append, Tile.chars]

/-- Blanks end the lexeme in front of them. -/
theorem Tile.endsBefore_gap (tile : Tile) (tail : List Char) (hgap : tile.gap ≠ []) :
    tile.lexeme.EndsBefore (tile.gap ++ tail) := by
  obtain ⟨c, gap, hchars⟩ := List.exists_cons_of_ne_nil hgap
  refine tile.lexeme.endsBefore_of_isBlank fun d hd => tile.blank d ?_
  rw [hchars] at hd ⊢
  exact List.mem_of_mem_head? (by simpa using hd)

/-- A tile's lexeme ends before a tile that may stand beside it. -/
theorem Tile.Apart.endsBefore {tile next : Tile} (h : tile.Apart next) (more : List Char) :
    tile.lexeme.EndsBefore (tile.gap ++ (next.chars ++ more)) := by
  -- only where there is no blank does the next tile matter
  cases hgap : tile.gap with
  | cons c gap => exact hgap ▸ tile.endsBefore_gap _ (by simp [hgap])
  | nil =>
    have hends := (Lexeme.endsBefore_append_iff next.valid (next.gap ++ more)).2 (h hgap)
    simpa [Tile.chars] using hends

/-- The lexemes of a layout end where the next one begins, whatever comes behind that. -/
theorem Layout.endsBefore_of_split {layout : Layout} {before behind : List Tile} {next : Tile}
    (htiles : layout.tiles = before ++ next :: behind) (more : List Char) :
    ∀ last ∈ before.getLast?,
      last.lexeme.EndsBefore (last.gap ++ (lay (next :: behind) ++ more)) := by
  intro last hlast
  have hapart := layout.apart
  rw [htiles, List.isChain_append] at hapart
  have hends := (hapart.2.2 last hlast next rfl).endsBefore (lay behind ++ more)
  simpa using hends

/-! ## Reading a layout -/

/-- Where a text is at its end: nothing comes, or the mark -/
def AtEnd (rest : List Char) : Prop :=
  ∀ c ∈ rest.head?, c = endMark

theorem AtEnd.endsBefore {rest : List Char} (h : AtEnd rest) (lexeme : Lexeme) :
    lexeme.EndsBefore rest :=
  fun c hc => lexeme.takes_of_isBlank (.inr (h c hc))

namespace Cursor

theorem skipBlanks_append (lead more : List Char) (location : Location)
    (hlead : ∀ c ∈ lead, isBlank c) (hmore : ∀ c ∈ more.head?, isBlank c = false) :
    skipBlanks ⟨lead ++ more, location⟩ = ⟨more, location.after lead⟩ := by
  simp [skipBlanks, takeWhile_append_of_ends hlead hmore, dropWhile_append_of_ends hlead hmore]

theorem skipBlanks_skipBlanks (cursor : Cursor) :
    cursor.skipBlanks.skipBlanks = cursor.skipBlanks :=
  skipBlanks_append [] cursor.skipBlanks.rest cursor.skipBlanks.location (by simp)
    (not_head_dropWhile isBlank cursor.rest)

theorem next_of_atEnd (cursor : Cursor) (h : AtEnd cursor.skipBlanks.rest) :
    cursor.next = .stay cursor.skipBlanks (.endAt cursor.skipBlanks.location) := by
  simp only [next]
  split
  · rfl
  · next c rest hrest =>
    rw [if_pos]
    exact h c (by simp [hrest])

theorem next_of_cons {cursor here : Cursor} {c : Char} {rest : List Char}
    (hskip : cursor.skipBlanks = here) (hrest : here.rest = c :: rest) (hmark : c ≠ endMark) :
    cursor.next =
      { value := (Lexeme.longest c rest).token here.location,
        notices := (Lexeme.longest c rest).notices here.location,
        state := here.drop (Lexeme.longest c rest).chars.length } := by
  simp only [next, hskip, hrest, if_neg hmark]

/-- Only where a text is at its end does the end come next. -/
theorem atEnd_of_isEnd {cursor : Cursor} (h : cursor.next.value.isEnd = true) :
    AtEnd cursor.skipBlanks.rest := by
  intro c hc
  -- any other character would begin a lexeme, and no lexeme makes the end
  by_contra hmark
  obtain ⟨rest, hrest⟩ : ∃ rest, cursor.skipBlanks.rest = c :: rest :=
    ⟨cursor.skipBlanks.rest.tail, List.eq_cons_of_mem_head? hc⟩
  rw [next_of_cons rfl hrest hmark] at h
  exact Lexeme.kind_ne_endOfText _ (of_decide_eq_true h)

theorem next_of_isEnd {cursor : Cursor} (h : cursor.next.value.isEnd = true) :
    cursor.next = .stay cursor.skipBlanks (.endAt cursor.skipBlanks.location) :=
  cursor.next_of_atEnd (atEnd_of_isEnd h)

theorem next_next_of_isEnd {cursor : Cursor} (h : cursor.next.value.isEnd = true) :
    cursor.next.state.next = cursor.next := by
  -- the end is read again from behind the blanks, where there are none left to skip
  have hstate : cursor.next.state = cursor.skipBlanks := by
    rw [next_of_isEnd h, Step.stay_state]
  rw [hstate]
  simp only [next, skipBlanks_skipBlanks]

theorem next_of_lexeme {lead more : List Char} {lexeme : Lexeme} (location : Location)
    (hlead : ∀ c ∈ lead, isBlank c) (hvalid : lexeme.Valid) (hends : lexeme.EndsBefore more) :
    next ⟨lead ++ (lexeme.chars ++ more), location⟩ =
      { value := lexeme.token (location.after lead),
        notices := lexeme.notices (location.after lead),
        state := ⟨more, location.after (lead ++ lexeme.chars)⟩ } := by
  obtain ⟨c, cs, hchars⟩ := List.exists_cons_of_ne_nil hvalid.chars_ne_nil
  -- the first character is no blank, so skipping ends at it, and not the mark, so it is read
  have hfirst := hvalid.not_blank_of_mem (c := c) (by simp [hchars])
  have hskip := skipBlanks_append lead (lexeme.chars ++ more) location hlead
    (by simp [hchars, hfirst.1])
  have hrest : lexeme.chars ++ more = c :: (cs ++ more) := by simp [hchars]
  rw [next_of_cons hskip hrest hfirst.2, Lexeme.longest_append hvalid hchars hends]
  simp [drop, Location.after_append]

/-- A valid lexeme that ends before what follows is the first token. -/
theorem toEnd_of_lexeme (lead : List Char) {more : List Char} {lexeme : Lexeme}
    (location : Location) (hlead : ∀ c ∈ lead, isBlank c) (hvalid : lexeme.Valid)
    (hends : lexeme.EndsBefore more) :
    (toEnd ⟨lead ++ (lexeme.chars ++ more), location⟩).value =
      lexeme.token (location.after lead) ::
        (toEnd ⟨more, location.after (lead ++ lexeme.chars)⟩).value := by
  have hnext := next_of_lexeme location hlead hvalid hends
  have hnotEnd : (lexeme.token (location.after lead)).isEnd = false :=
    decide_eq_false lexeme.kind_ne_endOfText
  rw [toEnd_of_not_isEnd (by rw [hnext]; exact hnotEnd), hnext]

/-- Blanks in front of a text only move its tokens. -/
theorem toEnd_of_blanks (lead rest : List Char) (location : Location)
    (hlead : ∀ c ∈ lead, isBlank c) :
    (toEnd ⟨lead ++ rest, location⟩).value = (toEnd ⟨rest, location.after lead⟩).value := by
  have hskip : skipBlanks ⟨lead ++ rest, location⟩ = skipBlanks ⟨rest, location.after lead⟩ := by
    simp [skipBlanks, List.takeWhile_append_of_pos hlead, List.dropWhile_append_of_pos hlead,
      Location.after_append]
  have hnext : next ⟨lead ++ rest, location⟩ = next ⟨rest, location.after lead⟩ := by
    simp only [next, hskip]
  cases hend : (next ⟨rest, location.after lead⟩).value.isEnd with
  | true => rw [toEnd_of_isEnd hend, toEnd_of_isEnd (by rwa [hnext]), hnext]
  | false => rw [toEnd_of_not_isEnd hend, toEnd_of_not_isEnd (by rwa [hnext]), hnext]

theorem toEnd_of_atEnd {rest : List Char} (location : Location) (h : AtEnd rest) :
    (toEnd ⟨rest, location⟩).value = [.endAt location] := by
  have hskip : skipBlanks ⟨rest, location⟩ = ⟨rest, location⟩ := by
    refine skipBlanks_append [] rest location (by simp) fun c hc => ?_
    rw [h c hc]
    decide
  have hnext := next_of_atEnd ⟨rest, location⟩ (by rwa [hskip])
  rw [hskip] at hnext
  rw [toEnd_of_isEnd (by rw [hnext]; rfl), hnext]
  rfl

/-- A tile's lexeme ends before its blanks, or before the next tile, or else before the tail. -/
private theorem endsBefore_of_isChain {tile : Tile} {tiles : List Tile} {tail : List Char}
    (hapart : (tile :: tiles).IsChain Tile.Apart)
    (hlast : ∀ last ∈ (tile :: tiles).getLast?, last.lexeme.EndsBefore (last.gap ++ tail)) :
    tile.lexeme.EndsBefore (tile.gap ++ (lay tiles ++ tail)) := by
  cases tiles with
  | nil => simpa using hlast tile rfl
  | cons next tiles =>
    have hends := (List.isChain_cons_cons.1 hapart).1.endsBefore (lay tiles ++ tail)
    simpa using hends

/-- Lexemes that are laid out in front of a text that the last of them does not go on into are read
first. -/
theorem toEnd_lay_of_last (location : Location) {lead tail : List Char} {tiles : List Tile}
    (hlead : ∀ c ∈ lead, isBlank c) (hapart : tiles.IsChain Tile.Apart)
    (hlast : ∀ last ∈ tiles.getLast?, last.lexeme.EndsBefore (last.gap ++ tail)) :
    (toEnd ⟨lead ++ (lay tiles ++ tail), location⟩).value =
      place (location.after lead) tiles ++
        (toEnd ⟨tail, location.after (lead ++ lay tiles)⟩).value := by
  induction tiles generalizing lead location with
  | nil => simpa [place] using toEnd_of_blanks lead tail location hlead
  | cons tile tiles ih =>
    have htext : lead ++ (lay (tile :: tiles) ++ tail) =
        lead ++ (tile.lexeme.chars ++ (tile.gap ++ (lay tiles ++ tail))) := by
      simp [Tile.chars]
    have hlater : ∀ last ∈ tiles.getLast?, last.lexeme.EndsBefore (last.gap ++ tail) := by
      intro last hmem
      obtain ⟨before, rfl⟩ := List.getLast?_eq_some_iff.1 hmem
      exact hlast last (by rw [← List.cons_append]; exact List.getLast?_concat)
    -- the blanks behind the lexeme are in front of the tiles that are left
    rw [htext, toEnd_of_lexeme lead location hlead tile.valid (endsBefore_of_isChain hapart hlast),
      ih _ tile.blank hapart.of_cons hlater]
    simp [place, Tile.chars, Location.after_append]

/-- What no lexeme goes on into does not matter to the lexemes in front of it. -/
theorem toEnd_lay (location : Location) {lead tail : List Char} {tiles : List Tile}
    (hlead : ∀ c ∈ lead, isBlank c) (hapart : tiles.IsChain Tile.Apart)
    (htail : ∀ lexeme : Lexeme, lexeme.EndsBefore tail) :
    (toEnd ⟨lead ++ (lay tiles ++ tail), location⟩).value =
      place (location.after lead) tiles ++
        (toEnd ⟨tail, location.after (lead ++ lay tiles)⟩).value := by
  refine toEnd_lay_of_last location hlead hapart fun last _ => ?_
  cases hgap : last.gap with
  | nil => exact htail last.lexeme
  | cons c gap => exact hgap ▸ last.endsBefore_gap tail (by simp [hgap])

end Cursor

/-! ## Finding a layout -/

namespace Layout

/-- A lexeme and the blanks in front of it, put before a layout that it does not go on into -/
def prepend (lead : List Char) (lexeme : Lexeme) (layout : Layout)
    (hlead : ∀ c ∈ lead, isBlank c) (hvalid : lexeme.Valid)
    (hends : lexeme.EndsBefore layout.chars) : Layout where
  lead := lead
  tiles := ⟨lexeme, layout.lead, hvalid, layout.lead_blank⟩ :: layout.tiles
  lead_blank := hlead
  apart := by
    -- without blanks in front, the layout begins with its first lexeme
    refine layout.apart.cons fun next hnext hgap => ?_
    obtain ⟨tiles, htiles⟩ : ∃ tiles, layout.tiles = next :: tiles :=
      ⟨layout.tiles.tail, List.eq_cons_of_mem_head? hnext⟩
    rw [chars, htiles, lay_cons, Tile.chars, show layout.lead = [] from hgap, List.nil_append,
      List.append_assoc] at hends
    exact (Lexeme.endsBefore_append_iff next.valid _).1 hends

theorem chars_prepend {lead : List Char} {lexeme : Lexeme} {layout : Layout}
    (hlead : ∀ c ∈ lead, isBlank c) (hvalid : lexeme.Valid)
    (hends : lexeme.EndsBefore layout.chars) :
    (layout.prepend lead lexeme hlead hvalid hends).chars =
      lead ++ (lexeme.chars ++ layout.chars) := by
  simp [prepend, chars, Tile.chars]

end Layout

/-- Every text without the mark has a layout. -/
theorem exists_layout (text : List Char) (hmark : endMark ∉ text) :
    ∃ layout : Layout, layout.chars = text := by
  -- induction on the length: a lexeme takes an unknown number of characters at once
  induction hlength : text.length using Nat.strong_induction_on generalizing text with
  | _ length ih =>
  have hsplit : text.takeWhile isBlank ++ text.dropWhile isBlank = text :=
    List.takeWhile_append_dropWhile
  have hlead : ∀ c ∈ text.takeWhile isBlank, isBlank c = true :=
    fun c hc => List.mem_takeWhile_imp hc
  cases hrest : text.dropWhile isBlank with
  | nil =>
    rw [hrest] at hsplit
    exact ⟨⟨text.takeWhile isBlank, [], hlead, .nil⟩, hsplit⟩
  | cons c rest =>
    rw [hrest] at hsplit
    have hfirst : isBlank c = false := not_head_dropWhile isBlank text c (by simp [hrest])
    have hmark' : c ≠ endMark := by
      rintro rfl
      exact hmark (hsplit ▸ by simp)
    -- what the longest lexeme leaves is shorter, and has a layout by induction
    have hvalid := Lexeme.valid_longest rest hmark' hfirst
    have happend := Lexeme.chars_longest_append c rest
    generalize hmore : (c :: rest).drop (Lexeme.longest c rest).chars.length = more at happend
    have hshorter : more.length < length := by
      have hpos := List.length_pos_iff.2 hvalid.chars_ne_nil
      rw [← hlength, ← hsplit, ← happend, List.length_append, List.length_append]
      omega
    have hmarkMore : endMark ∉ more := fun hmem =>
      hmark (hsplit ▸ happend ▸ List.mem_append_right _ (List.mem_append_right _ hmem))
    obtain ⟨layout, rfl⟩ := ih more.length hshorter more hmarkMore rfl
    refine ⟨layout.prepend _ _ hlead hvalid (Lexeme.endsBefore_longest happend), ?_⟩
    rw [Layout.chars_prepend, happend, hsplit]

end Macaque

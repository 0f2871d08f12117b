import Macaque.Proofs.Places

/-!
# Joined texts

Where the tokens of two texts are also the tokens of the two put together. The first text must not
have the mark, and its last token must end where the second text begins; what comes from the second
text then stands where it would stand in a text of its own, counted from the end of the first.

## Architecture

- **Tokens**: `Cursor.toEnd_shift` reads a text from any place, `tokens_append` a joined text
- **Ends**: `tokens_append_of_semicolon` and `tokens_append_of_blank` are two cases in which the
  last token ends whatever comes next
-/

namespace Macaque

/-! ## Tokens -/

/-- A text that begins at `origin` has its own tokens, moved. -/
theorem Cursor.toEnd_shift (origin : Location) (text : String) :
    (toEnd ⟨text.toList, origin⟩).value = (tokens text).map (Token.shift origin) := by
  obtain ⟨layout, hlayout⟩ := exists_layout_source text
  rw [toEnd_eq_place origin hlayout, tokens_eq_place hlayout, List.map_append, place_shift,
    Location.after_eq_shift origin layout.chars]
  rfl

/-- The tokens of a text without the mark are those of any layout of it, and the end. -/
theorem tokens_eq_of_layout {source : String} {layout : Layout}
    (h : layout.chars = source.toList) :
    tokens source = place (Location.start.after layout.lead) layout.tiles ++
      [.endAt (Location.start.after source.toList)] := by
  have hall : layout.chars = source.toList.takeWhile (· ≠ endMark) := by
    rw [← h]
    exact (List.takeWhile_eq_self_iff.2 (by simpa using layout.ne_endMark)).symm
  rw [tokens_eq_place hall, h]

/-- Some of the lexemes of a text are read first, whatever text comes behind it, if the last of them
ends where the others begin. -/
theorem tokens_append_of_split {first second : String} {layout : Layout} {before behind : List Tile}
    (hlayout : layout.chars = first.toList) (htiles : layout.tiles = before ++ behind)
    (hlast : ∀ last ∈ before.getLast?,
      last.lexeme.EndsBefore (last.gap ++ (lay behind ++ second.toList))) :
    tokens (first ++ second) = place (Location.start.after layout.lead) before ++
      (Cursor.toEnd ⟨lay behind ++ second.toList,
        Location.start.after (layout.lead ++ lay before)⟩).value := by
  have htext : (first ++ second).toList =
      layout.lead ++ (lay before ++ (lay behind ++ second.toList)) := by
    rw [String.toList_append, ← hlayout, Layout.chars, htiles, lay_append]
    simp
  have hapart := layout.apart
  rw [htiles, List.isChain_append] at hapart
  rw [tokens, Cursor.ofText, htext]
  exact Cursor.toEnd_lay_of_last .start layout.lead_blank hapart.1 hlast

/-- The tokens of two texts are those of the joined text if the last lexeme of the first one ends
where the second one begins. -/
theorem tokens_append {first second : String} {layout : Layout}
    (hlayout : layout.chars = first.toList)
    (hlast : ∀ last ∈ layout.tiles.getLast?,
      last.lexeme.EndsBefore (last.gap ++ second.toList)) :
    tokens (first ++ second) = place (Location.start.after layout.lead) layout.tiles ++
      (tokens second).map (Token.shift (Location.start.after first.toList)) := by
  rw [← Cursor.toEnd_shift, ← hlayout]
  exact tokens_append_of_split hlayout (List.append_nil _).symm hlast

/-! ## Ends -/

theorem place_append (location : Location) (before behind : List Tile) :
    place location (before ++ behind) =
      place location before ++ place (location.after (lay before)) behind := by
  induction before generalizing location with
  | nil => rfl
  | cons first before ih =>
    rw [List.cons_append, place, ih, place, lay_cons, Location.after_append]
    rfl

theorem place_concat (location : Location) (tiles : List Tile) (tile : Tile) :
    place location (tiles ++ [tile]) =
      place location tiles ++ [tile.lexeme.token (location.after (lay tiles))] :=
  place_append location tiles [tile]

/-- Only a symbol makes a token of the kind of a symbol. -/
theorem Lexeme.eq_symbol_of_kind {lexeme : Lexeme} {s : Symbol} (h : lexeme.kind = .symbol s) :
    lexeme = .symbol s := by
  cases lexeme with
  | word letters =>
    simp only [kind, Kind.ofWord] at h
    split at h <;> simp at h
  | number digits => simp [kind] at h
  | symbol t => rw [Kind.symbol.inj h]
  | stray c => simp [kind] at h

/-- A semicolon ends whatever comes next. -/
theorem Lexeme.endsBefore_of_semicolon {lexeme : Lexeme} (h : lexeme.kind = .symbol .semicolon)
    (rest : List Char) : lexeme.EndsBefore rest := by
  rw [eq_symbol_of_kind h]
  exact fun _ _ => rfl

variable {first second : String} {body : List Token} {last : Token}

/-- A text without the mark has a layout that makes its tokens, and its end is where it ends. -/
theorem exists_layout_of_tokens (hmark : endMark ∉ first.toList)
    (htokens : tokens first = body ++ [last]) :
    ∃ layout : Layout, layout.chars = first.toList ∧
      body = place (Location.start.after layout.lead) layout.tiles ∧
      last = .endAt (Location.start.after first.toList) := by
  obtain ⟨layout, hlayout⟩ := exists_layout first.toList hmark
  rw [tokens_eq_of_layout hlayout] at htokens
  obtain ⟨hbody, hlast⟩ := List.append_inj' htokens rfl
  exact ⟨layout, hlayout, hbody.symm, (List.singleton_inj.1 hlast).symm⟩

/-- After a semicolon, or after no token at all, every text is read as it would be by itself. -/
theorem tokens_append_of_semicolon (second : String) (hmark : endMark ∉ first.toList)
    (htokens : tokens first = body ++ [last])
    (hclosed : ∀ token ∈ body.getLast?, token.kind = .symbol .semicolon) :
    tokens (first ++ second) = body ++ (tokens second).map (Token.shift last.location) := by
  obtain ⟨layout, hlayout, rfl, rfl⟩ := exists_layout_of_tokens hmark htokens
  apply tokens_append hlayout
  intro tile htile
  obtain ⟨before, hbefore⟩ := List.getLast?_eq_some_iff.1 htile
  apply Lexeme.endsBefore_of_semicolon
  exact hclosed _ (by rw [hbefore, place_concat]; exact List.getLast?_concat)

/-- After a blank, every text is read as it would be by itself. -/
theorem tokens_append_of_blank {c : Char} {chars : List Char} (second : String)
    (hmark : endMark ∉ first.toList) (htokens : tokens first = body ++ [last])
    (hchars : first.toList = chars ++ [c]) (hblank : isBlank c = true) :
    tokens (first ++ second) = body ++ (tokens second).map (Token.shift last.location) := by
  obtain ⟨layout, hlayout, rfl, rfl⟩ := exists_layout_of_tokens hmark htokens
  apply tokens_append hlayout
  intro tile htile
  apply tile.endsBefore_gap
  intro hgap
  -- without blanks behind it, the last lexeme would end with the blank
  obtain ⟨before, hbefore⟩ := List.getLast?_eq_some_iff.1 htile
  have hmem : c ∈ tile.lexeme.chars := by
    have hlast : (chars ++ [c]).getLast? = tile.lexeme.chars.getLast? := by
      rw [← hchars, ← hlayout, Layout.chars_of_concat hbefore, hgap, List.append_nil,
        List.getLast?_append_of_ne_nil _ tile.valid.chars_ne_nil]
    rw [List.getLast?_concat] at hlast
    exact List.mem_of_getLast? hlast.symm
  simp [(tile.valid.not_blank_of_mem hmem).1] at hblank

end Macaque

import Macaque.Proofs.Layout

/-!
# The tokens of a source text

A source text up to its mark is tiled by the literals of its tokens and the blanks between them, and
each literal is as long as it can be. In the other direction, lexemes that are written one after the
other with enough blanks between them are read as these lexemes.

## Main statements

- `tokens_tile_source`: the tokens of a source text and their gaps are that text
- `tokens_of_layout`: the tokens of a text that was laid out are the lexemes it was made of
- `kinds_of_tokens`: the last token stands for the end, and no other does
- `spelledBy_of_mem_tokens`: a token has a text that determines its kind
- `feed_not_mem_literal`: that text stands on one line
-/

namespace Macaque

def Token.content (token : Token) : Kind × String :=
  (token.kind, token.literal)

def Lexeme.content (lexeme : Lexeme) : Kind × String :=
  (lexeme.kind, lexeme.text)

/-- What the token that stands for the end says -/
def endContent : Kind × String :=
  (.endOfText, String.ofList [endMark])

/-! ## Rows of tiles as tokens -/

theorem content_place (location : Location) (tiles : List Tile) :
    (place location tiles).map Token.content = tiles.map (·.lexeme.content) := by
  induction tiles generalizing location with
  | nil => rfl
  | cons tile tiles ih =>
    rw [place, List.map_cons, ih]
    rfl

/-- Each token of a row of tiles is made by the lexeme of one of them. -/
theorem exists_tile_of_mem_place {location : Location} {tiles : List Tile} {token : Token}
    (h : token ∈ place location tiles) :
    ∃ tile ∈ tiles, ∃ here : Location, token = tile.lexeme.token here := by
  induction tiles generalizing location with
  | nil => simp [place] at h
  | cons tile tiles ih =>
    rcases List.mem_cons.1 h with rfl | hlater
    · exact ⟨tile, List.mem_cons_self, location, rfl⟩
    · obtain ⟨other, hmem, here, hother⟩ := ih hlater
      exact ⟨other, List.mem_cons_of_mem _ hmem, here, hother⟩

/-- The token of a valid lexeme is not the end, and its text determines its kind. -/
theorem Lexeme.Valid.token {lexeme : Lexeme} (hvalid : lexeme.Valid) (location : Location) :
    (lexeme.token location).kind ≠ .endOfText ∧ (lexeme.token location).literal ≠ "" ∧
      ∀ kind : Kind, kind.SpelledBy (lexeme.token location).literal.toList ↔
        kind = (lexeme.token location).kind := by
  refine ⟨lexeme.kind_ne_endOfText, fun hempty => hvalid.chars_ne_nil ?_, fun kind => ?_⟩
  · have htext : lexeme.text = "" := hempty
    simpa [Lexeme.text] using congrArg String.toList htext
  · simpa [Lexeme.token, Lexeme.text] using hvalid.spelledBy_iff kind

/-! ## Source texts as layouts -/

theorem Layout.ne_endMark (layout : Layout) : ∀ c ∈ layout.chars, c ≠ endMark := by
  have hblank : ∀ c : Char, isBlank c = true → c ≠ endMark := by
    rintro c hc rfl
    revert hc
    decide
  intro c hc
  rcases List.mem_append.1 hc with hlead | htiles
  · exact hblank c (layout.lead_blank c hlead)
  · obtain ⟨tile, _, hchars⟩ := List.mem_flatMap.1 htiles
    rcases List.mem_append.1 hchars with hlexeme | hgap
    · exact (tile.valid.not_blank_of_mem hlexeme).2
    · exact hblank c (tile.blank c hgap)

/-- A text is read as any layout of what comes before its mark. -/
theorem Cursor.toEnd_eq_place {text : List Char} {layout : Layout} (location : Location)
    (h : layout.chars = text.takeWhile (· ≠ endMark)) :
    (toEnd ⟨text, location⟩).value = place (location.after layout.lead) layout.tiles ++
      [.endAt (location.after layout.chars)] := by
  have hsplit : text = layout.lead ++ (lay layout.tiles ++ text.dropWhile (· ≠ endMark)) := by
    rw [← List.append_assoc, ← Layout.chars, h, List.takeWhile_append_dropWhile]
  -- what is left behind the layout is nothing, or it starts with the mark
  have htail : AtEnd (text.dropWhile (· ≠ endMark)) := by
    intro c hc
    simpa using not_head_dropWhile (· ≠ endMark) text c hc
  rw [hsplit, toEnd_lay location layout.lead_blank layout.apart htail.endsBefore,
    toEnd_of_atEnd _ htail]
  rfl

theorem tokens_eq_place {source : String} {layout : Layout}
    (h : layout.chars = source.toList.takeWhile (· ≠ endMark)) :
    tokens source = place (Location.start.after layout.lead) layout.tiles ++
      [.endAt (Location.start.after layout.chars)] :=
  Cursor.toEnd_eq_place .start h

theorem exists_layout_source (source : String) :
    ∃ layout : Layout, layout.chars = source.toList.takeWhile (· ≠ endMark) := by
  apply exists_layout
  intro hmem
  have := List.mem_takeWhile_imp hmem
  simp at this

theorem exists_tokens_eq (source : String) :
    ∃ last, tokens source = (tokens source).dropLast ++ [last] :=
  ⟨_, (List.dropLast_append_getLast (tokens_ne_nil source)).symm⟩

/-- The last token stands for the end, and no other does. -/
theorem kinds_of_tokens {source : String} {body : List Token} {last : Token}
    (htokens : tokens source = body ++ [last]) :
    (∀ token ∈ body, token.kind ≠ .endOfText) ∧ last.kind = .endOfText := by
  obtain ⟨layout, hlayout⟩ := exists_layout_source source
  rw [tokens_eq_place hlayout] at htokens
  obtain ⟨rfl, hlast⟩ := List.append_inj' htokens rfl
  obtain rfl := List.singleton_inj.1 hlast
  refine ⟨fun token hmem => ?_, rfl⟩
  obtain ⟨tile, -, here, rfl⟩ := exists_tile_of_mem_place hmem
  exact tile.lexeme.kind_ne_endOfText

/-- A token that another one follows is not the end. -/
theorem kind_ne_endOfText_of_lt {source : String} {i : Nat} (hi : i + 1 < (tokens source).length) :
    (tokens source)[i].kind ≠ .endOfText := by
  obtain ⟨last, htokens⟩ := exists_tokens_eq source
  have hbefore : i < (tokens source).dropLast.length := by
    rw [List.length_dropLast]
    omega
  rw [← List.getElem_dropLast hbefore]
  exact (kinds_of_tokens htokens).1 _ (List.getElem_mem hbefore)

/-- A token before the end has a text that determines its kind. -/
theorem spelledBy_of_mem_tokens {source : String} {token : Token} (h : token ∈ tokens source)
    (hend : token.kind ≠ .endOfText) : token.kind.SpelledBy token.literal.toList := by
  obtain ⟨layout, hlayout⟩ := exists_layout_source source
  rw [tokens_eq_place hlayout] at h
  rcases List.mem_append.1 h with hplace | hlast
  · -- a token of the layout
    obtain ⟨tile, _, here, rfl⟩ := exists_tile_of_mem_place hplace
    exact ((tile.valid.token here).2.2 _).2 rfl
  · -- the end itself
    rw [List.mem_singleton.1 hlast] at hend
    exact absurd rfl hend

/-- No token goes over the end of its line. -/
theorem feed_not_mem_literal {source : String} {token : Token} (h : token ∈ tokens source)
    (hend : token.kind ≠ .endOfText) : '\n' ∉ token.literal.toList := by
  obtain ⟨lexeme, hvalid, -, hchars⟩ := (spelledBy_of_mem_tokens h hend).exists_lexeme
  intro hfeed
  have hblank := (hvalid.not_blank_of_mem (hchars ▸ hfeed)).1
  revert hblank
  decide

/-- The tokens of a source text, the end aside, tile what comes before its mark, with blanks in
between; each has a text that determines its kind, and as much of the text as it can have. -/
theorem tokens_tile_source (source : String) :
    ∃ (layout : Layout) (body : List Token) (last : Token),
      tokens source = body ++ [last] ∧
      last.content = endContent ∧
      layout.chars = source.toList.takeWhile (· ≠ endMark) ∧
      body.map Token.content = layout.tiles.map (·.lexeme.content) ∧
      ∀ token ∈ body, token.kind ≠ .endOfText ∧ token.literal ≠ "" ∧
        ∀ kind : Kind, kind.SpelledBy token.literal.toList ↔ kind = token.kind := by
  obtain ⟨layout, hlayout⟩ := exists_layout_source source
  refine ⟨layout, _, _, tokens_eq_place hlayout, rfl, hlayout, content_place _ _, ?_⟩
  intro token htoken
  obtain ⟨tile, _, here, rfl⟩ := exists_tile_of_mem_place htoken
  exact tile.valid.token here

/-! ## Laid out texts as sources -/

/-- A text that was laid out says, token by token, what the lexemes say that it was made of. -/
theorem content_tokens_chars (layout : Layout) :
    (tokens (String.ofList layout.chars)).map Token.content =
      layout.tiles.map (·.lexeme.content) ++ [endContent] := by
  -- the text of a layout holds no mark, so it is the text of that layout as a whole
  have hall : layout.chars = (String.ofList layout.chars).toList.takeWhile (· ≠ endMark) := by
    rw [String.toList_ofList]
    exact (List.takeWhile_eq_self_iff.2 (by simpa using layout.ne_endMark)).symm
  rw [tokens_eq_place hall, List.map_append, content_place]
  rfl

/-- Lexemes can be laid out with one space between any two of them. -/
theorem exists_layout_spaced (tiles : List Tile) :
    ∃ layout : Layout, layout.lead = [] ∧
      layout.tiles.map Tile.lexeme = tiles.map Tile.lexeme ∧
      layout.chars = [' '].intercalate (tiles.map (·.lexeme.chars)) := by
  induction tiles with
  | nil => exact ⟨⟨[], [], by simp, .nil⟩, rfl, rfl, rfl⟩
  | cons tile tiles ih =>
    obtain ⟨layout, hlead, htiles, hchars⟩ := ih
    -- the lexemes that are left, with a space in front if there are any
    obtain ⟨behind, hlexemes, hbehind, hends⟩ : ∃ behind : Layout,
        behind.tiles = layout.tiles ∧
        tile.lexeme.chars ++ behind.chars =
          [' '].intercalate ((tile :: tiles).map (·.lexeme.chars)) ∧
        tile.lexeme.EndsBefore behind.chars := by
      cases tiles with
      | nil =>
        rw [List.map_nil, List.intercalate_nil] at hchars
        refine ⟨layout, rfl, by simp [hchars], ?_⟩
        rw [hchars]
        simp [Lexeme.EndsBefore]
      | cons next tiles =>
        have hspace : isBlank ' ' = true := rfl
        refine ⟨⟨[' '], layout.tiles, by simpa using hspace, layout.apart⟩, rfl, ?_, ?_⟩
        · rw [List.map_cons] at hchars
          rw [List.map_cons, List.map_cons, List.intercalate_cons_cons, ← hchars]
          simp [Layout.chars, hlead]
        · intro c hc
          obtain rfl : ' ' = c := by simpa [Layout.chars] using hc
          exact tile.lexeme.takes_of_isBlank (.inl hspace)
    refine ⟨behind.prepend [] tile.lexeme (by simp) tile.valid hends, rfl, ?_, ?_⟩
    · simp [Layout.prepend, hlexemes, htiles]
    · rw [Layout.chars_prepend, List.nil_append, hbehind]

/-- The literals of a source text with single spaces between them say what it says. -/
theorem content_tokens_intercalate (source : String) :
    (tokens (" ".intercalate ((tokens source).dropLast.map (·.literal)))).map Token.content =
      (tokens source).map Token.content := by
  obtain ⟨layout, hlayout⟩ := exists_layout_source source
  obtain ⟨spaced, _, hlexemes, hchars⟩ := exists_layout_spaced layout.tiles
  have htokens := tokens_eq_place hlayout
  -- the literals are the texts of the lexemes, and these can be laid out with spaces
  have hliterals : (tokens source).dropLast.map (·.literal) =
      layout.tiles.map (·.lexeme.text) := by
    have hcontents := congrArg (List.map Prod.snd)
      (content_place (Location.start.after layout.lead) layout.tiles)
    rw [htokens, List.dropLast_concat]
    simpa [Function.comp_def, Token.content, Lexeme.content] using hcontents
  have htext : " ".intercalate (layout.tiles.map (·.lexeme.text)) = String.ofList spaced.chars := by
    rw [← String.toList_inj, String.toList_intercalate, hchars, String.toList_ofList, List.map_map]
    simp [Function.comp_def, Lexeme.text]
  have hsame : spaced.tiles.map (·.lexeme.content) = layout.tiles.map (·.lexeme.content) := by
    simpa [Function.comp_def] using congrArg (List.map Lexeme.content) hlexemes
  rw [hliterals, htext, content_tokens_chars, hsame, htokens, List.map_append, content_place]
  rfl

/-- Reading undoes laying out, whatever the blanks: the tokens are the lexemes, with the kinds that
their texts determine. Literals that are taken from any source text may be laid out again with
single spaces. -/
theorem tokens_of_layout :
    (∀ layout : Layout,
      (tokens (String.ofList layout.chars)).map Token.content =
          layout.tiles.map (·.lexeme.content) ++ [endContent] ∧
        ∀ tile ∈ layout.tiles, ∀ kind : Kind,
          kind.SpelledBy tile.lexeme.chars ↔ kind = tile.lexeme.kind) ∧
    ∀ source : String,
      (tokens (" ".intercalate ((tokens source).dropLast.map (·.literal)))).map Token.content =
        (tokens source).map Token.content := by
  refine ⟨fun layout => ⟨content_tokens_chars layout, ?_⟩, content_tokens_intercalate⟩
  intro tile _ kind
  exact tile.valid.spelledBy_iff kind

end Macaque

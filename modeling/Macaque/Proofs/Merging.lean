import Macaque.Proofs.Joins

/-!
# Texts that grow together

Two texts that are put together are read one after the other unless the last lexeme of the first one
goes on into the second one. This can be seen from the characters at the seam for words and numbers.
For signs it cannot: whether an equals sign is a token of its own or the second half of one depends
on how many there are in front of it.

## Architecture

- **Seams**: `Merge` says in which three ways texts grow together, `merge_iff` that these are the
  ways in which the last lexeme takes the first character of the second text
- **Last lexemes**: `Lexeme.longest_ne_of_takes` says that a lexeme is not found again if it goes
  on, `content_tokens_append_ne` that the tokens of the joined text show this
- **Texts**: `tokens_append_iff`
-/

namespace Macaque

/-! ## Seams -/

/-- The first text ends with something that the second one goes on with. -/
inductive Merge (first second : String) : Prop where
  /-- A letter comes behind a letter -/
  | letters {c d : Char} (hlast : first.toList.getLast? = some c)
      (hhead : second.toList.head? = some d) (hc : isLetter c = true) (hd : isLetter d = true)
  /-- A digit comes behind a digit -/
  | digits {c d : Char} (hlast : first.toList.getLast? = some c)
      (hhead : second.toList.head? = some d) (hc : isDigit c = true) (hd : isDigit d = true)
  /-- An equals sign comes at once behind a token that is an equals or exclamation mark -/
  | equals {token : Token} (hlast : (tokens first).dropLast.getLast? = some token)
      (hkind : token.kind = .symbol .assign ∨ token.kind = .symbol .bang)
      (hends : token.literal.toList <:+ first.toList) (hhead : second.toList.head? = some '=')

namespace Lexeme

variable {lexeme : Lexeme} {c : Char}

theorem Valid.takes_of_letter (hvalid : lexeme.Valid) (hmem : c ∈ lexeme.chars)
    (hc : isLetter c = true) (d : Char) : lexeme.takes d = isLetter d := by
  have hword := hvalid.isLetter_eq hmem
  cases lexeme <;> simp_all [takes]

theorem Valid.takes_of_digit (hvalid : lexeme.Valid) (hmem : c ∈ lexeme.chars)
    (hc : isDigit c = true) (d : Char) : lexeme.takes d = isDigit d := by
  have hnumber := hvalid.isDigit_eq hmem
  cases lexeme <;> simp_all [takes]

end Lexeme

section Seam

variable {first second : String} {layout : Layout} {before : List Tile} {tile : Tile}

/-- A text whose last character is no blank ends with its last lexeme. -/
theorem exists_last_tile {c : Char} (hlayout : layout.chars = first.toList)
    (hlast : first.toList.getLast? = some c) (hblank : isBlank c = false) :
    ∃ before tile, layout.tiles = before ++ [tile] ∧ tile.gap = [] ∧ c ∈ tile.lexeme.chars := by
  rw [← hlayout] at hlast
  rcases List.eq_nil_or_concat' layout.tiles with htiles | ⟨before, tile, htiles⟩
  · -- without a lexeme the text would be blank
    simp only [Layout.chars, htiles, lay_nil, List.append_nil] at hlast
    simp [layout.lead_blank c (List.mem_of_getLast? hlast)] at hblank
  · rw [Layout.chars_of_concat htiles] at hlast
    have hgap : tile.gap = [] := by
      by_contra hgap
      rw [List.getLast?_append_of_ne_nil _ hgap] at hlast
      simp [tile.blank c (List.mem_of_getLast? hlast)] at hblank
    rw [hgap, List.append_nil, List.getLast?_append_of_ne_nil _ tile.valid.chars_ne_nil] at hlast
    exact ⟨before, tile, htiles, hgap, List.mem_of_getLast? hlast⟩

/-- The last lexeme makes the last token in front of the end. -/
theorem getLast?_dropLast_tokens (hlayout : layout.chars = first.toList)
    (htiles : layout.tiles = before ++ [tile]) :
    (tokens first).dropLast.getLast? =
      some (tile.lexeme.token ((Location.start.after layout.lead).after (lay before))) := by
  rw [tokens_eq_of_layout hlayout, List.dropLast_concat, htiles, place_concat, List.getLast?_concat]

/-- A sign that a text ends with is its last lexeme. -/
theorem exists_last_sign {token : Token} {s : Symbol} (hlayout : layout.chars = first.toList)
    (hlast : (tokens first).dropLast.getLast? = some token) (hkind : token.kind = .symbol s)
    (hends : token.literal.toList <:+ first.toList) :
    ∃ before tile, layout.tiles = before ++ [tile] ∧ tile.gap = [] ∧ tile.lexeme = .symbol s := by
  have hmem : token ∈ tokens first := (List.dropLast_sublist _).subset (List.mem_of_getLast? hlast)
  have hspelled := spelledBy_of_mem_tokens hmem (by simp [hkind])
  rw [hkind] at hspelled
  obtain ⟨c, hc⟩ : ∃ c, s.chars.getLast? = some c := by cases s <;> exact ⟨_, rfl⟩
  have hchar : first.toList.getLast? = some c := by
    obtain ⟨front, hfront⟩ := hends
    rw [← hfront, hspelled.eq_chars, List.getLast?_append, hc]
    rfl
  obtain ⟨before, tile, htiles, hgap, -⟩ :=
    exists_last_tile hlayout hchar (Symbol.not_other (List.mem_of_getLast? hc)).2.2.1
  rw [getLast?_dropLast_tokens hlayout htiles, Option.some_inj] at hlast
  rw [← hlast] at hkind
  exact ⟨before, tile, htiles, hgap, Lexeme.eq_symbol_of_kind hkind⟩

/-- Texts grow together exactly if the last lexeme of the first one takes what comes behind it. -/
theorem merge_iff (hlayout : layout.chars = first.toList) :
    Merge first second ↔ ∃ before tile d, layout.tiles = before ++ [tile] ∧ tile.gap = [] ∧
      second.toList.head? = some d ∧ tile.lexeme.takes d = true := by
  constructor
  · rintro (⟨hlast, hhead, hc, hd⟩ | ⟨hlast, hhead, hc, hd⟩ | @⟨token, hlast, hkind, hends, hhead⟩)
    · obtain ⟨before, tile, htiles, hgap, hmem⟩ :=
        exists_last_tile hlayout hlast (not_blank_of_letter_or_digit (.inl hc)).1
      exact ⟨before, tile, _, htiles, hgap, hhead, by rwa [tile.valid.takes_of_letter hmem hc]⟩
    · obtain ⟨before, tile, htiles, hgap, hmem⟩ :=
        exists_last_tile hlayout hlast (not_blank_of_letter_or_digit (.inr hc)).1
      exact ⟨before, tile, _, htiles, hgap, hhead, by rwa [tile.valid.takes_of_digit hmem hc]⟩
    · obtain ⟨s, hs, htakes⟩ :
          ∃ s, token.kind = .symbol s ∧ (Lexeme.symbol s).takes '=' = true := by
        rcases hkind with hassign | hbang
        · exact ⟨.assign, hassign, rfl⟩
        · exact ⟨.bang, hbang, rfl⟩
      obtain ⟨before, tile, htiles, hgap, hsign⟩ := exists_last_sign hlayout hlast hs hends
      exact ⟨before, tile, '=', htiles, hgap, hhead, by rwa [hsign]⟩
  · rintro ⟨before, tile, d, htiles, hgap, hhead, htakes⟩
    have hsplit := Layout.chars_of_concat htiles
    rw [hlayout, hgap, List.append_nil] at hsplit
    have hlast : first.toList.getLast? = tile.lexeme.chars.getLast? := by
      rw [hsplit, List.getLast?_append_of_ne_nil _ tile.valid.chars_ne_nil]
    have hvalid := tile.valid
    -- the form of the lexeme tells in which way the texts grow together
    cases hlexeme : tile.lexeme with
    | word letters =>
      rw [hlexeme] at hlast htakes hvalid
      rw [Lexeme.chars, List.getLast?_eq_some_getLast hvalid.1] at hlast
      exact .letters hlast hhead (hvalid.2 _ (List.getLast_mem hvalid.1)) htakes
    | number digits =>
      rw [hlexeme] at hlast htakes hvalid
      rw [Lexeme.chars, List.getLast?_eq_some_getLast hvalid.1] at hlast
      exact .digits hlast hhead (hvalid.2 _ (List.getLast_mem hvalid.1)) htakes
    | symbol s =>
      simp only [hlexeme, Lexeme.takes, Bool.and_eq_true, Bool.or_eq_true, decide_eq_true_eq]
        at htakes
      obtain ⟨hs, rfl⟩ := htakes
      refine .equals (getLast?_dropLast_tokens hlayout htiles) ?_ ?_ hhead
      · simpa [Lexeme.token, Lexeme.kind, hlexeme] using hs
      · have hliteral : (tile.lexeme.token ((Location.start.after layout.lead).after
            (lay before))).literal.toList = tile.lexeme.chars := by
          simp [Lexeme.token, Lexeme.text]
        rw [hliteral, hsplit]
        exact List.suffix_append _ _
    | stray c => simp [hlexeme, Lexeme.takes] at htakes

end Seam

/-! ## Last lexemes -/

/-- What a lexeme says determines it. -/
theorem Lexeme.Valid.eq_of_content_eq {lexeme other : Lexeme} (hvalid : lexeme.Valid)
    (hother : other.Valid) (h : lexeme.content = other.content) : lexeme = other := by
  apply hvalid.eq_of_chars_eq hother
  have htext : lexeme.text = other.text := congrArg Prod.snd h
  exact String.ofList_injective htext

/-- A lexeme is not found where it goes on. -/
theorem Lexeme.longest_ne_of_takes {lexeme : Lexeme} {c d : Char} {cs more : List Char}
    (hchars : lexeme.chars = c :: cs) (hhead : more.head? = some d)
    (htakes : lexeme.takes d = true) : longest c (cs ++ more) ≠ lexeme := by
  intro hlongest
  have happend : (longest c (cs ++ more)).chars ++ more = c :: (cs ++ more) := by
    rw [hlongest, hchars, List.cons_append]
  have hends := endsBefore_longest happend
  rw [hlongest] at hends
  simp [hends d hhead] at htakes

/-- The first token of a text that begins with a lexeme is the longest lexeme there. -/
theorem Cursor.exists_toEnd_eq_longest {c : Char} (rest : List Char) (location : Location)
    (hmark : c ≠ endMark) (hblank : isBlank c = false) :
    ∃ later, (toEnd ⟨c :: rest, location⟩).value =
      (Lexeme.longest c rest).token location :: later := by
  have happend := Lexeme.chars_longest_append c rest
  have hvalid := Lexeme.valid_longest rest hmark hblank
  have hread := toEnd_of_lexeme [] location (by simp) hvalid (Lexeme.endsBefore_longest happend)
  rw [happend] at hread
  exact ⟨_, hread⟩

/-- If the last lexeme goes on, the tokens of the joined text say something else. -/
theorem content_tokens_append_ne {first second : String} {layout : Layout} {before : List Tile}
    {tile : Tile} {d : Char} {body : List Token} (hlayout : layout.chars = first.toList)
    (hbody : body = place (Location.start.after layout.lead) layout.tiles)
    (htiles : layout.tiles = before ++ [tile]) (hgap : tile.gap = [])
    (hhead : second.toList.head? = some d) (htakes : tile.lexeme.takes d = true)
    (later : List (Kind × String)) :
    (tokens (first ++ second)).map Token.content ≠ body.map Token.content ++ later := by
  obtain ⟨c, cs, hchars⟩ := List.exists_cons_of_ne_nil tile.valid.chars_ne_nil
  obtain ⟨hblank, hmark⟩ := tile.valid.not_blank_of_mem (c := c) (by simp [hchars])
  have hvalid := Lexeme.valid_longest (cs ++ second.toList) hmark hblank
  obtain ⟨others, hothers⟩ := Cursor.exists_toEnd_eq_longest (cs ++ second.toList)
    (Location.start.after (layout.lead ++ lay before)) hmark hblank
  have htext : lay [tile] ++ second.toList = c :: (cs ++ second.toList) := by
    simp [Tile.chars, hgap, hchars]
  -- the lexemes in front of the last one are read as before
  have hjoined :=
    tokens_append_of_split hlayout htiles (layout.endsBefore_of_split htiles second.toList)
  rw [hjoined, htext, hothers, hbody, content_place, htiles, List.map_append, content_place,
    List.map_append, List.map_cons, List.append_assoc]
  intro hsame
  have hcontent := (List.cons.inj (List.append_cancel_left hsame)).1
  have hlongest := hvalid.eq_of_content_eq tile.valid hcontent
  exact Lexeme.longest_ne_of_takes hchars hhead htakes hlongest

/-! ## Texts -/

/-- The tokens of a joined text are those of the two texts, of the second one moved to where the
first one ends, exactly if the texts do not grow together. If they do, the tokens say something
else. -/
theorem tokens_append_iff {first : String} {body : List Token} {last : Token}
    (hmark : endMark ∉ first.toList) (htokens : tokens first = body ++ [last]) (second : String) :
    (tokens (first ++ second) = body ++ (tokens second).map (Token.shift last.location) ↔
        ¬ Merge first second) ∧
      (Merge first second → (tokens (first ++ second)).map Token.content ≠
        body.map Token.content ++ (tokens second).map Token.content) := by
  obtain ⟨layout, hlayout, hbody, rfl⟩ := exists_layout_of_tokens hmark htokens
  have hdiffer : Merge first second → (tokens (first ++ second)).map Token.content ≠
      body.map Token.content ++ (tokens second).map Token.content := by
    intro hmerge
    obtain ⟨before, tile, d, htiles, hgap, hhead, htakes⟩ := (merge_iff hlayout).1 hmerge
    exact content_tokens_append_ne hlayout hbody htiles hgap hhead htakes _
  refine ⟨⟨fun hsame hmerge => ?_, fun hapart => ?_⟩, hdiffer⟩
  · -- moving a token does not change what it says
    apply hdiffer hmerge
    rw [hsame, List.map_append, List.map_map]
    rfl
  · rw [hbody]
    apply tokens_append hlayout
    intro tile htile
    obtain ⟨before, htiles⟩ := List.getLast?_eq_some_iff.1 htile
    by_cases hgap : tile.gap = []
    · rw [hgap, List.nil_append]
      intro d hd
      -- a lexeme that went on would make the texts grow together
      apply Bool.eq_false_iff.2
      intro htakes
      exact hapart ((merge_iff hlayout).2 ⟨before, tile, d, htiles, hgap, hd, htakes⟩)
    · exact tile.endsBefore_gap second.toList hgap

/-- Behind three equals signs another one makes a token with the third; behind two it is a token of
its own. -/
theorem tokens_append_iff_signs :
    (endMark ∉ "x ===".toList ∧ Merge "x ===" "= y" ∧
        (tokens ("x ===" ++ "= y")).map Token.content ≠
          (tokens "x ===").dropLast.map Token.content ++ (tokens "= y").map Token.content) ∧
      endMark ∉ "x ==".toList ∧ ¬ Merge "x ==" "= y" ∧
        tokens ("x ==" ++ "= y") =
          (tokens "x ==").dropLast ++ (tokens "= y").map (Token.shift ⟨1, 5⟩) := by
  have hmark : endMark ∉ "x ===".toList := by decide
  have hmark' : endMark ∉ "x ==".toList := by decide
  have htokens : tokens "x ===" = (tokens "x ===").dropLast ++ [.endAt ⟨1, 6⟩] := by decide +kernel
  have htokens' : tokens "x ==" = (tokens "x ==").dropLast ++ [.endAt ⟨1, 5⟩] := by decide +kernel
  have hmerge : Merge "x ===" "= y" := by
    have hlast : (tokens "x ===").dropLast.getLast? = some ⟨.symbol .assign, "=", ⟨1, 5⟩⟩ := by
      decide +kernel
    exact .equals hlast (.inl rfl) (by decide) rfl
  have hjoined : tokens ("x ==" ++ "= y") =
      (tokens "x ==").dropLast ++ (tokens "= y").map (Token.shift ⟨1, 5⟩) := by
    decide +kernel
  obtain ⟨-, hdiffer⟩ := tokens_append_iff hmark htokens "= y"
  obtain ⟨happly, -⟩ := tokens_append_iff hmark' htokens' "= y"
  exact ⟨⟨hmark, hmerge, hdiffer hmerge⟩, hmark', happly.1 hjoined, hjoined⟩

end Macaque

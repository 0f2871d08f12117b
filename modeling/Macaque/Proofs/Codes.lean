import Macaque.Proofs.Messages

/-!
# Texts that can be read back

A text that is written for an item can be read back if it tells what the item was and where it ends,
whatever comes behind it. Such texts may be put one after the other: the fields of a row, the
characters of a quotation, the lines of a session.

## Architecture

- **Codes**: `Tells view code` is closed under append (`Tells.append`), under sequences that
  something ends which no item begins with (`Tells.terminated`), and under sequences at the end of
  everything (`Tells.map_eq_of_flatMap`), the last two by induction on the sequence
- **Fields**: a padded text tells what is padded, however long it is (`tells_padRight`,
  `tells_padLeft`)
- **Quotation**: `Escaped` are the forms in which a character is quoted; a quoted text tells the
  text (`tells_quoted`)
-/

namespace Macaque

/-! ## Codes -/

section Codes

variable {α β γ : Type} {view : α → β} {code : α → List Char}

/-- What `code` writes for an item tells what `view` sees of the item, and where it ends, whatever
comes behind it. -/
def Tells (view : α → β) (code : α → List Char) : Prop :=
  ∀ ⦃a b : α⦄ ⦃rest more : List Char⦄,
    code a ++ rest = code b ++ more → view a = view b ∧ rest = more

namespace Tells

theorem view_eq (h : Tells view code) {a b : α} (hcode : code a = code b) : view a = view b :=
  (h (congrArg (· ++ []) hcode)).1

/-- What is written tells all that follows from what it tells. -/
theorem of_view (h : Tells view code) {other : α → γ}
    (hview : ∀ a b, view a = view b → other a = other b) : Tells other code :=
  fun _ _ _ _ hcode => (h hcode).imp_left (hview _ _)

/-- Two texts one after the other tell what each of them tells. -/
theorem append (h : Tells view code) {other : α → γ} {code' : α → List Char}
    (h' : Tells other code') :
    Tells (fun a => (view a, other a)) fun a => code a ++ code' a := by
  intro a b rest more hcode
  simp only [List.append_assoc] at hcode
  obtain ⟨hview, hbehind⟩ := h hcode
  obtain ⟨hother, hrest⟩ := h' hbehind
  exact ⟨Prod.ext hview hother, hrest⟩

/-- Something that is always the same may be written behind. -/
theorem append_same (h : Tells view code) (text : List Char) :
    Tells view fun a => code a ++ text := by
  intro a b rest more hcode
  simp only [List.append_assoc] at hcode
  exact (h hcode).imp_right List.append_cancel_left

/-- Items that are written one after the other can be read back if something ends them with which no
item begins. -/
theorem terminated (h : Tells view code) {stop : List Char}
    (hstop : ∀ a rest more, code a ++ rest ≠ stop ++ more) :
    Tells (List.map view) fun items => items.flatMap code ++ stop := by
  intro items others rest more hcode
  -- each item is told and taken away from both sides, until both are at the end
  induction items generalizing others with
  | nil =>
    cases others with
    | nil => exact ⟨rfl, List.append_cancel_left hcode⟩
    | cons other others =>
      simp only [List.flatMap_nil, List.nil_append, List.flatMap_cons, List.append_assoc] at hcode
      exact absurd hcode.symm (hstop other _ _)
  | cons item items ih =>
    cases others with
    | nil =>
      simp only [List.flatMap_nil, List.nil_append, List.flatMap_cons, List.append_assoc] at hcode
      exact absurd hcode (hstop item _ _)
    | cons other others =>
      simp only [List.flatMap_cons, List.append_assoc] at hcode
      obtain ⟨hitem, hbehind⟩ := h hcode
      obtain ⟨hitems, hrest⟩ := @ih others (by simpa using hbehind)
      exact ⟨by simp [hitem, hitems], hrest⟩

/-- Items with nothing behind them can be read back if none of them is written as nothing. -/
theorem map_eq_of_flatMap (h : Tells view code) (hne : ∀ a, code a ≠ []) {items others : List α}
    (hcode : items.flatMap code = others.flatMap code) : items.map view = others.map view := by
  induction items generalizing others with
  | nil =>
    cases others with
    | nil => rfl
    | cons other others =>
      obtain ⟨hother, -⟩ := List.append_eq_nil_iff.1 hcode.symm
      exact absurd hother (hne other)
  | cons item items ih =>
    cases others with
    | nil =>
      obtain ⟨hitem, -⟩ := List.append_eq_nil_iff.1 hcode
      exact absurd hitem (hne item)
    | cons other others =>
      simp only [List.flatMap_cons] at hcode
      obtain ⟨hitem, hbehind⟩ := h hcode
      simp [hitem, ih hbehind]

end Tells

/-! ## Fields -/

/-- A text is told by its characters up to one that it does not hold. -/
theorem tells_upTo {stop : Char} (hstop : ∀ a, stop ∉ code a)
    (hview : ∀ a b, code a = code b → view a = view b) :
    Tells view fun a => code a ++ [stop] := by
  intro a b rest more hcode
  have hends (text : List Char) : ∀ c ∈ (stop :: text).head?, decide (c ≠ stop) = false := by
    simp
  have htakes (a : α) : ∀ c ∈ code a, decide (c ≠ stop) = true := by
    intro c hc
    simpa using fun hsame : c = stop => hstop a (hsame ▸ hc)
  simp only [List.append_assoc, List.singleton_append] at hcode
  have hsame : code a = code b := by
    have htaken := congrArg (List.takeWhile (fun c => decide (c ≠ stop))) hcode
    rwa [takeWhile_append_of_ends (htakes a) (hends _),
      takeWhile_append_of_ends (htakes b) (hends _)] at htaken
  rw [hsame] at hcode
  exact ⟨hview a b hsame, (List.cons.inj (List.append_cancel_left hcode)).2⟩

end Codes

/-! ## Numbers -/

/-- A number is known by its digits. -/
theorem toDigits_injective {base m n : Nat} (hbase : 1 < base) (hle : base ≤ 16)
    (h : Nat.toDigits base m = Nat.toDigits base n) : m = n := by
  have hdigit : ∀ i < 16, ∀ j < 16, Nat.digitChar i = Nat.digitChar j → i = j := by decide
  have hlonger (front : List Char) (last single : Char) (hne : front ≠ []) :
      front ++ [last] ≠ [single] := by
    simp [List.append_eq_singleton_iff, hne]
  -- induction on the number without its last digit
  induction m using Nat.strong_induction_on generalizing n with
  | _ m ih =>
  rw [Nat.toDigits_eq_if hbase, Nat.toDigits_eq_if hbase (n := n)] at h
  split at h <;> split at h
  · next hm hn => exact hdigit m (by omega) n (by omega) (List.singleton_inj.1 h)
  · exact absurd h.symm (hlonger _ _ _ Nat.toDigits_ne_nil)
  · exact absurd h (hlonger _ _ _ Nat.toDigits_ne_nil)
  · next hm hn =>
    obtain ⟨hfront, hlast⟩ := List.append_inj' h rfl
    have hquotient := ih (m / base) (Nat.div_lt_self (by omega) hbase) hfront
    have hremainder : m % base = n % base := by
      apply hdigit _ _ _ _ (List.singleton_inj.1 hlast)
      · exact Nat.lt_of_lt_of_le (Nat.mod_lt m (by omega)) hle
      · exact Nat.lt_of_lt_of_le (Nat.mod_lt n (by omega)) hle
    rw [← Nat.div_add_mod m base, hquotient, hremainder, Nat.div_add_mod]

theorem toString_injective {m n : Nat} (h : toString m = toString n) : m = n := by
  have hdigits := congrArg String.toList h
  rw [Nat.toString_eq_repr, Nat.toString_eq_repr, Nat.toList_repr, Nat.toList_repr] at hdigits
  exact toDigits_injective (by decide) (by decide) hdigits

namespace Text

theorem toList_padRight (width : Nat) (text : String) :
    (padRight width text).toList =
      text.toList ++ List.replicate (width - text.toList.length) ' ' := by
  simp [padRight, Field.render, Field.place, Field.cut, Field.lead]

theorem toList_padLeft (width : Nat) (text : String) :
    (padLeft width text).toList =
      List.replicate (width - text.toList.length) ' ' ++ text.toList := by
  simp [padLeft, Field.render, Field.place, Field.cut, Field.lead]

section Padding

variable {α β : Type} {view : α → β} {text : α → String}

/-- A text without spaces that is padded to the right is told if a space comes behind it. -/
theorem tells_padRight (width : Nat) (hspace : ∀ a, Lacks ' ' (text a))
    (hview : ∀ a b, text a = text b → view a = view b) :
    Tells view fun a => (padRight width (text a)).toList ++ [' '] := by
  have htext : Tells text fun a => (text a).toList ++ [' '] :=
    tells_upTo hspace fun _ _ => String.toList_inj.1
  intro a b rest more hcode
  -- the first space ends the text, be it one of the padding or the one behind it
  have hmoved (a : α) (rest : List Char) : (padRight width (text a)).toList ++ [' '] ++ rest =
      (text a).toList ++ [' '] ++
        (List.replicate (width - (text a).toList.length) ' ' ++ rest) := by
    simp only [toList_padRight, List.append_assoc, List.singleton_append]
    rw [List.append_cons, ← List.replicate_succ', List.replicate_succ, List.cons_append]
  rw [hmoved, hmoved] at hcode
  obtain ⟨hsame, hbehind⟩ := htext hcode
  rw [hsame] at hbehind
  exact ⟨hview a b hsame, List.append_cancel_left hbehind⟩

/-- A text without spaces that is padded to the left is told if a character comes behind it that it
does not hold. -/
theorem tells_padLeft (width : Nat) {stop : Char} (hblank : stop ≠ ' ')
    (hspace : ∀ a, Lacks ' ' (text a)) (hstop : ∀ a, Lacks stop (text a))
    (hview : ∀ a b, text a = text b → view a = view b) :
    Tells view fun a => (padLeft width (text a)).toList ++ [stop] := by
  have htext : Tells text fun a => (text a).toList ++ [stop] :=
    tells_upTo hstop fun _ _ => String.toList_inj.1
  intro a b rest more hcode
  -- the padding goes up to the first character that is no space
  have hbare (a : α) (rest : List Char) :
      ((padLeft width (text a)).toList ++ [stop] ++ rest).dropWhile (· = ' ') =
        (text a).toList ++ [stop] ++ rest := by
    rw [toList_padLeft, List.append_assoc, List.append_assoc, List.append_assoc]
    apply dropWhile_append_of_ends
    · intro c hc
      simp [List.eq_of_mem_replicate hc]
    · intro c hc
      have hmem : c ∈ (text a).toList ++ [stop] := by
        apply List.mem_of_mem_head?
        rwa [← List.append_assoc, List.head?_append_of_ne_nil _ (by simp)] at hc
      rcases List.mem_append.1 hmem with hc | hc
      · simpa using fun hsame : c = ' ' => hspace a (hsame ▸ hc)
      · simpa [List.mem_singleton.1 hc] using hblank
  have hcode' := congrArg (List.dropWhile (· = ' ')) hcode
  rw [hbare, hbare] at hcode'
  exact (htext hcode').imp_left (hview a b)

end Padding

/-! ## Quotation -/

/-- The two marks that texts are quoted with -/
def marks : List Char :=
  ['\x22', '\x27']

/-- What the second character of a two-character escape stands for -/
def letterMeaning (letter : Char) : Char :=
  if letter = '0' then '\x00'
  else if letter = 't' then '\t'
  else if letter = 'r' then '\r'
  else if letter = 'n' then '\n'
  else letter

/-- The forms in which a character stands between two marks -/
inductive Escaped (mark : Char) : Char → List Char → Prop where
  | plain {c : Char} (hbackslash : c ≠ '\\') (hmark : c ≠ mark) : Escaped mark c [c]
  | letter {letter : Char} (hcode : letter ≠ 'u') :
      Escaped mark (letterMeaning letter) ['\\', letter]
  | code (c : Char) : Escaped mark c (codePointEscape c)

theorem letter_of_escapeLetter {c letter : Char} (h : escapeLetter? c = some letter) :
    letter ≠ 'u' ∧ letterMeaning letter = c := by
  unfold escapeLetter? at h
  repeat' split at h
  all_goals cases h
  all_goals refine ⟨by decide, ?_⟩
  all_goals simp [letterMeaning, *]

theorem escaped_escape {mark : Char} (hmark : mark ∈ marks) (c : Char) :
    Escaped mark c (escape mark c) := by
  have hneutral : mark ≠ 'u' ∧ letterMeaning mark = mark := by
    rcases List.mem_pair.1 hmark with rfl | rfl <;> decide
  unfold escape
  split
  · next letter hletter =>
    obtain ⟨hcode, hmeaning⟩ := letter_of_escapeLetter hletter
    exact hmeaning ▸ .letter hcode
  · next hletter =>
    split
    · next hsame =>
      have hquoted : Escaped mark (letterMeaning mark) ['\\', mark] := .letter hneutral.1
      rw [hneutral.2] at hquoted
      exact hsame ▸ hquoted
    · next hother =>
      split
      · refine .plain ?_ hother
        rintro rfl
        simp [escapeLetter?] at hletter
      · exact .code c

/-- A character that is quoted can be told apart from every other. -/
theorem tells_escape {mark : Char} (hmark : mark ∈ marks) : Tells id (escape mark) := by
  have hdigits : Tells id fun c : Char => Nat.toDigits 16 c.toNat ++ ['\x7d'] := by
    apply tells_upTo
    · intro c hmem
      have hdigit : ∀ d < 16, '\x7d' ≠ Nat.digitChar d := by decide
      obtain ⟨d, hlt, hbrace⟩ := exists_digit_of_mem_toDigits (by decide) hmem
      exact hdigit d hlt hbrace
    · exact fun a b hcode => Char.toNat_inj.1 (toDigits_injective (by decide) (by decide) hcode)
  intro a b rest more hcode
  have ha := escaped_escape hmark a
  have hb := escaped_escape hmark b
  generalize escape mark a = first at ha hcode
  generalize escape mark b = second at hb hcode
  -- the first character tells whether there is an escape, and the second one of which form it is
  cases ha with
  | plain hplain _ =>
    cases hb with
    | plain _ _ => exact List.cons.inj hcode
    | letter _ => exact absurd (List.cons.inj hcode).1 hplain
    | code _ => exact absurd (List.cons.inj hcode).1 hplain
  | letter hletter =>
    cases hb with
    | plain hplain _ => exact absurd (List.cons.inj hcode).1.symm hplain
    | letter _ =>
      obtain ⟨hsame, hrest⟩ := List.cons.inj (List.cons.inj hcode).2
      exact ⟨congrArg letterMeaning hsame, hrest⟩
    | code _ => exact absurd (List.cons.inj (List.cons.inj hcode).2).1 hletter
  | code _ =>
    cases hb with
    | plain hplain _ => exact absurd (List.cons.inj hcode).1.symm hplain
    | letter hletter => exact absurd (List.cons.inj (List.cons.inj hcode).2).1.symm hletter
    | code _ =>
      simp only [codePointEscape, List.append_assoc] at hcode
      exact hdigits (by simpa using List.append_cancel_left hcode)

/-- No character is quoted by something that begins with the mark. -/
theorem escape_append_ne {mark : Char} (hmark : mark ∈ marks) (c : Char) (rest more : List Char) :
    escape mark c ++ rest ≠ [mark] ++ more := by
  have hbackslash : '\\' ≠ mark := by
    rcases List.mem_pair.1 hmark with rfl | rfl <;> decide
  intro hcode
  have hescaped := escaped_escape hmark c
  generalize escape mark c = text at hescaped hcode
  cases hescaped with
  | plain _ hother => exact hother (List.cons.inj hcode).1
  | letter _ => exact hbackslash (List.cons.inj hcode).1
  | code _ => exact hbackslash (List.cons.inj hcode).1

/-- What is quoted can be read back, whatever the text. -/
theorem tells_enclose {mark : Char} (hmark : mark ∈ marks) : Tells id (enclose mark) := by
  have hbody := (tells_escape hmark).terminated (escape_append_ne hmark)
  intro a b rest more hcode
  simp only [enclose, List.cons_append] at hcode
  simpa using hbody (List.cons.inj hcode).2

theorem tells_quoted : Tells id fun text => (quoted text).toList := by
  have hmark : '\x22' ∈ marks := List.mem_cons_self
  intro a b rest more hcode
  simp only [quoted, String.toList_ofList] at hcode
  exact (tells_enclose hmark hcode).imp_left String.toList_inj.1

end Text

end Macaque

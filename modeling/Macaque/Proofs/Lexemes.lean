import Macaque.Lexical.Cursor
import Mathlib.Data.List.TakeWhile

/-!
# Well-formed lexemes

What a lexeme may consist of, said without the scanner, and that the scanner takes exactly one of
these. Two lexemes that stand side by side stay two lexemes unless the first one would go on into
the second one.

## Architecture

- **Form**: `Lexeme.Valid` says what each form of lexeme may hold, `Kind.SpelledBy` which texts a
  kind of token may have
- **Boundary**: `Lexeme.takes` says with which character a lexeme goes on, `Lexeme.fuses` with which
  lexeme
- **Scanner**: `valid_longest` and `endsBefore_longest` say what `Lexeme.longest` finds and leaves;
  `longest_append` says that it finds a valid lexeme again wherever that ends
- **Spellings**: `Kind.SpelledBy.unique` and `Valid.spelledBy_iff` say that a text determines its
  kind, as a case of `longest_append`
-/

namespace Macaque

/-! ## Form -/

/-- Characters outside the alphabet: no mark, no blank, and in no lexeme of another form -/
structure IsStray (c : Char) : Prop where
  ne_endMark : c ≠ endMark
  not_blank : isBlank c = false
  not_letter : isLetter c = false
  not_digit : isDigit c = false
  not_symbol : ∀ s ∈ Symbol.all, c ∉ s.chars

theorem isStray_iff (c : Char) :
    IsStray c ↔ c ≠ endMark ∧ isBlank c = false ∧ isLetter c = false ∧ isDigit c = false ∧
      ∀ s ∈ Symbol.all, c ∉ s.chars :=
  ⟨fun ⟨h₁, h₂, h₃, h₄, h₅⟩ => ⟨h₁, h₂, h₃, h₄, h₅⟩,
    fun ⟨h₁, h₂, h₃, h₄, h₅⟩ => ⟨h₁, h₂, h₃, h₄, h₅⟩⟩

instance : DecidablePred IsStray := fun c => decidable_of_iff' _ (isStray_iff c)

/-- The texts that a kind of token may have; the end has none -/
inductive Kind.SpelledBy : Kind → List Char → Prop where
  /-- A reserved word has its one spelling -/
  | keyword (w : Keyword) : SpelledBy (.keyword w) w.spelling.toList
  /-- A name is any other run of letters -/
  | identifier {letters : List Char} (hne : letters ≠ []) (hletters : ∀ c ∈ letters, isLetter c)
      (hfree : ∀ w : Keyword, letters ≠ w.spelling.toList) : SpelledBy .identifier letters
  /-- A number is a run of digits -/
  | integer {digits : List Char} (hne : digits ≠ []) (hdigits : ∀ c ∈ digits, isDigit c) :
      SpelledBy .integer digits
  /-- An operator or delimiter has its one spelling -/
  | symbol (s : Symbol) : SpelledBy (.symbol s) s.chars
  /-- What is illegal is a single stray character -/
  | illegal {c : Char} (hstray : IsStray c) : SpelledBy .illegal [c]

/-! ## Runs of characters -/

theorem not_head_dropWhile (p : Char → Bool) (text : List Char) :
    ∀ c ∈ (text.dropWhile p).head?, p c = false := by
  intro c hc
  have hhead := List.head?_dropWhile_not p text
  rw [hc] at hhead
  exact hhead

/-- A run that was taken ends where its class of characters does. -/
theorem not_head_of_takeWhile_append {p : Char → Bool} {rest more : List Char}
    (h : rest.takeWhile p ++ more = rest) : ∀ c ∈ more.head?, p c = false := by
  have hmore : more = rest.dropWhile p := by
    apply (List.append_right_inj (rest.takeWhile p)).1
    rw [h, List.takeWhile_append_dropWhile]
  rw [hmore]
  exact not_head_dropWhile p rest

/-- A run goes up to where its class of characters ends. -/
theorem takeWhile_append_of_ends {p : Char → Bool} {run more : List Char}
    (hrun : ∀ c ∈ run, p c) (hmore : ∀ c ∈ more.head?, p c = false) :
    (run ++ more).takeWhile p = run := by
  rw [List.takeWhile_append_of_pos hrun]
  cases more with
  | nil => simp
  | cons c more => simp [hmore c rfl]

theorem dropWhile_append_of_ends {p : Char → Bool} {run more : List Char}
    (hrun : ∀ c ∈ run, p c) (hmore : ∀ c ∈ more.head?, p c = false) :
    (run ++ more).dropWhile p = more := by
  rw [List.dropWhile_append_of_pos hrun]
  cases more with
  | nil => simp
  | cons c more => simp [hmore c rfl]

/-! ## Classes of characters -/

theorem isBlank_iff (c : Char) : isBlank c = true ↔ c ∈ [' ', '\t', '\n', '\r'] := by
  simp [isBlank, or_assoc]

theorem isLetter_iff (c : Char) :
    isLetter c = true ↔ 'A' ≤ c ∧ c ≤ 'Z' ∨ 'a' ≤ c ∧ c ≤ 'z' ∨ c = '_' := by
  delta isLetter Char.isAlpha Char.isUpper Char.isLower
  simp only [Bool.or_eq_true, Bool.and_eq_true, decide_eq_true_eq, or_assoc]
  exact Iff.rfl

theorem isDigit_iff (c : Char) : isDigit c = true ↔ '0' ≤ c ∧ c ≤ '9' := by
  simp only [isDigit, Char.isDigit, Bool.and_eq_true, decide_eq_true_eq]
  exact Iff.rfl

theorem isLetter_of_isDigit {c : Char} (h : isDigit c = true) : isLetter c = false := by
  -- the underscore aside, the ranges of code points are disjoint
  have hunderscore : c ≠ '_' := by
    rintro rfl
    revert h
    decide
  simp only [isDigit, Char.isDigit, Bool.and_eq_true, decide_eq_true_eq] at h
  delta isLetter Char.isAlpha Char.isUpper Char.isLower
  grind

theorem isDigit_of_isLetter {c : Char} (h : isLetter c = true) : isDigit c = false := by
  cases hdigit : isDigit c with
  | false => rfl
  | true => simp [isLetter_of_isDigit hdigit] at h

theorem not_letter_or_digit {c : Char} (h : isBlank c = true ∨ c = endMark) :
    isLetter c = false ∧ isDigit c = false := by
  simp only [isBlank, Bool.or_eq_true, decide_eq_true_eq] at h
  rcases h with (((rfl | rfl) | rfl) | rfl) | rfl <;> decide

theorem not_blank_of_letter_or_digit {c : Char} (h : isLetter c = true ∨ isDigit c = true) :
    isBlank c = false ∧ c ≠ endMark := by
  by_contra hother
  have hblank : isBlank c = true ∨ c = endMark := by
    grind
  simp [not_letter_or_digit hblank] at h

/-- The characters of symbols are in no other class. -/
theorem Symbol.not_other {s : Symbol} {c : Char} (h : c ∈ s.chars) :
    isLetter c = false ∧ isDigit c = false ∧ isBlank c = false ∧ c ≠ endMark := by
  cases s <;> simp only [Symbol.chars, List.mem_cons, List.not_mem_nil, or_false, or_self] at h <;>
    rcases h with rfl | rfl <;> decide

/-! ## Words -/

/-- A text is looked up as a reserved word exactly if that is its spelling. -/
theorem Keyword.ofText?_eq_some_iff (text : String) (w : Keyword) :
    Keyword.ofText? text = some w ↔ text = w.spelling := by
  constructor
  · intro h
    have hspelled := List.find?_some (p := fun v : Keyword => v.spelling = text) h
    exact (of_decide_eq_true hspelled).symm
  · rintro rfl
    cases w <;> decide

theorem Kind.ofWord_eq_keyword_iff (word : String) (w : Keyword) :
    Kind.ofWord word = .keyword w ↔ word = w.spelling := by
  rw [← Keyword.ofText?_eq_some_iff, Kind.ofWord]
  cases Keyword.ofText? word <;> simp

theorem Kind.ofWord_eq_identifier_iff (word : String) :
    Kind.ofWord word = .identifier ↔ ∀ w : Keyword, word ≠ w.spelling := by
  simp only [ne_eq, ← Keyword.ofText?_eq_some_iff, Kind.ofWord]
  cases Keyword.ofText? word <;> simp

theorem Kind.SpelledBy.eq_chars {s : Symbol} {text : List Char}
    (h : Kind.SpelledBy (.symbol s) text) : text = s.chars := by
  cases h
  rfl

theorem Kind.SpelledBy.eq_spelling {w : Keyword} {text : List Char}
    (h : Kind.SpelledBy (.keyword w) text) : text = w.spelling.toList := by
  cases h
  rfl

theorem Kind.SpelledBy.letters {text : List Char} (h : Kind.SpelledBy .identifier text) :
    text ≠ [] ∧ ∀ c ∈ text, isLetter c := by
  cases h with
  | identifier hne hletters _ => exact ⟨hne, hletters⟩

theorem Kind.SpelledBy.ne_keyword {text : List Char} (h : Kind.SpelledBy .identifier text)
    (w : Keyword) : text ≠ w.spelling.toList := by
  cases h with
  | identifier _ _ hfree => exact hfree w

namespace Lexeme

/-- What each form of lexeme may hold -/
def Valid : Lexeme → Prop
  | word letters => letters ≠ [] ∧ ∀ c ∈ letters, isLetter c
  | number digits => digits ≠ [] ∧ ∀ c ∈ digits, isDigit c
  | symbol _ => True
  | stray c => IsStray c

instance : DecidablePred Valid
  | word letters => @instDecidableAnd _ _ _ (List.decidableBAll _ letters)
  | number digits => @instDecidableAnd _ _ _ (List.decidableBAll _ digits)
  | symbol _ => inferInstanceAs (Decidable True)
  | stray _ => inferInstanceAs (Decidable (IsStray _))

/-- Reserved words are words. -/
theorem valid_spelling (w : Keyword) : (word w.spelling.toList).Valid := by
  cases w <;> decide

theorem Valid.chars_ne_nil {lexeme : Lexeme} (hvalid : lexeme.Valid) : lexeme.chars ≠ [] := by
  cases lexeme with
  | word letters => exact hvalid.1
  | number digits => exact hvalid.1
  | symbol s => cases s <;> simp [chars, Symbol.chars]
  | stray c => simp [chars]

/-- The text of a lexeme determines its kind: it is a spelling of that kind. -/
theorem Valid.spelledBy_kind {lexeme : Lexeme} (hvalid : lexeme.Valid) :
    lexeme.kind.SpelledBy lexeme.chars := by
  cases lexeme with
  | word letters =>
    simp only [kind, chars]
    -- a word is a name exactly if it is not reserved
    by_cases hreserved : ∃ w : Keyword, letters = w.spelling.toList
    · obtain ⟨w, rfl⟩ := hreserved
      rw [(Kind.ofWord_eq_keyword_iff _ w).2 (by simp)]
      exact .keyword w
    · have hfree : ∀ w : Keyword, letters ≠ w.spelling.toList := fun w hw => hreserved ⟨w, hw⟩
      rw [(Kind.ofWord_eq_identifier_iff _).2 fun w hw => hfree w (by simp [← hw])]
      exact .identifier hvalid.1 hvalid.2 hfree
  | number digits => exact .integer hvalid.1 hvalid.2
  | symbol s => exact .symbol s
  | stray c => exact .illegal hvalid

theorem Valid.not_blank_of_mem {lexeme : Lexeme} (hvalid : lexeme.Valid) {c : Char}
    (hc : c ∈ lexeme.chars) : isBlank c = false ∧ c ≠ endMark := by
  cases lexeme with
  | word letters => exact not_blank_of_letter_or_digit (.inl (hvalid.2 c hc))
  | number digits => exact not_blank_of_letter_or_digit (.inr (hvalid.2 c hc))
  | symbol s => exact (Symbol.not_other hc).2.2
  | stray d =>
    obtain rfl : c = d := List.mem_singleton.1 hc
    exact ⟨hvalid.not_blank, hvalid.ne_endMark⟩

/-! ## Boundary -/

/-- Whether a lexeme that the character `c` follows at once goes on with it -/
def takes : Lexeme → Char → Bool
  | word _, c => isLetter c
  | number _, c => isDigit c
  | symbol s, c => (s = .assign || s = .bang) && c = '='
  | stray _, _ => false

/-- Whether two lexemes without a blank between them are not two: both words, both numbers, or an
equals or exclamation mark before a lexeme that begins with an equals sign -/
def fuses : Lexeme → Lexeme → Bool
  | word _, word _ => true
  | number _, number _ => true
  | symbol s, next => (s = .assign || s = .bang) && next.chars.head? = some '='
  | _, _ => false

/-- Where a lexeme ends: nothing that it takes comes next -/
def EndsBefore (lexeme : Lexeme) (rest : List Char) : Prop :=
  ∀ c ∈ rest.head?, lexeme.takes c = false

/-- Letters stand in words and in no other valid lexemes, so that any character of a lexeme tells
whether it is a word. -/
theorem Valid.isLetter_eq {lexeme : Lexeme} (hvalid : lexeme.Valid) {c : Char}
    (hc : c ∈ lexeme.chars) : isLetter c = (lexeme matches word _) := by
  cases lexeme with
  | word letters => exact hvalid.2 c hc
  | number digits => exact isLetter_of_isDigit (hvalid.2 c hc)
  | symbol s => exact (Symbol.not_other hc).1
  | stray d => exact List.mem_singleton.1 hc ▸ hvalid.not_letter

/-- Digits stand in numbers and in no other valid lexemes, so that any character of a lexeme tells
whether it is a number. -/
theorem Valid.isDigit_eq {lexeme : Lexeme} (hvalid : lexeme.Valid) {c : Char}
    (hc : c ∈ lexeme.chars) : isDigit c = (lexeme matches number _) := by
  cases lexeme with
  | word letters => exact isDigit_of_isLetter (hvalid.2 c hc)
  | number digits => exact hvalid.2 c hc
  | symbol s => exact (Symbol.not_other hc).2.1
  | stray d => exact List.mem_singleton.1 hc ▸ hvalid.not_digit

/-- A lexeme takes the first character of a valid lexeme exactly if the two fuse. -/
theorem takes_eq_fuses {lexeme next : Lexeme} {c : Char} {cs : List Char} (hvalid : next.Valid)
    (hchars : next.chars = c :: cs) : lexeme.takes c = lexeme.fuses next := by
  have hmem : c ∈ next.chars := hchars ▸ List.mem_cons_self
  have hletter := hvalid.isLetter_eq hmem
  have hdigit := hvalid.isDigit_eq hmem
  cases lexeme with
  | word letters => cases next <;> simpa [takes, fuses] using hletter
  | number digits => cases next <;> simpa [takes, fuses] using hdigit
  | symbol s => simp [takes, fuses, hchars]
  | stray d => rfl

/-- A lexeme ends before a valid lexeme exactly if the two do not fuse. -/
theorem endsBefore_append_iff {lexeme next : Lexeme} (hvalid : next.Valid) (more : List Char) :
    lexeme.EndsBefore (next.chars ++ more) ↔ lexeme.fuses next = false := by
  obtain ⟨c, cs, hchars⟩ := List.exists_cons_of_ne_nil hvalid.chars_ne_nil
  simp [EndsBefore, hchars, takes_eq_fuses hvalid hchars]

theorem takes_of_isBlank (lexeme : Lexeme) {c : Char} (h : isBlank c = true ∨ c = endMark) :
    lexeme.takes c = false := by
  obtain ⟨hletter, hdigit⟩ := not_letter_or_digit h
  have hequals : c ≠ '=' := by
    rintro rfl
    revert h
    decide
  cases lexeme <;> simp [takes, hletter, hdigit, hequals]

theorem endsBefore_of_isBlank (lexeme : Lexeme) {rest : List Char}
    (h : ∀ c ∈ rest.head?, isBlank c) : lexeme.EndsBefore rest :=
  fun c hc => lexeme.takes_of_isBlank (.inl (h c hc))

/-! ## Scanner -/

/-- The four things that the scanner may find, each with the tests that lead to it. -/
theorem longest_cases (c : Char) (rest : List Char) :
    (isLetter c = true ∧ longest c rest = word (c :: rest.takeWhile isLetter)) ∨
    (isLetter c = false ∧ isDigit c = true ∧
      longest c rest = number (c :: rest.takeWhile isDigit)) ∨
    (isLetter c = false ∧ isDigit c = false ∧
      ∃ s, Symbol.ofChar? c = some s ∧ longest c rest = symbol (joined s rest.head?)) ∨
    (isLetter c = false ∧ isDigit c = false ∧
      Symbol.ofChar? c = none ∧ longest c rest = stray c) := by
  unfold longest
  cases hletter : isLetter c <;> cases hdigit : isDigit c <;> cases hs : Symbol.ofChar? c <;> simp

theorem ofChar?_ne_none {s : Symbol} {c : Char} (h : c ∈ s.chars) : Symbol.ofChar? c ≠ none := by
  cases s <;> simp only [Symbol.chars, List.mem_cons, List.not_mem_nil, or_false, or_self] at h <;>
    rcases h with rfl | rfl <;> decide

/-- What begins with a character that is neither a blank nor the mark is a valid lexeme. -/
theorem valid_longest {c : Char} (rest : List Char) (hmark : c ≠ endMark)
    (hblank : isBlank c = false) : (longest c rest).Valid := by
  rcases longest_cases c rest with ⟨hletter, h⟩ | ⟨_, hdigit, h⟩ | ⟨_, _, s, _, h⟩ |
    ⟨hletter, hdigit, hsymbol, h⟩
  · rw [h]
    refine ⟨List.cons_ne_nil _ _, ?_⟩
    rw [List.forall_mem_cons]
    exact ⟨hletter, fun d hd => List.mem_takeWhile_imp hd⟩
  · rw [h]
    refine ⟨List.cons_ne_nil _ _, ?_⟩
    rw [List.forall_mem_cons]
    exact ⟨hdigit, fun d hd => List.mem_takeWhile_imp hd⟩
  · rw [h]
    exact trivial
  · rw [h]
    exact {
      ne_endMark := hmark
      not_blank := hblank
      not_letter := hletter
      not_digit := hdigit
      not_symbol := fun s _ hmem => ofChar?_ne_none hmem hsymbol }

/-- A symbol that is followed by an equals sign is one that no equals sign changes. -/
private theorem endsBefore_joined {c : Char} {s : Symbol} {rest more : List Char}
    (hs : Symbol.ofChar? c = some s)
    (h : (joined s rest.head?).chars ++ more = c :: rest) :
    (symbol (joined s rest.head?)).EndsBefore more := by
  have hchars := chars_of_ofChar? hs
  intro d hd
  by_cases hnext : rest.head? = some '='
  · -- the equals sign that comes next was either taken or is of no use to `s`
    rw [joined, if_pos hnext] at h ⊢
    cases s <;> simp_all [Symbol.withEquals?, takes]
  · rw [joined, if_neg hnext] at h ⊢
    rw [hchars, List.singleton_append, List.cons.injEq] at h
    have hd' : d ≠ '=' := by
      rintro rfl
      exact hnext (h.2 ▸ hd)
    simp [takes, hd']

/-- What follows the longest lexeme does not go on with it. -/
theorem endsBefore_longest {c : Char} {rest more : List Char}
    (happend : (longest c rest).chars ++ more = c :: rest) :
    (longest c rest).EndsBefore more := by
  rcases longest_cases c rest with ⟨_, h⟩ | ⟨_, _, h⟩ | ⟨_, _, s, hs, h⟩ | ⟨_, _, _, h⟩
  · rw [h] at happend ⊢
    simp only [chars, List.cons_append, List.cons.injEq, true_and] at happend
    exact not_head_of_takeWhile_append happend
  · rw [h] at happend ⊢
    simp only [chars, List.cons_append, List.cons.injEq, true_and] at happend
    exact not_head_of_takeWhile_append happend
  · rw [h] at happend ⊢
    exact endsBefore_joined hs happend
  · rw [h]
    intro d _
    rfl

private theorem longest_of_chars {s : Symbol} {c : Char} (rest : List Char) (h : s.chars = [c]) :
    longest c rest = symbol (joined s rest.head?) := by
  have hfound : isLetter c = false ∧ isDigit c = false ∧ Symbol.ofChar? c = some s := by
    cases s <;>
      simp only [Symbol.chars, List.cons.injEq, and_true, reduceCtorEq, and_false] at h <;>
      subst h <;> decide
  simp [longest, hfound]

/-- A symbol is found again in front of anything that it does not go on with. -/
private theorem longest_append_symbol {s : Symbol} {c : Char} {cs more : List Char}
    (hchars : s.chars = c :: cs) (hends : (symbol s).EndsBefore more) :
    longest c (cs ++ more) = symbol s := by
  -- a symbol of two characters is found by the first one, joined with the equals sign after it
  have hparts : cs = [] ∨ cs = ['='] ∧ ∃ t : Symbol, t.chars = [c] ∧ t.withEquals? = some s := by
    cases s <;> simp only [Symbol.chars, List.cons.injEq] at hchars <;>
      obtain ⟨rfl, rfl⟩ := hchars <;> first
        | exact .inl rfl
        | exact .inr ⟨rfl, .assign, rfl, rfl⟩
        | exact .inr ⟨rfl, .bang, rfl, rfl⟩
  rcases hparts with rfl | ⟨rfl, t, ht, hjoin⟩
  · rw [List.nil_append, longest_of_chars more hchars]
    -- an equals sign that comes next is of no use to a symbol that ends before it
    by_cases hnext : more.head? = some '='
    · have hkept := hends '=' hnext
      cases s <;> simp_all [joined, Symbol.withEquals?, takes]
    · rw [joined, if_neg hnext]
  · rw [longest_of_chars _ ht]
    simp [joined, hjoin]

/-- A valid lexeme is found again in front of anything that it does not go on with. -/
theorem longest_append {lexeme : Lexeme} {c : Char} {cs more : List Char}
    (hvalid : lexeme.Valid) (hchars : lexeme.chars = c :: cs) (hends : lexeme.EndsBefore more) :
    longest c (cs ++ more) = lexeme := by
  cases lexeme with
  | word letters =>
    obtain rfl : letters = c :: cs := hchars
    obtain ⟨hletter, hletters⟩ := List.forall_mem_cons.1 hvalid.2
    rw [longest, if_pos hletter, takeWhile_append_of_ends hletters hends]
  | number digits =>
    obtain rfl : digits = c :: cs := hchars
    obtain ⟨hdigit, hdigits⟩ := List.forall_mem_cons.1 hvalid.2
    have hletter : ¬ isLetter c = true := Bool.eq_false_iff.1 (isLetter_of_isDigit hdigit)
    rw [longest, if_neg hletter, if_pos hdigit, takeWhile_append_of_ends hdigits hends]
  | symbol s => exact longest_append_symbol hchars hends
  | stray d =>
    obtain ⟨rfl, rfl⟩ : d = c ∧ [] = cs := by simpa [chars] using hchars
    -- a symbol that one character spells would have the stray one among its characters
    have hsymbol : Symbol.ofChar? d = none := by
      refine List.find?_eq_none.2 fun s hs hspelled => hvalid.not_symbol s hs ?_
      simp [of_decide_eq_true hspelled]
    simp [longest, hvalid.not_letter, hvalid.not_digit, hsymbol]

/-- A sign takes one equals sign and leaves the next. -/
example : longest '!' ['=', '=', 'x'] = symbol .notEqual := by decide

/-- The text of a valid lexeme is that of no other one. -/
theorem Valid.eq_of_chars_eq {lexeme other : Lexeme} (hvalid : lexeme.Valid) (hother : other.Valid)
    (h : lexeme.chars = other.chars) : lexeme = other := by
  obtain ⟨c, cs, hsplit⟩ := List.exists_cons_of_ne_nil hvalid.chars_ne_nil
  -- read on its own, the text is the one lexeme and the other
  have hends (either : Lexeme) : either.EndsBefore [] := by simp [EndsBefore]
  rw [← longest_append hvalid hsplit (hends lexeme),
    ← longest_append hother (h.symm.trans hsplit) (hends other)]

end Lexeme

/-! ## Spellings -/

namespace Kind.SpelledBy

variable {kind other : Kind} {text : List Char}

/-- Every spelling of a kind is the text of a valid lexeme of that kind. -/
theorem exists_lexeme (h : kind.SpelledBy text) :
    ∃ lexeme : Lexeme, lexeme.Valid ∧ lexeme.kind = kind ∧ lexeme.chars = text := by
  cases h with
  | keyword w =>
    refine ⟨.word w.spelling.toList, Lexeme.valid_spelling w, ?_, rfl⟩
    exact (Kind.ofWord_eq_keyword_iff _ w).2 (by simp)
  | identifier hne hletters hfree =>
    refine ⟨.word text, ⟨hne, hletters⟩, ?_, rfl⟩
    exact (Kind.ofWord_eq_identifier_iff _).2 fun w hw => hfree w (by simp [← hw])
  | integer hne hdigits => exact ⟨.number text, ⟨hne, hdigits⟩, rfl, rfl⟩
  | symbol s => exact ⟨.symbol s, trivial, rfl, rfl⟩
  | illegal hstray => exact ⟨.stray _, hstray, rfl, rfl⟩

/-- No text is a spelling of two kinds: the scanner would have to take it for two lexemes. -/
theorem unique (h : kind.SpelledBy text) (hother : other.SpelledBy text) : kind = other := by
  obtain ⟨lexeme, hvalid, rfl, rfl⟩ := h.exists_lexeme
  obtain ⟨found, hfound, rfl, hchars⟩ := hother.exists_lexeme
  rw [hvalid.eq_of_chars_eq hfound hchars.symm]

end Kind.SpelledBy

/-- The text of a valid lexeme is a spelling of its kind and of no other. -/
theorem Lexeme.Valid.spelledBy_iff {lexeme : Lexeme} (hvalid : lexeme.Valid) (kind : Kind) :
    kind.SpelledBy lexeme.chars ↔ kind = lexeme.kind := by
  constructor
  · intro hspelled
    exact hspelled.unique hvalid.spelledBy_kind
  · rintro rfl
    exact hvalid.spelledBy_kind

end Macaque

import Macaque.Lexical.Kind

/-!
# Lexemes

A source text is a sequence of lexemes with blanks between them. A lexeme is a run of letters, a run
of digits, an operator or delimiter, or a single character that belongs to none of these.

## Definitions

- `isBlank`, `isLetter`, `isDigit`: the classes of characters, all of them ASCII
- `endMark`: the character that ends a source text wherever it stands
- `Lexeme`: the four forms, with `Lexeme.chars` and `Lexeme.kind`
- `Lexeme.longest`: the longest lexeme at the front of a text

## Main statements

- `Lexeme.chars_longest_append`: the longest lexeme and what is dropped with it are the text
- `Lexeme.chars_longest_ne_nil`: it has at least one character
-/

namespace Macaque

/-! ## Classes of characters -/

/-- Blanks separate lexemes and are otherwise without meaning: space, tab, line feed and carriage
return -/
def isBlank (c : Char) : Bool :=
  c = ' ' || c = '\t' || c = '\n' || c = '\r'

/-- Letters make words: the ASCII letters and the underscore -/
def isLetter (c : Char) : Bool :=
  c.isAlpha || c = '_'

/-- Digits make numbers: the ASCII digits -/
def isDigit (c : Char) : Bool :=
  c.isDigit

/-- The mark that ends a source text wherever it stands; nothing after it is read -/
def endMark : Char := '\x00'

/-! ## Lexemes -/

/-- A piece of source text that makes one token -/
inductive Lexeme where
  | word (letters : List Char)
  | number (digits : List Char)
  | symbol (symbol : Symbol)
  /-- A character that nothing begins with -/
  | stray (c : Char)
deriving DecidableEq

namespace Lexeme

def chars : Lexeme → List Char
  | word letters => letters
  | number digits => digits
  | symbol s => s.chars
  | stray c => [c]

def text (lexeme : Lexeme) : String :=
  String.ofList lexeme.chars

/-- The kind that the text of a lexeme determines -/
def kind : Lexeme → Kind
  | word letters => .ofWord (String.ofList letters)
  | number _ => .integer
  | symbol s => .symbol s
  | stray _ => .illegal

/-- The symbol `s`, or the one that takes its place when an equals sign comes next -/
def joined (s : Symbol) (next : Option Char) : Symbol :=
  if next = some '=' then s.withEquals?.getD s else s

/-- The longest lexeme at the front of the text `c :: rest` -/
def longest (c : Char) (rest : List Char) : Lexeme :=
  if isLetter c then word (c :: rest.takeWhile isLetter)
  else if isDigit c then number (c :: rest.takeWhile isDigit)
  else
    match Symbol.ofChar? c with
    | some s => symbol (joined s rest.head?)
    | none => stray c

/-! ## What the longest lexeme takes -/

/-- The character that spells a symbol is all of its spelling. -/
theorem chars_of_ofChar? {c : Char} {s : Symbol} (h : Symbol.ofChar? c = some s) :
    s.chars = [c] := by
  simpa using List.find?_some h

/-- A symbol that takes the place of another is spelled by it and an equals sign. -/
theorem chars_of_withEquals? {s t : Symbol} (h : s.withEquals? = some t) :
    t.chars = s.chars ++ ['='] := by
  cases s <;> simp_all [Symbol.withEquals?, Symbol.chars] <;> subst h <;> rfl

private theorem takeWhile_isPrefix (p : Char → Bool) (text : List Char) :
    text.takeWhile p <+: text :=
  ⟨text.dropWhile p, List.takeWhile_append_dropWhile⟩

private theorem joined_isPrefix {c : Char} {s : Symbol} (rest : List Char) (h : s.chars = [c]) :
    (joined s rest.head?).chars <+: c :: rest := by
  unfold joined
  split
  · next hnext =>
    cases rest with
    | nil => simp at hnext
    | cons d rest =>
      obtain rfl : d = '=' := by simpa using hnext
      cases ht : s.withEquals? with
      | none => simp [h]
      | some t => simp [chars_of_withEquals? ht, h]
  · simp [h]

/-- The longest lexeme at the front of a text is the front of that text. -/
theorem chars_longest_isPrefix (c : Char) (rest : List Char) :
    (longest c rest).chars <+: c :: rest := by
  unfold longest
  split
  · exact List.cons_prefix_cons.2 ⟨rfl, takeWhile_isPrefix _ _⟩
  split
  · exact List.cons_prefix_cons.2 ⟨rfl, takeWhile_isPrefix _ _⟩
  split
  · next s hs => exact joined_isPrefix rest (chars_of_ofChar? hs)
  · simp [chars]

theorem chars_longest_append (c : Char) (rest : List Char) :
    (longest c rest).chars ++ (c :: rest).drop (longest c rest).chars.length = c :: rest :=
  (List.prefix_iff_eq_append.1 (chars_longest_isPrefix c rest))

theorem chars_longest_ne_nil (c : Char) (rest : List Char) : (longest c rest).chars ≠ [] := by
  unfold longest
  split
  · simp [chars]
  split
  · simp [chars]
  split
  · next s _ => simp only [chars]; cases s <;> simp [joined] <;> split <;> decide
  · simp [chars]

end Lexeme

end Macaque

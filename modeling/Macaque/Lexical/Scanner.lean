import Macaque.Report.Notice

/-!
# Scanning by index

A scanner reads the same tokens as a cursor, from an array of characters: it keeps the index of the
character under examination, the index of the one after that, and the character itself. An access to
the array breaks the work off when it is out of bounds. All moves and accesses are recorded, so that
it can be said of each of them how the scanner stands.

## Definitions

- `Scanner`: a source text and where it is examined; `Scanner.advance` is its one way to go on
- `Scanner.Event`, `Scanner.Work`: what a scanner does, and what comes of it unless it breaks off
- `Scanner.skipBlanks`, `Scanner.oneOrTwo`, `Scanner.word`, `Scanner.number`: the readers
- `Scanner.next`, `Scanner.next?`, `Scanner.toEnd`, `Scanner.beforeEnd`: the ways to ask for tokens

## Main statements

- `Scanner.left_next`: a token takes a character that is left, which is why all the loops end
-/

namespace Macaque

/-- A source text and where it is examined -/
structure Scanner where
  input : Array Char
  /-- The index of the character under examination -/
  position : Nat
  /-- The index of the character after the one under examination -/
  readPosition : Nat
  /-- The character under examination; behind the last character of the text, the mark -/
  current : Char
  /-- Where the character under examination stands -/
  location : Location
deriving DecidableEq

namespace Scanner

/-- Goes on by one character; there is no way back. -/
def advance (s : Scanner) : Scanner :=
  { s with
    location := s.location.advance s.current
    current := s.input[s.readPosition]?.getD endMark
    position := s.readPosition
    readPosition := if s.readPosition < s.input.size then s.readPosition + 1 else s.readPosition }

/-- A scanner at the first character of a source text, to which it gets by a move too, from a place
in front of the text -/
def ofText (source : String) : Scanner :=
  advance {
    input := source.toList.toArray
    position := 0
    readPosition := 0
    current := endMark
    location := ⟨1, 0⟩ }

/-- How far a scanner can go on; at the mark behind the text nothing is left. -/
def left (s : Scanner) : Nat :=
  s.input.size - s.readPosition + (s.current != endMark).toNat

/-- A move goes over a character that was left, unless that was the mark. -/
theorem left_advance (s : Scanner) :
    s.advance.left + (s.current != endMark).toNat ≤ s.left := by
  unfold left
  by_cases hread : s.readPosition < s.input.size
  · have hnext : s.advance.readPosition = s.readPosition + 1 := if_pos hread
    have hcharacter := Bool.toNat_le (s.advance.current != endMark)
    rw [hnext, show s.advance.input = s.input from rfl]
    omega
  · -- there is no character at the index that is read, so the mark is examined from here on
    have hcurrent : s.advance.current = endMark := by
      show s.input[s.readPosition]?.getD endMark = endMark
      rw [Array.getElem?_eq_none (Nat.le_of_not_lt hread), Option.getD_none]
    have hnext : s.advance.readPosition = s.readPosition := if_neg hread
    rw [hcurrent, hnext, bne_self_eq_false, Bool.toNat_false, Nat.add_zero]
    exact Nat.le_refl _

theorem left_advance_lt {s : Scanner} (h : s.current ≠ endMark) : s.advance.left < s.left := by
  have hleft := s.left_advance
  rw [bne_iff_ne.2 h, Bool.toNat_true] at hleft
  omega

/-! ## Recorded work -/

/-- What a scanner does with its text or with itself -/
inductive Event where
  /-- The scanner went on, and now is in the state `s` -/
  | moved (s : Scanner)
  /-- In the state `s` the scanner looked up the character at an index -/
  | indexed (s : Scanner) (i : Nat)
  /-- In the state `s` the scanner took the characters from one index up to another -/
  | sliced (s : Scanner) (start stop : Nat)
deriving DecidableEq

/-- What is done one after the other, and what comes of it unless it breaks off -/
structure Work (α : Type) where
  events : List Event
  result : Option α
deriving DecidableEq

namespace Work

variable {α β : Type}

protected def pure (value : α) : Work α :=
  { events := [], result := some value }

def map (f : α → β) (work : Work α) : Work β :=
  { events := work.events, result := work.result.map f }

/-- Work, and the work that its result leads to -/
def andThen (first : Work α) (later : (a : α) → first.result = some a → Work β) : Work β :=
  match h : first.result with
  | none => { events := first.events, result := none }
  | some a => { events := first.events ++ (later a h).events, result := (later a h).result }

@[simp] theorem events_pure (value : α) : (Work.pure value).events = [] := rfl

@[simp] theorem result_map (f : α → β) (work : Work α) :
    (work.map f).result = work.result.map f := rfl

/-- Work in two parts does the first one, and the second one if the first has a result. -/
theorem andThen_of_some {first : Work α} {a : α} (h : first.result = some a)
    (later : (a : α) → first.result = some a → Work β) :
    first.andThen later =
      { events := first.events ++ (later a h).events, result := (later a h).result } := by
  unfold andThen
  split
  · next hnone =>
    rw [h] at hnone
    cases hnone
  · next b hb =>
    obtain rfl : a = b := Option.some.inj (h.symm.trans hb)
    rfl

theorem andThen_pure (a : α) (later : (b : α) → (Work.pure a).result = some b → Work β) :
    (Work.pure a).andThen later = later a rfl := by
  rw [andThen_of_some rfl]
  rfl

/-- A result of work in two parts is one of the second part, made from one of the first. -/
theorem exists_of_andThen {first : Work α} {later : (a : α) → first.result = some a → Work β}
    {b : β} (h : (first.andThen later).result = some b) :
    ∃ a, ∃ ha : first.result = some a, (later a ha).result = some b := by
  unfold andThen at h
  split at h
  · cases h
  · next a ha => exact ⟨a, ha, h⟩

end Work

/-! ## Moves and accesses -/

def move (s : Scanner) : Work Scanner :=
  { events := [.moved s.advance], result := some s.advance }

/-- The character at an index, which must be within the text -/
def index (s : Scanner) (i : Nat) : Work Char :=
  { events := [.indexed s i], result := s.input[i]? }

/-- The characters from one index up to another, which must be in this order and within the text -/
def slice (s : Scanner) (start stop : Nat) : Work (List Char) :=
  { events := [.sliced s start stop]
    result :=
      if start ≤ stop ∧ stop ≤ s.input.size then some (s.input.extract start stop).toList
      else none }

/-- The character after the one under examination, if there is one -/
def peek (s : Scanner) : Work (Option Char) :=
  if s.position + 1 < s.input.size then (s.index (s.position + 1)).map some else .pure none

/-! ## Readers -/

/-- The mark is not of a class to which it does not belong. -/
theorem ne_endMark_of_class {p : Char → Bool} (hp : p endMark = false) {c : Char}
    (hc : p c = true) : c ≠ endMark := by
  rintro rfl
  rw [hp] at hc
  cases hc

/-- Goes on while the characters are of a class, to which the mark does not belong -/
def readWhile (p : Char → Bool) (hp : p endMark = false) (s : Scanner) : Work Scanner :=
  if p s.current then s.move.andThen fun next _ => next.readWhile p hp else .pure s
termination_by s.left
decreasing_by
  next hclass hnext =>
  obtain rfl := Option.some.inj hnext
  exact left_advance_lt (ne_endMark_of_class hp hclass)

def skipBlanks (s : Scanner) : Work Scanner :=
  s.readWhile isBlank (by decide)

/-- The token that a run of characters of a class makes; its text determines its kind -/
def readRun (p : Char → Bool) (hp : p endMark = false) (kind : String → Kind) (s : Scanner) :
    Work (Step Scanner Token) :=
  (s.readWhile p hp).andThen fun behind _ =>
    (behind.slice s.position behind.position).map fun chars =>
      .stay behind
        { kind := kind (String.ofList chars)
          literal := String.ofList chars
          location := s.location }

def word : Scanner → Work (Step Scanner Token) :=
  readRun isLetter (by decide) .ofWord

def number : Scanner → Work (Step Scanner Token) :=
  readRun isDigit (by decide) fun _ => .integer

/-- The token of one character or, when an equals sign follows, of two; the scanner comes to stand
on the last of them. -/
def oneOrTwo (s : Scanner) (single double : Symbol) : Work (Step Scanner Token) :=
  s.peek.andThen fun following _ =>
    if following = some '=' then
      s.move.map fun next =>
        .stay next
          { kind := .symbol double
            literal := String.ofList [s.current, next.current]
            location := s.location }
    else
      .pure (.stay s
        { kind := .symbol single
          literal := String.ofList [s.current]
          location := s.location })

/-- The token of an operator or delimiter -/
def operator (s : Scanner) (symbol : Symbol) : Work (Step Scanner Token) :=
  match symbol.withEquals? with
  | some double => s.oneOrTwo symbol double
  | none =>
    .pure (.stay s
      { kind := .symbol symbol
        literal := symbol.spelling
        location := s.location })

/-- The token of a character that nothing begins with -/
def stray (s : Scanner) : Step Scanner Token :=
  { value := { kind := .illegal, literal := String.ofList [s.current], location := s.location }
    notices := [.stray s.current s.location]
    state := s }

/-- Goes over the last character of a token -/
def pass (step : Step Scanner Token) : Work (Step Scanner Token) :=
  step.state.move.map fun behind => { step with state := behind }

/-- The token that begins with the character under examination -/
def scan (s : Scanner) : Work (Step Scanner Token) :=
  match Symbol.ofChar? s.current with
  | some symbol => (s.operator symbol).andThen fun step _ => pass step
  | none =>
    -- at the mark the scanner stays where it is, and words and numbers leave it behind their last
    -- character
    if s.current = endMark then .pure (.stay s (.endAt s.location))
    else if isLetter s.current then s.word
    else if isDigit s.current then s.number
    else pass s.stray

/-! ## Tokens -/

def next (s : Scanner) : Work (Step Scanner Token) :=
  s.skipBlanks.andThen fun here _ => here.scan

def next? (s : Scanner) : Work (Step Scanner (Option Token)) :=
  s.next.map fun step => step.map fun token => if token.isEnd then none else some token

section Left

variable {s : Scanner}

theorem left_readWhile {p : Char → Bool} {hp : p endMark = false} {behind : Scanner}
    (h : (s.readWhile p hp).result = some behind) :
    behind.left + (p s.current).toNat ≤ s.left := by
  fun_induction readWhile p hp s with
  | case1 s hclass ih =>
    obtain ⟨next, hnext, hbehind⟩ := Work.exists_of_andThen h
    have hlater := ih next hnext hbehind
    have hfirst := left_advance_lt (ne_endMark_of_class hp hclass)
    obtain rfl := Option.some.inj hnext
    rw [hclass, Bool.toNat_true]
    omega
  | case2 s hclass =>
    cases h
    rw [Bool.eq_false_iff.2 hclass]
    exact Nat.le_refl _

theorem left_readRun {p : Char → Bool} {hp : p endMark = false} {kind : String → Kind}
    {step : Step Scanner Token} (h : (s.readRun p hp kind).result = some step) :
    step.state.left + (p s.current).toNat ≤ s.left := by
  obtain ⟨behind, hbehind, hstep⟩ := Work.exists_of_andThen h
  rw [Work.result_map, Option.map_eq_some_iff] at hstep
  obtain ⟨chars, -, rfl⟩ := hstep
  exact left_readWhile hbehind

theorem left_operator {symbol : Symbol} {step : Step Scanner Token} (hmark : s.current ≠ endMark)
    (h : (s.operator symbol).result = some step) : step.state.advance.left < s.left := by
  have hfirst := left_advance_lt hmark
  unfold operator at h
  split at h
  · obtain ⟨following, -, hstep⟩ := Work.exists_of_andThen h
    split at hstep
    · cases hstep
      exact Nat.lt_of_le_of_lt (Nat.le_of_add_right_le s.advance.left_advance) hfirst
    · cases hstep
      exact hfirst
  · cases h
    exact hfirst

theorem ne_endMark_of_symbol {c : Char} {symbol : Symbol} (h : Symbol.ofChar? c = some symbol) :
    c ≠ endMark := by
  rintro rfl
  have hnone : Symbol.ofChar? endMark = none := by decide
  cases hnone.symm.trans h

/-- A token takes at least one character that is left, and the end takes none. -/
theorem left_scan {step : Step Scanner Token} (h : s.scan.result = some step) :
    step.state.left + (!step.value.isEnd).toNat ≤ s.left := by
  -- every branch but that of the mark goes on at least once
  suffices hlt : s.current ≠ endMark → step.state.left < s.left by
    have hone := Bool.toNat_le (!step.value.isEnd)
    by_cases hmark : s.current = endMark
    · have hsymbol : Symbol.ofChar? s.current = none := by
        rw [hmark]
        decide
      rw [scan, hsymbol, if_pos hmark] at h
      cases h
      exact Nat.le_refl _
    · have hleft := hlt hmark
      omega
  intro hmark
  unfold scan at h
  split at h
  · obtain ⟨first, hfirst, hpass⟩ := Work.exists_of_andThen h
    cases hpass
    exact left_operator hmark hfirst
  rw [if_neg hmark] at h
  split at h
  · next hletter =>
    have hleft := left_readRun h
    rw [hletter] at hleft
    exact hleft
  split at h
  · next hdigit =>
    have hleft := left_readRun h
    rw [hdigit] at hleft
    exact hleft
  · cases h
    exact left_advance_lt hmark

theorem left_next {step : Step Scanner Token} (h : s.next.result = some step) :
    step.state.left + (!step.value.isEnd).toNat ≤ s.left := by
  obtain ⟨here, hhere, hstep⟩ := Work.exists_of_andThen h
  exact Nat.le_trans (left_scan hstep) (Nat.le_of_add_right_le (left_readWhile hhere))

theorem left_next? {step : Step Scanner (Option Token)} (h : s.next?.result = some step) :
    step.state.left + step.value.isSome.toNat ≤ s.left := by
  rw [next?, Work.result_map, Option.map_eq_some_iff] at h
  obtain ⟨read, hread, rfl⟩ := h
  have hleft := left_next hread
  cases hend : read.value.isEnd with
  | true => simpa [hend] using hleft
  | false => simpa [hend] using hleft

end Left

/-- The tokens up to the end, and the token that stands for it -/
def toEnd (s : Scanner) : Work (Step Scanner (List Token)) :=
  s.next.andThen fun step _ =>
    if step.value.isEnd then .pure (step.map ([·]))
    else step.state.toEnd.map fun later => (step.followedBy later).map (step.value :: ·)
termination_by s.left
decreasing_by
  next hstep hend =>
  have hleft := left_next hstep
  rw [Bool.eq_false_iff.2 hend] at hleft
  exact hleft

/-- The tokens up to the end, without the token that stands for it: the next one, as long as there
is one -/
def beforeEnd (s : Scanner) : Work (Step Scanner (List Token)) :=
  s.next?.andThen fun step _ =>
    match _hvalue : step.value with
    | none => .pure (step.map fun _ => [])
    | some token => step.state.beforeEnd.map fun later => (step.followedBy later).map (token :: ·)
termination_by s.left
decreasing_by
  next hstep =>
  have hleft := left_next? hstep
  rw [‹step.value = some token›] at hleft
  exact hleft

end Scanner

end Macaque

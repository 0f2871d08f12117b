import Macaque.Lexical.Scanner
import Macaque.Proofs.Offsets
import Macaque.Proofs.Readings

/-!
# A scanner stays within its text

The fields of a scanner belong together in one way only: whatever it is asked, each of them is told
by the text and one index. With that every access is within bounds, so no work breaks off, and the
scanner hands out what a cursor does.

## Architecture

- **Invariant**: `Scanner.Sound` says how the fields belong together; a move over any character but
  the mark keeps it (`Sound.advance`)
- **Work**: `Scanner.Work.Does` is said of work that is safe throughout and has a result;
  `Scanner.Event.Safe` says what is safe
- **Readers**: one lemma for each, up to `Sound.does_next`, which says that a scanner and a cursor
  in the same place read the same token
- **Runs**: `scanner_sound`, by induction on what is asked
-/

namespace Macaque

/-! ## Runs of characters -/

theorem take_length_takeWhile (p : Char → Bool) (text : List Char) :
    text.take (text.takeWhile p).length = text.takeWhile p :=
  (List.prefix_iff_eq_take.1 (List.takeWhile_prefix p)).symm

namespace Cursor

theorem drop_drop (cursor : Cursor) (m n : Nat) :
    (cursor.drop m).drop n = cursor.drop (m + n) := by
  simp only [drop, List.drop_drop, List.take_add, Location.after_append]

theorem skipBlanks_eq_drop (cursor : Cursor) :
    cursor.skipBlanks = cursor.drop (cursor.rest.takeWhile isBlank).length := by
  have hrest : cursor.rest.drop (cursor.rest.takeWhile isBlank).length =
      cursor.rest.dropWhile isBlank := by
    apply (List.append_right_inj (cursor.rest.takeWhile isBlank)).1
    rw [List.takeWhile_append_dropWhile]
    nth_rewrite 1 [← take_length_takeWhile]
    exact List.take_append_drop _ _
  rw [skipBlanks, drop, take_length_takeWhile, hrest]

/-- All tokens are the next one and those behind it, unless that is the end. -/
theorem toEnd_eq (cursor : Cursor) :
    cursor.toEnd =
      if cursor.next.value.isEnd then cursor.next.map ([·])
      else (cursor.next.followedBy cursor.next.state.toEnd).map (cursor.next.value :: ·) := by
  split
  · next hend => simp [toEnd, steps_of_isEnd hend, Step.map]
  · next hend =>
    obtain ⟨final, hfinal⟩ := Option.isSome_iff_exists.1
      (List.getLast?_isSome.2 cursor.next.state.steps_ne_nil)
    simp [toEnd, steps_of_not_isEnd (Bool.eq_false_iff.2 hend), Step.map, Step.followedBy,
      List.getLast?_cons, hfinal]

end Cursor

/-- A character that spells a symbol begins that symbol, or the one that an equals sign makes of
it. -/
theorem Lexeme.longest_of_symbol {c : Char} {symbol : Symbol} (h : Symbol.ofChar? c = some symbol)
    (rest : List Char) : longest c rest = .symbol (joined symbol rest.head?) := by
  have hmem : c ∈ symbol.chars := by
    rw [chars_of_ofChar? h]
    exact List.mem_singleton_self c
  obtain ⟨hletter, hdigit, -⟩ := Symbol.not_other hmem
  simp [longest, hletter, hdigit, h]

namespace Scanner

/-! ## Invariant -/

/-- How the fields of a scanner belong together: in front of the index there are other characters
than the mark, and that one index tells everything else. -/
structure Sound (source : String) (s : Scanner) : Prop where
  input_eq : s.input = source.toList.toArray
  position_le : s.position ≤ source.length
  readPosition_eq : s.readPosition = min (s.position + 1) source.length
  current_eq : s.current = source.toList[s.position]?.getD endMark
  unmarked : endMark ∉ source.toList.take s.position
  line_eq : s.location.line = 1 + (source.toList.take s.position).count '\n'
  column_eq : s.location.column =
    1 + ((source.toList.take s.position).rtakeWhile (· ≠ '\n')).length

/-- No number that the scanner counts with goes beyond the length of the text by more than one. -/
def Bounded (source : String) (s : Scanner) : Prop :=
  s.readPosition ≤ source.length ∧ s.location.line ≤ source.length + 1 ∧
    s.location.column ≤ source.length + 1

/-- The cursor in the same place -/
def cursor (s : Scanner) : Cursor :=
  { rest := s.input.toList.drop s.position, location := s.location }

section Invariant

variable {source : String} {s : Scanner}

theorem Sound.size_eq (h : s.Sound source) : s.input.size = source.length := by
  rw [h.input_eq, List.size_toArray, String.length_toList]

theorem Sound.location_eq (h : s.Sound source) :
    s.location = Location.start.after (source.toList.take s.position) := by
  rw [Location.after_start, ← h.line_eq, ← h.column_eq]

theorem Sound.bounded (h : s.Sound source) : s.Bounded source := by
  have hlength : (source.toList.take s.position).length ≤ source.length := by
    rw [← String.length_toList]
    exact List.length_take_le' _ _
  have hcount :
      (source.toList.take s.position).count '\n' ≤ (source.toList.take s.position).length :=
    List.count_le_length
  have hrun := (List.rtakeWhile_suffix (· ≠ '\n') (source.toList.take s.position)).length_le
  refine ⟨?_, ?_, ?_⟩
  · rw [h.readPosition_eq]
    exact Nat.min_le_right _ _
  · rw [h.line_eq]
    omega
  · rw [h.column_eq]
    omega

/-- The index alone tells where a scanner stands. -/
theorem Sound.cursor_eq (h : s.Sound source) :
    s.cursor = (Cursor.ofText source).drop s.position := by
  rw [cursor, h.location_eq, h.input_eq]
  rfl

theorem sound_of_location (hinput : s.input = source.toList.toArray)
    (hposition : s.position ≤ source.length)
    (hread : s.readPosition = min (s.position + 1) source.length)
    (hcurrent : s.current = source.toList[s.position]?.getD endMark)
    (hunmarked : endMark ∉ source.toList.take s.position)
    (hlocation : s.location = Location.start.after (source.toList.take s.position)) :
    s.Sound source := by
  rw [Location.after_start] at hlocation
  exact {
    input_eq := hinput
    position_le := hposition
    readPosition_eq := hread
    current_eq := hcurrent
    unmarked := hunmarked
    line_eq := by rw [hlocation]
    column_eq := by rw [hlocation] }

/-- The first move leads into the invariant, from a state outside of it. -/
theorem sound_ofText (source : String) : (ofText source).Sound source := by
  apply sound_of_location
  · rfl
  · exact Nat.zero_le _
  · show (if 0 < source.toList.toArray.size then 1 else 0) = min 1 source.length
    rw [List.size_toArray, String.length_toList]
    split <;> omega
  · show source.toList.toArray[0]?.getD endMark = source.toList[0]?.getD endMark
    rw [List.getElem?_toArray]
  · exact List.not_mem_nil
  · rfl

/-- Only at the end of the text, or at a mark in it, is the mark examined. -/
theorem Sound.getElem?_position (h : s.Sound source) (hmark : s.current ≠ endMark) :
    source.toList[s.position]? = some s.current := by
  have hcurrent := h.current_eq
  cases hat : source.toList[s.position]? with
  | none =>
    rw [hat] at hcurrent
    exact absurd hcurrent hmark
  | some c =>
    rw [hat] at hcurrent
    rw [hcurrent, Option.getD_some]

theorem Sound.position_lt (h : s.Sound source) (hmark : s.current ≠ endMark) :
    s.position < source.length := by
  rw [← String.length_toList]
  exact (List.getElem?_eq_some_iff.1 (h.getElem?_position hmark)).1

theorem Sound.position_advance (h : s.Sound source) (hmark : s.current ≠ endMark) :
    s.advance.position = s.position + 1 := by
  have hlt := h.position_lt hmark
  show s.readPosition = s.position + 1
  rw [h.readPosition_eq]
  omega

theorem Sound.take_advance (h : s.Sound source) (hmark : s.current ≠ endMark) :
    source.toList.take s.advance.position = source.toList.take s.position ++ [s.current] := by
  rw [h.position_advance hmark, List.take_add_one, h.getElem?_position hmark]
  rfl

/-- A move over any character but the mark keeps the fields together. -/
theorem Sound.advance (h : s.Sound source) (hmark : s.current ≠ endMark) :
    s.advance.Sound source := by
  have hlt := h.position_lt hmark
  have hposition := h.position_advance hmark
  have htake := h.take_advance hmark
  apply sound_of_location
  · exact h.input_eq
  · omega
  · show (if s.readPosition < s.input.size then s.readPosition + 1 else s.readPosition) = _
    rw [hposition, h.size_eq, h.readPosition_eq]
    split <;> omega
  · show s.input[s.advance.position]?.getD endMark = _
    rw [h.input_eq, List.getElem?_toArray]
  · rw [htake, List.mem_append, List.mem_singleton, not_or]
    exact ⟨h.unmarked, Ne.symm hmark⟩
  · rw [htake, Location.after_append, ← h.location_eq]
    rfl

/-- What a scanner has in front of it begins with the character that it examines. -/
theorem Sound.rest_cursor (h : s.Sound source) (hmark : s.current ≠ endMark) :
    s.cursor.rest = s.current :: s.advance.cursor.rest := by
  rw [h.cursor_eq, (h.advance hmark).cursor_eq, h.position_advance hmark]
  show source.toList.drop s.position = s.current :: source.toList.drop (s.position + 1)
  rw [List.drop_eq_getElem?_toList_append, h.getElem?_position hmark]
  rfl

theorem Sound.head?_cursor (h : s.Sound source) :
    s.cursor.rest.head? = source.toList[s.position]? := by
  rw [h.cursor_eq]
  exact List.head?_drop

theorem Sound.eq_current (h : s.Sound source) {c : Char} (hc : c ∈ s.cursor.rest.head?) :
    c = s.current := by
  rw [h.head?_cursor, Option.mem_def] at hc
  rw [h.current_eq, hc, Option.getD_some]

/-- A scanner that has gone on by some characters stands where a cursor does that drops them. -/
theorem Sound.cursor_of_position (h : s.Sound source) {behind : Scanner}
    (hbehind : behind.Sound source) {count : Nat}
    (hposition : behind.position = s.position + count) :
    behind.cursor = s.cursor.drop count := by
  rw [hbehind.cursor_eq, h.cursor_eq, hposition, Cursor.drop_drop]

end Invariant

/-! ## Work -/

namespace Work

variable {α β : Type} {safe : Event → Prop}

/-- Work that does nothing but what is safe, does not break off, and has a result as it should be -/
def Does (safe : Event → Prop) (work : Work α) (after : α → Prop) : Prop :=
  (∀ event ∈ work.events, safe event) ∧ ∃ a, work.result = some a ∧ after a

theorem does_pure {after : α → Prop} {a : α} (ha : after a) : (Work.pure a).Does safe after :=
  ⟨by simp, a, rfl, ha⟩

theorem Does.imp {work : Work α} {after after' : α → Prop} (h : work.Does safe after)
    (himp : ∀ a, after a → after' a) : work.Does safe after' := by
  obtain ⟨hsafe, a, hresult, ha⟩ := h
  exact ⟨hsafe, a, hresult, himp a ha⟩

theorem Does.map {f : α → β} {work : Work α} {after : β → Prop}
    (h : work.Does safe fun a => after (f a)) : (work.map f).Does safe after := by
  obtain ⟨hsafe, a, hresult, ha⟩ := h
  exact ⟨hsafe, f a, by rw [result_map, hresult, Option.map_some], ha⟩

theorem Does.andThen {first : Work α} {later : (a : α) → first.result = some a → Work β}
    {between : α → Prop} {after : β → Prop} (hfirst : first.Does safe between)
    (hlater : ∀ a ha, between a → (later a ha).Does safe after) :
    (first.andThen later).Does safe after := by
  obtain ⟨hsafe, a, ha, hbetween⟩ := hfirst
  obtain ⟨hsafe', hafter⟩ := hlater a ha hbetween
  rw [andThen_of_some ha]
  refine ⟨fun event hevent => ?_, hafter⟩
  rcases List.mem_append.1 hevent with hbefore | hbehind
  · exact hsafe event hbefore
  · exact hsafe' event hbehind

end Work

/-- What a scanner may do: it keeps the invariant, it looks up no character but the one after that
under examination, and takes only characters up to that one, at least one of them. -/
def Event.Safe (source : String) : Event → Prop
  | moved s => s.Sound source ∧ s.Bounded source
  | indexed s i => s.Sound source ∧ i = s.position + 1 ∧ i < source.length
  | sliced s start stop =>
    s.Sound source ∧ start < stop ∧ stop = s.position ∧ stop ≤ source.length

/-! ## Readers -/

section Readers

variable {source : String} {s : Scanner}

theorem Sound.does_move (h : s.Sound source) (hmark : s.current ≠ endMark) :
    s.move.Does (Event.Safe source) (· = s.advance) := by
  refine ⟨fun event hevent => ?_, s.advance, rfl, rfl⟩
  rw [List.mem_singleton.1 hevent]
  exact ⟨h.advance hmark, (h.advance hmark).bounded⟩

/-- Looking ahead finds the next character, and the index is used only where there is one. -/
theorem Sound.does_peek (h : s.Sound source) :
    s.peek.Does (Event.Safe source) (· = source.toList[s.position + 1]?) := by
  unfold peek
  rw [h.size_eq]
  split
  · next hlt =>
    apply Work.Does.map
    have hat : s.position + 1 < source.toList.length := by rwa [String.length_toList]
    refine ⟨fun event hevent => ?_, source.toList[s.position + 1], ?_, ?_⟩
    · rw [List.mem_singleton.1 hevent]
      exact ⟨h, rfl, hlt⟩
    · show s.input[s.position + 1]? = _
      rw [h.input_eq, List.getElem?_toArray, List.getElem?_eq_getElem hat]
    · rw [List.getElem?_eq_getElem hat]
  · next hge =>
    apply Work.does_pure
    rw [List.getElem?_eq_none]
    rw [String.length_toList]
    exact Nat.le_of_not_lt hge

/-- A loop goes over the longest run of its class. -/
theorem Sound.does_readWhile {p : Char → Bool} (hp : p endMark = false) (h : s.Sound source) :
    (s.readWhile p hp).Does (Event.Safe source) fun behind =>
      behind.Sound source ∧
        behind.position = s.position + (s.cursor.rest.takeWhile p).length := by
  fun_induction readWhile p hp s with
  | case1 s hclass ih =>
    -- the mark is of no class, so the invariant holds at each turn of the loop
    have hmark := ne_endMark_of_class hp hclass
    apply (h.does_move hmark).andThen
    rintro next hnext rfl
    apply (ih _ hnext (h.advance hmark)).imp
    rintro behind ⟨hbehind, hposition⟩
    refine ⟨hbehind, ?_⟩
    rw [hposition, h.position_advance hmark, h.rest_cursor hmark,
      List.takeWhile_cons_of_pos hclass, List.length_cons]
    omega
  | case2 s hclass =>
    apply Work.does_pure
    refine ⟨h, ?_⟩
    have hnone : s.cursor.rest.takeWhile p = [] := by
      apply @takeWhile_append_of_ends p [] s.cursor.rest (by simp)
      intro c hc
      rw [h.eq_current hc]
      exact Bool.eq_false_iff.2 hclass
    rw [hnone, List.length_nil, Nat.add_zero]

theorem Sound.does_skipBlanks (h : s.Sound source) :
    s.skipBlanks.Does (Event.Safe source) fun here =>
      here.Sound source ∧ here.cursor = s.cursor.skipBlanks := by
  apply (h.does_readWhile _).imp
  rintro here ⟨hhere, hposition⟩
  refine ⟨hhere, ?_⟩
  rw [h.cursor_of_position hhere hposition, Cursor.skipBlanks_eq_drop]

/-- A step that reads a lexeme from the character under examination on, and has gone over so many
characters with that -/
structure Reads (source : String) (s : Scanner) (lexeme : Lexeme) (count : Nat)
    (step : Step Scanner Token) : Prop where
  sound : step.state.Sound source
  position_eq : step.state.position = s.position + count
  value_eq : step.value = lexeme.token s.location
  notices_eq : step.notices = lexeme.notices s.location

/-- The run that is taken out of the text is the longest one of its class, and is not empty. -/
theorem Sound.does_readRun {p : Char → Bool} (hp : p endMark = false) (kind : String → Kind)
    (lexeme : List Char → Lexeme) (hkind : ∀ run, (lexeme run).kind = kind (String.ofList run))
    (hchars : ∀ run, (lexeme run).chars = run)
    (hnotices : ∀ run location, (lexeme run).notices location = []) (h : s.Sound source)
    (hclass : p s.current = true) :
    (s.readRun p hp kind).Does (Event.Safe source)
      (Reads source s (lexeme (s.cursor.rest.takeWhile p)) (s.cursor.rest.takeWhile p).length) := by
  apply (h.does_readWhile hp).andThen
  rintro behind - ⟨hbehind, hposition⟩
  have hpos : 0 < (s.cursor.rest.takeWhile p).length := by
    rw [h.rest_cursor (ne_endMark_of_class hp hclass), List.takeWhile_cons_of_pos hclass]
    exact Nat.succ_pos _
  have hle := hbehind.position_le
  -- between the two indices is the run that the loop has gone over
  have htaken : (behind.input.extract s.position behind.position).toList =
      s.cursor.rest.takeWhile p := by
    rw [hposition, hbehind.input_eq, ← h.input_eq, Array.toList_extract, List.extract_eq_take_drop,
      Nat.add_sub_cancel_left]
    exact take_length_takeWhile p s.cursor.rest
  apply Work.Does.map
  refine ⟨fun event hevent => ?_, s.cursor.rest.takeWhile p, ?_, ?_⟩
  · rw [List.mem_singleton.1 hevent]
    exact ⟨hbehind, by omega, rfl, hle⟩
  · show (if _ ∧ _ then _ else none) = _
    rw [if_pos ⟨by omega, by rwa [hbehind.size_eq]⟩, htaken]
  · refine ⟨hbehind, hposition, ?_, (hnotices _ _).symm⟩
    rw [Lexeme.token, Lexeme.text, hkind, hchars]
    rfl

/-- A step that reads a lexeme, and comes to stand on its last character -/
def ReadsUpTo (source : String) (s : Scanner) (lexeme : Lexeme) (step : Step Scanner Token) :
    Prop :=
  ∃ count, count + 1 = lexeme.chars.length ∧ Reads source s lexeme count step ∧
    step.state.current ≠ endMark

/-- A reader that stays at the last character of a lexeme leaves one move to make. -/
theorem ReadsUpTo.does_pass {lexeme : Lexeme} {step : Step Scanner Token}
    (h : ReadsUpTo source s lexeme step) :
    (pass step).Does (Event.Safe source) (Reads source s lexeme lexeme.chars.length) := by
  obtain ⟨count, hcount, hreads, hmark⟩ := h
  apply Work.Does.map
  apply (hreads.sound.does_move hmark).imp
  rintro behind rfl
  exact {
    sound := hreads.sound.advance hmark
    position_eq := by
      rw [hreads.sound.position_advance hmark, hreads.position_eq, Nat.add_assoc, hcount]
    value_eq := hreads.value_eq
    notices_eq := hreads.notices_eq }

/-- An equals sign behind a sign that it joins is the last character of the token. -/
theorem Sound.does_oneOrTwo (h : s.Sound source) {single double : Symbol}
    (hsingle : Symbol.ofChar? s.current = some single)
    (hdouble : single.withEquals? = some double) :
    (s.oneOrTwo single double).Does (Event.Safe source)
      (ReadsUpTo source s (.symbol (Lexeme.joined single s.advance.cursor.rest.head?))) := by
  have hmark := ne_endMark_of_symbol hsingle
  have hchars := Lexeme.chars_of_ofChar? hsingle
  have hadvance := h.advance hmark
  apply h.does_peek.andThen
  rintro following - rfl
  -- what is looked up is what comes first once the scanner has gone on
  rw [← h.position_advance hmark, ← hadvance.head?_cursor]
  split
  · next hequals =>
    have hcurrent : '=' = s.advance.current := hadvance.eq_current hequals
    have hboth : double.chars = [s.current, '='] := by
      rw [Lexeme.chars_of_withEquals? hdouble, hchars]
      rfl
    rw [Lexeme.joined, if_pos hequals, hdouble, Option.getD_some]
    apply Work.Does.map
    apply (h.does_move hmark).imp
    rintro next rfl
    refine ⟨1, ?_, ⟨hadvance, h.position_advance hmark, ?_, rfl⟩, ?_⟩
    · rw [Lexeme.chars, hboth]
      rfl
    · rw [Lexeme.token, Lexeme.text, Lexeme.chars, hboth, ← hcurrent]
      rfl
    · show s.advance.current ≠ endMark
      rw [← hcurrent]
      decide
  · next hother =>
    rw [Lexeme.joined, if_neg hother]
    apply Work.does_pure
    refine ⟨0, by rw [Lexeme.chars, hchars]; rfl, ⟨h, rfl, ?_, rfl⟩, hmark⟩
    rw [Lexeme.token, Lexeme.text, Lexeme.chars, hchars]
    rfl

theorem Sound.does_operator (h : s.Sound source) {symbol : Symbol}
    (hsymbol : Symbol.ofChar? s.current = some symbol) :
    (s.operator symbol).Does (Event.Safe source)
      (ReadsUpTo source s (.symbol (Lexeme.joined symbol s.advance.cursor.rest.head?))) := by
  unfold operator
  split
  · next double hdouble => exact h.does_oneOrTwo hsymbol hdouble
  · next hnone =>
    have hjoined : Lexeme.joined symbol s.advance.cursor.rest.head? = symbol := by
      rw [Lexeme.joined, hnone]
      split <;> rfl
    have hchars := Lexeme.chars_of_ofChar? hsymbol
    rw [hjoined]
    apply Work.does_pure
    exact ⟨0, by rw [Lexeme.chars, hchars]; rfl, ⟨h, rfl, rfl, rfl⟩, ne_endMark_of_symbol hsymbol⟩

/-! ## Tokens -/

/-- A step of a scanner that is the step of a cursor -/
structure Follows {α : Type} (source : String) (step : Step Scanner α) (model : Step Cursor α) :
    Prop where
  sound : step.state.Sound source
  value_eq : step.value = model.value
  notices_eq : step.notices = model.notices
  cursor_eq : step.state.cursor = model.state

theorem Follows.map {α β : Type} {step : Step Scanner α} {model : Step Cursor α}
    (h : Follows source step model) (f : α → β) : Follows source (step.map f) (model.map f) :=
  ⟨h.sound, congrArg f h.value_eq, h.notices_eq, h.cursor_eq⟩

theorem Follows.followedBy {α β : Type} {step : Step Scanner α} {model : Step Cursor α}
    {later : Step Scanner β} {modelLater : Step Cursor β} (h : Follows source step model)
    (hlater : Follows source later modelLater) :
    Follows source (step.followedBy later) (model.followedBy modelLater) :=
  ⟨hlater.sound, hlater.value_eq, congrArg₂ (· ++ ·) h.notices_eq hlater.notices_eq,
    hlater.cursor_eq⟩

/-- Where there is no blank in front, a lexeme that was read is the one that a cursor reads. -/
theorem Reads.follows {lexeme : Lexeme} {step : Step Scanner Token} (h : s.Sound source)
    (hmark : s.current ≠ endMark) (hskip : s.cursor.skipBlanks = s.cursor)
    (hlongest : Lexeme.longest s.current s.advance.cursor.rest = lexeme)
    (hreads : Reads source s lexeme lexeme.chars.length step) :
    Follows source step s.cursor.next := by
  rw [Cursor.next_of_cons hskip (h.rest_cursor hmark) hmark, hlongest]
  exact ⟨hreads.sound, hreads.value_eq, hreads.notices_eq,
    h.cursor_of_position hreads.sound hreads.position_eq⟩

theorem Sound.does_scan (h : s.Sound source) (hskip : s.cursor.skipBlanks = s.cursor) :
    s.scan.Does (Event.Safe source) (Follows source · s.cursor.next) := by
  unfold scan
  split
  · next symbol hsymbol =>
    -- an operator leaves its last character to be passed
    have hmark := ne_endMark_of_symbol hsymbol
    apply (h.does_operator hsymbol).andThen
    intro step _ hupTo
    apply hupTo.does_pass.imp
    intro behind hreads
    exact hreads.follows h hmark hskip (Lexeme.longest_of_symbol hsymbol _)
  next hsymbol =>
  split
  · next hmark =>
    -- at the mark nothing is done, and a cursor is at its end there
    apply Work.does_pure
    have hend : AtEnd s.cursor.skipBlanks.rest := by
      intro c hc
      rw [hskip] at hc
      rw [h.eq_current hc, hmark]
    rw [Cursor.next_of_atEnd _ hend, hskip]
    exact ⟨h, rfl, rfl, rfl⟩
  next hmark =>
  -- the class of the first character tells which form the longest lexeme has
  have hrest := h.rest_cursor hmark
  split
  · next hletter =>
    apply (h.does_readRun _ .ofWord .word (fun _ => rfl) (fun _ => rfl) (fun _ _ => rfl)
      hletter).imp
    intro step hreads
    apply hreads.follows h hmark hskip
    rw [Lexeme.longest, if_pos hletter, hrest, List.takeWhile_cons_of_pos hletter]
  next hletter =>
  split
  · next hdigit =>
    apply (h.does_readRun _ (fun _ => .integer) .number (fun _ => rfl) (fun _ => rfl)
      (fun _ _ => rfl) hdigit).imp
    intro step hreads
    apply hreads.follows h hmark hskip
    rw [Lexeme.longest, if_neg hletter, if_pos hdigit, hrest, List.takeWhile_cons_of_pos hdigit]
  · next hdigit =>
    have hupTo : ReadsUpTo source s (.stray s.current) s.stray :=
      ⟨0, rfl, ⟨h, rfl, rfl, rfl⟩, hmark⟩
    apply hupTo.does_pass.imp
    intro step hreads
    apply hreads.follows h hmark hskip
    rw [Lexeme.longest, if_neg hletter, if_neg hdigit, hsymbol]

/-- A scanner and a cursor in the same place read the same token, and come to the same place. -/
theorem Sound.does_next (h : s.Sound source) :
    s.next.Does (Event.Safe source) (Follows source · s.cursor.next) := by
  apply h.does_skipBlanks.andThen
  rintro here - ⟨hhere, hcursor⟩
  have hskip : here.cursor.skipBlanks = here.cursor := by
    rw [hcursor, Cursor.skipBlanks_skipBlanks]
  have hnext : here.cursor.next = s.cursor.next := by
    simp only [Cursor.next, hcursor, Cursor.skipBlanks_skipBlanks]
  rw [← hnext]
  exact hhere.does_scan hskip

theorem Sound.does_next? (h : s.Sound source) :
    s.next?.Does (Event.Safe source) (Follows source · s.cursor.next?) :=
  (h.does_next.imp fun _ hfollows => hfollows.map _).map

theorem Sound.does_toEnd (h : s.Sound source) :
    s.toEnd.Does (Event.Safe source) (Follows source · s.cursor.toEnd) := by
  fun_induction toEnd s with
  | case1 s ih =>
    apply h.does_next.andThen
    intro step hstep hfollows
    rw [Cursor.toEnd_eq, ← hfollows.value_eq]
    by_cases hend : step.value.isEnd = true
    · rw [if_pos hend, if_pos hend]
      exact Work.does_pure (hfollows.map _)
    · rw [if_neg hend, if_neg hend]
      apply Work.Does.map
      apply (ih step hstep hend hfollows.sound).imp
      intro later hlater
      rw [hfollows.cursor_eq] at hlater
      exact (hfollows.followedBy hlater).map _

theorem Sound.does_beforeEnd (h : s.Sound source) :
    s.beforeEnd.Does (Event.Safe source) (Follows source · s.cursor.beforeEnd) := by
  fun_induction beforeEnd s with
  | case1 s ih =>
    apply h.does_next?.andThen
    intro step hstep hfollows
    rw [Cursor.beforeEnd_eq, Step.andThen, ← hfollows.value_eq]
    split
    · next hnone =>
      rw [hnone]
      apply Work.does_pure
      exact ⟨hfollows.sound, rfl, hfollows.notices_eq.trans (List.append_nil _).symm,
        hfollows.cursor_eq⟩
    · next token htoken =>
      rw [htoken]
      apply Work.Does.map
      apply (ih step hstep token htoken hfollows.sound).imp
      intro later hlater
      rw [hfollows.cursor_eq] at hlater
      exact hfollows.followedBy (hlater.map _)

end Readers

end Scanner

/-! ## Runs -/

/-- A reading, carried out by a scanner -/
def Reading.scan (s : Scanner) : (reading : Reading) → Scanner.Work (Step Scanner reading.Answer)
  | next => s.next
  | next? => s.next?
  | toEnd => s.toEnd
  | beforeEnd => s.beforeEnd

namespace Scanner

/-- Readings that are carried out one after the other, and all that they hand out -/
def perform (s : Scanner) : List Reading → Work (Step Scanner (List Token))
  | [] => .pure (.stay s [])
  | reading :: later =>
    (reading.scan s).andThen fun step _ =>
      (step.state.perform later).map fun rest =>
        (step.followedBy rest).map (reading.handed step.value ++ ·)

section Runs

variable {source : String} {s : Scanner}

/-- Whatever a sound scanner is asked, it does as a cursor in the same place would. -/
theorem Sound.does_scan_reading (h : s.Sound source) (reading : Reading) :
    (reading.scan s).Does (Event.Safe source) (Follows source · (reading.step s.cursor)) := by
  cases reading with
  | next => exact h.does_next
  | next? => exact h.does_next?
  | toEnd => exact h.does_toEnd
  | beforeEnd => exact h.does_beforeEnd

theorem Sound.does_perform (h : s.Sound source) (readings : List Reading) :
    (s.perform readings).Does (Event.Safe source) fun step =>
      step.state.Sound source ∧ step.value = handedOut s.cursor readings := by
  induction readings generalizing s with
  | nil => exact Work.does_pure ⟨h, rfl⟩
  | cons reading later ih =>
    apply (h.does_scan_reading reading).andThen
    intro step _ hfollows
    apply Work.Does.map
    apply (ih hfollows.sound).imp
    rintro rest ⟨hsound, hvalue⟩
    refine ⟨hsound, ?_⟩
    rw [Step.map_value, Step.followedBy_value, hvalue, hfollows.value_eq, hfollows.cursor_eq]
    rfl

theorem cursor_ofText (source : String) : (ofText source).cursor = .ofText source :=
  (sound_ofText source).cursor_eq.trans rfl

end Runs

end Scanner

/-- Whatever is asked of a scanner, and however often, its fields belong together afterwards, as
they do after every single move on the way, and no number that it counts with outgrows the text.
Every character that it looks up and every run that it takes out is within the text, so the work
does not break off, and hands out what a cursor does. -/
theorem scanner_sound (source : String) (readings : List Reading) :
    ((Scanner.ofText source).perform readings).Does (Scanner.Event.Safe source) fun step =>
      step.state.Sound source ∧ step.state.Bounded source ∧
        step.value = handedOut (.ofText source) readings := by
  have hdoes := (Scanner.sound_ofText source).does_perform readings
  rw [Scanner.cursor_ofText] at hdoes
  apply hdoes.imp
  rintro step ⟨hsound, hvalue⟩
  exact ⟨hsound, hsound.bounded, hvalue⟩

/-- A name is taken out of the text, and a sign looks at the next index, unless that is the end. -/
example : (((Scanner.ofText "ab!=!").perform [.next?, .toEnd]).events.filterMap fun
    | .moved _ => none
    | .sliced _ start stop => some (start, stop)
    | .indexed _ i => some (i, i + 1)) = [(0, 2), (3, 4)] := by
  decide +kernel

end Macaque

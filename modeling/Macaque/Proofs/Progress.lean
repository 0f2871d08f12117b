import Macaque.Proofs.Operations
import Macaque.Proofs.Scanner

/-!
# Reading comes to an end

None of the loops that read a text counts down. Each of them ends because of what it leaves behind:
a scanner goes over the text of every token that it hands out, and once it has come to the end it
does not move any more, however often it is asked; and whatever is found where a statement may
begin, the window does not stay at the token at which it was found.

## Architecture

- **Scanners**: `Scanner.Progress` says what the next token does to a scanner, at the end too
  (`perform_of_mark`); the number of tokens that are left follows by induction on them
  (`Sound.does_toEnd_within`)
- **Windows**: `Window.unread` is what a window has yet to pass, which is what is behind its index
  in the tokens of the text (`unread_windowAt`)
- **Turns**: `Window.turn` is one turn of the loop over a text, `Turns` some of them;
  `length_unread_turn_lt` is the step, `Turns.add_length_unread_le` the run
- **Together**: `reading_progresses`
-/

namespace Macaque

/-! ## Scanners -/

/-- A token takes its text away from what is left, which is at least one character. -/
theorem Cursor.length_literal_next {cursor : Cursor} (h : cursor.next.value.isEnd = false) :
    1 ≤ cursor.next.value.literal.length ∧
      cursor.next.state.rest.length + cursor.next.value.literal.length ≤ cursor.rest.length := by
  -- behind the blanks there is a character that begins a lexeme, or else the end would come next
  have hnot : ¬ AtEnd cursor.skipBlanks.rest := by
    intro hend
    rw [next_of_atEnd _ hend] at h
    cases h
  obtain ⟨c, hc, hmark⟩ : ∃ c ∈ cursor.skipBlanks.rest.head?, c ≠ endMark := by
    simpa [AtEnd] using hnot
  have hrest := List.eq_cons_of_mem_head? hc
  generalize cursor.skipBlanks.rest.tail = rest at hrest
  have hpos := List.length_pos_iff.2 (Lexeme.chars_longest_ne_nil c rest)
  have hlexeme := congrArg List.length (Lexeme.chars_longest_append c rest)
  have hblank := cursor.length_skipBlanks_le
  rw [List.length_append, ← hrest] at hlexeme
  rw [next_of_cons rfl hrest hmark]
  simp only [Cursor.drop, Lexeme.token, Lexeme.text, String.length_ofList]
  omega

namespace Scanner

section Mark

variable {s : Scanner}

/-- At the mark no loop makes a turn. -/
theorem readWhile_of_mark {p : Char → Bool} (hp : p endMark = false) (hmark : s.current = endMark) :
    s.readWhile p hp = .pure s := by
  rw [readWhile, if_neg]
  rw [hmark, hp]
  exact Bool.false_ne_true

/-- At the mark the end is handed out without a move. -/
theorem next_of_mark (hmark : s.current = endMark) :
    s.next = .pure (.stay s (.endAt s.location)) := by
  have hblank : s.skipBlanks = .pure s := readWhile_of_mark _ hmark
  have hsymbol : Symbol.ofChar? s.current = none := by
    rw [hmark]
    decide
  rw [next, hblank, Work.andThen_pure, scan, hsymbol]
  exact if_pos hmark

theorem next?_of_mark (hmark : s.current = endMark) : s.next? = .pure (.stay s none) := by
  rw [next?, next_of_mark hmark]
  rfl

/-- Whichever way a scanner is asked at the mark, it does nothing, and has nothing but the end to
hand out. -/
theorem scan_of_mark (hmark : s.current = endMark) (reading : Reading) :
    ∃ answer count, reading.scan s = .pure (.stay s answer) ∧
      reading.handed answer = List.replicate count (.endAt s.location) := by
  cases reading with
  | next => exact ⟨_, 1, next_of_mark hmark, rfl⟩
  | next? => exact ⟨_, 0, next?_of_mark hmark, rfl⟩
  | toEnd =>
    refine ⟨_, 1, ?_, rfl⟩
    rw [Reading.scan, toEnd, next_of_mark hmark]
    rfl
  | beforeEnd =>
    refine ⟨_, 0, ?_, rfl⟩
    rw [Reading.scan, beforeEnd, next?_of_mark hmark]
    rfl

/-- A scanner at the mark stays there, whatever it is asked and however often. -/
theorem perform_of_mark (hmark : s.current = endMark) (readings : List Reading) :
    ∃ count, s.perform readings = .pure (.stay s (List.replicate count (.endAt s.location))) := by
  induction readings with
  | nil => exact ⟨0, rfl⟩
  | cons reading later ih =>
    obtain ⟨count, hlater⟩ := ih
    obtain ⟨answer, first, hscan, hhanded⟩ := scan_of_mark hmark reading
    refine ⟨first + count, ?_⟩
    rw [perform, hscan, Work.andThen_pure, Step.stay_state, hlater, Step.stay_value, hhanded,
      ← List.replicate_append_replicate]
    rfl

end Mark

/-- What a scanner gets done when it is asked for the next token -/
inductive Progress (s : Scanner) (step : Step Scanner Token) : Prop where
  /-- The scanner goes over the text of a token, which is not empty -/
  | token (hnot : step.value.kind ≠ .endOfText) (hliteral : 1 ≤ step.value.literal.length)
      (hposition : s.position + step.value.literal.length ≤ step.state.position)
  /-- The scanner has come to the end: whatever it is asked from now on, it does nothing at all, and
  hands out nothing but the end -/
  | ended (hend : step.value.kind = .endOfText)
      (hstays : ∀ readings, ∃ count, step.state.perform readings =
        .pure (.stay step.state (List.replicate count step.value)))

section Progress

variable {source : String} {s : Scanner}

theorem Sound.position_add_length (h : s.Sound source) :
    s.position + s.cursor.rest.length = source.length := by
  have hle := h.position_le
  rw [h.cursor_eq]
  show s.position + (source.toList.drop s.position).length = source.length
  rw [List.length_drop, String.length_toList]
  omega

theorem Sound.current_of_atEnd (h : s.Sound source) (hend : AtEnd s.cursor.rest) :
    s.current = endMark := by
  by_contra hmark
  refine hmark (hend s.current ?_)
  rw [h.rest_cursor hmark, List.head?_cons]
  rfl

/-- A scanner does not get past the mark. -/
theorem Sound.position_le_mark (h : s.Sound source) :
    s.position ≤ (source.toList.takeWhile (· ≠ endMark)).length := by
  have hbefore : ∀ c ∈ source.toList.take s.position, decide (c ≠ endMark) = true := by
    intro c hc
    apply decide_eq_true
    rintro rfl
    exact h.unmarked hc
  have hle := h.position_le
  rw [← String.length_toList] at hle
  rw [← List.take_append_drop s.position source.toList, List.takeWhile_append_of_pos hbefore,
    List.length_append, List.length_take_of_le hle]
  exact Nat.le_add_right _ _

/-- The step of a cursor is progress of the scanner that follows it. -/
theorem Follows.progress {step : Step Scanner Token} (h : s.Sound source)
    (hfollows : Follows source step s.cursor.next) : Progress s step := by
  cases hend : s.cursor.next.value.isEnd with
  | false =>
    obtain ⟨hliteral, hlength⟩ := Cursor.length_literal_next hend
    rw [← hfollows.cursor_eq, ← hfollows.value_eq] at hlength
    rw [← hfollows.value_eq] at hend hliteral
    -- what is taken from what is left is what the index grows by
    have hbefore := h.position_add_length
    have hbehind := hfollows.sound.position_add_length
    exact .token (of_decide_eq_false hend) hliteral (by omega)
  | true =>
    have hnext := Cursor.next_of_isEnd hend
    have hcursor : step.state.cursor = s.cursor.skipBlanks := by
      rw [hfollows.cursor_eq, hnext, Step.stay_state]
    have hvalue : step.value = .endAt step.state.location := by
      rw [hfollows.value_eq, hnext, Step.stay_value, ← hcursor]
      rfl
    -- behind the blanks nothing is left to go over
    have hmark : step.state.current = endMark := by
      apply hfollows.sound.current_of_atEnd
      rw [hcursor]
      exact Cursor.atEnd_of_isEnd hend
    rw [← hfollows.value_eq] at hend
    refine .ended (of_decide_eq_true hend) fun readings => ?_
    rw [hvalue]
    exact perform_of_mark hmark readings

/-- There are no more tokens left than characters in front of the mark, and the end. -/
theorem Sound.does_toEnd_within (h : s.Sound source) :
    s.toEnd.Does (Event.Safe source) fun all =>
      s.position + all.value.length ≤ (source.toList.takeWhile (· ≠ endMark)).length + 1 := by
  fun_induction toEnd s with
  | case1 s ih =>
    apply h.does_next.andThen
    intro step hstep hfollows
    by_cases hend : step.value.isEnd = true
    · rw [if_pos hend]
      exact Work.does_pure (Nat.succ_le_succ h.position_le_mark)
    · rw [if_neg hend]
      apply Work.Does.map
      apply (ih step hstep hend hfollows.sound).imp
      intro later hlater
      -- the token that comes first has moved the index, by its text at least
      show s.position + (later.value.length + 1) ≤ _
      cases hfollows.progress h with
      | token _ hliteral hposition => omega
      | ended hkind => exact absurd (decide_eq_true hkind) hend

end Progress

end Scanner

theorem length_tokens_le_mark (source : String) :
    (tokens source).length ≤ (source.toList.takeWhile (· ≠ endMark)).length + 1 := by
  have hsound := Scanner.sound_ofText source
  obtain ⟨-, all, hall, hfollows⟩ := hsound.does_toEnd
  obtain ⟨-, same, hsame, hlength⟩ := hsound.does_toEnd_within
  obtain rfl := Option.some.inj (hall.symm.trans hsame)
  rw [hfollows.value_eq, Scanner.cursor_ofText] at hlength
  exact Nat.le_of_add_left_le hlength

/-! ## Windows -/

/-- The tokens from the current one on, without the end -/
def Window.unread (window : Window) : List Token :=
  (window.current :: window.ahead :: window.cursor.toEnd.value).filter (!·.isEnd)

namespace Cursor

/-- But for the end, all tokens are the next one and those behind it. -/
theorem filter_toEnd (cursor : Cursor) :
    cursor.toEnd.value.filter (!·.isEnd) =
      [cursor.next.value].filter (!·.isEnd) ++ cursor.next.state.toEnd.value.filter (!·.isEnd) := by
  cases hend : cursor.next.value.isEnd with
  | true =>
    have hagain := next_next_of_isEnd hend
    simp [toEnd_of_isEnd hend, toEnd_of_isEnd (hagain ▸ hend), hagain, hend]
  | false => simp [toEnd_of_not_isEnd hend, hend]

/-- A window has yet to pass what the cursor has to read where it opens. -/
theorem unread_window (cursor : Cursor) :
    cursor.window.unread = cursor.toEnd.value.filter (!·.isEnd) := by
  rw [filter_toEnd, filter_toEnd cursor.next.state, ← List.filter_append, ← List.filter_append]
  rfl

/-- What a window on a text has yet to pass are the tokens from its index on, without the end. -/
theorem unread_windowAt (source : String) (n : Nat) :
    ((ofText source).windowAt n).unread = (tokens source).dropLast.drop n := by
  obtain ⟨last, htokens⟩ := exists_tokens_eq source
  obtain ⟨hbody, hlast⟩ := kinds_of_tokens htokens
  have hleft : ((tokens source).dropLast.drop n).filter (!·.isEnd) =
      (tokens source).dropLast.drop n := by
    rw [List.filter_eq_self]
    intro token hmem
    simpa [Token.isEnd] using hbody token (List.mem_of_mem_drop hmem)
  have hdrop : (tokens source).dropLast.drop (min n (tokens source).dropLast.length) =
      (tokens source).dropLast.drop n :=
    List.drop_eq_drop_iff.2 (by omega)
  rw [windowAt, unread_window, toEnd_pass htokens, drop_tokens htokens (Nat.min_le_right _ _),
    hdrop, List.filter_append, hleft]
  simp [Token.isEnd, hlast]

end Cursor

/-! ## Turns -/

/-- One turn of the loop over a text: what is found at the current token, and the move behind it -/
def Window.turn (window : Window) : Window :=
  window.finding.state.advance.state

/-- A number of turns, none of which begins at the end, that lead from one window to another -/
inductive Turns (start : Window) : Nat → Window → Prop where
  | none : Turns start 0 start
  | next {count : Nat} {window : Window} (hturns : Turns start count window)
      (hnot : window.current.kind ≠ .endOfText) : Turns start (count + 1) window.turn

/-- A turn leads to a later index. -/
theorem Cursor.exists_turn_windowAt (cursor : Cursor) (n : Nat) :
    ∃ m, n < m ∧ (cursor.windowAt n).turn = cursor.windowAt m := by
  obtain ⟨j, hmove, hleads⟩ := cursor.exists_statement n
  refine ⟨j + 1, Nat.lt_succ_of_le hmove.le, ?_⟩
  rw [Window.turn, Window.finding_state, hleads.state, state_advance_windowAt]

/-- A turn passes at least one token. -/
theorem length_unread_turn_lt {source : String} {n : Nat}
    (hnot : ((Cursor.ofText source).windowAt n).current.kind ≠ .endOfText) :
    ((Cursor.ofText source).windowAt n).turn.unread.length <
      ((Cursor.ofText source).windowAt n).unread.length := by
  obtain ⟨m, hlt, hturn⟩ := (Cursor.ofText source).exists_turn_windowAt n
  obtain ⟨last, htokens⟩ := exists_tokens_eq source
  -- behind the other tokens the window would show the end
  have hn : n < (tokens source).dropLast.length := by
    by_contra hge
    rw [Cursor.windowAt_current, row_ofText] at hnot
    exact hnot (of_decide_eq_true ((isEnd_stream htokens n).trans
      (decide_eq_true (Nat.le_of_not_lt hge))))
  rw [hturn, Cursor.unread_windowAt, Cursor.unread_windowAt, List.length_drop, List.length_drop]
  omega

section Turns

variable {source : String} {count : Nat} {window : Window}

theorem Turns.exists_windowAt {cursor : Cursor} (h : Turns cursor.window count window) :
    ∃ i, window = cursor.windowAt i := by
  induction h with
  | none => exact ⟨0, rfl⟩
  | next _ _ ih =>
    obtain ⟨i, rfl⟩ := ih
    obtain ⟨m, -, hturn⟩ := cursor.exists_turn_windowAt i
    exact ⟨m, hturn⟩

/-- Every turn is paid for by a token that was unread. -/
theorem Turns.add_length_unread_le
    (h : Turns (Cursor.ofText source).window count window) :
    count + window.unread.length ≤ (tokens source).dropLast.length := by
  induction h with
  | none =>
    have hopened := Cursor.unread_windowAt source 0
    exact (Nat.zero_add _).le.trans (congrArg List.length hopened).le
  | next hturns hnot ih =>
    obtain ⟨i, rfl⟩ := hturns.exists_windowAt
    have hlt := length_unread_turn_lt hnot
    omega

/-- The loop over a text makes one turn for each finding, and stops at the end. -/
theorem Turns.through_findings {start : Window} (h : Turns start count window) :
    Turns start (count + window.findings.value.length) window.findings.state ∧
      window.findings.state.current.kind = .endOfText := by
  fun_induction Window.findings window generalizing count with
  | case1 window hend => exact ⟨h, of_decide_eq_true hend⟩
  | case2 window hend found moved =>
    rename_i ih
    -- this turn comes first, and those of the loop from there on follow it
    obtain ⟨hturns, hlast⟩ := ih (h.next (of_decide_eq_false (Bool.eq_false_iff.2 hend)))
    refine ⟨?_, hlast⟩
    rw [Nat.add_assoc, Nat.add_comm 1] at hturns
    exact hturns

end Turns

/-! ## Together -/

/-- Whatever a scanner has been asked, the next token takes it past the text of that token, or it is
the end, and then nothing moves it any more. So there are no more tokens left than characters in
front of the mark, and the end. A statement that is skipped goes on up to the first token that ends
one, and no further. In the loop over a text, which always has the window on some token of that text
and the one behind it, each turn leaves fewer tokens unread; so the loop makes fewer turns than
there are tokens, and stops with the window at the end. -/
theorem reading_progresses (source : String) :
    (∀ readings : List Reading,
      ((Scanner.ofText source).perform readings).Does (Scanner.Event.Safe source) fun reached =>
        reached.state.next.Does (Scanner.Event.Safe source) (Scanner.Progress reached.state) ∧
        reached.state.toEnd.Does (Scanner.Event.Safe source) fun all =>
          reached.state.position + all.value.length ≤
            (source.toList.takeWhile (· ≠ endMark)).length + 1) ∧
    (tokens source).length ≤ (source.toList.takeWhile (· ≠ endMark)).length + 1 ∧
    (∀ i, ∃ j, FirstClosing (stream source) i j ∧
      ((Cursor.ofText source).windowAt i).skipToSemicolon.state =
        (Cursor.ofText source).windowAt j) ∧
    (∀ count window, Turns (Cursor.ofText source).window count window →
      (∃ i, window = (Cursor.ofText source).windowAt i ∧
        window.unread = (tokens source).dropLast.drop i) ∧
      (window.current.kind ≠ .endOfText → window.turn.unread.length < window.unread.length)) ∧
    (Cursor.ofText source).window.findings.value.length < (tokens source).length ∧
    Turns (Cursor.ofText source).window (Cursor.ofText source).window.findings.value.length
      (parse source).state ∧
    (parse source).state.current.kind = .endOfText := by
  obtain ⟨hturns, hlast⟩ :=
    (Turns.none : Turns (Cursor.ofText source).window 0 _).through_findings
  rw [Nat.zero_add] at hturns
  refine ⟨fun readings => ?_, length_tokens_le_mark source, fun i => ?_,
    fun count window hwindow => ?_, ?_, hturns, hlast⟩
  · -- all that the readings so far leave behind is a sound scanner
    apply ((Scanner.sound_ofText source).does_perform readings).imp
    rintro reached ⟨hsound, -⟩
    exact ⟨hsound.does_next.imp fun _ hfollows => hfollows.progress hsound,
      hsound.does_toEnd_within⟩
  · obtain ⟨j, hclosing, hleads⟩ := (Cursor.ofText source).exists_skipToSemicolon i
    rw [row_ofText] at hclosing
    exact ⟨j, hclosing, hleads.state⟩
  · obtain ⟨i, rfl⟩ := hwindow.exists_windowAt
    exact ⟨⟨i, rfl, Cursor.unread_windowAt source i⟩, length_unread_turn_lt⟩
  · -- every turn is paid for by a token, and the end pays for none
    have hcount := hturns.add_length_unread_le
    have hpos := List.length_pos_iff.2 (tokens_ne_nil source)
    rw [List.length_dropLast] at hcount
    omega

/-- Where every token is a finding of its own, there are as many turns as tokens in front of the
end: two statements break off, and the third one is over with the text. -/
example : (Cursor.ofText "let let return").window.findings.value.length + 1 =
      (tokens "let let return").length ∧
    (parse "let let return").state.current = .endAt ⟨1, 15⟩ := by
  decide +kernel

end Macaque

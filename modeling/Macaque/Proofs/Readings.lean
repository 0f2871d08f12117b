import Macaque.Proofs.Mark

/-!
# Four ways to read tokens

A cursor can be asked for the next token, for the next token unless that is the end, for all tokens
that are left, and for all of them but the end. However these are mixed, they read one and the same
stream: what they hand out one after the other are the tokens of the text in their order, none of
them twice and none left out, and then the end as often as it is asked for.

## Architecture

- **Readings**: `Reading` is a way to ask, `Reading.Moves` what it answers at an index of the tokens
  and which index it goes on to
- **Steps**: a cursor that has passed some tokens makes the move of each reading
  (`exists_moves_pass`)
- **Runs**: `Serves` along a list of readings, by induction on it; `exists_handedOut_eq` says what
  is handed out on the way
- **Together**: `readings_share_tokens`
-/

namespace Macaque

/-! ## Readings -/

/-- What can be asked of a cursor -/
inductive Reading where
  /-- The next token, the end too -/
  | next
  /-- The next token, unless that is the end -/
  | next?
  /-- All tokens that are left, the end too -/
  | toEnd
  /-- All tokens that are left but the end -/
  | beforeEnd

namespace Reading

/-- What the answers to a reading are like -/
def Answer : Reading → Type
  | next => Token
  | next? => Option Token
  | toEnd => List Token
  | beforeEnd => List Token

/-- A reading, carried out on a cursor -/
def step (cursor : Cursor) : (reading : Reading) → Step Cursor reading.Answer
  | next => cursor.next
  | next? => cursor.next?
  | toEnd => cursor.toEnd
  | beforeEnd => cursor.beforeEnd

/-- The tokens that an answer hands out, in order -/
def handed : (reading : Reading) → reading.Answer → List Token
  | next, token => [token]
  | next?, token => token.toList
  | toEnd, tokens => tokens
  | beforeEnd, tokens => tokens

/-- What a reading answers at the index `i` of some tokens, and the index it goes on to; the end has
the index `n` -/
def Moves (tokens : List Token) (n i : Nat) :
    (reading : Reading) → reading.Answer → Nat → Prop
  | next, token, j => some token = tokens[min i n]? ∧ j = min (i + 1) n
  | next?, token, j => token = (if i < n then tokens[i]? else none) ∧ j = min (i + 1) n
  | toEnd, left, j => left = tokens.drop i ∧ j = n
  | beforeEnd, left, j => left = (tokens.take n).drop i ∧ j = n

end Reading

/-- No reading goes back, or beyond the end. -/
theorem Reading.Moves.le {tokens : List Token} {n i j : Nat} {reading : Reading}
    {answer : reading.Answer} (h : reading.Moves tokens n i answer j) (hi : i ≤ n) :
    i ≤ j ∧ j ≤ n := by
  cases reading with
  | next =>
    obtain ⟨-, rfl⟩ := h
    omega
  | next? =>
    obtain ⟨-, rfl⟩ := h
    omega
  | toEnd =>
    obtain ⟨-, rfl⟩ := h
    exact ⟨hi, Nat.le_refl _⟩
  | beforeEnd =>
    obtain ⟨-, rfl⟩ := h
    exact ⟨hi, Nat.le_refl _⟩

/-- Readings that are carried out on a cursor one after the other, starting at the index `i` of the
tokens of a text: each of them makes its move, and leaves the notices of the tokens that it hands
out -/
inductive Serves (source : String) (n : Nat) : Nat → Cursor → List Reading → Prop where
  | done {i : Nat} {cursor : Cursor} : Serves source n i cursor []
  | step {i j : Nat} {cursor : Cursor} {reading : Reading} {later : List Reading}
      (hmoves : reading.Moves (tokens source) n i (reading.step cursor).value j)
      (hnotices :
        (reading.step cursor).notices = strays (reading.handed (reading.step cursor).value))
      (hlater : Serves source n j (reading.step cursor).state later) :
      Serves source n i cursor (reading :: later)

/-- The tokens that are handed out by readings that are carried out one after the other -/
def handedOut (cursor : Cursor) : List Reading → List Token
  | [] => []
  | reading :: later =>
    reading.handed (reading.step cursor).value ++ handedOut (reading.step cursor).state later

/-! ## Steps -/

namespace Cursor

/-- All tokens but the end are what comes of asking for the next one until there is none. -/
theorem beforeEnd_eq (cursor : Cursor) :
    cursor.beforeEnd = cursor.next?.andThen fun
      | none, state => .stay state []
      | some token, state => state.beforeEnd.map (token :: ·) := by
  cases hend : cursor.next.value.isEnd with
  | true =>
    simp [beforeEnd, toEnd, next?, steps_of_isEnd hend, hend, Step.andThen, Step.map,
      Step.followedBy, Step.stay]
  | false =>
    obtain ⟨final, hfinal⟩ := Option.isSome_iff_exists.1
      (List.getLast?_isSome.2 cursor.next.state.steps_ne_nil)
    have hne : cursor.next.state.steps.map (·.value) ≠ [] := toEnd_ne_nil _
    simp [beforeEnd, toEnd, next?, steps_of_not_isEnd hend, hend, Step.andThen, Step.map,
      Step.followedBy, List.getLast?_cons, hfinal, List.dropLast_cons_of_ne_nil hne]

end Cursor

section Tokens

variable {source : String} {body : List Token} {last : Token}
  (htokens : tokens source = body ++ [last])
include htokens

/-- The stream has come to the end behind the other tokens, and not before. -/
theorem isEnd_stream (m : Nat) : (stream source m).isEnd = decide (body.length ≤ m) := by
  by_cases hm : body.length ≤ m
  · rw [stream_eq_last htokens hm, decide_eq_true hm]
    exact decide_eq_true (kinds_of_tokens htokens).2
  · have hlt : m + 1 < (tokens source).length := by
      rw [htokens, List.length_append, List.length_singleton]
      omega
    rw [stream_of_lt (Nat.lt_of_succ_lt hlt), decide_eq_false hm]
    exact decide_eq_false (kind_ne_endOfText_of_lt hlt)

theorem stream_eq_getElem? (m : Nat) :
    some (stream source m) = (tokens source)[min m body.length]? := by
  by_cases hm : body.length ≤ m
  · rw [Nat.min_eq_right hm, stream_eq_last htokens hm, htokens]
    simp
  · have hlt : m < (tokens source).length := by
      rw [htokens, List.length_append, List.length_singleton]
      omega
    rw [Nat.min_eq_left (Nat.le_of_not_le hm), stream_of_lt hlt, List.getElem?_eq_getElem hlt]

/-- What is left when some tokens have been passed are the tokens behind them, at least the end. -/
theorem toEnd_pass (m : Nat) :
    ((Cursor.ofText source).pass m).state.toEnd.value =
      (tokens source).drop (min m body.length) := by
  induction m with
  | zero => rfl
  | succ m ih =>
    have hnext : ((Cursor.ofText source).pass m).state.next.value.isEnd =
        decide (body.length ≤ m) := by
      rw [Cursor.next_pass_ofText, isEnd_stream htokens]
    rw [Cursor.state_pass_succ]
    by_cases hm : body.length ≤ m
    · -- the end is read again
      rw [decide_eq_true hm] at hnext
      rw [Cursor.toEnd_of_isEnd hnext] at ih
      rw [(Cursor.ended_next hnext).toEnd, Step.stay_value, ih]
      congr 1
      omega
    · rw [decide_eq_false hm] at hnext
      rw [Cursor.toEnd_of_not_isEnd hnext] at ih
      have htail := congrArg List.tail ih
      rw [List.tail_cons, List.tail_drop] at htail
      rw [htail]
      congr 1
      omega

theorem drop_tokens {i : Nat} (hi : i ≤ body.length) :
    (tokens source).drop i = body.drop i ++ [last] := by
  rw [htokens, List.drop_append_of_le_length hi]

theorem take_tokens : (tokens source).take body.length = body := by
  rw [htokens, List.take_left]

/-- Reading all that is left leads to the end. -/
theorem exists_state_toEnd_pass (m : Nat) :
    ∃ m', body.length ≤ m' ∧ ((Cursor.ofText source).pass m).state.toEnd.state =
      ((Cursor.ofText source).pass m').state := by
  refine ⟨m + (body.length - min m body.length + 1), by omega, ?_⟩
  rw [Cursor.state_toEnd, toEnd_pass htokens, drop_tokens htokens (Nat.min_le_right _ _),
    List.length_append, List.length_drop, Cursor.pass_add (Cursor.ofText source)]
  rfl

/-- A cursor that has passed some tokens makes the move of each reading. -/
theorem exists_moves_pass (m : Nat) (reading : Reading) :
    ∃ m', reading.Moves (tokens source) body.length (min m body.length)
        (reading.step ((Cursor.ofText source).pass m).state).value (min m' body.length) ∧
      (reading.step ((Cursor.ofText source).pass m).state).state =
        ((Cursor.ofText source).pass m').state := by
  cases reading with
  | next =>
    refine ⟨m + 1, ⟨?_, by omega⟩, (Cursor.state_pass_succ _ m).symm⟩
    show some ((Cursor.ofText source).pass m).state.next.value = _
    rw [Cursor.next_pass_ofText, stream_eq_getElem? htokens, Nat.min_assoc, Nat.min_self]
  | next? =>
    refine ⟨m + 1, ⟨?_, by omega⟩, (Cursor.state_pass_succ _ m).symm⟩
    show (if ((Cursor.ofText source).pass m).state.next.value.isEnd then none
      else some ((Cursor.ofText source).pass m).state.next.value) = _
    rw [Cursor.next_pass_ofText, isEnd_stream htokens, stream_eq_getElem? htokens]
    -- there is an answer exactly if the index is not yet that of the end
    by_cases hm : body.length ≤ m
    · rw [if_pos (decide_eq_true hm), if_neg (by omega)]
    · rw [if_neg (by simpa using hm), if_pos (by omega)]
  | toEnd =>
    obtain ⟨m', hm', hstate⟩ := exists_state_toEnd_pass htokens m
    exact ⟨m', ⟨toEnd_pass htokens m, Nat.min_eq_right hm'⟩, hstate⟩
  | beforeEnd =>
    obtain ⟨m', hm', hstate⟩ := exists_state_toEnd_pass htokens m
    refine ⟨m', ⟨?_, Nat.min_eq_right hm'⟩, hstate⟩
    rw [Reading.step, Cursor.beforeEnd, Step.map_value, toEnd_pass htokens,
      drop_tokens htokens (Nat.min_le_right _ _), List.dropLast_concat, take_tokens htokens]

/-- A reading leaves the notices of the tokens that it hands out. -/
theorem notices_step_pass (m : Nat) (reading : Reading) :
    (reading.step ((Cursor.ofText source).pass m).state).notices =
      strays (reading.handed (reading.step ((Cursor.ofText source).pass m).state).value) := by
  cases reading with
  | next => exact Cursor.notices_next _
  | next? =>
    show ((Cursor.ofText source).pass m).state.next.notices =
      strays (if ((Cursor.ofText source).pass m).state.next.value.isEnd then none
        else some ((Cursor.ofText source).pass m).state.next.value).toList
    rw [Cursor.notices_next]
    split
    · next hend => exact strays_of_legal (by simp [of_decide_eq_true hend])
    · rfl
  | toEnd => exact Cursor.notices_toEnd _
  | beforeEnd =>
    have hlast : strays [last] = [] := strays_of_legal (by simp [(kinds_of_tokens htokens).2])
    show ((Cursor.ofText source).pass m).state.toEnd.notices =
      strays ((Cursor.ofText source).pass m).state.toEnd.value.dropLast
    rw [Cursor.notices_toEnd, toEnd_pass htokens, drop_tokens htokens (Nat.min_le_right _ _),
      List.dropLast_concat, strays_append, hlast, List.append_nil]

/-! ## Runs -/

/-- However much has been passed, readings go on from there. -/
theorem serves_pass (m : Nat) (readings : List Reading) :
    Serves source body.length (min m body.length) ((Cursor.ofText source).pass m).state
      readings := by
  induction readings generalizing m with
  | nil => exact .done
  | cons reading later ih =>
    obtain ⟨m', hmoves, hstate⟩ := exists_moves_pass htokens m reading
    refine .step hmoves (notices_step_pass htokens m reading) ?_
    rw [hstate]
    exact ih m'

theorem take_append_getElem {i : Nat} {token : Token} (hi : i < body.length)
    (h : some token = (tokens source)[i]?) : body.take i ++ [token] = body.take (i + 1) := by
  rw [htokens, List.getElem?_append_left hi] at h
  rw [List.take_add_one, ← h]
  rfl

/-- What a move hands out are the tokens from the one index to the other, and the end only where
that is where it leads. -/
theorem Reading.Moves.exists_handed {reading : Reading} {answer : reading.Answer} {i j : Nat}
    (h : reading.Moves (tokens source) body.length i answer j) (hi : i ≤ body.length) :
    ∃ ends, (0 < ends → j = body.length) ∧
      body.take i ++ reading.handed answer = body.take j ++ List.replicate ends last := by
  cases reading with
  | next =>
    obtain ⟨hanswer, rfl⟩ := h
    by_cases hlt : i < body.length
    · rw [Nat.min_eq_left hi] at hanswer
      refine ⟨0, by simp, ?_⟩
      rw [Nat.min_eq_left hlt, List.replicate_zero, List.append_nil]
      exact take_append_getElem htokens hlt hanswer
    · -- at the end, the end is handed out once more
      obtain rfl : i = body.length := by omega
      rw [Nat.min_self, htokens, List.getElem?_concat_length] at hanswer
      refine ⟨1, by omega, ?_⟩
      rw [Option.some.inj hanswer, Nat.min_eq_right (Nat.le_succ _)]
      rfl
  | next? =>
    obtain ⟨rfl, rfl⟩ := h
    refine ⟨0, by simp, ?_⟩
    rw [List.replicate_zero, List.append_nil]
    by_cases hlt : i < body.length
    · rw [if_pos hlt, Nat.min_eq_left hlt, htokens, List.getElem?_append_left hlt,
        List.take_add_one]
      rfl
    · -- at the end, nothing is handed out
      obtain rfl : i = body.length := by omega
      rw [if_neg hlt, Nat.min_eq_right (Nat.le_succ _)]
      exact List.append_nil _
  | toEnd =>
    obtain ⟨rfl, rfl⟩ := h
    refine ⟨1, fun _ => rfl, ?_⟩
    show body.take i ++ (tokens source).drop i = _
    rw [drop_tokens htokens hi, ← List.append_assoc, List.take_append_drop, List.take_length]
    rfl
  | beforeEnd =>
    obtain ⟨rfl, rfl⟩ := h
    refine ⟨0, by simp, ?_⟩
    show body.take i ++ ((tokens source).take body.length).drop i = _
    rw [take_tokens htokens, List.take_append_drop, List.take_length, List.replicate_zero,
      List.append_nil]

/-- What is handed out along readings are the tokens from where they start on, in order, and then
the end as often as it is asked for. -/
theorem exists_handedOut_eq {i : Nat} {cursor : Cursor} {readings : List Reading}
    (h : Serves source body.length i cursor readings) (hi : i ≤ body.length) :
    ∃ j ends, i ≤ j ∧ j ≤ body.length ∧ (0 < ends → j = body.length) ∧
      body.take i ++ handedOut cursor readings = body.take j ++ List.replicate ends last := by
  induction h with
  | done => exact ⟨_, 0, Nat.le_refl _, hi, by simp, rfl⟩
  | @step i j cursor reading later hmoves _ _ ih =>
    obtain ⟨hij, hj⟩ := hmoves.le hi
    obtain ⟨ends, hends, hhanded⟩ := hmoves.exists_handed htokens hi
    obtain ⟨k, more, hjk, hk, hmore, hlater⟩ := ih hj
    rw [handedOut, ← List.append_assoc, hhanded]
    cases ends with
    | zero =>
      rw [List.replicate_zero, List.append_nil]
      exact ⟨k, more, hij.trans hjk, hk, hmore, hlater⟩
    | succ ends =>
      -- once the end has been handed out, nothing else is any more
      obtain rfl := hends (Nat.succ_pos ends)
      obtain rfl := Nat.le_antisymm hk hjk
      refine ⟨body.length, ends + 1 + more, hi, hj, fun _ => rfl, ?_⟩
      rw [List.append_cancel_left hlater, List.append_assoc, List.replicate_append_replicate]

end Tokens

/-! ## Together -/

/-- Whichever way a cursor is asked, and however the ways are mixed, its answers are taken from the
tokens of the text at one index that starts at the first token and does not go beyond the end: the
next token moves it by one, and everything that is left moves it to the end. Each answer leaves the
notices of the tokens that it hands out. All that is handed out are the first tokens of the text,
each of them once and in order, and behind all of them the one token that stands for the end, again
and again. To ask for everything in front of the end is to ask for the next token until there is
none. -/
theorem readings_share_tokens (source : String) (readings : List Reading) :
    (∃ body last, tokens source = body ++ [last] ∧ last.kind = .endOfText ∧
      Serves source body.length 0 (.ofText source) readings ∧
      ∃ j ends, j ≤ body.length ∧ (0 < ends → j = body.length) ∧
        handedOut (.ofText source) readings = body.take j ++ List.replicate ends last) ∧
    ∀ cursor : Cursor, cursor.beforeEnd = cursor.next?.andThen fun
      | none, state => .stay state []
      | some token, state => state.beforeEnd.map (token :: ·) := by
  obtain ⟨last, htokens⟩ := exists_tokens_eq source
  have hserves := serves_pass htokens 0 readings
  rw [Nat.zero_min] at hserves
  obtain ⟨j, ends, -, hj, hends, hhanded⟩ := exists_handedOut_eq htokens hserves (Nat.zero_le _)
  exact ⟨⟨_, last, htokens, (kinds_of_tokens htokens).2, hserves, j, ends, hj, hends, hhanded⟩,
    Cursor.beforeEnd_eq⟩

/-- The end is handed out once by itself, and once more behind nothing. -/
example : handedOut (.ofText "a @ ") [.next?, .beforeEnd, .next, .toEnd] =
    [⟨.identifier, "a", ⟨1, 1⟩⟩, ⟨.illegal, "@", ⟨1, 3⟩⟩, .endAt ⟨1, 5⟩, .endAt ⟨1, 5⟩] := by
  decide +kernel

end Macaque

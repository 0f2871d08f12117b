import Macaque.Proofs.Strays
import Mathlib.Data.List.GetD

/-!
# Tokens without end

A cursor that has reached the end reads the end again and again, always at the same place. Read one
by one, the tokens of a source text are therefore an endless stream: the tokens of the text, the
last of which is repeated for ever.

## Architecture

- **Stream**: `stream` is read off the list of tokens, without a cursor; what is repeated leaves no
  notices (`strays_stream`)
- **Passing tokens**: `Cursor.pass` reads tokens and throws them away; by `Cursor.pass_add` they may
  be passed in two goes
- **Reading on**: `Cursor.next_pass` says that the token that comes next is the next one of the
  stream, `notices_pass_ofText` that what was left before are the notices of the tokens passed
-/

namespace Macaque

/-! ## Stream -/

/-- The tokens of a source text, of which the last one, the end, is repeated for ever -/
def stream (source : String) (i : Nat) : Token :=
  (tokens source).getD i ((tokens source).getLast (tokens_ne_nil source))

theorem stream_of_lt {source : String} {i : Nat} (h : i < (tokens source).length) :
    stream source i = (tokens source)[i] :=
  List.getD_eq_getElem _ _ h

/-- Behind the other tokens of the text nothing but the last one is repeated. -/
theorem stream_eq_last {source : String} {body : List Token} {last : Token}
    (htokens : tokens source = body ++ [last]) {i : Nat} (hi : body.length ≤ i) :
    stream source i = last := by
  simp only [stream, htokens, List.getLast_append_singleton]
  rw [List.getD_append_right _ _ _ _ hi]
  cases i - body.length <;> rfl

/-- Behind the tokens of the text nothing but the end is repeated. -/
theorem stream_of_ge {source : String} {i : Nat} (h : (tokens source).length ≤ i) :
    (stream source i).kind = .endOfText := by
  rw [stream, List.getD_eq_default _ _ h]
  exact (kinds_of_tokens (List.dropLast_append_getLast _).symm).2

/-- Nothing comes after the end. -/
theorem length_tokens_le {source : String} {i : Nat} (h : (stream source i).kind = .endOfText) :
    (tokens source).length ≤ i + 1 := by
  by_contra hlt
  rw [stream_of_lt (by omega)] at h
  exact kind_ne_endOfText_of_lt (by omega) h

/-- The end leaves no notices, however often it is repeated. -/
theorem strays_stream (source : String) (n : Nat) :
    strays ((List.range n).map (stream source)) = strays ((tokens source).take n) := by
  induction n with
  | zero => rfl
  | succ n ih =>
    rw [List.range_succ, List.map_append, strays_append, ih, List.take_add_one, strays_append]
    by_cases hlt : n < (tokens source).length
    · rw [List.getElem?_eq_getElem hlt, ← stream_of_lt hlt]
      rfl
    · have hend := stream_of_ge (Nat.le_of_not_lt hlt)
      rw [List.getElem?_eq_none (Nat.le_of_not_lt hlt), List.map_singleton,
        strays_of_legal (by simp [hend])]
      rfl

namespace Cursor

/-! ## Passing tokens -/

/-- Reads tokens and throws them away -/
def pass : Nat → Cursor → Step Cursor Unit
  | 0, cursor => .stay cursor ()
  | count + 1, cursor => cursor.next.followedBy (cursor.next.state.pass count)

/-- Tokens may be passed in two goes. -/
theorem pass_add (cursor : Cursor) (m n : Nat) :
    cursor.pass (m + n) = (cursor.pass m).followedBy ((cursor.pass m).state.pass n) := by
  induction m generalizing cursor with
  | zero => rw [Nat.zero_add]; rfl
  | succ m ih =>
    rw [Nat.succ_add, pass, ih]
    simp only [pass, Step.followedBy, List.append_assoc]

theorem state_pass_succ (cursor : Cursor) (n : Nat) :
    (cursor.pass (n + 1)).state = (cursor.pass n).state.next.state := by
  rw [pass_add]
  rfl

theorem notices_pass_succ (cursor : Cursor) (n : Nat) :
    (cursor.pass (n + 1)).notices =
      (cursor.pass n).notices ++ (cursor.pass n).state.next.notices := by
  rw [pass_add]
  simp [pass]

/-! ## Reading on -/

/-- After some tokens comes the next one, or the end once more. -/
theorem next_pass (cursor : Cursor) (n : Nat) :
    (cursor.pass n).state.next.value =
      cursor.toEnd.value.getD n (cursor.toEnd.value.getLast cursor.toEnd_ne_nil) := by
  induction n generalizing cursor with
  | zero =>
    cases hend : cursor.next.value.isEnd with
    | true => simp [toEnd_of_isEnd hend, pass]
    | false => simp [toEnd_of_not_isEnd hend, pass]
  | succ n ih =>
    rw [pass, Step.followedBy_state, ih]
    cases hend : cursor.next.value.isEnd with
    | true =>
      -- the end is read again from behind the end
      have hagain := next_next_of_isEnd hend
      have htoEnd := toEnd_of_isEnd (show cursor.next.state.next.value.isEnd = true by rwa [hagain])
      simp only [htoEnd, toEnd_of_isEnd hend, hagain]
      cases n <;> rfl
    | false => simp [toEnd_of_not_isEnd hend, List.getLast_cons (toEnd_ne_nil _)]

theorem next_pass_ofText (source : String) (n : Nat) :
    ((ofText source).pass n).state.next.value = stream source n :=
  next_pass _ n

/-- Reading all tokens at once leads where reading them one by one does. -/
theorem state_toEnd (cursor : Cursor) :
    cursor.toEnd.state = (cursor.pass cursor.toEnd.value.length).state := by
  simp only [toEnd, List.length_map]
  fun_induction steps cursor with
  | case1 cursor first => rfl
  | case2 cursor first _ ih =>
    obtain ⟨final, hfinal⟩ := Option.isSome_iff_exists.1
      (List.getLast?_isSome.2 first.state.steps_ne_nil)
    rw [List.getLast?_cons, List.length_cons, pass, Step.followedBy_state, ← ih, hfinal]
    rfl

/-- The notices that are left so far are those about the tokens that were passed. -/
theorem notices_pass_ofText (source : String) (n : Nat) :
    ((ofText source).pass n).notices = strays ((List.range n).map (stream source)) := by
  induction n with
  | zero => rfl
  | succ n ih =>
    rw [notices_pass_succ, ih, notices_next, next_pass_ofText, List.range_succ, List.map_append,
      strays_append]
    rfl

theorem notices_pass_tokens (source : String) (n : Nat) :
    ((ofText source).pass n).notices = strays ((tokens source).take n) := by
  rw [notices_pass_ofText, strays_stream]

end Cursor

end Macaque

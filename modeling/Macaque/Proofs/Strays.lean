import Macaque.Proofs.Tokens

/-!
# Characters outside the alphabet

Reading a token leaves a notice exactly if the token is a character outside the alphabet. What any
number of tokens leave is therefore known from the tokens alone, without the cursor that read them.

## Main statements

- `Cursor.notices_next`: what one token leaves when it is read
- `literal_of_illegal`: the text of such a token is the one character that is reported
-/

namespace Macaque

/-- The character that the text of a token begins with -/
def Token.character (token : Token) : Char :=
  token.literal.toList.headD endMark

/-- The notices that are left by some tokens: one for each that is illegal, in order -/
def strays (tokens : List Token) : List Notice :=
  (tokens.filter (·.kind = .illegal)).map fun token => .stray token.character token.location

@[simp] theorem strays_append (first second : List Token) :
    strays (first ++ second) = strays first ++ strays second := by
  simp [strays]

theorem strays_cons (token : Token) (later : List Token) :
    strays (token :: later) = strays [token] ++ strays later :=
  strays_append [token] later

theorem strays_flatMap (tokens : List Token) :
    (tokens.flatMap fun token => strays [token]) = strays tokens := by
  induction tokens with
  | nil => rfl
  | cons token later ih => rw [List.flatMap_cons, ih, ← strays_cons]

theorem strays_of_legal {token : Token} (h : token.kind ≠ .illegal) : strays [token] = [] := by
  simp [strays, h]

theorem level_of_mem_strays {tokens : List Token} {notice : Notice} (h : notice ∈ strays tokens) :
    notice.level = .warn := by
  obtain ⟨token, -, rfl⟩ := List.mem_map.1 h
  rfl

theorem Lexeme.notices_eq_strays (lexeme : Lexeme) (location : Location) :
    lexeme.notices location = strays [lexeme.token location] := by
  cases lexeme with
  | word letters =>
    -- a word is a reserved word or a name
    have hkind : ((word letters).token location).kind ≠ .illegal := by
      simp only [Lexeme.token, kind, Kind.ofWord]
      split <;> simp
    rw [strays_of_legal hkind]
    rfl
  | number digits => rfl
  | symbol s => rfl
  | stray c => simp [notices, strays, Lexeme.token, kind, text, chars, Token.character]

/-- The text of an illegal token is the character that is reported, and nothing else. -/
theorem literal_of_illegal {source : String} {token : Token} (h : token ∈ tokens source)
    (hkind : token.kind = .illegal) : token.literal = String.ofList [token.character] := by
  have hspelled := spelledBy_of_mem_tokens h (by simp [hkind])
  rw [hkind] at hspelled
  generalize htext : token.literal.toList = text at hspelled
  cases hspelled with
  | illegal hstray =>
    rw [← String.toList_inj]
    simp [Token.character, htext]

namespace Cursor

/-- One token leaves what it leaves by itself, wherever it is read. -/
theorem notices_next (cursor : Cursor) : cursor.next.notices = strays [cursor.next.value] := by
  cases hend : cursor.next.value.isEnd with
  | true =>
    rw [strays_of_legal (by simp [of_decide_eq_true hend]), next_of_isEnd hend]
    rfl
  | false =>
    simp only [next] at hend ⊢
    split
    · next h => simp [h, Step.stay, Token.endAt, Token.isEnd] at hend
    · split
      · rfl
      · exact Lexeme.notices_eq_strays _ _

theorem notices_of_mem_steps {cursor : Cursor} {step : Step Cursor Token}
    (h : step ∈ cursor.steps) : step.notices = strays [step.value] := by
  fun_induction steps cursor with
  | case1 cursor first _ =>
    obtain rfl := List.mem_singleton.1 h
    exact cursor.notices_next
  | case2 cursor first _ ih =>
    rcases List.mem_cons.1 h with rfl | hlater
    · exact cursor.notices_next
    · exact ih hlater

/-- All tokens together leave what each of them leaves, in order. -/
theorem notices_toEnd (cursor : Cursor) : cursor.toEnd.notices = strays cursor.toEnd.value := by
  rw [toEnd, ← strays_flatMap, List.flatMap_map]
  exact List.flatMap_congr fun step => notices_of_mem_steps

/-- All that reading tokens leaves are warnings. -/
theorem level_of_mem_toEnd (cursor : Cursor) :
    ∀ notice ∈ cursor.toEnd.notices, notice.level = .warn := by
  rw [notices_toEnd]
  exact fun notice hmem => level_of_mem_strays hmem

end Cursor

end Macaque

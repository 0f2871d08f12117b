import Macaque.Proofs.Sessions
import Macaque.Proofs.Twins

/-!
# Behind the mark

The mark that stands for the end of a text may also stand in a text. What comes behind it there is
hidden: reading stops in front of the mark and never gets past it, although there is more to read.
Whoever reads tokens, reads a program, or runs the command on a file cannot tell whether anything is
hidden, nor what. A session reads every line by itself, so that a mark hides no more than the rest
of its line.

## Architecture

- **Tokens**: `tokens_of_takeWhile` says what the tokens of a text depend on
- **The end**: `Cursor.Ended` is a cursor that gives nothing but the end any more, whichever way it
  is asked; `Cursor.ended_pass` says when it has come to that
- **Files**: what the command writes about a file follows from its tokens (`run_withFile`)
- **Lines**: so does what answers a line (`reply_of_tokens`), and a session answers its lines one by
  one (`transcript_of_reply`)
- **Together**: `nothing_behind_mark`
-/

namespace Macaque

/-! ## Tokens -/

/-- A text with the mark behind it, and another text behind the mark -/
def marked (text hidden : String) : String :=
  text ++ String.ofList [endMark] ++ hidden

/-- The tokens of a text depend on what comes before its mark, and on nothing else. -/
theorem tokens_of_takeWhile {first second : String}
    (h : first.toList.takeWhile (· ≠ endMark) = second.toList.takeWhile (· ≠ endMark)) :
    tokens first = tokens second := by
  obtain ⟨layout, hlayout⟩ := exists_layout_source first
  rw [tokens_eq_place hlayout, tokens_eq_place (hlayout.trans h)]

theorem takeWhile_marked (text hidden : String) :
    (marked text hidden).toList.takeWhile (· ≠ endMark) =
      text.toList.takeWhile (· ≠ endMark) := by
  rw [marked, String.toList_append, String.toList_append, String.toList_ofList, List.append_assoc,
    List.takeWhile_append]
  split
  · next hall =>
    have hnone : ([endMark] ++ hidden.toList).takeWhile (· ≠ endMark) = [] := by simp
    rw [hnone, List.append_nil, (List.takeWhile_sublist _).eq_of_length hall]
  · rfl

theorem tokens_marked (text hidden : String) : tokens (marked text hidden) = tokens text :=
  tokens_of_takeWhile (takeWhile_marked text hidden)

/-- A line feed at the end adds no token, but the end of the text moves. -/
theorem tokens_feed (text : String) :
    (tokens (text ++ "\n")).dropLast = (tokens text).dropLast := by
  by_cases hmark : endMark ∈ text.toList
  · -- the line feed is hidden
    have hsame : (text ++ "\n").toList.takeWhile (· ≠ endMark) =
        text.toList.takeWhile (· ≠ endMark) := by
      rw [String.toList_append, List.takeWhile_append, if_neg]
      intro hall
      rw [← (List.takeWhile_sublist _).eq_of_length hall] at hmark
      have := List.mem_takeWhile_imp hmark
      simp at this
    rw [tokens_of_takeWhile hsame]
  · obtain ⟨layout, hlayout⟩ := exists_layout text.toList hmark
    have hfeed : tokens "\n" = [.endAt ⟨2, 1⟩] := by decide +kernel
    have hjoined : tokens (text ++ "\n") =
        place (Location.start.after layout.lead) layout.tiles ++
          (tokens "\n").map (Token.shift (Location.start.after text.toList)) := by
      apply tokens_append hlayout
      intro last _
      -- a blank ends the last lexeme, be it one of its own or the line feed
      apply last.lexeme.endsBefore_of_isBlank
      intro c hc
      rcases List.mem_append.1 (List.mem_of_mem_head? hc) with hgap | hfeed
      · exact last.blank c hgap
      · obtain rfl := List.mem_singleton.1 hfeed
        rfl
    rw [hjoined, hfeed, tokens_eq_of_layout hlayout, List.dropLast_concat]
    exact List.dropLast_concat

/-! ## The end -/

namespace Cursor

/-- A cursor that gives nothing but the end any more, whichever way it is asked, and stays there -/
structure Ended (cursor : Cursor) (last : Token) : Prop where
  next : cursor.next = .stay cursor last
  next? : cursor.next? = .stay cursor none
  toEnd : cursor.toEnd = .stay cursor [last]

/-- Once it has read the end, a cursor has come to it for good. -/
theorem ended_next {cursor : Cursor} (h : cursor.next.value.isEnd = true) :
    cursor.next.state.Ended cursor.next.value := by
  have hstay : cursor.next = .stay cursor.next.state cursor.next.value := by
    rw [next_of_isEnd h]
    rfl
  have hagain : cursor.next.state.next = .stay cursor.next.state cursor.next.value :=
    (next_next_of_isEnd h).trans hstay
  refine ⟨hagain, ?_, ?_⟩
  · rw [Cursor.next?, hagain, Step.map, Step.stay_value, if_pos h]
    rfl
  · have hsteps : cursor.next.state.steps = [.stay cursor.next.state cursor.next.value] := by
      rw [steps_of_isEnd (by rwa [hagain]), hagain]
    simp only [Cursor.toEnd, hsteps]
    rfl

/-- A cursor has come to the end when the tokens of the text have been read from it, the last one
too, however often that was read. -/
theorem ended_pass {source : String} {body : List Token} {last : Token}
    (htokens : tokens source = body ++ [last]) {n : Nat} (hn : body.length < n) :
    ((ofText source).pass n).state.Ended last := by
  cases n with
  | zero => exact absurd hn (Nat.not_lt_zero _)
  | succ n =>
    have hlast : ((ofText source).pass n).state.next.value = last :=
      (next_pass_ofText source n).trans (stream_eq_last htokens (Nat.lt_succ_iff.1 hn))
    have hend : ((ofText source).pass n).state.next.value.isEnd = true := by
      rw [hlast]
      exact decide_eq_true (kinds_of_tokens htokens).2
    rw [state_pass_succ]
    exact hlast ▸ ended_next hend

theorem ended_toEnd {source : String} {body : List Token} {last : Token}
    (htokens : tokens source = body ++ [last]) : (ofText source).toEnd.state.Ended last := by
  rw [state_toEnd]
  apply ended_pass htokens
  show body.length < (tokens source).length
  rw [htokens, List.length_append]
  exact Nat.lt_succ_self _

end Cursor

/-! ## Files -/

namespace Command

/-- The setting in which a path leads to a file with a text -/
def Setting.withFile (setting : Setting) (path source : String) : Setting :=
  { setting with entry := Function.update setting.entry path (.file (encode source)) }

/-- A run depends on the arguments and on what comes of the options that they stand for. -/
theorem run_of_perform {first second : Setting} (hprogram : first.program = second.program)
    (harguments : first.arguments = second.arguments)
    (hperform : ∀ options, perform first options = perform second options) :
    run first = run second := by
  simp only [run, hprogram, harguments, hperform]

section Files

variable {first second : String} (htokens : tokens first = tokens second)
include htokens

theorem check_of_tokens (options : Options) (path : String) :
    check options path first = check options path second := by
  obtain ⟨hvalue, hnotices⟩ := parse_of_tokens_eq htokens
  simp only [check, hvalue, hnotices]

theorem notices_of_tokens :
    (Cursor.ofText first).toEnd.notices = (Cursor.ofText second).toEnd.notices := by
  rw [Cursor.notices_toEnd, Cursor.notices_toEnd]
  exact congrArg strays htokens

theorem list_of_tokens (options : Options) : list options first = list options second := by
  have hvalue : (Cursor.ofText first).toEnd.value = (Cursor.ofText second).toEnd.value := htokens
  simp only [list, hvalue, notices_of_tokens htokens]

/-- Files whose texts have the same tokens are not told apart, whatever is done with them. -/
theorem run_withFile (setting : Setting) (path : String) :
    run (setting.withFile path first) = run (setting.withFile path second) := by
  -- the two settings differ in what one path leads to
  have hentry (other : String) (next : String → Outcome) (hnext : next first = next second) :
      withSource other ((setting.withFile path first).entry other) next =
        withSource other ((setting.withFile path second).entry other) next := by
    by_cases hpath : other = path
    · subst hpath
      simp only [Setting.withFile, Function.update_self, withSource, decode_encode, hnext]
    · simp only [Setting.withFile, Function.update_of_ne hpath]
  refine run_of_perform rfl rfl fun options => ?_
  unfold perform
  cases options.mode with
  | session => rfl
  | check other => exact hentry other _ (check_of_tokens htokens _ _)
  | list other => exact hentry other _ (list_of_tokens htokens _)

end Files

end Command

/-! ## Lines -/

namespace Session

/-- A line is answered by its tokens, so that lines with the same ones, the end aside, are not told
apart. -/
theorem reply_of_tokens (coloured : Bool) {first second : String}
    (htokens : (tokens first).dropLast = (tokens second).dropLast) :
    reply coloured (encode first) = reply coloured (encode second) := by
  simp only [reply, decode_encode, answers_eq, htokens]

/-- A session answers its lines one by one: one of them may be replaced by another that is answered
in the same way. -/
theorem ofLines_of_reply (coloured : Bool) {first second : List UInt8}
    (hreply : reply coloured first = reply coloured second) (before after : List (List UInt8)) :
    ofLines coloured (before ++ first :: after) = ofLines coloured (before ++ second :: after) := by
  induction before with
  | nil => simp only [List.nil_append, ofLines, hreply]
  | cons line before ih => simp only [List.cons_append, ofLines, ih]

theorem transcript_of_reply (coloured : Bool) {first second : String} {before : List UInt8}
    (hfirst : '\n' ∉ first.toList) (hsecond : '\n' ∉ second.toList) (hbefore : EndsLine before)
    (hreply : reply coloured (encode (first ++ "\n")) = reply coloured (encode (second ++ "\n")))
    (after : List UInt8) :
    transcript coloured (before ++ encode (first ++ "\n") ++ after) =
      transcript coloured (before ++ encode (second ++ "\n") ++ after) := by
  have hlines (run : String) (hrun : '\n' ∉ run.toList) :
      lines (before ++ encode (run ++ "\n") ++ after) =
        lines before ++ encode (run ++ "\n") :: lines after := by
    rw [List.append_assoc, lines_append hbefore, lines_encode_append hrun]
  rw [transcript, transcript, hlines first hfirst, hlines second hsecond]
  exact ofLines_of_reply coloured hreply _ _

end Session

/-- The input of a run matters only to a session, and there only by its transcript. -/
theorem Command.run_of_transcript {first second : List UInt8}
    (htranscript : ∀ coloured,
      Session.transcript coloured first = Session.transcript coloured second)
    (setting : Setting) :
    run { setting with input := first } = run { setting with input := second } := by
  apply run_of_perform
  · rfl
  · rfl
  · intro options
    unfold perform
    cases options.mode with
    | session => simp only [converse, htranscript]
    | check path => rfl
    | list path => rfl

/-! ## Together -/

/-- Nothing behind the mark can be told. The tokens are those of the text in front of it, and so is
what is remarked on while they are read; a cursor that has read the end never gets past it. The same
program is read, with the same diagnostics, and the same is remarked on. A run on a file with such a
text writes what it writes without the hidden part, and ends with the same status. In a session,
where the mark hides the rest of its line only, that part of a line changes nothing. -/
theorem nothing_behind_mark (text hidden : String) :
    tokens (marked text hidden) = tokens text ∧
      (Cursor.ofText (marked text hidden)).toEnd.notices = (Cursor.ofText text).toEnd.notices ∧
      (∃ body last, tokens text = body ++ [last] ∧ last.kind = .endOfText ∧
        (Cursor.ofText (marked text hidden)).toEnd.state.Ended last ∧
        ∀ n, body.length < n → ((Cursor.ofText (marked text hidden)).pass n).state.Ended last) ∧
      (parse (marked text hidden)).value = (parse text).value ∧
      (parse (marked text hidden)).notices = (parse text).notices ∧
      (∀ (setting : Command.Setting) (path : String),
        Command.run (setting.withFile path (marked text hidden)) =
          Command.run (setting.withFile path text)) ∧
      ('\n' ∉ text.toList → '\n' ∉ hidden.toList →
        ∀ before after : List UInt8, EndsLine before →
          (∀ coloured, Session.transcript coloured
              (before ++ encode (marked text hidden ++ "\n") ++ after) =
            Session.transcript coloured (before ++ encode (text ++ "\n") ++ after)) ∧
          ∀ setting : Command.Setting,
            Command.run { setting with
              input := before ++ encode (marked text hidden ++ "\n") ++ after } =
            Command.run { setting with input := before ++ encode (text ++ "\n") ++ after }) := by
  have htokens := tokens_marked text hidden
  obtain ⟨hvalue, hnotices⟩ := parse_of_tokens_eq htokens
  refine ⟨htokens, Command.notices_of_tokens htokens, ?_, hvalue, hnotices, fun setting path =>
    Command.run_withFile htokens setting path, fun htext hhidden before after hbefore => ?_⟩
  · obtain ⟨last, hlast⟩ := exists_tokens_eq text
    have hmarked := htokens.trans hlast
    exact ⟨_, last, hlast, (kinds_of_tokens hlast).2, Cursor.ended_toEnd hmarked,
      fun n hn => Cursor.ended_pass hmarked hn⟩
  · have hmarked : '\n' ∉ (marked text hidden).toList := by
      simp [marked, htext, hhidden, endMark]
    -- the line feed at the end of the line is hidden too, or else it is a blank
    have hreply (coloured : Bool) : Session.reply coloured (encode (marked text hidden ++ "\n")) =
        Session.reply coloured (encode (text ++ "\n")) := by
      apply Session.reply_of_tokens
      rw [tokens_feed, tokens_feed, htokens]
    have htranscript (coloured : Bool) :=
      Session.transcript_of_reply coloured hmarked htext hbefore (hreply coloured) after
    exact ⟨htranscript, Command.run_of_transcript htranscript⟩

/-- What is hidden would be a name and an illegal character. The line is answered as if neither was
there, and so is the one behind it. -/
theorem nothing_behind_mark_line :
    '\n' ∉ "é".toList ∧ '\n' ∉ "b @".toList ∧ EndsLine (encode "a\n") ∧
      (Session.transcript false
          (encode "a\n" ++ encode (marked "é" "b @" ++ "\n") ++ encode "c")).whole =
        { output := encode (">> IDENT     \"a\"\n>> ILLEGAL   \"é\"\n>> IDENT     \"c\"\n>> \n"),
          notices := [.stray 'é' ⟨1, 1⟩],
          failure := none } := by
  obtain ⟨-, -, -, -, -, -, hsession⟩ := nothing_behind_mark "é" "b @"
  have htext : '\n' ∉ "é".toList := by decide
  have hhidden : '\n' ∉ "b @".toList := by decide
  have hbefore : EndsLine (encode "a\n") := by decide +kernel
  refine ⟨htext, hhidden, hbefore, ?_⟩
  rw [(hsession htext hhidden _ _ hbefore).1 false]
  decide +kernel

end Macaque

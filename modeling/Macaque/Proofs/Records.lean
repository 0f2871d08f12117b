import Macaque.Proofs.Operations

/-!
# The log of a text that is read

Two readers leave notices. The one that reads tokens warns of each character outside the alphabet,
as soon as it is read; the one that reads statements tells what it decides, when it does. The second
is always one token behind the first, so that the log is a merge of two lists which the indices of
the decisions determine.

## Architecture

- **Records**: `Notice.record` is a notice as the log has it
- **Decisions**: `Decides` says what is decided along a row of tokens, and at which indices
- **Merged logs**: `merged` puts warnings and decisions together; `exists_split_of_merged` says what
  comes before and after each decision
- **Runs**: `DecidesFrom.step` is one finding, `exists_decidesFrom` the whole run, by induction on
  what a window has left to read
- **Texts**: `records_of_parse`
-/

namespace Macaque

/-! ## Records -/

/-- A notice as the log has it -/
def Notice.record (notice : Notice) : Level × String :=
  (notice.level, notice.message)

/-- The record of an illegal token -/
def Token.warning (token : Token) : Level × String :=
  (.warn,
    "illegal character " ++ Text.quotedChar token.character ++ " at " ++ token.location.render)

/-- The records of the illegal ones among some tokens, in order -/
def warnings (tokens : List Token) : List (Level × String) :=
  (tokens.filter (·.kind = .illegal)).map Token.warning

theorem map_record_strays (tokens : List Token) :
    (strays tokens).map Notice.record = warnings tokens := by
  rw [strays, List.map_map]
  rfl

/-! ## Decisions -/

/-- What the reader of statements decides, and the index of its current token when it does -/
inductive Decision where
  /-- A token that begins no statement is skipped -/
  | skips (index : Nat) (token : Token)
  /-- A statement is dropped -/
  | drops (index : Nat) (diagnostic : Diagnostic)

namespace Decision

def index : Decision → Nat
  | skips index _ => index
  | drops index _ => index

def notice : Decision → Notice
  | skips _ token => .skipped token
  | drops _ diagnostic => .dropped diagnostic

/-- The record of a decision -/
def record : Decision → Level × String
  | skips _ token =>
    (.debug,
      "skipping " ++ token.describe ++ " at " ++ token.location.render ++ ": not a statement")
  | drops _ diagnostic => (.debug, "dropping statement: " ++ diagnostic.render)

def diagnostic? : Decision → Option Diagnostic
  | skips _ _ => none
  | drops _ diagnostic => some diagnostic

theorem record_notice (decision : Decision) : decision.notice.record = decision.record := by
  cases decision <;> rfl

theorem level_notice (decision : Decision) : decision.notice.level = .debug := by
  cases decision <;> rfl

end Decision

/-- The decision that a finding is, if it is one -/
def Finding.decision? (index : Nat) : Finding → Option Decision
  | read _ => none
  | skipped token => some (.skips index token)
  | dropped diagnostic => some (.drops index diagnostic)

/-- Where no statement begins, the window does not move. -/
theorem StatementMove.eq_of_none {row : Nat → Token} {i j : Nat}
    (h : StatementMove row i (.ok none) j) : j = i := by
  generalize hresult : Except.ok none = result at h
  cases h with
  | letting _ hmove => cases hmove <;> simp [Except.map] at hresult
  | returning _ hmove => cases hmove; simp [Except.map] at hresult
  | other => rfl

/-- What is decided from the index `i` of a row of tokens on, where a statement may begin. At the
token behind the one at which reading a statement ends, the next one may begin. -/
inductive Decides (row : Nat → Token) : Nat → List Decision → Prop where
  | done {i : Nat} (hend : (row i).kind = .endOfText) : Decides row i []
  /-- A statement is no decision -/
  | reads {i j : Nat} {statement : Statement} {later : List Decision}
      (hnot : (row i).kind ≠ .endOfText) (hmove : StatementMove row i (.ok (some statement)) j)
      (hlater : Decides row (j + 1) later) : Decides row i later
  | skips {i : Nat} {later : List Decision} (hnot : (row i).kind ≠ .endOfText)
      (hmove : StatementMove row i (.ok none) i) (hlater : Decides row (i + 1) later) :
      Decides row i (.skips i (row i) :: later)
  | drops {i j : Nat} {diagnostic : Diagnostic} {later : List Decision}
      (hnot : (row i).kind ≠ .endOfText) (hmove : StatementMove row i (.error diagnostic) j)
      (hlater : Decides row (j + 1) later) : Decides row i (.drops j diagnostic :: later)

namespace Decides

variable {row : Nat → Token} {i : Nat} {decisions : List Decision}

theorem le_index (h : Decides row i decisions) : ∀ decision ∈ decisions, i ≤ decision.index := by
  induction h with
  | done => simp
  | reads _ hmove _ ih =>
    intro decision hmem
    exact hmove.le.trans (Nat.le_of_succ_le (ih decision hmem))
  | skips _ _ _ ih =>
    rw [List.forall_mem_cons]
    exact ⟨Nat.le_refl _, fun decision hmem => Nat.le_of_succ_le (ih decision hmem)⟩
  | drops _ hmove _ ih =>
    rw [List.forall_mem_cons]
    exact ⟨hmove.le, fun decision hmem => hmove.le.trans (Nat.le_of_succ_le (ih decision hmem))⟩

/-- Decisions are taken in the order of the tokens. -/
theorem pairwise_index (h : Decides row i decisions) :
    decisions.Pairwise (·.index < ·.index) := by
  induction h with
  | done => exact .nil
  | reads _ _ _ ih => exact ih
  | skips _ _ hlater ih => exact .cons hlater.le_index ih
  | drops _ _ hlater ih => exact .cons hlater.le_index ih

/-- What is found at the index `i` is decided in front of what is decided later. -/
theorem step {j : Nat} {result : Except Diagnostic (Option Statement)}
    (hnot : (row i).kind ≠ .endOfText) (hmove : StatementMove row i result j)
    (hlater : Decides row (j + 1) decisions) :
    Decides row i (((Finding.ofStatement (row i) result).decision? j).toList ++ decisions) := by
  match result with
  | .ok (some statement) => exact .reads hnot hmove hlater
  | .ok none =>
    obtain rfl := hmove.eq_of_none
    exact .skips hnot hmove hlater
  | .error diagnostic => exact .drops hnot hmove hlater

end Decides

/-! ## Merged logs -/

/-- The notices about the tokens from the index `m` up to the index `n` -/
def between (tokens : List Token) (m n : Nat) : List Notice :=
  strays ((tokens.drop m).take (n - m))

/-- What is left when the tokens in front of the index `m` have been read already: the notices about
the token after that of a decision come before the decision, all later ones after it. -/
def merged (tokens : List Token) : Nat → List Decision → List Notice
  | m, [] => strays (tokens.drop m)
  | m, decision :: later =>
    between tokens m (decision.index + 2) ++
      decision.notice :: merged tokens (decision.index + 2) later

/-- Decisions in their order, none of which is taken before the tokens in front of `m` are read -/
structure Ascending (m : Nat) (decisions : List Decision) : Prop where
  le : ∀ decision ∈ decisions, m ≤ decision.index + 2
  pairwise : decisions.Pairwise (·.index < ·.index)

theorem Ascending.behind {m : Nat} {decision : Decision} {later : List Decision}
    (earlier : List Decision) (h : Ascending m (earlier ++ decision :: later)) :
    Ascending (decision.index + 2) later := by
  obtain ⟨hbefore, hlater⟩ := List.pairwise_cons.1 (List.pairwise_append.1 h.pairwise).2.1
  exact ⟨fun other hmem => Nat.add_le_add_right (hbefore other hmem).le 2, hlater⟩

section Merged

variable {tokens : List Token} {m n l : Nat}

theorem strays_take_append_between (h : m ≤ n) :
    strays (tokens.take m) ++ between tokens m n = strays (tokens.take n) := by
  rw [between, ← strays_append, ← List.take_add, Nat.add_sub_cancel' h]

theorem between_append_strays_drop (h : m ≤ n) :
    between tokens m n ++ strays (tokens.drop n) = strays (tokens.drop m) := by
  have hdrop : tokens.drop n = (tokens.drop m).drop (n - m) := by
    rw [List.drop_drop, Nat.add_sub_cancel' h]
  rw [between, hdrop, ← strays_append, List.take_append_drop]

theorem between_append (hmn : m ≤ n) (hnl : n ≤ l) :
    between tokens m n ++ between tokens n l = between tokens m l := by
  have hdrop : tokens.drop n = (tokens.drop m).drop (n - m) := by
    rw [List.drop_drop, Nat.add_sub_cancel' hmn]
  have hlength : l - m = (n - m) + (l - n) := by omega
  rw [between, between, between, hdrop, hlength, List.take_add, strays_append]

/-- Tokens may be read in front of the first decision. -/
theorem between_append_merged {decisions : List Decision} (h : m ≤ n)
    (hfrom : ∀ decision ∈ decisions, n ≤ decision.index + 2) :
    between tokens m n ++ merged tokens n decisions = merged tokens m decisions := by
  cases decisions with
  | nil => exact between_append_strays_drop h
  | cons decision later =>
    rw [merged, merged, ← List.append_assoc, between_append h (hfrom decision List.mem_cons_self)]

/-- What is found at the index `l` leaves its notice in front of those that come later. -/
theorem between_append_finding {later : List Decision} (finding : Finding) (h : m ≤ l + 2)
    (hfrom : ∀ decision ∈ later, l + 2 ≤ decision.index + 2) :
    between tokens m (l + 2) ++ finding.notices ++ merged tokens (l + 2) later =
      merged tokens m ((finding.decision? l).toList ++ later) := by
  cases finding with
  | read statement =>
    rw [Finding.notices, List.append_nil]
    exact between_append_merged h hfrom
  | skipped token =>
    rw [List.append_assoc]
    rfl
  | dropped diagnostic =>
    rw [List.append_assoc]
    rfl

theorem filter_warn_strays (tokens : List Token) :
    (strays tokens).filter (·.level = .warn) = strays tokens :=
  List.filter_eq_self.2 fun _ hmem => by simp [level_of_mem_strays hmem]

theorem filter_debug_strays (tokens : List Token) :
    (strays tokens).filter (·.level = .debug) = [] :=
  List.filter_eq_nil_iff.2 fun _ hmem => by simp [level_of_mem_strays hmem]

/-- A decision and what comes before it add their own share to the warnings and to the decisions. -/
theorem filter_warn_between (decision : Decision) (rest : List Notice) :
    (between tokens m n ++ decision.notice :: rest).filter (·.level = .warn) =
      between tokens m n ++ rest.filter (·.level = .warn) := by
  rw [List.filter_append, between, filter_warn_strays,
    List.filter_cons_of_neg (by simp [decision.level_notice])]

theorem filter_debug_between (decision : Decision) (rest : List Notice) :
    (between tokens m n ++ decision.notice :: rest).filter (·.level = .debug) =
      decision.notice :: rest.filter (·.level = .debug) := by
  rw [List.filter_append, between, filter_debug_strays, List.nil_append,
    List.filter_cons_of_pos (by simp [decision.level_notice])]

/-- The decisions among merged notices are those that were merged in, in their order. -/
theorem filter_debug_merged (decisions : List Decision) :
    (merged tokens m decisions).filter (·.level = .debug) = decisions.map Decision.notice := by
  induction decisions generalizing m with
  | nil => exact filter_debug_strays _
  | cons decision later ih =>
    rw [merged, filter_debug_between, ih, List.map_cons]

/-- The warnings among merged notices are those about all tokens that are left, in their order. -/
theorem filter_warn_merged {decisions : List Decision} (h : Ascending m decisions) :
    (merged tokens m decisions).filter (·.level = .warn) = strays (tokens.drop m) := by
  induction decisions generalizing m with
  | nil => exact filter_warn_strays _
  | cons decision later ih =>
    rw [merged, filter_warn_between, ih (h.behind []),
      between_append_strays_drop (h.le decision List.mem_cons_self)]

/-- A decision that comes somewhere behind some warnings is the next one, or comes behind that. -/
private theorem append_cons_cases {warned before rest after : List Notice} {next notice : Notice}
    (hwarned : ∀ notice ∈ warned, notice.level = .warn) (hlevel : notice.level = .debug)
    (h : warned ++ next :: rest = before ++ notice :: after) :
    (before = warned ∧ notice = next ∧ after = rest) ∨
      ∃ middle, before = warned ++ next :: middle ∧ rest = middle ++ notice :: after := by
  rcases List.append_eq_append_iff.1 h with ⟨more, rfl, hrest⟩ | ⟨more, rfl, hrest⟩
  · cases more with
    | nil =>
      obtain ⟨rfl, rfl⟩ := List.cons.inj hrest
      exact .inl ⟨List.append_nil _, rfl, rfl⟩
    | cons first more =>
      obtain ⟨rfl, rfl⟩ := List.cons.inj hrest
      exact .inr ⟨more, rfl, rfl⟩
  · cases more with
    | nil =>
      obtain ⟨rfl, rfl⟩ := List.cons.inj hrest
      exact .inl ⟨(List.append_nil _).symm, rfl, rfl⟩
    | cons first more =>
      -- the decision would be one of the warnings
      obtain ⟨rfl, -⟩ := List.cons.inj hrest
      simp [hwarned notice (by simp)] at hlevel

/-- In front of a decision are the warnings up to the token after that of the decision, and the
decisions before it. -/
theorem exists_split_of_merged {decisions : List Decision} {before after : List Notice}
    {notice : Notice} (hascending : Ascending m decisions)
    (h : merged tokens m decisions = before ++ notice :: after) (hlevel : notice.level = .debug) :
    ∃ earlier decision later, decisions = earlier ++ decision :: later ∧
      notice = decision.notice ∧
      before.filter (·.level = .debug) = earlier.map Decision.notice ∧
      before.filter (·.level = .warn) = between tokens m (decision.index + 2) ∧
      after = merged tokens (decision.index + 2) later := by
  induction decisions generalizing m before with
  | nil =>
    have hmem : notice ∈ strays (tokens.drop m) := by
      rw [merged] at h
      simp [h]
    simp [level_of_mem_strays hmem] at hlevel
  | cons decision later ih =>
    have hlater := hascending.behind []
    have hwarned : ∀ other ∈ between tokens m (decision.index + 2), other.level = .warn :=
      fun _ => level_of_mem_strays
    -- the decision is this one, or it is found among the notices behind this one
    rcases append_cons_cases hwarned hlevel h with
      ⟨rfl, rfl, rfl⟩ | ⟨more, rfl, hrest⟩
    · exact ⟨[], decision, later, rfl, rfl, filter_debug_strays _, filter_warn_strays _, rfl⟩
    · obtain ⟨earlier, found, rest, rfl, hnotice, hdebug, hwarn, hafter⟩ :=
        ih hlater hrest
      refine ⟨decision :: earlier, found, rest, rfl, hnotice, ?_, ?_, hafter⟩
      · rw [filter_debug_between, hdebug, List.map_cons]
      · rw [filter_warn_between, hwarn, between_append (hascending.le decision List.mem_cons_self)
          (hlater.le found (by simp))]

end Merged

/-! ## Runs -/

theorem Leads.notices_eq_between {source : String} {n m : Nat} {α : Type} {step : Step Window α}
    (h : Leads (.ofText source) n m step) (hle : n ≤ m) :
    step.notices = between (tokens source) (n + 2) (m + 2) := by
  have hnotices := h.notices
  rw [Cursor.notices_pass_tokens, Cursor.notices_pass_tokens,
    ← strays_take_append_between (Nat.add_le_add_right hle 2)] at hnotices
  exact List.append_cancel_left hnotices

/-- What a window decides from the index `n` on, and what it leaves and finds meanwhile -/
structure DecidesFrom (source : String) (n : Nat) (decisions : List Decision) : Prop where
  decides : Decides (stream source) n decisions
  notices : ((Cursor.ofText source).windowAt n).findings.notices =
    merged (tokens source) (n + 2) decisions
  diagnostics : ((Cursor.ofText source).windowAt n).findings.value.filterMap Finding.diagnostic? =
    decisions.filterMap Decision.diagnostic?

namespace DecidesFrom

variable {source : String} {n j : Nat}

theorem done (hend : (stream source n).kind = .endOfText) : DecidesFrom source n [] := by
  have hcurrent : ((Cursor.ofText source).windowAt n).current.isEnd = true := by
    rw [Cursor.windowAt_current, row_ofText]
    exact decide_eq_true hend
  refine ⟨.done hend, ?_, ?_⟩
  · -- behind the end there is nothing left to warn of
    rw [Window.findings_of_isEnd hcurrent, merged,
      List.drop_eq_nil_of_le ((length_tokens_le hend).trans (Nat.le_succ _))]
    rfl
  · rw [Window.findings_of_isEnd hcurrent]
    rfl

/-- One finding is at most one decision, in front of those that are taken later. -/
theorem step {later : List Decision} (hnot : (stream source n).kind ≠ .endOfText)
    (hmove : StatementMove (stream source) n ((Cursor.ofText source).windowAt n).statement.value j)
    (hleads : Leads (.ofText source) n j ((Cursor.ofText source).windowAt n).statement)
    (hlater : DecidesFrom source (j + 1) later) :
    DecidesFrom source n
      ((((Cursor.ofText source).windowAt n).finding.value.decision? j).toList ++ later) := by
  have hcurrent : ((Cursor.ofText source).windowAt n).current = stream source n := by
    rw [Cursor.windowAt_current, row_ofText]
  have hmoved := (Cursor.ofText source).leads_advance j
  have hfindings := Window.findings_of_not_isEnd (hcurrent ▸ decide_eq_false hnot)
  rw [Window.finding_state, hleads.state, hmoved.state] at hfindings
  -- later decisions are taken behind the index at which the statement ends
  have hbehind : ∀ decision ∈ later, j + 3 ≤ decision.index + 2 := fun decision hmem =>
    Nat.add_le_add_right (hlater.decides.le_index decision hmem) 2
  refine ⟨?_, ?_, ?_⟩
  · rw [Window.finding_value, hcurrent]
    exact hlater.decides.step hnot hmove
  · -- the token that is read when the window moves on comes in front of all later decisions
    rw [← between_append_finding _ (Nat.add_le_add_right hmove.le 2) fun decision hmem =>
        Nat.le_of_succ_le (hbehind decision hmem),
      ← between_append_merged (Nat.le_succ (j + 2)) hbehind,
      ← hleads.notices_eq_between hmove.le, ← hmoved.notices_eq_between (Nat.le_succ j),
      ← hlater.notices, hfindings]
    rfl
  · rw [List.filterMap_append, ← hlater.diagnostics, hfindings]
    simp only [Step.followedBy_value, Step.map_value, List.filterMap_cons]
    cases ((Cursor.ofText source).windowAt n).finding.value <;> rfl

end DecidesFrom

theorem exists_decidesFrom (source : String) (n : Nat) :
    ∃ decisions, DecidesFrom source n decisions := by
  -- induction on what the window has left to read, which every finding makes shorter
  induction hsize : ((Cursor.ofText source).windowAt n).size using Nat.strong_induction_on
    generalizing n with
  | _ size ih =>
  by_cases hend : (stream source n).kind = .endOfText
  · exact ⟨[], .done hend⟩
  · obtain ⟨j, hmove, hleads⟩ := (Cursor.ofText source).exists_statement n
    rw [row_ofText] at hmove
    have hcurrent : ((Cursor.ofText source).windowAt n).current.isEnd = false := by
      rw [Cursor.windowAt_current, row_ofText]
      exact decide_eq_false hend
    have hshorter := Window.size_advance_finding_lt hcurrent
    rw [Window.finding_state, hleads.state, Cursor.state_advance_windowAt, hsize] at hshorter
    obtain ⟨later, hlater⟩ := ih _ hshorter (j + 1) rfl
    exact ⟨_, .step hend hmove hleads hlater⟩

/-! ## Texts -/

/-- Reading a source text takes decisions, from which its notices and its diagnostics follow. -/
theorem exists_decides_parse (source : String) :
    ∃ decisions, Decides (stream source) 0 decisions ∧
      (parse source).notices = merged (tokens source) 0 decisions ∧
      (parse source).value.diagnostics = decisions.filterMap Decision.diagnostic? := by
  obtain ⟨decisions, hdecides, hnotices, hdiagnostics⟩ := exists_decidesFrom source 0
  refine ⟨decisions, hdecides, ?_, hdiagnostics⟩
  -- the window opens on two tokens, in front of every decision
  have hopened : (Window.ofCursor (.ofText source)).notices = between (tokens source) 0 2 := by
    rw [between, List.drop_zero, Window.notices_ofCursor, Cursor.notices_pass_tokens]
  rw [← between_append_merged (Nat.zero_le 2) fun decision _ => Nat.le_add_left 2 decision.index,
    ← hopened, ← hnotices]
  rfl

/-- Reading a source text warns of its illegal tokens, of each once and in order. -/
theorem filter_warn_parse (source : String) :
    (parse source).notices.filter (·.level = .warn) = strays (tokens source) := by
  obtain ⟨decisions, hdecides, hnotices, -⟩ := exists_decides_parse source
  rw [hnotices, filter_warn_merged ⟨fun _ _ => Nat.zero_le _, hdecides.pairwise_index⟩,
    List.drop_zero]

/-- The records of a source text that is read -/
def records (source : String) : List (Level × String) :=
  (parse source).notices.map Notice.record

theorem filter_record (level : Level) (notices : List Notice) :
    (notices.map Notice.record).filter (·.1 = level) =
      (notices.filter (·.level = level)).map Notice.record := by
  rw [List.filter_map]
  rfl

theorem map_record_notice (decisions : List Decision) :
    (decisions.map Decision.notice).map Notice.record = decisions.map Decision.record := by
  rw [List.map_map]
  exact List.map_congr_left fun decision _ => decision.record_notice

/-- The log of a source text warns of each illegal token and tells of each decision, both in the
order of the tokens, and what is dropped is what is wrong with the text. When something is decided,
the token after the current one has been read, and nothing behind it. -/
theorem records_of_parse (source : String) :
    ∃ decisions, Decides (stream source) 0 decisions ∧
      decisions.Pairwise (·.index < ·.index) ∧
      decisions.filterMap Decision.diagnostic? = (parse source).value.diagnostics ∧
      (records source).filter (·.1 = .warn) = warnings (tokens source) ∧
      (records source).filter (·.1 = .debug) = decisions.map Decision.record ∧
      (∀ token ∈ tokens source, token.kind = .illegal →
        token.literal = String.ofList [token.character]) ∧
      ∀ before record after, records source = before ++ record :: after → record.1 = .debug →
        ∃ earlier decision later, decisions = earlier ++ decision :: later ∧
          record = decision.record ∧
          before.filter (·.1 = .debug) = earlier.map Decision.record ∧
          before.filter (·.1 = .warn) = warnings ((tokens source).take (decision.index + 2)) ∧
          after.filter (·.1 = .warn) = warnings ((tokens source).drop (decision.index + 2)) := by
  obtain ⟨decisions, hdecides, hnotices, hdiagnostics⟩ := exists_decides_parse source
  have hpairwise := hdecides.pairwise_index
  have hascending : Ascending 0 decisions := ⟨fun _ _ => Nat.zero_le _, hpairwise⟩
  refine ⟨decisions, hdecides, hpairwise, hdiagnostics.symm, ?_, ?_,
    fun _ => literal_of_illegal, ?_⟩
  · rw [records, filter_record, filter_warn_parse, map_record_strays]
  · rw [records, filter_record, hnotices, filter_debug_merged, map_record_notice]
  · intro before record after hsplit hlevel
    rw [records, hnotices] at hsplit
    -- the records are those of the notices, one for one
    obtain ⟨front, rest, hmerged, rfl, hrest⟩ := List.map_eq_append_iff.1 hsplit
    obtain ⟨notice, back, rfl, rfl, rfl⟩ := List.map_eq_cons_iff.1 hrest
    obtain ⟨earlier, decision, later, rfl, rfl, hdebug, hwarn, rfl⟩ :=
      exists_split_of_merged hascending hmerged hlevel
    refine ⟨earlier, decision, later, rfl, decision.record_notice, ?_, ?_, ?_⟩
    · rw [filter_record, hdebug, map_record_notice]
    · rw [filter_record, hwarn, between, map_record_strays, List.drop_zero, Nat.sub_zero]
    · rw [filter_record, filter_warn_merged (hascending.behind _), map_record_strays]

/-- The first illegal token is warned of before anything is decided, the second one only when the
token in front of it is the current one. -/
example : records "a @ let 1 #" =
    [(.warn, "illegal character '@' at 1:3"),
      (.debug, "skipping identifier 'a' at 1:1: not a statement"),
      (.debug, "skipping '@' at 1:3: not a statement"),
      (.debug, "dropping statement: Parse error at line 1, column 9: " ++
        "expected next token to be IDENT, got INT"),
      (.warn, "illegal character '#' at 1:11"),
      (.debug, "skipping int literal 1 at 1:9: not a statement"),
      (.debug, "skipping '#' at 1:11: not a statement")] := by
  decide +kernel

end Macaque

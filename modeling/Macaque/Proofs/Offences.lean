import Macaque.Proofs.Arguments
import Macaque.Proofs.Lines
import Mathlib.Data.List.Induction
import Mathlib.Data.List.Perm.Basic

/-!
# Arguments that offend

An argument offends if it asks for help, if it looks like a flag and is none, or if it names a
second file. The first argument that offends decides what comes of all of them. Where none does, the
order of the arguments does not matter, nor how often a flag is repeated: all that counts is which
flags there are, and the one file.

## Architecture

- **Classes**: `Positional` arguments name files; every other argument is a known flag or it is
  `Faulty` (`argument_cases`)
- **Offences**: `Offends` says what an argument offends by behind other arguments, `OffendsAt` the
  same of a place in a list
- **Scan**: `asked` is what arguments ask for that do not offend; one more argument is refused or
  added to it (`add_of_offends`, `add_of_not_offends`), and so are all arguments, by induction from
  their end (`foldlM_of_inoffensive`)
- **Order**: `inoffensive_iff` says without places that no argument offends
- **Together**: `first_offence_decides`
-/

namespace Macaque.Command

/-! ## Classes -/

/-- The flags that there are -/
def knownFlags : List String :=
  ["-h", "--help", "-v", "--verbose", "--no-color", "--tokens"]

/-- The flags that turn something on and are never refused -/
def switches : List String :=
  ["-v", "--verbose", "--no-color", "--tokens"]

/-- An argument that names a file: it is empty, it is a hyphen, or it does not begin with one -/
def Positional (argument : String) : Prop :=
  argument = "" ∨ argument = "-" ∨ argument.toList.head? ≠ some '-'

instance : DecidablePred Positional :=
  fun _ => inferInstanceAs (Decidable (_ ∨ _ ∨ _))

/-- An argument that looks like a flag, since it begins with a hyphen and has more than that one
byte, and is none -/
def UnknownFlag (argument : String) : Prop :=
  argument.toList.head? = some '-' ∧ 1 < (encode argument).length ∧ argument ∉ knownFlags

/-- An argument that offends wherever it stands -/
def Faulty (argument : String) : Prop :=
  argument = "-h" ∨ argument = "--help" ∨ UnknownFlag argument

instance : DecidablePred UnknownFlag :=
  fun _ => inferInstanceAs (Decidable (_ ∧ _ ∧ _))

instance : DecidablePred Faulty :=
  fun _ => inferInstanceAs (Decidable (_ ∨ _ ∨ _))

/-- A text that begins with a hyphen has more bytes unless it is that hyphen. -/
theorem one_lt_length_encode {argument : String} (h : argument.toList.head? = some '-') :
    1 < (encode argument).length ↔ argument ≠ "-" := by
  obtain ⟨rest, hrest⟩ : ∃ rest, argument.toList = '-' :: rest :=
    ⟨argument.toList.tail, List.eq_cons_of_mem_head? h⟩
  have hbytes : (encode argument).length = (rest.flatMap String.utf8EncodeChar).length + 1 := by
    have hhyphen : (String.utf8EncodeChar '-').length = 1 := rfl
    rw [encode_eq_flatMap, hrest, List.flatMap_cons, List.length_append, hhyphen, Nat.add_comm]
  have hsame : argument = "-" ↔ rest = [] := by
    rw [← String.toList_inj, hrest]
    simp
  rw [hbytes, ne_eq, hsame]
  cases rest with
  | nil => simp
  | cons c rest =>
    have hpos := c.utf8Size_pos
    simp only [List.flatMap_cons, List.length_append, String.length_utf8EncodeChar]
    simp
    omega

theorem positional_iff {argument : String} :
    Positional argument ↔ ¬ (argument.toList.head? = some '-' ∧ argument ≠ "-") := by
  constructor
  · rintro (rfl | rfl | hhead) ⟨hhyphen, hne⟩
    · simp at hhyphen
    · exact hne rfl
    · exact hhead hhyphen
  · intro h
    by_cases hhyphen : argument.toList.head? = some '-'
    · exact .inr (.inl (not_not.1 fun hne => h ⟨hhyphen, hne⟩))
    · exact .inr (.inr hhyphen)

theorem not_positional_of_mem {argument : String} (h : argument ∈ knownFlags) :
    ¬ Positional argument := by
  have hall : ∀ flag ∈ knownFlags, ¬ Positional flag := by decide
  exact hall argument h

theorem UnknownFlag.not_positional {argument : String} (h : UnknownFlag argument) :
    ¬ Positional argument :=
  fun hpositional => positional_iff.1 hpositional ⟨h.1, (one_lt_length_encode h.1).1 h.2.1⟩

theorem Argument.ofText_of_positional {argument : String} (h : Positional argument) :
    Argument.ofText argument = .file argument := by
  have hflag (flag : String) (hknown : flag ∈ knownFlags) : argument ≠ flag :=
    fun hsame => not_positional_of_mem hknown (hsame ▸ h)
  unfold ofText
  rw [if_neg, if_neg, if_neg, if_neg, if_neg (positional_iff.1 h)]
  · exact hflag _ (by decide)
  · exact hflag _ (by decide)
  · exact not_or.2 ⟨hflag _ (by decide), hflag _ (by decide)⟩
  · exact not_or.2 ⟨hflag _ (by decide), hflag _ (by decide)⟩

theorem Argument.ofText_of_unknownFlag {argument : String} (h : UnknownFlag argument) :
    Argument.ofText argument = .unknown argument := by
  obtain ⟨hhyphen, hlong, hnew⟩ := h
  have hflag (flag : String) (hknown : flag ∈ knownFlags) : argument ≠ flag :=
    fun hsame => hnew (hsame ▸ hknown)
  unfold ofText
  rw [if_neg, if_neg, if_neg, if_neg, if_pos ⟨hhyphen, (one_lt_length_encode hhyphen).1 hlong⟩]
  · exact hflag _ (by decide)
  · exact hflag _ (by decide)
  · exact not_or.2 ⟨hflag _ (by decide), hflag _ (by decide)⟩
  · exact not_or.2 ⟨hflag _ (by decide), hflag _ (by decide)⟩

/-- An argument turns something on, or it names a file, or it is faulty. -/
theorem argument_cases (argument : String) :
    argument ∈ switches ∨ Positional argument ∨ Faulty argument := by
  by_cases hpositional : Positional argument
  · exact .inr (.inl hpositional)
  by_cases hknown : argument ∈ knownFlags
  · simp only [knownFlags, List.mem_cons, List.not_mem_nil, or_false] at hknown
    rcases hknown with rfl | rfl | hswitch
    · exact .inr (.inr (.inl rfl))
    · exact .inr (.inr (.inr (.inl rfl)))
    · exact .inl (by simpa [switches] using hswitch)
  · rw [positional_iff, not_not] at hpositional
    exact .inr (.inr (.inr (.inr ⟨hpositional.1,
      (one_lt_length_encode hpositional.1).2 hpositional.2, hknown⟩)))

theorem mem_knownFlags_of_mem_switches {argument : String} (h : argument ∈ switches) :
    argument ∈ knownFlags := by
  have hall : ∀ flag ∈ switches, flag ∈ knownFlags := by decide
  exact hall argument h

/-- What is never refused neither names a file nor is faulty. -/
theorem not_positional_or_faulty_of_mem {argument : String} (h : argument ∈ switches) :
    ¬ Positional argument ∧ ¬ Faulty argument := by
  have hhelp : "-h" ∉ switches ∧ "--help" ∉ switches := by decide
  refine ⟨not_positional_of_mem (mem_knownFlags_of_mem_switches h), ?_⟩
  rintro (rfl | rfl | ⟨-, -, hnew⟩)
  · exact hhelp.1 h
  · exact hhelp.2 h
  · exact hnew (mem_knownFlags_of_mem_switches h)

theorem Faulty.not_positional {argument : String} (h : Faulty argument) :
    ¬ Positional argument := by
  rcases h with rfl | rfl | hunknown
  · decide
  · decide
  · exact hunknown.not_positional

/-! ## Offences -/

/-- What an argument offends by that stands behind the arguments `before` -/
inductive Offends (before : List String) (argument : String) : Refusal → Prop where
  | help (h : argument = "-h" ∨ argument = "--help") : Offends before argument .helpRequested
  | unknown (h : UnknownFlag argument) : Offends before argument (.unknownFlag argument)
  /-- Another file is named before -/
  | second (h : Positional argument) (hearlier : ∃ first ∈ before, Positional first) :
      Offends before argument (.unexpectedArgument argument)

/-- What the argument at a place in a list offends by -/
def OffendsAt (arguments : List String) (i : Nat) (refusal : Refusal) : Prop :=
  ∃ argument, arguments[i]? = some argument ∧ Offends (arguments.take i) argument refusal

/-- None of the arguments offends -/
def Inoffensive (arguments : List String) : Prop :=
  ∀ i refusal, ¬ OffendsAt arguments i refusal

section Offences

variable {before arguments : List String} {argument : String}

theorem exists_offends_iff :
    (∃ refusal, Offends before argument refusal) ↔
      Faulty argument ∨ Positional argument ∧ ∃ first ∈ before, Positional first := by
  constructor
  · rintro ⟨refusal, hoffends⟩
    cases hoffends with
    | help h => exact .inl (h.imp_right .inl)
    | unknown h => exact .inl (.inr (.inr h))
    | second h hearlier => exact .inr ⟨h, hearlier⟩
  · rintro ((h | h | h) | ⟨h, hearlier⟩)
    · exact ⟨_, .help (.inl h)⟩
    · exact ⟨_, .help (.inr h)⟩
    · exact ⟨_, .unknown h⟩
    · exact ⟨_, .second h hearlier⟩

theorem inoffensive_nil : Inoffensive [] := by
  rintro i refusal ⟨argument, hargument, -⟩
  simp at hargument

theorem inoffensive_concat :
    Inoffensive (before ++ [argument]) ↔
      Inoffensive before ∧ ∀ refusal, ¬ Offends before argument refusal := by
  constructor
  · intro h
    refine ⟨?_, fun refusal hoffends => ?_⟩
    · rintro i refusal ⟨other, hother, hoffends⟩
      obtain ⟨hlt, -⟩ := List.getElem?_eq_some_iff.1 hother
      refine h i refusal ⟨other, ?_, ?_⟩
      · rwa [List.getElem?_append_left hlt]
      · rwa [List.take_append_of_le_length hlt.le]
    · exact h before.length refusal ⟨argument, by simp, by simpa using hoffends⟩
  · rintro ⟨hbefore, hlast⟩ i refusal ⟨other, hother, hoffends⟩
    by_cases hlt : i < before.length
    · rw [List.getElem?_append_left hlt] at hother
      rw [List.take_append_of_le_length hlt.le] at hoffends
      exact hbefore i refusal ⟨other, hother, hoffends⟩
    · -- the place is the last one
      obtain ⟨hle, -⟩ := List.getElem?_eq_some_iff.1 hother
      obtain rfl : i = before.length := by
        rw [List.length_append, List.length_singleton] at hle
        omega
      rw [List.getElem?_concat_length] at hother
      obtain rfl := Option.some.inj hother
      rw [List.take_left] at hoffends
      exact hlast refusal hoffends

/-- Arguments of which one offends have a first one that does. -/
theorem exists_first_offence (h : ¬ Inoffensive arguments) :
    ∃ before argument after refusal, arguments = before ++ argument :: after ∧
      Inoffensive before ∧ Offends before argument refusal := by
  induction arguments using List.reverseRecOn with
  | nil => exact absurd inoffensive_nil h
  | append_singleton earlier last ih =>
    by_cases hearlier : Inoffensive earlier
    · rw [inoffensive_concat, not_and] at h
      obtain ⟨refusal, hoffends⟩ := not_forall_not.1 (h hearlier)
      exact ⟨earlier, last, [], refusal, rfl, hearlier, hoffends⟩
    · obtain ⟨before, argument, after, refusal, rfl, hbefore, hoffends⟩ := ih hearlier
      exact ⟨before, argument, after ++ [last], refusal, by simp, hbefore, hoffends⟩

/-- What is in front of a place is inoffensive exactly if no place in front of it offends. -/
theorem inoffensive_take_iff {i : Nat} :
    Inoffensive (arguments.take i) ↔ ∀ j < i, ∀ refusal, ¬ OffendsAt arguments j refusal := by
  constructor
  · rintro h j hji refusal ⟨argument, hargument, hoffends⟩
    refine h j refusal ⟨argument, ?_, ?_⟩
    · rwa [List.getElem?_take_of_lt hji]
    · rwa [List.take_take, Nat.min_eq_left hji.le]
  · rintro h j refusal ⟨argument, hargument, hoffends⟩
    obtain ⟨hlt, -⟩ := List.getElem?_eq_some_iff.1 hargument
    have hji : j < i := Nat.lt_of_lt_of_le hlt (List.length_take_le _ _)
    rw [List.getElem?_take_of_lt hji] at hargument
    rw [List.take_take, Nat.min_eq_left hji.le] at hoffends
    exact h j hji refusal ⟨argument, hargument, hoffends⟩

end Offences

/-! ## Scan -/

/-- What arguments ask for that do not offend -/
def asked (arguments : List String) : Request :=
  { file := arguments.find? (Positional ·),
    tokens := decide ("--tokens" ∈ arguments),
    verbose := decide ("-v" ∈ arguments ∨ "--verbose" ∈ arguments),
    coloured := decide ("--no-color" ∉ arguments) }

section Scan

variable {before arguments : List String} {argument : String}

/-- An argument that offends is refused for what it offends by. -/
theorem add_of_offends {refusal : Refusal} (h : Offends before argument refusal) :
    (asked before).add argument = .error refusal := by
  cases h with
  | help h => rcases h with rfl | rfl <;> rfl
  | unknown h => rw [Request.add, Argument.ofText_of_unknownFlag h]
  | second h hearlier =>
    have hfile : (asked before).file.isSome := List.find?_isSome.2 (by simpa using hearlier)
    obtain ⟨path, hpath⟩ := Option.isSome_iff_exists.1 hfile
    rw [Request.add, Argument.ofText_of_positional h, hpath]

/-- Any other argument is added to what is asked for. -/
theorem add_of_not_offends (h : ∀ refusal, ¬ Offends before argument refusal) :
    (asked before).add argument = .ok (asked (before ++ [argument])) := by
  have hnot := mt exists_offends_iff.2 (not_exists.2 h)
  rw [not_or, not_and] at hnot
  rcases argument_cases argument with hswitch | hpositional | hfaulty
  · have hfile : ¬ Positional argument := (not_positional_or_faulty_of_mem hswitch).1
    simp only [switches, List.mem_cons, List.not_mem_nil, or_false] at hswitch
    rcases hswitch with rfl | rfl | rfl | rfl
    all_goals simp [Request.add, Argument.ofText, asked, List.find?_append, hfile]
  · -- the file is the first one, and it is none of the flags that are looked for
    have hnone : before.find? (Positional ·) = none := by
      rw [List.find?_eq_none]
      simpa using hnot.2 hpositional
    have hne (flag : String) (hknown : flag ∈ knownFlags) : flag ≠ argument :=
      fun hsame => not_positional_of_mem hknown (hsame ▸ hpositional)
    have hshort : "-v" ≠ argument := hne _ (by decide)
    have hlong : "--verbose" ≠ argument := hne _ (by decide)
    have hplain : "--no-color" ≠ argument := hne _ (by decide)
    have htokens : "--tokens" ≠ argument := hne _ (by decide)
    rw [Request.add, Argument.ofText_of_positional hpositional]
    simp [asked, hnone, hpositional, hshort, hlong, hplain, htokens]
  · exact absurd hfaulty hnot.1

/-- Arguments that do not offend are read to the end. -/
theorem foldlM_of_inoffensive (h : Inoffensive arguments) :
    arguments.foldlM Request.add {} = .ok (asked arguments) := by
  induction arguments using List.reverseRecOn with
  | nil => rfl
  | append_singleton before argument ih =>
    obtain ⟨hbefore, hlast⟩ := inoffensive_concat.1 h
    rw [List.foldlM_append, ih hbefore]
    show ((asked before).add argument).bind pure = _
    rw [add_of_not_offends hlast]
    rfl

/-- The first argument that offends decides, whatever comes behind it. -/
theorem ofArguments_of_offends {refusal : Refusal} (hbefore : Inoffensive before)
    (h : Offends before argument refusal) (after : List String) :
    Options.ofArguments (before ++ argument :: after) = .error refusal := by
  have hscan : (before ++ argument :: after).foldlM Request.add {} =
      ((asked before).add argument).bind fun next => after.foldlM Request.add next := by
    rw [List.foldlM_append, foldlM_of_inoffensive hbefore]
    rfl
  rw [Options.ofArguments, hscan, add_of_offends h]
  rfl

theorem ofArguments_of_inoffensive (h : Inoffensive arguments) :
    Options.ofArguments arguments = (asked arguments).options := by
  rw [Options.ofArguments, foldlM_of_inoffensive h]
  rfl

theorem inoffensive_of_ok {options : Options} (h : Options.ofArguments arguments = .ok options) :
    Inoffensive arguments := by
  by_contra hoffensive
  obtain ⟨before, argument, after, refusal, rfl, hbefore, hoffends⟩ :=
    exists_first_offence hoffensive
  rw [ofArguments_of_offends hbefore hoffends] at h
  cases h

end Scan

/-! ## Order -/

section Order

variable {arguments other : List String}

/-- None of some arguments offends exactly if none is faulty and at most one names a file. -/
theorem inoffensive_iff :
    Inoffensive arguments ↔
      (∀ argument ∈ arguments, ¬ Faulty argument) ∧
        (arguments.filter (Positional ·)).length ≤ 1 := by
  induction arguments using List.reverseRecOn with
  | nil => simp [inoffensive_nil]
  | append_singleton before argument ih =>
    rw [inoffensive_concat, ih, ← not_exists, exists_offends_iff]
    have hnone : (before.filter (Positional ·)).length = 0 ↔
        ¬ ∃ first ∈ before, Positional first := by
      simp
    rw [List.forall_mem_append, List.forall_mem_singleton, List.filter_append, List.length_append]
    by_cases hpositional : Positional argument
    · -- one more file is one too many if there is one before
      have hfaulty : ¬ Faulty argument := fun h => h.not_positional hpositional
      have hone : ([argument].filter (Positional ·)).length = 1 := by simp [hpositional]
      rw [hone]
      constructor
      · rintro ⟨⟨hclean, -⟩, hoffends⟩
        rw [not_or, not_and, ← hnone] at hoffends
        exact ⟨⟨hclean, hfaulty⟩, by rw [hoffends.2 hpositional]⟩
      · rintro ⟨⟨hclean, -⟩, hle⟩
        have hzero := hnone.1 (by omega)
        exact ⟨⟨hclean, by omega⟩, not_or.2 ⟨hfaulty, fun hsecond => hzero hsecond.2⟩⟩
    · have hnothing : ([argument].filter (Positional ·)).length = 0 := by simp [hpositional]
      rw [hnothing, Nat.add_zero]
      constructor
      · rintro ⟨⟨hclean, hle⟩, hoffends⟩
        exact ⟨⟨hclean, fun hfaulty => hoffends (.inl hfaulty)⟩, hle⟩
      · rintro ⟨⟨hclean, hfaulty⟩, hle⟩
        exact ⟨⟨hclean, hle⟩, not_or.2 ⟨hfaulty, fun hsecond => hpositional hsecond.1⟩⟩

instance (arguments : List String) : Decidable (Inoffensive arguments) :=
  decidable_of_iff' _ inoffensive_iff

/-- Arguments that do not offend ask for what they ask for in any order. -/
theorem asked_perm (hperm : other.Perm arguments) (h : Inoffensive arguments) :
    asked other = asked arguments := by
  have hpaths := hperm.filter (Positional ·)
  -- there is at most one file, so that files cannot change places
  have hsame : other.filter (Positional ·) = arguments.filter (Positional ·) := by
    have hle := (inoffensive_iff.1 h).2
    cases hfiles : arguments.filter (Positional ·) with
    | nil => exact (hfiles ▸ hpaths).eq_nil
    | cons path more =>
      rw [hfiles, List.length_cons] at hle
      obtain rfl := List.eq_nil_of_length_eq_zero (show more.length = 0 by omega)
      exact (hfiles ▸ hpaths).eq_singleton
  simp only [asked, ← List.head?_filter, hsame, hperm.mem_iff]

theorem inoffensive_perm (hperm : other.Perm arguments) (h : Inoffensive arguments) :
    Inoffensive other := by
  obtain ⟨hclean, hle⟩ := inoffensive_iff.1 h
  refine inoffensive_iff.2 ⟨fun argument hmem => hclean argument (hperm.mem_iff.1 hmem), ?_⟩
  rwa [(hperm.filter (Positional ·)).length_eq]

theorem ofArguments_perm (hperm : other.Perm arguments) {options : Options}
    (h : Options.ofArguments arguments = .ok options) :
    Options.ofArguments other = .ok options := by
  have hinoffensive := inoffensive_of_ok h
  rw [ofArguments_of_inoffensive (inoffensive_perm hperm hinoffensive),
    asked_perm hperm hinoffensive, ← ofArguments_of_inoffensive hinoffensive, h]

/-- Two lists of arguments with the same flags that turn something on, wherever these stand and
however often, and with the same other arguments in the same order -/
structure SameButSwitches (other arguments : List String) : Prop where
  rest : other.filter (· ∉ switches) = arguments.filter (· ∉ switches)
  tokens : "--tokens" ∈ other ↔ "--tokens" ∈ arguments
  plain : "--no-color" ∈ other ↔ "--no-color" ∈ arguments
  decisions : ("-v" ∈ other ∨ "--verbose" ∈ other) ↔ ("-v" ∈ arguments ∨ "--verbose" ∈ arguments)

theorem filter_positional (arguments : List String) :
    (arguments.filter (· ∉ switches)).filter (Positional ·) = arguments.filter (Positional ·) := by
  rw [List.filter_filter]
  apply List.filter_congr
  intro argument _
  by_cases hswitch : argument ∈ switches
  · simp [hswitch, (not_positional_or_faulty_of_mem hswitch).1]
  · simp [hswitch]

/-- Whether some arguments offend depends on those that are no switches. -/
theorem inoffensive_of_filter
    (hrest : other.filter (· ∉ switches) = arguments.filter (· ∉ switches))
    (h : Inoffensive arguments) : Inoffensive other := by
  obtain ⟨hclean, hle⟩ := inoffensive_iff.1 h
  rw [inoffensive_iff, ← filter_positional, hrest, filter_positional]
  refine ⟨fun argument hmem hfaulty => ?_, hle⟩
  have hnot : argument ∉ switches :=
    fun hswitch => (not_positional_or_faulty_of_mem hswitch).2 hfaulty
  have hother : argument ∈ other.filter (· ∉ switches) :=
    List.mem_filter.2 ⟨hmem, by simpa using hnot⟩
  rw [hrest] at hother
  exact hclean argument (List.mem_filter.1 hother).1 hfaulty

/-- What an argument offends by behind some others depends on those of them that are no switches. -/
theorem Offends.of_filter {argument : String} {refusal : Refusal}
    (hrest : other.filter (· ∉ switches) = arguments.filter (· ∉ switches))
    (h : Offends arguments argument refusal) : Offends other argument refusal := by
  cases h with
  | help h => exact .help h
  | unknown h => exact .unknown h
  | second h hearlier =>
    obtain ⟨first, hmem, hfirst⟩ := hearlier
    have hfiles : first ∈ arguments.filter (Positional ·) :=
      List.mem_filter.2 ⟨hmem, by simpa using hfirst⟩
    rw [← filter_positional, ← hrest, filter_positional] at hfiles
    exact .second h ⟨first, (List.mem_filter.1 hfiles).1, hfirst⟩

theorem Offends.not_mem_switches {argument : String} {refusal : Refusal}
    (h : Offends arguments argument refusal) : argument ∉ switches := by
  intro hswitch
  obtain ⟨hpositional, hfaulty⟩ := not_positional_or_faulty_of_mem hswitch
  rcases exists_offends_iff.1 ⟨refusal, h⟩ with h | ⟨h, -⟩
  · exact hfaulty h
  · exact hpositional h

/-- Neither the places of switches matter nor how often they stand there. -/
theorem ofArguments_of_sameButSwitches (hsame : SameButSwitches other arguments) :
    Options.ofArguments other = Options.ofArguments arguments := by
  obtain ⟨hrest, htokens, hplain, hdecisions⟩ := hsame
  by_cases hinoffensive : Inoffensive arguments
  · have hasked : asked other = asked arguments := by
      simp only [asked, ← List.head?_filter, htokens, hplain, hdecisions]
      rw [← filter_positional, hrest, filter_positional]
    rw [ofArguments_of_inoffensive (inoffensive_of_filter hrest hinoffensive), hasked,
      ofArguments_of_inoffensive hinoffensive]
  · -- the same argument is the first one that offends
    obtain ⟨before, argument, after, refusal, rfl, hbefore, hoffends⟩ :=
      exists_first_offence hinoffensive
    have hkept : decide (argument ∉ switches) = true := by simpa using hoffends.not_mem_switches
    rw [List.filter_append, List.filter_cons, if_pos hkept] at hrest
    obtain ⟨front, back, rfl, hfront, hback⟩ := List.filter_eq_append_iff.1 hrest
    obtain ⟨gap, later, rfl, hgap, -, -⟩ := List.filter_eq_cons_iff.1 hback
    have hearlier : (front ++ gap).filter (· ∉ switches) = before.filter (· ∉ switches) := by
      rw [List.filter_append, hfront, List.filter_eq_nil_iff.2 hgap, List.append_nil]
    rw [ofArguments_of_offends hbefore hoffends, ← List.append_assoc,
      ofArguments_of_offends (inoffensive_of_filter hearlier hbefore) (hoffends.of_filter hearlier)]

end Order

/-! ## Together -/

/-- What some arguments ask for beside a mode -/
def askedFor (arguments : List String) (mode : Mode) : Options :=
  { mode,
    verbose := decide ("-v" ∈ arguments ∨ "--verbose" ∈ arguments),
    coloured := decide ("--no-color" ∉ arguments) }

theorem ofArguments_of_file {arguments : List String} {path : String} (h : Inoffensive arguments)
    (hmem : path ∈ arguments) (hpath : Positional path) :
    arguments.filter (Positional ·) = [path] ∧
      Options.ofArguments arguments =
        .ok (askedFor arguments (if "--tokens" ∈ arguments then .list path else .check path)) := by
  have hfiles : arguments.filter (Positional ·) = [path] := by
    have hle := (inoffensive_iff.1 h).2
    have hmem' : path ∈ arguments.filter (Positional ·) :=
      List.mem_filter.2 ⟨hmem, by simpa using hpath⟩
    obtain ⟨only, honly⟩ := List.length_eq_one_iff.1
      (Nat.le_antisymm hle (List.length_pos_of_mem hmem'))
    rw [honly] at hmem' ⊢
    rw [List.mem_singleton.1 hmem']
  have hfile : (asked arguments).file = some path := by
    rw [asked, ← List.head?_filter, hfiles]
    rfl
  refine ⟨hfiles, ?_⟩
  rw [ofArguments_of_inoffensive h, Request.options, Request.mode, hfile]
  by_cases htokens : "--tokens" ∈ arguments
  · have hlist : (asked arguments).tokens = true := decide_eq_true htokens
    rw [hlist, if_pos htokens]
    rfl
  · have hcheck : (asked arguments).tokens = false := decide_eq_false htokens
    rw [hcheck, if_neg htokens]
    rfl

theorem ofArguments_of_no_file {arguments : List String} (h : Inoffensive arguments)
    (hnone : ∀ argument ∈ arguments, ¬ Positional argument) :
    Options.ofArguments arguments =
      if "--tokens" ∈ arguments then .error .missingFile
      else .ok (askedFor arguments .session) := by
  have hfile : (asked arguments).file = none := by
    rw [asked]
    exact List.find?_eq_none.2 (by simpa using hnone)
  rw [ofArguments_of_inoffensive h, Request.options, Request.mode, hfile]
  by_cases htokens : "--tokens" ∈ arguments
  · have hlist : (asked arguments).tokens = true := decide_eq_true htokens
    rw [hlist, if_pos htokens]
    rfl
  · have hsession : (asked arguments).tokens = false := decide_eq_false htokens
    rw [hsession, if_neg htokens]
    rfl

/-- The first argument that offends decides, and nothing behind it matters. Where none does, a list
of tokens without a file is refused, and everything else is accepted for what its flags and its one
file say. Arguments that are accepted are accepted in any order and ask for the same. Flags that
turn something on may stand anywhere and be repeated, also among arguments that are refused. -/
theorem first_offence_decides (arguments : List String) :
    (∀ (i : Nat) (refusal : Refusal), OffendsAt arguments i refusal →
      (∀ j < i, ∀ earlier, ¬ OffendsAt arguments j earlier) →
        Options.ofArguments arguments = .error refusal ∧
          ∀ later, Options.ofArguments (arguments.take (i + 1) ++ later) = .error refusal) ∧
    (Inoffensive arguments →
      ((∀ argument ∈ arguments, ¬ Positional argument) →
        Options.ofArguments arguments =
          if "--tokens" ∈ arguments then .error .missingFile
          else .ok (askedFor arguments .session)) ∧
      ∀ path ∈ arguments, Positional path →
        arguments.filter (Positional ·) = [path] ∧
          Options.ofArguments arguments =
            .ok (askedFor arguments
              (if "--tokens" ∈ arguments then .list path else .check path))) ∧
    (∀ other : List String, other.Perm arguments → ∀ options,
      Options.ofArguments other = .ok options ↔ Options.ofArguments arguments = .ok options) ∧
    ∀ other : List String, SameButSwitches other arguments →
      Options.ofArguments other = Options.ofArguments arguments := by
  refine ⟨fun i refusal hoffends hfirst => ?_, fun h => ⟨ofArguments_of_no_file h,
    fun path hmem hpath => ofArguments_of_file h hmem hpath⟩, fun other hperm options =>
      ⟨ofArguments_perm hperm.symm, ofArguments_perm hperm⟩, fun other =>
        ofArguments_of_sameButSwitches⟩
  -- nothing offends in front of the first offence, so the arguments are read up to there
  obtain ⟨argument, hargument, hrefused⟩ := hoffends
  have hbefore := inoffensive_take_iff.2 hfirst
  have htake : arguments.take (i + 1) = arguments.take i ++ [argument] := by
    rw [List.take_add_one, hargument]
    rfl
  have hlater (later : List String) :
      Options.ofArguments (arguments.take (i + 1) ++ later) = .error refusal := by
    rw [htake, List.append_assoc]
    exact ofArguments_of_offends hbefore hrefused later
  exact ⟨by simpa using hlater (arguments.drop (i + 1)), hlater⟩

/-- A second file is refused, although help is asked for behind it. A hyphen is the name of a file,
and it is listed wherever it stands among the flags. -/
theorem first_offence_decides_second :
    OffendsAt ["a", "-v", "b", "--help"] 2 (.unexpectedArgument "b") ∧
      Options.ofArguments ["a", "-v", "b", "--help"] = .error (.unexpectedArgument "b") ∧
      Inoffensive ["--tokens", "-", "-v"] ∧
      Options.ofArguments ["--tokens", "-", "-v"] =
        .ok { mode := .list "-", verbose := true, coloured := true } ∧
      Options.ofArguments ["-v", "--tokens", "-"] =
        .ok { mode := .list "-", verbose := true, coloured := true } ∧
      SameButSwitches ["--verbose", "-", "--tokens", "-v", "--tokens"] ["--tokens", "-", "-v"] ∧
      Options.ofArguments ["--verbose", "-", "--tokens", "-v", "--tokens"] =
        .ok { mode := .list "-", verbose := true, coloured := true } := by
  have hbefore : Inoffensive (["a", "-v", "b", "--help"].take 2) := by decide +kernel
  have hoffends : OffendsAt ["a", "-v", "b", "--help"] 2 (.unexpectedArgument "b") :=
    ⟨"b", rfl, .second (by decide) ⟨"a", by decide, by decide⟩⟩
  have hrefused := ((first_offence_decides ["a", "-v", "b", "--help"]).1 2 _ hoffends
    (inoffensive_take_iff.1 hbefore)).1
  have hinoffensive : Inoffensive ["--tokens", "-", "-v"] := by decide +kernel
  have hperm : ["-v", "--tokens", "-"].Perm ["--tokens", "-", "-v"] := by decide
  have hsame : SameButSwitches ["--verbose", "-", "--tokens", "-v", "--tokens"]
      ["--tokens", "-", "-v"] :=
    ⟨by decide, by decide, by decide, by decide⟩
  obtain ⟨-, haccepts, horder, hswitches⟩ := first_offence_decides ["--tokens", "-", "-v"]
  have hlist : Options.ofArguments ["--tokens", "-", "-v"] =
      .ok { mode := .list "-", verbose := true, coloured := true } :=
    ((haccepts hinoffensive).2 "-" (by decide) (by decide)).2.trans (by decide)
  exact ⟨hoffends, hrefused, hinoffensive, hlist, (horder _ hperm _).2 hlist, hsame,
    (hswitches _ hsame).trans hlist⟩

end Macaque.Command

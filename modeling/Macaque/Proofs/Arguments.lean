import Macaque.Command.Options

/-!
# Arguments among others

Some arguments only turn something on: the decisions of the reader, or that there be no colours.
Such an argument may stand anywhere among the others, and any number of times. It neither makes the
others acceptable nor unacceptable, and it takes nothing away from what they ask for.

## Architecture

- **Insertions**: `Inserted` says that a list is another one with more items in it
- **Single arguments**: `Request.Addition` says what one argument can do
- **Switches**: a `Switch` is something that flags turn on and that no argument looks at;
  `Switch.ofArguments_inserted` says what its flags do among other arguments, by induction on the
  insertion
- **The two switches**: `decisionSwitch` and `plainSwitch`
- **Repetition**: paths and refusals repeat arguments (`path_mem_of_ofArguments`,
  `argument_mem_of_ofArguments`)
-/

namespace Macaque

/-! ## Insertions -/

/-- A list with the items of another one inserted, wherever, but in their order -/
inductive Inserted {α : Type} : List α → List α → List α → Prop where
  | nil : Inserted [] [] []
  | keep (item : α) {base added whole : List α} (later : Inserted base added whole) :
      Inserted (item :: base) added (item :: whole)
  | add (item : α) {base added whole : List α} (later : Inserted base added whole) :
      Inserted base (item :: added) (item :: whole)

namespace Inserted

variable {α β : Type} {base added whole : List α}

theorem refl (base : List α) : Inserted base [] base := by
  induction base with
  | nil => exact .nil
  | cons item base ih => exact .keep item ih

theorem append {base' added' whole' : List α} (h : Inserted base added whole)
    (h' : Inserted base' added' whole') :
    Inserted (base ++ base') (added ++ added') (whole ++ whole') := by
  induction h with
  | nil => exact h'
  | keep item _ ih => exact .keep item ih
  | add item _ ih => exact .add item ih

/-- What is inserted in a list is inserted as well if both lists stand between others. -/
theorem between (before after : List α) (h : Inserted base added whole) :
    Inserted (before ++ base ++ after) added (before ++ whole ++ after) := by
  simpa using ((refl before).append h).append (refl after)

theorem append_left (base added : List α) : Inserted base added (added ++ base) := by
  induction added with
  | nil => exact refl base
  | cons item added ih => exact .add item ih

/-- What an item stands for is inserted where the item is. -/
theorem flatMap (h : Inserted base added whole) (f : α → List β) :
    Inserted (base.flatMap f) (added.flatMap f) (whole.flatMap f) := by
  induction h with
  | nil => exact .nil
  | keep item _ ih => exact (refl (f item)).append ih
  | add item _ ih =>
    rw [List.flatMap_cons, List.flatMap_cons]
    simpa using (append_left [] (f item)).append ih

/-- A list is what passes a test with the rest inserted. -/
theorem filter (p : α → Bool) (whole : List α) :
    Inserted (whole.filter p) (whole.filter fun item => !p item) whole := by
  induction whole with
  | nil => exact .nil
  | cons item whole ih =>
    cases hitem : p item with
    | true =>
      rw [List.filter_cons_of_pos hitem, List.filter_cons_of_neg (by simp [hitem])]
      exact .keep item ih
    | false =>
      rw [List.filter_cons_of_neg (by simp [hitem]), List.filter_cons_of_pos (by simp [hitem])]
      exact .add item ih

end Inserted

/-! ## Successes -/

section Except

variable {ε α β : Type} {first : Except ε α}

/-- Only after a success is there another one. -/
theorem exists_ok_of_bind {next : α → Except ε β} {last : β} (h : first.bind next = .ok last) :
    ∃ value, first = .ok value ∧ next value = .ok last := by
  cases first with
  | error failure => cases h
  | ok value => exact ⟨value, rfl, h⟩

theorem exists_ok_of_map {f : α → β} {last : β} (h : first.map f = .ok last) :
    ∃ value, first = .ok value ∧ f value = last := by
  cases first with
  | error failure => cases h
  | ok value => exact ⟨value, rfl, Except.ok.inj h⟩

end Except

namespace Command

/-! ## Single arguments -/

/-- The arguments that ask for the decisions of the reader -/
def AsksDecisions (argument : String) : Prop :=
  argument = "-v" ∨ argument = "--verbose"

theorem Argument.ofText_eq_verbose {argument : String} :
    Argument.ofText argument = .verbose ↔ AsksDecisions argument := by
  constructor
  · intro h
    unfold ofText at h
    split at h
    · cases h
    · split at h
      · assumption
      · repeat' split at h
        all_goals cases h
  · rintro (rfl | rfl) <;> rfl

/-- A flag is kept as it is, and so is a path. -/
theorem Argument.eq_of_ofText {argument text : String}
    (h : Argument.ofText argument = .unknown text ∨ Argument.ofText argument = .file text) :
    text = argument := by
  unfold ofText at h
  repeat' split at h
  all_goals rcases h with h | h <;> cases h
  all_goals rfl

/-- What an argument can do to a request -/
inductive Request.Addition (request : Request) (argument : String) :
    Except Refusal Request → Prop where
  | help : Addition request argument (.error .helpRequested)
  | verbose (hasks : AsksDecisions argument) :
      Addition request argument (.ok { request with verbose := true })
  | plain : Addition request argument (.ok { request with coloured := false })
  | tokens : Addition request argument (.ok { request with tokens := true })
  | unknown : Addition request argument (.error (.unknownFlag argument))
  | file (hnone : request.file = none) :
      Addition request argument (.ok { request with file := some argument })
  | unexpected (hsome : request.file ≠ none) :
      Addition request argument (.error (.unexpectedArgument argument))

theorem Request.addition_add (request : Request) (argument : String) :
    request.Addition argument (request.add argument) := by
  unfold add
  cases hargument : Argument.ofText argument with
  | help => exact .help
  | verbose => exact .verbose (Argument.ofText_eq_verbose.1 hargument)
  | plain => exact .plain
  | tokens => exact .tokens
  | unknown flag =>
    obtain rfl := Argument.eq_of_ofText (.inl hargument)
    exact .unknown
  | file path =>
    obtain rfl := Argument.eq_of_ofText (.inr hargument)
    cases hfile : request.file with
    | none => exact .file hfile
    | some other => exact .unexpected (by simp [hfile])

/-- What holds of the first request and is kept by each argument holds of the last one. -/
theorem Request.kept_of_foldlM {P : Request → Prop} {arguments : List String}
    (hkept : ∀ argument ∈ arguments, ∀ asked next, P asked → asked.add argument = .ok next → P next)
    {request last : Request} (hfirst : P request)
    (hlast : arguments.foldlM add request = .ok last) : P last := by
  induction arguments generalizing request with
  | nil => exact Except.ok.inj hlast ▸ hfirst
  | cons argument arguments ih =>
    rw [List.forall_mem_cons] at hkept
    obtain ⟨next, hadd, hnext⟩ := exists_ok_of_bind hlast
    exact ih hkept.2 (hkept.1 request next hfirst hadd) hnext

/-! ## Switches -/

/-- Something that arguments can turn on, in a request and in the options that come of it -/
structure Switch where
  /-- The arguments that turn the switch on -/
  Flag : String → Prop
  /-- A request in which the switch is also turned on, if that is so -/
  request : Bool → Request → Request
  /-- Options in which the switch is also turned on, if that is so -/
  options : Bool → Options → Options
  request_false : ∀ asked : Request, request false asked = asked
  /-- What is turned on need not be turned on again -/
  request_request : ∀ (on : Bool) (asked : Request),
    request on (request true asked) = request true asked
  /-- Whether the switch is on does not matter to any argument -/
  add_request : ∀ (on : Bool) (asked : Request) (argument : String),
    (request on asked).add argument = (asked.add argument).map (request on)
  /-- A flag turns the switch on, and does nothing else -/
  add_flag : ∀ {flag}, Flag flag → ∀ asked : Request, asked.add flag = .ok (request true asked)
  options_request : ∀ (on : Bool) (asked : Request),
    (request on asked).options = asked.options.map (options on)

namespace Switch

variable (switch : Switch)

theorem foldlM_request (on : Bool) (asked : Request) (arguments : List String) :
    arguments.foldlM Request.add (switch.request on asked) =
      (arguments.foldlM Request.add asked).map (switch.request on) := by
  induction arguments generalizing asked with
  | nil => rfl
  | cons argument arguments ih =>
    rw [List.foldlM_cons, List.foldlM_cons, switch.add_request]
    cases asked.add argument with
    | error refusal => rfl
    | ok next => exact ih next

variable {arguments flags more : List String}

/-- Flags may be put among other arguments. The first argument that is refused is the same. -/
theorem foldlM_inserted (h : Inserted arguments flags more)
    (hflags : ∀ flag ∈ flags, switch.Flag flag) (asked : Request) :
    more.foldlM Request.add asked =
      (arguments.foldlM Request.add asked).map (switch.request (!flags.isEmpty)) := by
  induction h generalizing asked with
  | nil =>
    show Except.ok asked = .ok (switch.request false asked)
    rw [switch.request_false]
  | keep argument _ ih =>
    rw [List.foldlM_cons, List.foldlM_cons]
    cases asked.add argument with
    | error refusal => rfl
    | ok next => exact ih hflags next
  | add flag _ ih =>
    rw [List.forall_mem_cons] at hflags
    rw [List.foldlM_cons, switch.add_flag hflags.1]
    show List.foldlM Request.add (switch.request true asked) _ = _
    rw [ih hflags.2, switch.foldlM_request]
    cases List.foldlM Request.add asked _ with
    | error refusal => rfl
    | ok next => exact congrArg Except.ok (switch.request_request _ next)

/-- Flags among other arguments add to what these stand for, and to nothing else. -/
theorem ofArguments_inserted (h : Inserted arguments flags more)
    (hflags : ∀ flag ∈ flags, switch.Flag flag) :
    Options.ofArguments more =
      (Options.ofArguments arguments).map (switch.options (!flags.isEmpty)) := by
  rw [Options.ofArguments, Options.ofArguments, switch.foldlM_inserted h hflags]
  cases arguments.foldlM Request.add {} with
  | error refusal => rfl
  | ok asked => exact switch.options_request _ asked

end Switch

/-! ## The decisions of the reader -/

namespace Request

/-- The request with the decisions asked for as well, if that is so -/
def louder (more : Bool) (request : Request) : Request :=
  { request with verbose := request.verbose || more }

theorem add_louder (more : Bool) (request : Request) (argument : String) :
    (request.louder more).add argument = (request.add argument).map (louder more) := by
  unfold add
  cases Argument.ofText argument with
  | help => rfl
  | verbose => simp [louder, Except.map]
  | plain => rfl
  | tokens => rfl
  | unknown flag => rfl
  | file path =>
    obtain ⟨file, tokens, verbose, coloured⟩ := request
    cases file <;> rfl

theorem add_verbose {argument : String} (h : AsksDecisions argument) (request : Request) :
    request.add argument = .ok (request.louder true) := by
  rw [add, Argument.ofText_eq_verbose.2 h, louder, Bool.or_true]

/-- An argument that does not ask for the decisions leaves open whether they are asked for. -/
theorem verbose_of_add {request next : Request} {argument : String} (h : ¬ AsksDecisions argument)
    (hadd : request.add argument = .ok next) : next.verbose = request.verbose := by
  have haddition := request.addition_add argument
  rw [hadd] at haddition
  cases haddition with
  | verbose hasks => exact absurd hasks h
  | _ => rfl

end Request

/-- The options with the decisions asked for as well, if that is so -/
def Options.louder (more : Bool) (options : Options) : Options :=
  { options with verbose := options.verbose || more }

def decisionSwitch : Switch where
  Flag := AsksDecisions
  request := Request.louder
  options := Options.louder
  request_false := by simp [Request.louder]
  request_request := by simp [Request.louder]
  add_request := Request.add_louder
  add_flag := Request.add_verbose
  options_request := by
    -- the mode does not depend on whether the decisions are asked for
    intro more request
    show request.mode.map _ = (request.mode.map _).map _
    cases request.mode <;> rfl

/-- The decisions are not reported unless an argument asks for them. -/
theorem Options.verbose_of_ofArguments {arguments : List String} {options : Options}
    (h : ∀ argument ∈ arguments, ¬ AsksDecisions argument)
    (hoptions : ofArguments arguments = .ok options) : options.verbose = false := by
  obtain ⟨request, hlast, hrequest⟩ := exists_ok_of_bind hoptions
  obtain ⟨mode, -, hmode⟩ := exists_ok_of_map hrequest
  rw [← hmode]
  refine Request.kept_of_foldlM (P := fun asked => asked.verbose = false) ?_ rfl hlast
  intro argument hmem asked next hquiet hadd
  rw [Request.verbose_of_add (h argument hmem) hadd, hquiet]

/-! ## Colours -/

/-- The request without colours, if they are refused -/
def Request.plainer (plain : Bool) (request : Request) : Request :=
  { request with coloured := request.coloured && !plain }

/-- The options without colours, if they are refused -/
def Options.plainer (plain : Bool) (options : Options) : Options :=
  { options with coloured := options.coloured && !plain }

theorem Request.add_plainer (plain : Bool) (request : Request) (argument : String) :
    (request.plainer plain).add argument = (request.add argument).map (plainer plain) := by
  unfold add
  cases Argument.ofText argument with
  | file path =>
    obtain ⟨file, tokens, verbose, coloured⟩ := request
    cases file <;> rfl
  | _ => rfl

def plainSwitch : Switch where
  Flag := (· = "--no-color")
  request := Request.plainer
  options := Options.plainer
  request_false := by simp [Request.plainer]
  request_request := by simp [Request.plainer]
  add_request := Request.add_plainer
  add_flag := by
    rintro _ rfl request
    show Except.ok { request with coloured := false } = _
    rw [Request.plainer, Bool.not_true, Bool.and_false]
  options_request := by
    intro plain request
    show request.mode.map _ = (request.mode.map _).map _
    cases request.mode <;> rfl

/-! ## What repeats an argument -/

/-- The path of the file that is read -/
def Mode.path? : Mode → Option String
  | session => none
  | check path => some path
  | list path => some path

namespace Request

variable {request : Request} {arguments : List String}

theorem path?_of_mode {mode : Mode} (h : request.mode = .ok mode) : mode.path? = request.file := by
  obtain ⟨file, tokens, verbose, coloured⟩ := request
  cases file <;> cases tokens <;> cases h <;> rfl

theorem file_of_add {argument : String} {next : Request} (h : request.add argument = .ok next) :
    next.file = request.file ∨ next.file = some argument := by
  have haddition := request.addition_add argument
  rw [h] at haddition
  cases haddition with
  | file => exact .inr rfl
  | _ => exact .inl rfl

theorem argument_of_add {argument : String} {refusal : Refusal}
    (h : request.add argument = .error refusal) : ∀ text ∈ refusal.argument?, text = argument := by
  have haddition := request.addition_add argument
  rw [h] at haddition
  cases haddition with
  | help => rintro _ ⟨⟩
  | unknown => rintro _ ⟨⟩; rfl
  | unexpected => rintro _ ⟨⟩; rfl

theorem argument_mem_of_foldlM {refusal : Refusal}
    (h : arguments.foldlM add request = .error refusal) :
    ∀ text ∈ refusal.argument?, text ∈ arguments := by
  induction arguments generalizing request with
  | nil => cases h
  | cons argument arguments ih =>
    rw [List.foldlM_cons] at h
    intro text htext
    cases hadd : request.add argument with
    | error other =>
      rw [hadd] at h
      obtain rfl : other = refusal := Except.error.inj h
      rw [argument_of_add hadd text htext]
      exact List.mem_cons_self
    | ok next =>
      rw [hadd] at h
      exact List.mem_cons_of_mem _ (ih h text htext)

end Request

/-- The file that is read is named by an argument. -/
theorem path_mem_of_ofArguments {arguments : List String} {options : Options}
    (h : Options.ofArguments arguments = .ok options) :
    ∀ path ∈ options.mode.path?, path ∈ arguments := by
  obtain ⟨request, hlast, hrequest⟩ := exists_ok_of_bind h
  obtain ⟨mode, hmode, rfl⟩ := exists_ok_of_map hrequest
  rw [Request.path?_of_mode hmode]
  refine Request.kept_of_foldlM (P := fun asked => ∀ path ∈ asked.file, path ∈ arguments)
    ?_ (by rintro _ ⟨⟩) hlast
  intro argument hmem asked next hfile hadd
  rcases Request.file_of_add hadd with hsame | hargument
  · rwa [hsame]
  · rw [hargument]
    rintro _ ⟨⟩
    exact hmem

/-- An argument that is refused is one of the arguments. -/
theorem argument_mem_of_ofArguments {arguments : List String} {refusal : Refusal}
    (h : Options.ofArguments arguments = .error refusal) :
    ∀ text ∈ refusal.argument?, text ∈ arguments := by
  rw [Options.ofArguments] at h
  cases hlast : arguments.foldlM Request.add {} with
  | error other =>
    rw [hlast] at h
    obtain rfl : other = refusal := Except.error.inj h
    exact Request.argument_mem_of_foldlM hlast
  | ok request =>
    rw [hlast] at h
    -- nothing but the file can be missing, and that is no argument's fault
    have hmode : request.mode.map _ = .error refusal := h
    rintro text htext
    unfold Request.mode at hmode
    split at hmode <;> cases hmode
    cases htext

end Command

end Macaque

import ContextScan.Proofs.CommandLine.Options

namespace ContextScan

/-! What the arguments of a command on a file say.

The arguments are taken one after the other until one does not fit.  As long as all of them fit, the
last option of a kind counts, and there is one path at most. -/

/-- Whether an argument does not fit wherever it stands. -/
inductive Faulty (command : FileCommand) : String → Failure → Prop where
  | kinds {list : String} {failure : Failure} (unread : KindList.parse list = .error failure) :
      Faulty command ("--kinds=" ++ list) failure
  | offset {value : String} (probes : command = .probe)
      (unread : parseOffset? value.toList = none) :
      Faulty command ("--at=" ++ value) (.invalidOffset value)
  | unknown {option : String} (dashed : ¬IsPath option) (unknown : ¬Knows command option) :
      Faulty command option (.unknownOption option)

/-- Whether an argument does not fit behind others: a second path does not. -/
inductive Offends (command : FileCommand) (before : List String) (argument : String) :
    Failure → Prop where
  | faulty {failure : Failure} (faulty : Faulty command argument failure) :
      Offends command before argument failure
  | path {path : String} (plain : IsPath argument) (given : path ∈ before) (first : IsPath path) :
      Offends command before argument (.unexpectedArgument argument)

/-- Whether all arguments fit. -/
structure Accepted (command : FileCommand) (arguments : List String) : Prop where
  fitting : ∀ argument ∈ arguments, ∀ failure, ¬Faulty command argument failure
  onePath : (arguments.filter IsPath).length ≤ 1

/-- The values of an option, in order. -/
def valuesOf (lead : String) (arguments : List String) : List String :=
  arguments.filterMap (optionValue? lead)

/-- The offset that is asked for: the last one, and without one the start. -/
def requestedOffset? (arguments : List String) : Option Nat :=
  match (valuesOf "--at=" arguments).getLast? with
  | some value => parseOffset? value.toList
  | none => some 0

/-- The kinds that are asked for: by the last list, or else by the variable, or by default. -/
def requestedKinds (arguments : List String) (setting? : Option String) : Except Failure KindSet :=
  KindList.parse ((valuesOf "--kinds=" arguments).getLast?.getD (setting?.getD defaultKinds))

theorem Accepted.snoc {command : FileCommand} {before : List String} {argument : String}
    (accepted : Accepted command before)
    (fits : ∀ failure, ¬Offends command before argument failure) :
    Accepted command (before ++ [argument]) := by
  constructor
  · intro other member failure faulty
    rcases List.mem_append.mp member with earlier | same
    · exact accepted.fitting other earlier failure faulty
    · rw [List.mem_singleton.mp same] at faulty
      exact fits failure (.faulty faulty)
  · rw [List.filter_append]
    by_cases plain : IsPath argument
    · have none : before.filter IsPath = [] := by
        rw [List.filter_eq_nil_iff]
        intro path given first
        exact fits _ (.path plain given (of_decide_eq_true first))
      simp [none, plain]
    · simpa [plain] using accepted.onePath

theorem Accepted.not_offends {command : FileCommand} {before after : List String}
    {argument : String} {failure : Failure}
    (accepted : Accepted command (before ++ argument :: after)) :
    ¬Offends command before argument failure := by
  intro offends
  cases offends with
  | faulty faulty => exact accepted.fitting argument (by simp) failure faulty
  | @path path plain given first =>
      have many := accepted.onePath
      have one : 0 < (before.filter IsPath).length :=
        List.length_pos_of_mem (List.mem_filter.mpr ⟨given, decide_eq_true first⟩)
      simp only [List.filter_append, List.filter_cons, plain, decide_true, ↓reduceIte,
        List.length_append, List.length_cons] at many
      omega

/-- What has been gathered from arguments that fit. -/
structure Told (arguments : List String) (options : FileOptions) : Prop where
  path : options.path? = (arguments.filter IsPath).head?
  offset : requestedOffset? arguments = some options.offset
  kinds : (valuesOf "--kinds=" arguments).getLast?.map KindList.parse = options.kinds?.map .ok
  all : options.all = decide ("--all" ∈ arguments)

section Snoc

variable {before : List String} {argument lead option : String}

theorem filter_isPath_snoc (dashed : ¬IsPath argument) :
    (before ++ [argument]).filter IsPath = before.filter IsPath := by
  simp [dashed]

theorem valuesOf_snoc (lead value : String) :
    valuesOf lead (before ++ [lead ++ value]) = valuesOf lead before ++ [value] := by
  simp [valuesOf, optionValue?_append]

theorem valuesOf_snoc_of_ne (other : ∀ value, argument ≠ lead ++ value) :
    valuesOf lead (before ++ [argument]) = valuesOf lead before := by
  simp [valuesOf, optionValue?_eq_none other]

theorem decide_mem_snoc (other : option ≠ argument) :
    decide (option ∈ before ++ [argument]) = decide (option ∈ before) := by
  simp [other]

end Snoc

namespace Told

open FileOptions

variable {command : FileCommand} {before : List String} {options : FileOptions} {argument : String}

theorem nil : Told [] .initial := ⟨rfl, rfl, rfl, rfl⟩

variable (told : Told before options)

include told

theorem path_mem {path : String} (given : options.path? = some path) :
    path ∈ before ∧ IsPath path := by
  rw [told.path] at given
  have member := List.mem_filter.mp (List.mem_of_head? given)
  exact ⟨member.1, of_decide_eq_true member.2⟩

theorem exists_path {path : String} (given : path ∈ before) (plain : IsPath path) :
    ∃ path, options.path? = some path := by
  rw [told.path, ← Option.isSome_iff_exists, List.isSome_head?]
  have member : path ∈ before.filter IsPath :=
    List.mem_filter.mpr ⟨given, decide_eq_true plain⟩
  simpa using List.ne_nil_of_mem member

theorem withKinds {list : String} {kinds : KindSet} (parsed : KindList.parse list = .ok kinds) :
    Told (before ++ ["--kinds=" ++ list]) { options with kinds? := some kinds } := by
  refine ⟨?_, ?_, ?_, ?_⟩
  · rw [filter_isPath_snoc (Knows.kinds .probe list).not_isPath]
    exact told.path
  · rw [requestedOffset?, valuesOf_snoc_of_ne (kinds_ne_offset list)]
    exact told.offset
  · rw [valuesOf_snoc, List.getLast?_concat, Option.map_some, parsed]
    rfl
  · rw [decide_mem_snoc (all_ne_kinds list)]
    exact told.all

theorem withOffset {value : String} {offset : Nat}
    (parsed : parseOffset? value.toList = some offset) :
    Told (before ++ ["--at=" ++ value]) { options with offset } := by
  refine ⟨?_, ?_, ?_, ?_⟩
  · rw [filter_isPath_snoc (Knows.offset value).not_isPath]
    exact told.path
  · rw [requestedOffset?, valuesOf_snoc, List.getLast?_concat]
    exact parsed
  · rw [valuesOf_snoc_of_ne fun list => (kinds_ne_offset list value).symm]
    exact told.kinds
  · rw [decide_mem_snoc (all_ne_offset value)]
    exact told.all

theorem withAll : Told (before ++ ["--all"]) { options with all := true } := by
  refine ⟨?_, ?_, ?_, by simp⟩
  · rw [filter_isPath_snoc Knows.all.not_isPath]
    exact told.path
  · rw [requestedOffset?, valuesOf_snoc_of_ne all_ne_offset]
    exact told.offset
  · rw [valuesOf_snoc_of_ne all_ne_kinds]
    exact told.kinds

theorem withPath (plain : IsPath argument) (first : options.path? = none) :
    Told (before ++ [argument]) { options with path? := some argument } := by
  have none : before.filter IsPath = [] := List.head?_eq_none_iff.mp (told.path ▸ first)
  have noOption {lead : String} (dash : ['-'] <+: lead.toList) (value : String) :
      argument ≠ lead ++ value := by
    rintro rfl
    rw [IsPath, String.toList_append] at plain
    exact plain (dash.trans (List.prefix_append _ _))
  have notAll : "--all" ≠ argument := by
    rintro rfl
    exact Knows.all.not_isPath plain
  refine ⟨?_, ?_, ?_, ?_⟩
  · simp [none, plain]
  · rw [requestedOffset?, valuesOf_snoc_of_ne (noOption (by decide))]
    exact told.offset
  · rw [valuesOf_snoc_of_ne (noOption (by decide))]
    exact told.kinds
  · rw [decide_mem_snoc notAll]
    exact told.all

/-- What an argument changes: it is refused, or told along with what was told before. -/
inductive Added (command : FileCommand) (before : List String) (argument : String) :
    Except Failure FileOptions → Prop where
  | refused {failure : Failure} (offends : Offends command before argument failure) :
      Added command before argument (.error failure)
  | told {options : FileOptions} (told : Told (before ++ [argument]) options) :
      Added command before argument (.ok options)

theorem added (command : FileCommand) (argument : String) :
    Added command before argument (options.add command argument) := by
  cases role command argument with
  | @kinds list spelled =>
      subst spelled
      rw [add_kinds]
      cases parsed : KindList.parse list with
      | error failure => exact .refused (.faulty (.kinds parsed))
      | ok kinds => exact .told (told.withKinds parsed)
  | @offset value probes spelled =>
      subst probes spelled
      rw [add_offset, setOffset]
      cases parsed : parseOffset? value.toList with
      | none => exact .refused (.faulty (.offset rfl parsed))
      | some offset => exact .told (told.withOffset parsed)
  | all walks spelled =>
      subst walks spelled
      rw [add_all]
      exact .told told.withAll
  | unknown dashed unknown =>
      rw [add_of_not_knows options unknown, if_neg dashed]
      exact .refused (.faulty (.unknown dashed unknown))
  | path plain =>
      rw [add_of_not_knows options fun known => known.not_isPath plain, if_pos plain, addPath]
      cases first : options.path? with
      | none => exact .told (told.withPath plain first)
      | some path =>
          obtain ⟨given, other⟩ := told.path_mem first
          exact .refused (.path plain given other)

/-- What does not fit is refused. -/
theorem add_of_offends {failure : Failure} (offends : Offends command before argument failure) :
    options.add command argument = .error failure := by
  cases offends with
  | faulty faulty =>
      cases faulty with
      | kinds unread => rw [add_kinds, unread]; rfl
      | offset probes unread => rw [probes, add_offset, setOffset, unread]
      | unknown dashed unknown => rw [add_of_not_knows options unknown, if_neg dashed]
  | path plain given first =>
      obtain ⟨path, taken⟩ := told.exists_path given first
      rw [add_of_not_knows options fun known => known.not_isPath plain, if_pos plain, addPath,
        taken]

end Told

/-- What a walk along the arguments comes to. -/
inductive Gathered (command : FileCommand) (arguments : List String) :
    Except Failure FileOptions → Prop where
  | offended {before after : List String} {argument : String} {failure : Failure}
      (split : arguments = before ++ argument :: after) (accepted : Accepted command before)
      (offends : Offends command before argument failure) :
      Gathered command arguments (.error failure)
  | told {options : FileOptions} (accepted : Accepted command arguments)
      (told : Told arguments options) : Gathered command arguments (.ok options)

theorem Told.gathered {command : FileCommand} {before : List String} {options : FileOptions}
    (told : Told before options) (accepted : Accepted command before) (rest : List String) :
    Gathered command (before ++ rest) (rest.foldlM (FileOptions.add command) options) := by
  induction rest generalizing before options with
  | nil =>
      rw [List.append_nil]
      exact .told accepted told
  | cons argument rest ih =>
      rw [List.foldlM_cons]
      have step := told.added command argument
      generalize taken : options.add command argument = result at step ⊢
      cases step with
      | refused offends => exact .offended rfl accepted offends
      | told later =>
          have fits : ∀ failure, ¬Offends command before argument failure := by
            intro failure offends
            rw [told.add_of_offends offends] at taken
            cases taken
          have onward := ih later (accepted.snoc fits)
          rw [List.append_assoc] at onward
          exact onward

theorem accepted_nil (command : FileCommand) : Accepted command [] :=
  ⟨fun _ member => absurd member List.not_mem_nil, Nat.zero_le 1⟩

end ContextScan

import ContextScan.Proofs.CommandLine.Arguments

namespace ContextScan

/-! What a command line for a file comes to.

The first argument that does not fit is reported, and after all arguments a path that is missing and
then kinds in the variable that are not read.  A command line that is understood means the same with
its arguments in another order, if the options of one kind keep theirs. -/

/-- The word that names a command on a file. -/
def FileCommand.word : FileCommand → String
  | probe => "probe"
  | walk => "walk"

/-- A command on a file with everything that it is told. -/
def FileCommand.onFile (command : FileCommand) (path : String) (offset : Nat) (kinds : KindSet)
    (all : Bool) : Command :=
  match command with
  | probe => .probe path offset kinds
  | walk => .walk path kinds all

theorem Command.parse_word (command : FileCommand) (arguments : List String)
    (setting? : Option String) :
    parse (command.word :: arguments) setting? = parseFileCommand command arguments setting? := by
  cases command <;> rfl

/-- What the arguments of a command on a file come to. -/
inductive Outcome (command : FileCommand) (arguments : List String) (setting? : Option String) :
    Except Failure Command → Prop where
  | offended {before after : List String} {argument : String} {failure : Failure}
      (split : arguments = before ++ argument :: after) (accepted : Accepted command before)
      (offends : Offends command before argument failure) :
      Outcome command arguments setting? (.error failure)
  | pathless (accepted : Accepted command arguments)
      (pathless : ∀ argument ∈ arguments, ¬IsPath argument) :
      Outcome command arguments setting? (.error (.missingArgument .filePath))
  | unreadSetting {path : String} {failure : Failure} (accepted : Accepted command arguments)
      (given : path ∈ arguments) (plain : IsPath path)
      (unnamed : ∀ list, "--kinds=" ++ list ∉ arguments)
      (unread : KindList.parse (setting?.getD defaultKinds) = .error failure) :
      Outcome command arguments setting? (.error failure)
  | understood {path : String} {offset : Nat} {kinds : KindSet}
      (accepted : Accepted command arguments) (given : path ∈ arguments) (plain : IsPath path)
      (placed : requestedOffset? arguments = some offset)
      (requested : requestedKinds arguments setting? = .ok kinds) :
      Outcome command arguments setting?
        (.ok (command.onFile path offset kinds (decide ("--all" ∈ arguments))))

namespace Command

variable {command : FileCommand} {arguments : List String} {setting? : Option String}

theorem gathered (command : FileCommand) (arguments : List String) :
    Gathered command arguments (arguments.foldlM (FileOptions.add command) .initial) :=
  Told.nil.gathered (accepted_nil command) arguments

/-- Arguments that fit are all told. -/
theorem exists_told (accepted : Accepted command arguments) :
    ∃ options, arguments.foldlM (FileOptions.add command) .initial = .ok options ∧
      Told arguments options := by
  have reached := gathered command arguments
  generalize arguments.foldlM (FileOptions.add command) .initial = result at reached ⊢
  cases reached with
  | offended split _ offends =>
      subst split
      exact absurd offends accepted.not_offends
  | @told options _ told => exact ⟨options, rfl, told⟩

theorem parseFileCommand_of_offends {before after : List String} {argument : String}
    {failure : Failure} (accepted : Accepted command before)
    (offends : Offends command before argument failure) :
    parseFileCommand command (before ++ argument :: after) setting? = .error failure := by
  obtain ⟨options, folded, told⟩ := exists_told accepted
  rw [parseFileCommand, List.foldlM_append, folded]
  change ((argument :: after).foldlM (FileOptions.add command) options >>= _) = _
  rw [List.foldlM_cons, told.add_of_offends offends]
  rfl

theorem parseFileCommand_of_accepted (accepted : Accepted command arguments) :
    ∃ options, Told arguments options ∧
      parseFileCommand command arguments setting? = options.finish command setting? := by
  obtain ⟨options, folded, told⟩ := exists_told accepted
  refine ⟨options, told, ?_⟩
  rw [parseFileCommand, folded]
  rfl

theorem mem_of_valuesOf {lead value : String} (member : value ∈ valuesOf lead arguments) :
    lead ++ value ∈ arguments := by
  obtain ⟨argument, given, spelled⟩ := List.mem_filterMap.mp member
  rw [← optionValue?_eq_some_iff.mp spelled]
  exact given

theorem valuesOf_eq_nil_iff {lead : String} :
    valuesOf lead arguments = [] ↔ ∀ value, lead ++ value ∉ arguments := by
  constructor
  · intro none value given
    have member : value ∈ valuesOf lead arguments :=
      List.mem_filterMap.mpr ⟨_, given, optionValue?_append lead value⟩
    rw [none] at member
    exact absurd member List.not_mem_nil
  · intro absent
    rw [List.eq_nil_iff_forall_not_mem]
    exact fun value member => absent value (mem_of_valuesOf member)

/-- The kinds that were told are those of the last list. -/
theorem requestedKinds_of_told {options : FileOptions} (told : Told arguments options) :
    requestedKinds arguments setting? = match options.kinds? with
      | some kinds => .ok kinds
      | none => KindList.parse (setting?.getD defaultKinds) := by
  have same := told.kinds
  rw [requestedKinds]
  cases last : (valuesOf "--kinds=" arguments).getLast? with
  | none =>
      rw [last] at same
      cases named : options.kinds? with
      | none => rfl
      | some kinds => rw [named] at same; cases same
  | some list =>
      rw [last] at same
      cases named : options.kinds? with
      | none => rw [named] at same; cases same
      | some kinds =>
          rw [named] at same
          exact Option.some.inj same

theorem finish_of_pathless {options : FileOptions} (pathless : options.path? = none) :
    options.finish command setting? = .error (.missingArgument .filePath) := by
  rw [FileOptions.finish, pathless]
  rfl

theorem finish_of_path {options : FileOptions} {path : String} (told : Told arguments options)
    (given : options.path? = some path) :
    options.finish command setting? = (requestedKinds arguments setting?).map fun kinds =>
      command.onFile path options.offset kinds (decide ("--all" ∈ arguments)) := by
  rw [requestedKinds_of_told told, FileOptions.finish, given, ← told.all]
  cases options.kinds? with
  | some kinds => cases command <;> rfl
  | none =>
      cases parsed : KindList.parse (setting?.getD defaultKinds) with
      | error failure => rfl
      | ok kinds => cases command <;> rfl

/-- Among arguments that fit there is no second path. -/
theorem path?_of_told {options : FileOptions} {path : String}
    (accepted : Accepted command arguments) (told : Told arguments options)
    (given : path ∈ arguments) (plain : IsPath path) :
    options.path? = some path := by
  have member : path ∈ arguments.filter IsPath :=
    List.mem_filter.mpr ⟨given, decide_eq_true plain⟩
  have one := accepted.onePath
  rw [told.path]
  cases paths : arguments.filter IsPath with
  | nil => rw [paths] at member; cases member
  | cons first others =>
      rw [paths] at member one
      have alone : others = [] := List.eq_nil_of_length_eq_zero (by simpa using one)
      subst alone
      rw [List.mem_singleton.mp member]
      rfl

/-- Arguments say one thing only. -/
theorem parseFileCommand_of_outcome {result : Except Failure Command}
    (outcome : Outcome command arguments setting? result) :
    parseFileCommand command arguments setting? = result := by
  cases outcome with
  | offended split accepted offends =>
      subst split
      exact parseFileCommand_of_offends accepted offends
  | pathless accepted pathless =>
      obtain ⟨options, told, parsed⟩ := parseFileCommand_of_accepted accepted
      have none : options.path? = none := by
        rw [told.path, List.head?_eq_none_iff, List.filter_eq_nil_iff]
        exact fun argument given first => pathless argument given (of_decide_eq_true first)
      rw [parsed, finish_of_pathless none]
  | @unreadSetting path failure accepted given plain unnamed unread =>
      obtain ⟨options, told, parsed⟩ := parseFileCommand_of_accepted accepted
      have refused : requestedKinds arguments setting? = .error failure := by
        rw [requestedKinds, valuesOf_eq_nil_iff.mpr unnamed]
        exact unread
      rw [parsed, finish_of_path told (path?_of_told accepted told given plain), refused]
      rfl
  | understood accepted given plain placed requested =>
      obtain ⟨options, told, parsed⟩ := parseFileCommand_of_accepted accepted
      have offset := told.offset
      rw [placed] at offset
      rw [parsed, finish_of_path told (path?_of_told accepted told given plain), requested,
        Option.some.inj offset]
      rfl

/-- Only the variable can hold kinds that are not read once all arguments fit. -/
theorem unnamed_of_told {options : FileOptions} {failure : Failure} (told : Told arguments options)
    (refused : requestedKinds arguments setting? = .error failure) :
    (∀ list, "--kinds=" ++ list ∉ arguments) ∧
      KindList.parse (setting?.getD defaultKinds) = .error failure := by
  rw [requestedKinds_of_told told] at refused
  have same := told.kinds
  cases named : options.kinds? with
  | some kinds => rw [named] at refused; cases refused
  | none =>
      rw [named] at refused same
      rw [Option.map_none, Option.map_eq_none_iff, List.getLast?_eq_none_iff] at same
      exact ⟨valuesOf_eq_nil_iff.mp same, refused⟩

/-- Arguments that fit name a command, or miss a path or readable kinds. -/
theorem exists_outcome_of_told {options : FileOptions} (accepted : Accepted command arguments)
    (told : Told arguments options) : ∃ result, Outcome command arguments setting? result := by
  cases given : options.path? with
  | none =>
      refine ⟨_, .pathless accepted fun path member plain => ?_⟩
      obtain ⟨_, taken⟩ := told.exists_path member plain
      rw [given] at taken
      cases taken
  | some path =>
      obtain ⟨member, plain⟩ := told.path_mem given
      cases requested : requestedKinds arguments setting? with
      | ok kinds => exact ⟨_, .understood accepted member plain told.offset requested⟩
      | error failure =>
          obtain ⟨unnamed, unread⟩ := unnamed_of_told told requested
          exact ⟨_, .unreadSetting accepted member plain unnamed unread⟩

/-- Arguments always say something. -/
theorem exists_outcome (command : FileCommand) (arguments : List String)
    (setting? : Option String) : ∃ result, Outcome command arguments setting? result := by
  have reached := gathered command arguments
  generalize arguments.foldlM (FileOptions.add command) .initial = result at reached
  cases reached with
  | offended split accepted offends => exact ⟨_, .offended split accepted offends⟩
  | told accepted told => exact exists_outcome_of_told accepted told

theorem parse_eq_iff {result : Except Failure Command} :
    parse (command.word :: arguments) setting? = result
      ↔ Outcome command arguments setting? result := by
  rw [parse_word]
  constructor
  · rintro rfl
    obtain ⟨result, outcome⟩ := exists_outcome command arguments setting?
    rw [parseFileCommand_of_outcome outcome]
    exact outcome
  · exact parseFileCommand_of_outcome

end Command

section Reordering

variable {command : FileCommand} {arguments others : List String} {setting? : Option String}

theorem Accepted.perm (accepted : Accepted command arguments) (same : others.Perm arguments) :
    Accepted command others := by
  constructor
  · exact fun argument member => accepted.fitting argument (same.mem_iff.mp member)
  · rw [(same.filter _).length_eq]
    exact accepted.onePath

/-- What an accepted command line says does not depend on where its options stand, as long as those
of one kind keep their order. -/
theorem Outcome.perm {parsed : Command} (outcome : Outcome command arguments setting? (.ok parsed))
    (same : others.Perm arguments)
    (lists : valuesOf "--kinds=" others = valuesOf "--kinds=" arguments)
    (offsets : valuesOf "--at=" others = valuesOf "--at=" arguments) :
    Outcome command others setting? (.ok parsed) := by
  cases outcome with
  | understood accepted given plain placed requested =>
      have all : decide ("--all" ∈ arguments) = decide ("--all" ∈ others) :=
        decide_eq_decide.mpr same.mem_iff.symm
      rw [requestedOffset?, ← offsets] at placed
      rw [requestedKinds, ← lists] at requested
      rw [all]
      exact .understood (accepted.perm same) (same.mem_iff.mpr given) plain placed requested

/-- The variable has no influence on a command line that names kinds. -/
theorem Outcome.setting {result : Except Failure Command} {list : String}
    (outcome : Outcome command arguments setting? result) (named : "--kinds=" ++ list ∈ arguments)
    (other? : Option String) : Outcome command arguments other? result := by
  cases outcome with
  | offended split accepted offends => exact .offended split accepted offends
  | pathless accepted pathless => exact .pathless accepted pathless
  | unreadSetting _ _ _ unnamed _ => exact absurd named (unnamed list)
  | understood accepted given plain placed requested =>
      refine .understood accepted given plain placed ?_
      cases last : (valuesOf "--kinds=" arguments).getLast? with
      | none =>
          have unnamed := Command.valuesOf_eq_nil_iff.mp (List.getLast?_eq_none_iff.mp last)
          exact absurd named (unnamed list)
      | some value =>
          rw [requestedKinds, last] at requested ⊢
          exact requested

end Reordering

/-- A command line for a file is read as what its arguments come to.  The first argument that does
not fit is reported, then a missing path, then kinds in the variable that are not read.  If nothing
is reported, the order of the arguments matters only among the options of one kind, and the variable
only if no kinds are named. -/
theorem Command.parse_outcome (command : FileCommand) (arguments : List String)
    (setting? : Option String) :
    (∀ result, parse (command.word :: arguments) setting? = result
      ↔ Outcome command arguments setting? result) ∧
    (∀ parsed others, parse (command.word :: arguments) setting? = .ok parsed →
      others.Perm arguments →
      valuesOf "--kinds=" others = valuesOf "--kinds=" arguments →
      valuesOf "--at=" others = valuesOf "--at=" arguments →
      parse (command.word :: others) setting? = .ok parsed) ∧
    (∀ list other?, "--kinds=" ++ list ∈ arguments →
      parse (command.word :: arguments) other? = parse (command.word :: arguments) setting?) := by
  refine ⟨fun result => parse_eq_iff, ?_, ?_⟩
  · intro parsed others accepted same lists offsets
    exact parse_eq_iff.mpr ((parse_eq_iff.mp accepted).perm same lists offsets)
  · intro list other? named
    exact parse_eq_iff.mpr ((parse_eq_iff.mp rfl).setting named other?)

/-- The path may move to the end, and a variable that is not read does no harm. -/
theorem Command.parse_outcome_reordered :
    let parsed := Command.probe "a" 2 (.ofList [.membership])
    parse ["probe", "--at=1", "a", "--kinds=in", "--at=2"] none = .ok parsed ∧
      parse ["probe", "--kinds=in", "--at=1", "--at=2", "a"] (some "?") = .ok parsed := by
  intro parsed
  let arguments := ["--at=1", "a", "--kinds=in", "--at=2"]
  let others := ["--kinds=in", "--at=1", "--at=2", "a"]
  have understood : parse ("probe" :: arguments) none = .ok parsed := rfl
  have reordered := (parse_outcome .probe arguments none).2.1 parsed others understood
    (by decide) (by decide) (by decide)
  have unread := (parse_outcome .probe others none).2.2 "in" (some "?") (by decide)
  exact ⟨understood, unread.trans reordered⟩

end ContextScan

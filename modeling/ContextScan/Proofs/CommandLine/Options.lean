import ContextScan.CommandLine.Command

namespace ContextScan

/-! The options of a command on a file.

An argument is an option that the command knows, or one with a dash that it does not know, or a
path.  An option with a value is known by its lead, and no lead is that of another option. -/

section Options

variable {lead argument value : String}

theorem dropLead?_eq_some_iff {lead text rest : Text} :
    dropLead? lead text = some rest ↔ text = lead ++ rest := by
  induction lead generalizing text with
  | nil => simp [dropLead?, eq_comm]
  | cons c lead ih =>
      cases text with
      | nil => simp [dropLead?]
      | cons d text =>
          by_cases same : c = d
          · subst same
            simp [dropLead?, ih]
          · simp [dropLead?, same, Ne.symm same]

theorem dropLead?_append (lead rest : Text) : dropLead? lead (lead ++ rest) = some rest :=
  dropLead?_eq_some_iff.mpr rfl

theorem optionValue?_eq_some_iff :
    optionValue? lead argument = some value ↔ argument = lead ++ value := by
  rw [optionValue?, Option.map_eq_some_iff, ← String.toList_inj, String.toList_append]
  constructor
  · rintro ⟨rest, found, rfl⟩
    rw [String.toList_ofList]
    exact dropLead?_eq_some_iff.mp found
  · intro spelled
    exact ⟨value.toList, dropLead?_eq_some_iff.mpr spelled, String.ofList_toList⟩

theorem optionValue?_append (lead value : String) :
    optionValue? lead (lead ++ value) = some value :=
  optionValue?_eq_some_iff.mpr rfl

theorem optionValue?_eq_none (other : ∀ value, argument ≠ lead ++ value) :
    optionValue? lead argument = none :=
  Option.eq_none_iff_forall_ne_some.mpr fun value found =>
    other value (optionValue?_eq_some_iff.mp found)

/-- Whether an argument is a path. -/
def IsPath (argument : String) : Prop := ¬['-'] <+: argument.toList

instance : DecidablePred IsPath := fun argument =>
  inferInstanceAs (Decidable ¬['-'] <+: argument.toList)

theorem isSome_dropLead?_dash_iff :
    (dropLead? ['-'] argument.toList).isSome = true ↔ ¬IsPath argument := by
  rw [IsPath, Classical.not_not, Option.isSome_iff_exists]
  constructor
  · rintro ⟨rest, found⟩
    exact ⟨rest, (dropLead?_eq_some_iff.mp found).symm⟩
  · rintro ⟨rest, split⟩
    exact ⟨rest, dropLead?_eq_some_iff.mpr split.symm⟩

/-- The options of a command. -/
inductive Knows : FileCommand → String → Prop where
  | kinds (command : FileCommand) (list : String) : Knows command ("--kinds=" ++ list)
  | offset (value : String) : Knows .probe ("--at=" ++ value)
  | all : Knows .walk "--all"

theorem kinds_ne_offset (list value : String) : "--kinds=" ++ list ≠ "--at=" ++ value := by
  rw [Ne, ← String.toList_inj]
  simp

theorem all_ne_kinds (list : String) : "--all" ≠ "--kinds=" ++ list := by
  rw [Ne, ← String.toList_inj]
  simp

theorem all_ne_offset (value : String) : "--all" ≠ "--at=" ++ value := by
  rw [Ne, ← String.toList_inj]
  simp

theorem Knows.not_isPath {command : FileCommand} (known : Knows command argument) :
    ¬IsPath argument := by
  cases known <;> simp [IsPath]

end Options

namespace FileOptions

variable {command : FileCommand} {argument : String}

theorem add_kinds (command : FileCommand) (options : FileOptions) (list : String) :
    add command options ("--kinds=" ++ list)
      = (KindList.parse list).map fun kinds => { options with kinds? := some kinds } := by
  simp only [add, optionValue?_append]

theorem add_offset (options : FileOptions) (value : String) :
    add .probe options ("--at=" ++ value) = options.setOffset value := by
  have other := optionValue?_eq_none fun list => (kinds_ne_offset list value).symm
  simp only [add, other, optionValue?_append]

theorem add_all (options : FileOptions) :
    add .walk options "--all" = .ok { options with all := true } := by
  have other := optionValue?_eq_none all_ne_kinds
  simp [add, other]

/-- An argument that is no option of the command is a path unless it has a dash. -/
theorem add_of_not_knows (options : FileOptions) (other : ¬Knows command argument) :
    add command options argument
      = if IsPath argument then options.addPath argument else .error (.unknownOption argument) := by
  have noKinds : optionValue? "--kinds=" argument = none :=
    optionValue?_eq_none fun list spelled => other (spelled ▸ .kinds command list)
  have dashed : (dropLead? ['-'] argument.toList).isSome = true ↔ ¬IsPath argument :=
    isSome_dropLead?_dash_iff
  cases command with
  | probe =>
      have noOffset : optionValue? "--at=" argument = none :=
        optionValue?_eq_none fun value spelled => other (spelled ▸ .offset value)
      by_cases plain : IsPath argument <;> simp [add, noKinds, noOffset, dashed, plain]
  | walk =>
      have notAll : argument ≠ "--all" := fun spelled => other (spelled ▸ .all)
      by_cases plain : IsPath argument <;> simp [add, noKinds, notAll, dashed, plain]

end FileOptions

/-- What an argument is to a command. -/
inductive Role (command : FileCommand) (argument : String) : Prop where
  | kinds {list : String} (spelled : argument = "--kinds=" ++ list)
  | offset {value : String} (probes : command = .probe) (spelled : argument = "--at=" ++ value)
  | all (walks : command = .walk) (spelled : argument = "--all")
  | unknown (dashed : ¬IsPath argument) (unknown : ¬Knows command argument)
  | path (plain : IsPath argument)

theorem role (command : FileCommand) (argument : String) : Role command argument := by
  by_cases known : Knows command argument
  · cases known with
    | kinds command list => exact .kinds rfl
    | offset value => exact .offset rfl rfl
    | all => exact .all rfl rfl
  · by_cases plain : IsPath argument
    · exact .path plain
    · exact .unknown plain known

end ContextScan

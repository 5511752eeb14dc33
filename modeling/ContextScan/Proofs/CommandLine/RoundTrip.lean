import ContextScan.Proofs.CommandLine.KindList
import ContextScan.Proofs.CommandLine.Options

namespace ContextScan

/-! Commands are read back from the arguments that spell them.

The kinds are written out in full, so the variable has no influence, and an empty list of kinds is
the empty set. -/

namespace KindList

theorem IsPiece.holds {piece : Text} (formed : IsPiece piece) : Holds (some piece) piece :=
  have still : IsGap [] := fun _ member => absurd member List.not_mem_nil
  .piece formed ⟨[], [], still, still, by simp⟩

/-- Pieces with commas between them are a list of these pieces. -/
theorem lists_intercalate {pieces : List Text} (formed : ∀ piece ∈ pieces, IsPiece piece) :
    Lists pieces ([','].intercalate pieces) := by
  induction pieces with
  | nil => exact .last (.nothing fun _ member => absurd member List.not_mem_nil)
  | cons piece others ih =>
      obtain ⟨here, later⟩ := List.forall_mem_cons.mp formed
      cases others with
      | nil =>
          rw [List.intercalate_singleton]
          exact .last here.holds
      | cons next others =>
          rw [List.intercalate_cons_cons, List.append_assoc]
          exact .comma here.holds (ih later)

theorem lists_render (kinds : KindSet) :
    Lists (kinds.toList.map nameOf) (render kinds).toList := by
  have spelled : (render kinds).toList = [','].intercalate (kinds.toList.map nameOf) := by
    rw [render, String.toList_intercalate, List.map_map]
    rfl
  rw [spelled]
  refine lists_intercalate fun piece member => ?_
  obtain ⟨kind, _, rfl⟩ := List.mem_map.mp member
  exact isPiece_nameOf kind

/-- A set is read back from the names of its kinds. -/
theorem parse_render (kinds : KindSet) : parse (render kinds) = .ok kinds :=
  parse_names (lists_render kinds) fun _ => KindSet.mem_toList.symm

end KindList

theorem parseOffset?_of_unsigned {text : Text} (unsigned : text.head? ≠ some '+') :
    parseOffset? text = (parseDecimal? text).filter fun offset => offset < UInt64.size := by
  cases text with
  | nil => rfl
  | cons c digits =>
      have other : c ≠ '+' := fun same => unsigned (by rw [same]; rfl)
      unfold parseOffset?
      split
      · rename_i split
        exact absurd (List.cons.inj split).1 other
      · rfl

/-- An offset is read back from its digits. -/
theorem parseOffset?_decimal {offset : Nat} (fits : offset < UInt64.size) :
    parseOffset? (decimal offset) = some offset := by
  have unsigned : (decimal offset).head? ≠ some '+' := by
    intro next
    have digit := isDigit_of_mem_decimal (List.mem_of_head? next)
    cases digit
  simp [parseOffset?_of_unsigned unsigned, parseDecimal?_decimal, fits]

/-- Whether a command can be spelled.  A path that starts with a dash would be an option, and an
offset has to be below 2^64. -/
def Command.Spellable : Command → Prop
  | listKinds => True
  | probe path offset _ => IsPath path ∧ offset < UInt64.size
  | walk path _ _ => IsPath path

namespace FileOptions

variable {command : FileCommand} {options next : FileOptions}

theorem foldlM_cons_of_add {argument : String} (added : add command options argument = .ok next)
    (rest : List String) :
    (argument :: rest).foldlM (add command) options = rest.foldlM (add command) next := by
  rw [List.foldlM_cons, added]
  rfl

theorem add_path {path : String} (plain : IsPath path) (first : options.path? = none) :
    add command options path = .ok { options with path? := some path } := by
  rw [add_of_not_knows options fun known => known.not_isPath plain, if_pos plain, addPath, first]

theorem add_decimal {offset : Nat} (fits : offset < UInt64.size) (options : FileOptions) :
    add .probe options ("--at=" ++ String.ofList (decimal offset))
      = .ok { options with offset } := by
  rw [add_offset, setOffset, String.toList_ofList, parseOffset?_decimal fits]

theorem add_render (command : FileCommand) (options : FileOptions) (kinds : KindSet) :
    add command options ("--kinds=" ++ KindList.render kinds)
      = .ok { options with kinds? := some kinds } := by
  rw [add_kinds, KindList.parse_render]
  rfl

end FileOptions

open FileOptions

/-- A command is read back from the arguments that spell it, whatever the variable holds. -/
theorem Command.parse_arguments {command : Command} (spellable : command.Spellable)
    (setting? : Option String) : parse command.arguments setting? = .ok command := by
  cases command with
  | listKinds => rfl
  | probe path offset kinds =>
      obtain ⟨plain, fits⟩ := spellable
      change parseFileCommand .probe [path, "--at=" ++ String.ofList (decimal offset),
        "--kinds=" ++ KindList.render kinds] setting? = _
      rw [parseFileCommand, foldlM_cons_of_add (add_path plain rfl),
        foldlM_cons_of_add (add_decimal fits _), foldlM_cons_of_add (add_render .probe _ kinds)]
      rfl
  | walk path kinds all =>
      have plain : IsPath path := spellable
      cases all with
      | false =>
          change parseFileCommand .walk [path, "--kinds=" ++ KindList.render kinds] setting? = _
          rw [parseFileCommand, foldlM_cons_of_add (add_path plain rfl),
            foldlM_cons_of_add (add_render .walk _ kinds)]
          rfl
      | true =>
          change parseFileCommand .walk [path, "--kinds=" ++ KindList.render kinds, "--all"]
            setting? = _
          rw [parseFileCommand, foldlM_cons_of_add (add_path plain rfl),
            foldlM_cons_of_add (add_render .walk _ kinds), foldlM_cons_of_add (add_all _)]
          rfl

/-- The greatest offset and no kinds are read back. -/
theorem Command.parse_arguments_last :
    let command := Command.probe "" 18446744073709551615 .empty
    parse ["probe", "", "--at=18446744073709551615", "--kinds="] (some "?") = .ok command ∧
      command.arguments = ["probe", "", "--at=18446744073709551615", "--kinds="] := by
  intro command
  have spelled : command.arguments = ["probe", "", "--at=18446744073709551615", "--kinds="] := by
    decide +kernel
  have spellable : command.Spellable := ⟨by decide, by decide⟩
  rw [← spelled]
  exact ⟨parse_arguments spellable (some "?"), rfl⟩

end ContextScan

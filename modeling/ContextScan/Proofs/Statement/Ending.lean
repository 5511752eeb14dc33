import ContextScan.Proofs.Stepwise.Resolvers

namespace ContextScan

/-! How the end of a statement is looked for.

All that is looked at is skipped, so that it stays outside the token.  The one exception is a `;`
itself: it is taken, and nothing after it is looked at. -/

open Scan

def Move.IsSkip (move : Move) : Prop := move = .skip

theorem Move.isSkip_skip : Move.skip.IsSkip := rfl

/-- Whether moves over a text only skip, apart from taking a `;` at the end. -/
inductive SeeksEnd (text : Text) : List Move → Prop where
  | skips {moves : List Move} (only : ∀ move ∈ moves, move.IsSkip) : SeeksEnd text moves
  | takes {skips : List Move} (only : ∀ move ∈ skips, move.IsSkip)
      (next : (leaveAll skips text).head? = some ';') :
      SeeksEnd text (skips ++ [.advance, .markEnd])

namespace SeeksEnd

variable {text : Text}

theorem still : SeeksEnd text [] := .skips fun _ member => absurd member List.not_mem_nil

theorem of_stepwise {α : Type} {scan : Scan α} (stepwise : scan.Stepwise Move.IsSkip text) :
    SeeksEnd text (scan text).moves :=
  .skips stepwise.moves_allowed

/-- What seeks the end after some skipping seeks it from there on. -/
theorem after {first later : List Move} (only : ∀ move ∈ first, move.IsSkip)
    (seeks : SeeksEnd (leaveAll first text) later) : SeeksEnd text (first ++ later) := by
  cases seeks with
  | skips onlyLater =>
      refine .skips fun move member => ?_
      rcases List.mem_append.mp member with early | late
      · exact only move early
      · exact onlyLater move late
  | @takes skips onlyLater next =>
      rw [← List.append_assoc]
      refine .takes (fun move member => ?_) ?_
      · rcases List.mem_append.mp member with early | late
        · exact only move early
        · exact onlyLater move late
      · rw [leaveAll_append]
        exact next

theorem bind {α β : Type} {first : Scan α} {next : α → Scan β}
    (stepwise : first.Stepwise Move.IsSkip text)
    (seeks : SeeksEnd (first text).rest (next (first text).value (first text).rest).moves) :
    SeeksEnd text ((first >>= next) text).moves := by
  refine after stepwise.moves_allowed ?_
  have leads : leaveAll (first text).moves text = (first text).rest := stepwise.leadsToRest
  rw [leads]
  exact seeks

/-- Nothing is looked at any more after the end is found. -/
theorem bind_still {α β : Type} {first : Scan α} {next : α → Scan β}
    (seeks : SeeksEnd text (first text).moves)
    (still : ∀ value rest, (next value rest).moves = []) :
    SeeksEnd text ((first >>= next) text).moves := by
  rw [bind_apply, still, List.append_nil]
  exact seeks

theorem bind_pure {α β : Type} {first : Scan α} {result : α → β}
    (seeks : SeeksEnd text (first text).moves) :
    SeeksEnd text ((first >>= fun value => pure (result value)) text).moves :=
  bind_still seeks fun _ _ => rfl

theorem takeSemicolon (next : text.head? = some ';') :
    SeeksEnd text (Boundary.takeSemicolon text).moves := by
  have moves : SeeksEnd text ([] ++ [.advance, .markEnd]) :=
    .takes (fun _ member => absurd member List.not_mem_nil) next
  exact moves

end SeeksEnd

theorem head?_of_headD_beq {text : Text} {wanted : Char}
    (found : (text.headD '\x00' == wanted) = true) (visible : wanted ≠ '\x00') :
    text.head? = some wanted := by
  cases text with
  | nil => exact absurd (eq_of_beq found).symm visible
  | cons c rest => exact congrArg some (eq_of_beq found)

theorem beq_headD_iff {c : Char} (visible : c ≠ '\x00') {text : Text} :
    (text.headD '\x00' == c) = true ↔ text.head? = some c := by
  refine ⟨fun found => head?_of_headD_beq found visible, fun next => ?_⟩
  rw [List.headD_eq_head?_getD, next]
  exact beq_self_eq_true c

namespace Boundary

theorem seeksEnd_seek (text : Text) : SeeksEnd text (seek text).moves := by
  refine .bind (stepwise_skipWithin Move.isSkip_skip isInlineBlank) (.bind .atEnd ?_)
  split
  · exact .still
  refine .bind .peek ?_
  split
  · exact .bind_pure (.takeSemicolon (head?_of_headD_beq ‹_› (by decide)))
  split
  · exact .bind_pure (.of_stepwise (stepwise_passLineBreak Move.isSkip_skip))
  · exact .still

/-- A search along the line that does not settle the end has only skipped. -/
theorem isSkip_of_seek {text : Text} (unsettled : (seek text).value ≠ .settled) :
    ∀ move ∈ (seek text).moves, move.IsSkip := by
  have blanks : ∀ move ∈ (skipWithin isInlineBlank text).moves, move.IsSkip :=
    (stepwise_skipWithin Move.isSkip_skip isInlineBlank).moves_allowed
  simp only [seek, bind_apply] at unsettled ⊢
  revert unsettled
  split
  · intro unsettled
    exact absurd rfl unsettled
  simp only [bind_apply]
  split
  · intro unsettled
    exact absurd rfl unsettled
  split
  · have passed {rest : Text} : Stepwise Move.IsSkip (do passLineBreak; pure lineBreak) rest :=
      .bind (stepwise_passLineBreak Move.isSkip_skip) (.pure _)
    intro _
    exact List.forall_mem_append.mpr ⟨blanks, passed.moves_allowed⟩
  · intro _
    exact List.forall_mem_append.mpr ⟨blanks, fun _ member => absurd member List.not_mem_nil⟩

end Boundary

namespace Continuation

theorem seeksEnd_firstToken (kinds : KindSet) (text : Text) :
    SeeksEnd text (firstToken kinds text).moves := by
  refine .bind .peek ?_
  split
  · exact .still
  split
  · exact .of_stepwise (stepwise_sign Move.isSkip_skip _)
  split
  · exact .of_stepwise (stepwise_negation Move.isSkip_skip kinds)
  split
  · exact .still
  split
  · exact .bind_pure (.takeSemicolon (head?_of_headD_beq ‹_› (by decide)))
  split
  · exact .bind_pure (.of_stepwise (LeadingWord.stepwise_starts Move.isSkip_skip kinds))
  · exact .still

theorem seeksEnd_newLine (kinds : KindSet) (text : Text) :
    SeeksEnd text (newLine kinds text).moves := by
  refine .bind .peek ?_
  split
  · split
    · exact .bind_pure (.of_stepwise (Annotations.stepwise_constructorFollows Move.isSkip_skip))
    split
    · refine .bind (Annotations.stepwise_skipAll Move.isSkip_skip .gap) (.bind .peek ?_)
      split
      · exact .still
      · exact seeksEnd_firstToken kinds _
    · exact .still
  · exact seeksEnd_firstToken kinds _

theorem seeksEnd_sameLine (kinds : KindSet) (text : Text) :
    SeeksEnd text (sameLine kinds text).moves := by
  refine .bind .peek ?_
  split
  · exact .still
  split
  · exact .still
  split
  · exact .bind_pure (.of_stepwise (stepwise_skipWord Move.isSkip_skip _))
  · exact .still

/-- A decision marks its start and then seeks the end. -/
theorem moves_decision (kinds : KindSet) (text : Text) :
    ∃ later, (decision kinds text).moves = .markEnd :: later ∧ SeeksEnd text later := by
  have leads : leaveAll (Boundary.seek text).moves text = (Boundary.seek text).rest :=
    (Boundary.stepwise_seek trivial trivial trivial : Stepwise (fun _ => True) _ text).leadsToRest
  simp only [decision, bind_apply]
  refine ⟨_, rfl, ?_⟩
  change SeeksEnd text ((Boundary.seek text).moves ++ _)
  split
  · rw [pure_apply, List.append_nil]
    exact Boundary.seeksEnd_seek text
  · -- Only skips came before, so what follows is sought from where they lead.
    rename_i unsettled
    refine .after (Boundary.isSkip_of_seek fun settled => ?_) ?_
    · exact unsettled (beq_iff_eq.mpr settled)
    · rw [leads]
      refine .bind (stepwise_skipWhile Move.isSkip_skip isBlank_nul) (.bind .peek ?_)
      split
      · exact .still
      · refine .bind_still ?_ fun _ _ => rfl
        rw [beforeToken]
        split
        · exact seeksEnd_newLine kinds _
        · exact seeksEnd_sameLine kinds _

end Continuation

end ContextScan

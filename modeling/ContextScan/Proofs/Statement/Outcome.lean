import ContextScan.Proofs.Statement.Gap

namespace ContextScan

/-! What a decision comes to after a gap.

There are three outcomes.  Either the decision is settled and all that was looked at is skipped, or
it has taken the `;` that stands there, or it leaves the text as it is to the resolver of another
token.  What is passed over before that are annotations, and only where an accessor may follow. -/

open Scan

/-- Whether annotations at the start of a line are passed over. -/
def KindSet.PassesAnnotations (kinds : KindSet) : Prop :=
  kinds.has .constructor = false ∧ (kinds.has .getter = true ∨ kinds.has .setter = true)

/-- Skipping annotations skips a part of the text. -/
theorem Annotations.exists_skipAll (place : Place) (text : Text) :
    ∃ passed later, text = passed ++ later ∧
      skipAll place text = ⟨(), List.replicate passed.length .skip, [], later⟩ := by
  have onward {c : Char} {place : Place} {rest : Text} (skipped : ∃ passed later,
      rest = passed ++ later ∧
        skipAll place rest = ⟨(), List.replicate passed.length .skip, [], later⟩) :
      ∃ passed later, c :: rest = passed ++ later ∧ (skipAll place rest).precededBy [.skip]
        = ⟨(), List.replicate passed.length .skip, [], later⟩ := by
    obtain ⟨passed, later, rfl, run⟩ := skipped
    exact ⟨c :: passed, later, rfl, by rw [run]; rfl⟩
  induction text generalizing place with
  | nil => exact ⟨[], [], rfl, skipAll_nil place⟩
  | cons c rest ih =>
      cases place with
      | gap =>
          rw [skipAll_gap_cons]
          split
          · exact onward (ih .gap)
          split
          · exact onward (ih .name)
          · exact ⟨[], c :: rest, rfl, rfl⟩
      | name =>
          rw [skipAll_name_cons]
          exact onward (ih _)
      | arguments =>
          rw [skipAll_arguments_cons]
          exact onward (ih _)

namespace Continuation

/-- The three outcomes of a decision on a text. -/
inductive Reached (text : Text) (run : Run Decision) : Prop where
  | settled (value : run.value = .insert ∨ run.value = .suppress)
      (only : ∀ move ∈ run.moves, move.IsSkip)
  | semicolon {rest : Text} (here : text = ';' :: rest) (value : run.value = .insert)
      (moves : run.moves = [.advance, .markEnd])
  | left (visible : Stops isBlank text) (still : run.moves = []) (whole : run.rest = text)

variable {kinds : KindSet} {text : Text}

theorem insertIf_settled (starts : Bool) :
    insertIf starts = .insert ∨ insertIf starts = .suppress := by
  cases starts <;> simp [insertIf]

theorem negation_settled (kinds : KindSet) (text : Text) :
    (negation kinds text).value = .insert ∨ (negation kinds text).value = .suppress := by
  simp only [negation, bind_apply]
  split
  · simp only [bind_apply]
    split
    · exact Or.inl rfl
    · exact insertIf_settled _
  · exact insertIf_settled _

theorem Reached.of_settled {decision : Decision}
    (value : decision = .insert ∨ decision = .suppress) :
    Reached text ((pure decision : Scan Decision) text) :=
  .settled value fun _ member => absurd member List.not_mem_nil

theorem Reached.of_insertIf {scan : Scan Bool} {verdict : Bool → Bool}
    (stepwise : scan.Stepwise Move.IsSkip text) :
    Reached text ((scan >>= fun starts => pure (insertIf (verdict starts))) text) := by
  refine .settled (insertIf_settled _) ?_
  intro move member
  rw [bind_apply, pure_apply, List.append_nil] at member
  exact stepwise.moves_allowed move member

/-- A text that starts with a visible character may be left to another resolver. -/
theorem Reached.of_next {c : Char} (next : (text.headD '\x00' == c) = true) (present : c ≠ '\x00')
    (visible : isBlank c = false) (decision : Decision) :
    Reached text ((pure decision : Scan Decision) text) := by
  obtain ⟨rest, rfl⟩ := List.head?_eq_some_iff.mp (head?_of_headD_beq next present)
  exact .left (.cons visible) rfl rfl

theorem Reached.of_semicolon (next : (text.headD '\x00' == ';') = true) :
    Reached text ((do Boundary.takeSemicolon; pure .insert : Scan Decision) text) := by
  obtain ⟨rest, rfl⟩ := List.head?_eq_some_iff.mp (head?_of_headD_beq next (by decide))
  exact .semicolon rfl rfl rfl

theorem reached_firstToken (kinds : KindSet) (text : Text) :
    Reached text (firstToken kinds text) := by
  change Reached text ((if _ then _ else _ : Scan Decision) text)
  split
  · exact .of_settled (Or.inr rfl)
  split
  · exact .settled (insertIf_settled _) (stepwise_sign Move.isSkip_skip _).moves_allowed
  split
  · exact .settled (negation_settled kinds text)
      (stepwise_negation Move.isSkip_skip kinds).moves_allowed
  split
  · exact .of_next ‹_› (by decide) rfl _
  split
  · exact .of_semicolon ‹_›
  split
  · exact .of_insertIf (LeadingWord.stepwise_starts Move.isSkip_skip kinds)
  · exact .of_settled (Or.inl rfl)

theorem reached_sameLine (kinds : KindSet) (text : Text) : Reached text (sameLine kinds text) := by
  change Reached text ((if _ then _ else _ : Scan Decision) text)
  split
  · exact .of_next ‹_› (by decide) rfl _
  split
  · rename_i both
    exact .of_next (Bool.and_eq_true _ _ ▸ both).1 (by decide) rfl _
  split
  · exact .of_insertIf (stepwise_skipWord Move.isSkip_skip _)
  · exact .of_settled (Or.inr rfl)

/-- Whether a run skips a text first and then comes to an outcome on what follows it. -/
def ReachedPast (passed text : Text) (run : Run Decision) : Prop :=
  ∃ later reached, text = passed ++ later ∧ Reached later reached ∧
    run = reached.precededBy (List.replicate passed.length .skip)

theorem Reached.reachedPast {run : Run Decision} (reached : Reached text run) :
    ReachedPast [] text run := ⟨text, run, rfl, reached, rfl⟩

/-- Whether a text is empty, or starts with an annotation that is passed over on a new line. -/
def Passes (kinds : KindSet) (sawLineBreak : Bool) (passed : Text) : Prop :=
  passed = [] ∨
    sawLineBreak = true ∧ kinds.PassesAnnotations ∧ ∃ others, passed = '@' :: others

theorem reached_newLine (kinds : KindSet) (text : Text) :
    ∃ passed, Passes kinds true passed ∧ ReachedPast passed text (newLine kinds text) := by
  change ∃ passed, _ ∧ ReachedPast passed text
    ((if (text.headD '\x00' == '@') = true then _ else _ : Scan Decision) text)
  split
  · rename_i annotated
    split
    · have stepwise : Annotations.constructorFollows.Stepwise Move.IsSkip text :=
        Annotations.stepwise_constructorFollows Move.isSkip_skip
      exact ⟨[], Or.inl rfl, (Reached.of_insertIf stepwise).reachedPast⟩
    rename_i unconstructed
    split
    · rename_i accessors
      obtain ⟨rest, rfl⟩ := List.head?_eq_some_iff.mp (head?_of_headD_beq annotated (by decide))
      obtain ⟨others, later, rfl, skipped⟩ := Annotations.exists_skipAll .name rest
      have passes : kinds.PassesAnnotations :=
        ⟨Bool.not_eq_true _ ▸ unconstructed, Bool.or_eq_true _ _ ▸ accessors⟩
      have run : Annotations.skipAll .gap ('@' :: (others ++ later))
          = ⟨(), List.replicate (others.length + 1) .skip, [], later⟩ := by
        rw [Annotations.skipAll_gap_cons, skipped]
        rfl
      refine ⟨'@' :: others, Or.inr ⟨rfl, passes, others, rfl⟩, later, _, rfl, ?_,
        bind_silent run⟩
      change Reached later ((if _ then _ else _ : Scan Decision) later)
      split
      · exact .of_settled (Or.inl rfl)
      · exact reached_firstToken kinds later
    · exact ⟨[], Or.inl rfl, (Reached.of_settled (Or.inl rfl)).reachedPast⟩
  · exact ⟨[], Or.inl rfl, (reached_firstToken kinds text).reachedPast⟩

theorem reached_beforeToken (kinds : KindSet) (sawLineBreak : Bool) (text : Text) :
    ∃ passed, Passes kinds sawLineBreak passed ∧
      ReachedPast passed text (beforeToken kinds sawLineBreak text) := by
  cases sawLineBreak with
  | true => exact reached_newLine kinds text
  | false => exact ⟨[], Or.inl rfl, (reached_sameLine kinds text).reachedPast⟩

/-- What is reported is no part of the outcome. -/
theorem ReachedPast.reporting {passed : Text} {run other : Run Decision}
    (reached : ReachedPast passed text run) (value : other.value = run.value)
    (moves : other.moves = run.moves) (rest : other.rest = run.rest) :
    ReachedPast passed text other := by
  obtain ⟨later, inner, split, outcome, rfl⟩ := reached
  refine ⟨later, { inner with events := other.events }, split, ?_, ?_⟩
  · cases outcome with
    | settled value only => exact .settled value only
    | semicolon here value moves => exact .semicolon here value moves
    | left visible still whole => exact .left visible still whole
  · obtain ⟨otherValue, otherMoves, events, otherRest⟩ := other
    cases value
    cases moves
    cases rest
    rfl

/-- After a gap a decision comes to an outcome, past annotations at most. -/
theorem reached_afterGap (kinds : KindSet) (sawLineBreak : Bool) (stops : Stops isBlank text) :
    ∃ passed, Passes kinds sawLineBreak passed ∧
      ReachedPast passed text (afterGap kinds sawLineBreak text) := by
  have visible : ∃ passed, Passes kinds sawLineBreak passed ∧
      ReachedPast passed text (beforeVisible kinds sawLineBreak text) := by
    change ∃ passed, _ ∧ ReachedPast passed text
      ((if (text.headD '\x00' == '/') = true then _ else _ : Scan Decision) text)
    split
    · exact ⟨[], Or.inl rfl, (Reached.of_next ‹_› (by decide) rfl _).reachedPast⟩
    · obtain ⟨passed, passes, reached⟩ := reached_beforeToken kinds sawLineBreak text
      exact ⟨passed, passes, reached.reporting rfl (List.append_nil _) rfl⟩
  cases sawLineBreak with
  | true => exact visible
  | false =>
      cases text with
      | nil =>
          have ended : Reached [] (afterGap kinds false []) := .of_settled (Or.inl rfl)
          exact ⟨[], Or.inl rfl, ended.reachedPast⟩
      | cons c rest =>
          by_cases semicolon : c = ';'
          · subst semicolon
            have taken : Reached (';' :: rest) (afterGap kinds false (';' :: rest)) :=
              .of_semicolon rfl
            exact ⟨[], Or.inl rfl, taken.reachedPast⟩
          · rw [afterGap_cons kinds false rest semicolon]
            exact visible

end Continuation

end ContextScan

import ContextScan.Proofs.Statement.Outcome
import ContextScan.Proofs.Words.Leading

namespace ContextScan

/-! The line that a decision is about.

After a gap with a line break the decision looks at the line that starts there.  Where an accessor
may follow, it looks at what the line has after its annotations. -/

open Scan

/-- Whether a text is a gap with a line break in it, and then a line. -/
def BreaksBefore (text line : Text) : Prop :=
  ∃ gap, text = gap ++ line ∧ IsGap gap ∧ HasLineBreak gap ∧ Stops isBlank line

instance (kinds : KindSet) : Decidable kinds.PassesAnnotations :=
  inferInstanceAs (Decidable (_ ∧ _))

/-- A line without the annotations that are passed over. -/
def KindSet.unannotated (kinds : KindSet) (line : Text) : Text :=
  if kinds.PassesAnnotations then (Annotations.skipAll .gap line).rest else line

/-- Whether a line starts with a word, apart from modifiers and the blanks after them. -/
def FirstWord (word line : Text) : Prop :=
  ∃ passed rest, line = passed ++ (word ++ rest) ∧ ModifierRun passed ∧ Stops isLetter rest

/-- Annotations are passed over only where there are any. -/
theorem Annotations.skipAll_of_ne {line : Text} (stops : Stops isBlank line)
    (other : line.headD '\x00' ≠ '@') : skipAll .gap line = ⟨(), [], [], line⟩ := by
  cases line with
  | nil => exact skipAll_nil .gap
  | cons c rest =>
      have unannotated : c ≠ '@' := other
      simp [skipAll_gap_cons, stops c rfl, unannotated]

theorem KindSet.unannotated_of_ne {kinds : KindSet} {line : Text} (stops : Stops isBlank line)
    (other : line.headD '\x00' ≠ '@') : kinds.unannotated line = line := by
  rw [unannotated, Annotations.skipAll_of_ne stops other, ite_self]

theorem KindSet.unannotated_of_passes {kinds : KindSet} {line later : Text} {moves : List Move}
    (passes : kinds.PassesAnnotations)
    (skipped : Annotations.skipAll .gap line = ⟨(), moves, [], later⟩) :
    kinds.unannotated line = later := by
  rw [unannotated, if_pos passes, skipped]

namespace Continuation

variable {kinds : KindSet} {line : Text}

theorem newLine_of_ne (kinds : KindSet) (other : line.headD '\x00' ≠ '@') :
    newLine kinds line = firstToken kinds line := by
  have next : (line.headD '\x00' == '@') = false := beq_eq_false_iff_ne.mpr other
  simp only [newLine, bind_apply, peek, next, Bool.false_eq_true, if_false, List.nil_append]

theorem newLine_of_constructor (annotated : line.headD '\x00' = '@')
    (requested : kinds.has .constructor = true) :
    newLine kinds line = (do return insertIf (!(← Annotations.constructorFollows))) line := by
  have next : (line.headD '\x00' == '@') = true := beq_iff_eq.mpr annotated
  simp only [newLine, bind_apply, peek, next, requested, if_true, List.nil_append]

/-- Past the annotations before an accessor a line is decided by its first token. -/
theorem newLine_of_passes {later : Text} {moves : List Move} (annotated : line.headD '\x00' = '@')
    (passes : kinds.PassesAnnotations)
    (skipped : Annotations.skipAll .gap line = ⟨(), moves, [], later⟩) :
    newLine kinds line = ((if later.headD '\x00' == '/' then pure .insert
      else firstToken kinds : Scan Decision) later).precededBy moves := by
  have next : (line.headD '\x00' == '@') = true := beq_iff_eq.mpr annotated
  have accessors : (kinds.has .getter || kinds.has .setter) = true :=
    Bool.or_eq_true _ _ ▸ passes.2
  have dispatched : newLine kinds line = (do
      Annotations.skipAll .gap
      if (← peek) == '/' then pure .insert else firstToken kinds : Scan Decision) line := by
    simp only [newLine, bind_apply, peek, next, passes.1, accessors, Bool.false_eq_true, if_true,
      if_false, List.nil_append]
  rw [dispatched]
  exact bind_silent skipped

theorem newLine_of_neither (annotated : line.headD '\x00' = '@')
    (unrequested : kinds.has .constructor = false) (passesNot : ¬kinds.PassesAnnotations) :
    newLine kinds line = ⟨.insert, [], [], line⟩ := by
  have next : (line.headD '\x00' == '@') = true := beq_iff_eq.mpr annotated
  have accessors : (kinds.has .getter || kinds.has .setter) = false := by
    rw [← Bool.not_eq_true, Bool.or_eq_true]
    exact fun either => passesNot ⟨unrequested, either⟩
  simp only [newLine, bind_apply, peek, next, unrequested, accessors, Bool.false_eq_true, if_true,
    if_false, List.nil_append, pure_apply]

theorem beforeVisible_of_slash (kinds : KindSet) (sawLineBreak : Bool)
    (slash : line.headD '\x00' = '/') :
    beforeVisible kinds sawLineBreak line = ⟨.comment, [], [], line⟩ := by
  have next : (line.headD '\x00' == '/') = true := beq_iff_eq.mpr slash
  simp only [beforeVisible, bind_apply, peek, next, if_true, pure_apply, List.nil_append]

theorem unmarked_of_stepwise {α : Type} {scan : Scan α} {text : Text}
    (stepwise : scan.Stepwise Move.IsSkip text) : .markEnd ∉ (scan text).moves := by
  intro member
  cases stepwise.moves_allowed .markEnd member

theorem unmarked_skips (count : Nat) : Move.markEnd ∉ List.replicate count Move.skip := by
  simp [List.mem_replicate]

/-- A line that starts with a letter is decided by its first word, past annotations. -/
theorem newLine_of_letter (stops : Stops isBlank line)
    (letter : isLetter ((kinds.unannotated line).headD '\x00') = true) :
    (newLine kinds line).value
        = insertIf (LeadingWord.starts kinds (kinds.unannotated line)).value ∧
      .markEnd ∉ (newLine kinds line).moves := by
  have unmarked (later : Text) : .markEnd ∉ ((do
      return insertIf (← LeadingWord.starts kinds)) later).moves :=
    unmarked_of_stepwise (.bind (LeadingWord.stepwise_starts Move.isSkip_skip kinds) (.pure _))
  by_cases annotated : line.headD '\x00' = '@'
  · by_cases passes : kinds.PassesAnnotations
    · obtain ⟨passed, later, rfl, skipped⟩ := Annotations.exists_skipAll .gap line
      rw [KindSet.unannotated_of_passes passes skipped] at letter ⊢
      have other : (later.headD '\x00' == '/') = false := by
        rw [beq_eq_false_iff_ne]
        intro slash
        rw [slash] at letter
        cases letter
      rw [newLine_of_passes annotated passes skipped, other, if_neg Bool.false_ne_true,
        firstToken_of_letter kinds letter]
      refine ⟨rfl, fun member => ?_⟩
      exact (List.mem_append.mp member).elim (unmarked_skips _) (unmarked later)
    · rw [KindSet.unannotated, if_neg passes, annotated] at letter
      cases letter
  · rw [KindSet.unannotated_of_ne stops annotated] at letter ⊢
    rw [newLine_of_ne kinds annotated, firstToken_of_letter kinds letter]
    exact ⟨rfl, unmarked line⟩

/-- The run that reports what it decided. -/
def reporting (sawLineBreak : Bool) (run : Run Decision) : Run Decision :=
  { run with events := run.events ++ [.terminatorDecision run.value sawLineBreak] }

theorem beforeVisible_of_ne (kinds : KindSet) (sawLineBreak : Bool)
    (other : line.headD '\x00' ≠ '/') :
    beforeVisible kinds sawLineBreak line
      = reporting sawLineBreak (beforeToken kinds sawLineBreak line) := by
  have next : (line.headD '\x00' == '/') = false := beq_eq_false_iff_ne.mpr other
  simp only [beforeVisible, bind_apply, peek, note, next, Bool.false_eq_true, if_false,
    pure_apply, List.nil_append, List.append_nil, reporting]

/-- After a line break the line decides, if it is no comment. -/
theorem afterGap_newLine (kinds : KindSet) (other : line.headD '\x00' ≠ '/') :
    afterGap kinds true line = reporting true (newLine kinds line) :=
  beforeVisible_of_ne kinds true other

/-- A decision at a line that starts with a letter. -/
theorem decision_of_letter {gap : Text} (blank : IsGap gap) (broken : HasLineBreak gap)
    (stops : Stops isBlank line)
    (letter : isLetter ((kinds.unannotated line).headD '\x00') = true) :
    ∃ (run : Run Decision) (skips : Nat), decision kinds (gap ++ line)
        = run.precededBy (.markEnd :: List.replicate skips .skip) ∧
      run.value = insertIf (LeadingWord.starts kinds (kinds.unannotated line)).value ∧
      .markEnd ∉ run.moves := by
  have other : line.headD '\x00' ≠ '/' := by
    intro slash
    have unannotated : line.headD '\x00' ≠ '@' := by
      rw [slash]
      decide
    rw [KindSet.unannotated_of_ne stops unannotated, slash] at letter
    cases letter
  obtain ⟨value, unmarked⟩ := newLine_of_letter stops letter
  refine ⟨reporting true (newLine kinds line), gap.length, ?_, value, unmarked⟩
  rw [decision_append kinds blank stops, broken]
  exact congrArg (Run.precededBy · _) (beforeVisible_of_ne kinds true other)

end Continuation

/-- The word that is captured past the modifiers is the first that is none. -/
theorem LeadingWord.firstWord_of_contextWord? {line : Text} {word : ContextWord}
    (captured : (afterModifiers line).value.contextWord? = some word) :
    FirstWord word.spelling.toList line := by
  obtain ⟨passed, run, rest, rfl, _, stops, modified, run_eq⟩ := exists_afterModifiers line
  rw [run_eq] at captured
  have spelled : run = word.spelling.toList := Word.contextWord?_ofRun_iff.mp captured
  have nonempty : run ≠ [] := by
    rw [spelled]
    cases word <;> decide
  refine ⟨passed, rest, ?_, modified nonempty, stops⟩
  rw [spelled]

end ContextScan

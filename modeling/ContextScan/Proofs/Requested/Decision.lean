import ContextScan.Proofs.Statement.Line

namespace ContextScan

/-! Which requested kinds a decision depends on.

A decision asks for some of the requested kinds as context.  Two sets that agree on those decide
alike on every text.  The kind of a terminator between class members is asked for in one place only:
it makes a line that starts with `constructor` start a statement, where that would else depend on
what follows. -/

open Scan

namespace KindSet

/-- Whether two sets have the same of some kinds. -/
def AgreeOn (kinds : List TokenKind) (left right : KindSet) : Prop :=
  ∀ kind ∈ kinds, left.has kind = right.has kind

/-- The kinds that a decision asks for on every line. -/
def decisive : List TokenKind :=
  [.notIs, .membership, .safeNav, .constructor, .getter, .setter]

variable {left right : KindSet}

theorem passesAnnotations_congr (agree : left.AgreeOn decisive right) :
    left.PassesAnnotations ↔ right.PassesAnnotations := by
  simp only [PassesAnnotations, agree .constructor (by decide), agree .getter (by decide),
    agree .setter (by decide)]

theorem unannotated_congr (agree : left.AgreeOn decisive right) (line : Text) :
    left.unannotated line = right.unannotated line := by
  simp only [unannotated, passesAnnotations_congr agree]

end KindSet

variable {left right : KindSet}

namespace LeadingWord

theorem contextWordStarts_congr (agree : left.AgreeOn KindSet.decisive right) {word : ContextWord}
    (same : word = .constructor → left.has .memberSemi = right.has .memberSemi) :
    contextWordStarts left word = contextWordStarts right word := by
  cases word with
  | constructor => simp only [contextWordStarts, constructorStarts, same rfl]
  | getter => simp only [contextWordStarts, getterStarts, agree .getter (by decide)]
  | setter => simp only [contextWordStarts, setterStarts, agree .setter (by decide)]
  | membership => simp only [contextWordStarts, agree .membership (by decide)]
  | otherwise | instanceTest | delegation | cast | constraints => rfl

theorem starts_congr (agree : left.AgreeOn KindSet.decisive right)
    (same : left.has .memberSemi = right.has .memberSemi) : starts left = starts right := by
  have words : contextWordStarts left = contextWordStarts right :=
    funext fun _ => contextWordStarts_congr agree fun _ => same
  rw [starts, starts, words]

/-- Only a line that starts with `constructor` starts a statement for the sake of class members. -/
theorem starts_member (agree : left.AgreeOn KindSet.decisive right)
    (alone : left.has .memberSemi = false) (member : right.has .memberSemi = true) (line : Text) :
    starts left line = starts right line ∨
      (starts left line).value = false ∧ (starts right line).value = true ∧
        FirstWord ContextWord.constructor.spelling.toList line := by
  obtain ⟨_, run, rest, _, _, _, _, captured⟩ := exists_afterModifiers line
  rw [starts_eq_judge left captured, starts_eq_judge right captured]
  cases known : (Word.ofRun run).contextWord? with
  | none => exact Or.inl (by simp only [judge, known])
  | some word =>
      by_cases here : word = .constructor
      · subst here
        cases access : (constructorStarts left rest).value with
        | true =>
            have same : constructorStarts left rest = constructorStarts right rest := by
              simp only [constructorStarts, bind_apply, alone, member, Bool.false_or, Bool.true_or,
                pure_apply] at access ⊢
              rw [access]
            exact Or.inl (by simp only [judge, known, contextWordStarts, bind_apply, same])
        | false =>
            right
            have first : FirstWord ContextWord.constructor.spelling.toList line :=
              firstWord_of_contextWord? (by rw [captured]; exact known)
            refine ⟨by simp only [judge, known]; exact access, ?_, first⟩
            simp [judge, known, contextWordStarts, constructorStarts, member, Run.precededBy]
      · have words := contextWordStarts_congr agree fun same => absurd same here
        exact Or.inl (by simp only [judge, known, words])

end LeadingWord

namespace Continuation

theorem firstToken_congr (agree : left.AgreeOn KindSet.decisive right)
    (same : left.has .memberSemi = right.has .memberSemi) :
    firstToken left = firstToken right := by
  simp only [firstToken, negation, LeadingWord.starts_congr agree same,
    agree .safeNav (by decide), agree .notIs (by decide)]

theorem decision_congr (agree : left.AgreeOn KindSet.decisive right)
    (same : left.has .memberSemi = right.has .memberSemi) : decision left = decision right := by
  simp only [decision, beforeToken, newLine, sameLine, firstToken_congr agree same,
    agree .safeNav (by decide), agree .constructor (by decide), agree .getter (by decide),
    agree .setter (by decide)]

/-- Whether the first run suppresses a terminator that the second inserts, taking nothing. -/
structure Adds (first second : Run Decision) : Prop where
  suppressed : first.value = .suppress
  inserted : second.value = .insert
  unmarked : .markEnd ∉ second.moves

theorem Adds.precededBy {first second : Run Decision} (adds : Adds first second)
    {moves : List Move} (unmarked : .markEnd ∉ moves) :
    Adds (first.precededBy moves) (second.precededBy moves) :=
  ⟨adds.suppressed, adds.inserted, fun member =>
    (List.mem_append.mp member).elim unmarked adds.unmarked⟩

section Member

variable (agree : left.AgreeOn KindSet.decisive right) (alone : left.has .memberSemi = false)
  (member : right.has .memberSemi = true)

include agree alone member

theorem firstToken_member (line : Text) :
    firstToken left line = firstToken right line ∨
      Adds (firstToken left line) (firstToken right line) ∧
        FirstWord ContextWord.constructor.spelling.toList line := by
  cases letter : isLetter (line.headD '\x00') with
  | false =>
      left
      simp only [firstToken, negation, bind_apply, peek, letter, agree .safeNav (by decide),
        agree .notIs (by decide), Bool.false_eq_true, if_false]
  | true =>
      rw [firstToken_of_letter left letter, firstToken_of_letter right letter]
      rcases LeadingWord.starts_member agree alone member line with same | ⟨goes, starts, first⟩
      · left
        rw [bind_apply, bind_apply, same]
      · right
        refine ⟨⟨by simp [goes, insertIf], by simp [starts, insertIf], ?_⟩, first⟩
        exact unmarked_of_stepwise (.bind (LeadingWord.stepwise_starts Move.isSkip_skip right)
          (.pure _))

theorem newLine_member {line : Text} (stops : Stops isBlank line) :
    newLine left line = newLine right line ∨
      Adds (newLine left line) (newLine right line) ∧
        FirstWord ContextWord.constructor.spelling.toList (right.unannotated line) := by
  have passes := KindSet.passesAnnotations_congr agree
  by_cases annotated : line.headD '\x00' = '@'
  · cases requested : right.has .constructor with
    | true =>
        left
        rw [newLine_of_constructor annotated requested,
          newLine_of_constructor annotated ((agree .constructor (by decide)).trans requested)]
    | false =>
        have unrequested := (agree .constructor (by decide)).trans requested
        by_cases accessors : right.PassesAnnotations
        · obtain ⟨passed, later, rfl, skipped⟩ := Annotations.exists_skipAll .gap line
          rw [newLine_of_passes annotated accessors skipped,
            newLine_of_passes annotated (passes.mpr accessors) skipped,
            KindSet.unannotated_of_passes accessors skipped]
          split
          · exact Or.inl rfl
          · rcases firstToken_member agree alone member later with same | ⟨adds, first⟩
            · exact Or.inl (by rw [same])
            · exact Or.inr ⟨adds.precededBy (unmarked_skips _), first⟩
        · left
          rw [newLine_of_neither annotated requested accessors,
            newLine_of_neither annotated unrequested (mt passes.mp accessors)]
  · rw [newLine_of_ne left annotated, newLine_of_ne right annotated,
      KindSet.unannotated_of_ne stops annotated]
    exact firstToken_member agree alone member line

theorem beforeVisible_member {line : Text} (stops : Stops isBlank line) :
    beforeVisible left true line = beforeVisible right true line ∨
      Adds (beforeVisible left true line) (beforeVisible right true line) ∧
        FirstWord ContextWord.constructor.spelling.toList (right.unannotated line) := by
  by_cases slash : line.headD '\x00' = '/'
  · left
    rw [beforeVisible_of_slash left true slash, beforeVisible_of_slash right true slash]
  · rw [beforeVisible_of_ne left true slash, beforeVisible_of_ne right true slash]
    rcases newLine_member agree alone member stops with same | ⟨adds, first⟩
    · exact Or.inl (congrArg (reporting true) same)
    · exact Or.inr ⟨⟨adds.suppressed, adds.inserted, adds.unmarked⟩, first⟩

/-- Where class members may follow, a decision differs at most on a line that starts with
`constructor`. -/
theorem decision_member (text : Text) :
    decision left text = decision right text ∨
      (decision left text).value = .suppress ∧
        (∃ (run : Run Decision) (skips : Nat), decision right text
          = run.precededBy (.markEnd :: List.replicate skips .skip) ∧
            run.value = .insert ∧ .markEnd ∉ run.moves) ∧
        ∃ line, BreaksBefore text line ∧
          FirstWord ContextWord.constructor.spelling.toList (right.unannotated line) := by
  obtain ⟨gap, line, rfl, blank, stops⟩ := exists_gap text
  rw [decision_append left blank stops, decision_append right blank stops]
  cases broken : gap.any isLineBreak with
  | false =>
      left
      have same : beforeVisible left false = beforeVisible right false := by
        simp only [beforeVisible, beforeToken, sameLine, agree .safeNav (by decide),
          Bool.false_eq_true, if_false]
      have after : afterGap left false line = afterGap right false line := by
        simp only [afterGap, same, Bool.false_eq_true, if_false]
      rw [after]
  | true =>
      rcases beforeVisible_member agree alone member stops with same | ⟨adds, first⟩
      · exact Or.inl (congrArg (Run.precededBy · _) same)
      · right
        exact ⟨adds.suppressed, ⟨_, _, rfl, adds.inserted, adds.unmarked⟩, line,
          ⟨gap, rfl, blank, broken, stops⟩, first⟩

end Member

end Continuation

end ContextScan

import ContextScan.Proofs.Statement.OperatorLine

namespace ContextScan

/-! Lines that start with a negation.

A `!` on a new line negates what follows it and starts a statement, unless a `=` follows: `!=` goes
on with the statement before it.  Where a negated type check is requested, an `i` after the `!` is
passed over before the `=` is looked for, so that a `=` after the `i` counts as well. -/

open Scan Continuation

/-- Whether a line that starts with `!` goes on with the statement before it. -/
def NegationContinues (kinds : KindSet) (rest : Text) : Prop :=
  rest.head? = some '=' ∨ kinds.has .notIs = true ∧ "i=".toList <+: rest

namespace Continuation

/-- What stands where the `=` is looked for. -/
def afterBang (kinds : KindSet) (rest : Text) : Text :=
  if kinds.has .notIs && rest.headD '\x00' == 'i' then rest.tail else rest

theorem head?_afterBang_iff (kinds : KindSet) (rest : Text) :
    (afterBang kinds rest).head? = some '=' ↔ NegationContinues kinds rest := by
  rw [afterBang, NegationContinues]
  split
  · rename_i passed
    obtain ⟨requested, next⟩ := Bool.and_eq_true _ _ ▸ passed
    obtain ⟨later, rfl⟩ := List.head?_eq_some_iff.mp ((beq_headD_iff (by decide)).mp next)
    constructor
    · intro equals
      obtain ⟨more, rfl⟩ := List.head?_eq_some_iff.mp equals
      exact Or.inr ⟨requested, more, rfl⟩
    · rintro (equals | ⟨_, more, same⟩)
      · cases equals
      · cases same
        rfl
  · rename_i unpassed
    constructor
    · exact Or.inl
    · rintro (equals | ⟨requested, more, rfl⟩)
      · exact equals
      · exact absurd requested (by simpa using unpassed)

/-- The `s` of a type check is no `=`, so it makes no difference whether it is passed over. -/
theorem negation_value (kinds : KindSet) (rest : Text) :
    (negation kinds ('!' :: rest)).value
      = insertIf ((afterBang kinds rest).headD '\x00' != '=') := by
  change ((if (kinds.has .notIs && rest.headD '\x00' == 'i') = true then _ else _ : Scan Decision)
    rest).value = _
  rw [afterBang]
  split
  · change ((if (rest.tail.headD '\x00' == 's') = true then _ else _ : Scan Decision)
      rest.tail).value = _
    split
    · rename_i checks
      rw [eq_of_beq checks]
      rfl
    · rfl
  · rfl

theorem firstToken_of_bang (kinds : KindSet) {rest : Text} {continues : Bool}
    (decided : continues = true ↔ NegationContinues kinds rest) :
    (firstToken kinds ('!' :: rest)).value = insertIf (!continues) := by
  change (negation kinds ('!' :: rest)).value = _
  have same : ((afterBang kinds rest).headD '\x00' == '=') = continues := by
    rw [Bool.eq_iff_iff, beq_headD_iff (by decide), head?_afterBang_iff, decided]
  rw [negation_value, ← same]
  rfl

end Continuation

/-- On a new line that starts with `!` a terminator that takes nothing is inserted, unless the line
goes on with the statement before it.  It does so before a `=`, and where a negated type check is
requested also before `i=`. -/
theorem Token.scan?_negation {kinds : KindSet} {terminator : TokenKind}
    (requested : kinds.terminator? = some terminator) (outside : kinds.has .stringContent = false)
    (front : Text) {gap : Text} (blank : IsGap gap) (broken : HasLineBreak gap) (rest : Text) :
    let offset := byteSize front
    let produced? := scan? (front ++ (gap ++ '!' :: rest)) offset kinds
    (NegationContinues kinds rest → produced? = none) ∧
    (¬NegationContinues kinds rest →
      produced? = some ⟨terminator, ⟨⟨offset, offset⟩, ⟨offset, offset⟩⟩⟩) := by
  intro offset produced?
  have settled {continues : Bool} (decided : continues = true ↔ NegationContinues kinds rest) :
      Request.reading? kinds (gap ++ '!' :: rest)
        = if !continues then some (.nothing terminator) else none :=
    Request.reading?_firstToken outside requested blank broken (.cons rfl) (by simp) (by simp)
      (by simp) (firstToken_of_bang kinds decided)
  constructor
  · intro continues
    exact scan?_of_none front (settled (iff_of_true rfl continues))
  · intro starts
    exact scan?_of_nothing front (settled (iff_of_false Bool.false_ne_true starts))

/-- A negated type check on a new line starts a statement, whether it is requested or not. -/
theorem Token.scan?_negation_typeCheck :
    ¬NegationContinues (.ofList [.semi, .notIs]) "is A".toList ∧
      scan? "é\r\n\t!is A".toList 2 (.ofList [.semi, .notIs])
        = some ⟨.semi, ⟨⟨2, 2⟩, ⟨2, 2⟩⟩⟩ := by
  have starts : ¬NegationContinues (.ofList [.semi, .notIs]) "is A".toList := by
    simp [NegationContinues]
  have blank : IsGap ['\r', '\n', '\t'] := by simp [IsGap, isBlank]
  exact ⟨starts, (scan?_negation (by decide) (by decide) ['é'] blank rfl "is A".toList).2 starts⟩

/-- The end of the statement before a negated `i` that is compared depends on whether a negated
type check is requested. -/
theorem Token.scan?_negation_lost :
    scan? "\n!i==j".toList 0 (.ofList [.semi]) = some ⟨.semi, ⟨⟨0, 0⟩, ⟨0, 0⟩⟩⟩ ∧
      scan? "\n!i==j".toList 0 (.ofList [.semi, .notIs]) = none := by
  decide +kernel

end ContextScan

import ContextScan.Proofs.Text.Places
import ContextScan.Proofs.Token.Forms

namespace ContextScan

/-! What lies before a token in what its call consumes.

It is a gap, except in one case.  Where an accessor may follow, annotations at the start of a line
are passed over to look at what stands after them; and when that is a `;` or safe navigation, the
token is taken there, and the annotations are consumed with it. -/

/-- Whether a text starts with a line of annotations, and they are passed over. -/
def AnnotatesAccessor (kinds : KindSet) (text : Text) : Prop :=
  kinds.PassesAnnotations ∧
    ∃ gap later, text = gap ++ '@' :: later ∧ IsGap gap ∧ HasLineBreak gap

theorem TokenKind.Spells.not_annotated {kind : TokenKind} {lexeme : Text}
    (spells : kind.Spells lexeme) {gap : Text} (blank : IsGap gap) (kinds : KindSet) (rest : Text) :
    ¬AnnotatesAccessor kinds (gap ++ (lexeme ++ rest)) := by
  rintro ⟨_, other, later, same, otherBlank, _⟩
  obtain ⟨c, lexeme, rfl, initial⟩ := spells.exists_initial
  have visible : Stops isBlank (c :: (lexeme ++ rest)) := .cons (isBlank_initial initial)
  have annotated : Stops isBlank ('@' :: later) := .cons rfl
  obtain ⟨_, starts⟩ := blank.append_inj otherBlank visible annotated same
  rw [(List.cons.inj starts).1] at initial
  exact absurd initial (by decide)

theorem Reading.Formed.isGap_trivia_iff {kinds : KindSet} {reading : Reading}
    (formed : reading.Formed kinds) (rest : Text) :
    IsGap reading.trivia ↔ reading.trivia ++ reading.lexeme = [] ∨ reading.kind = .stringContent ∨
      ¬AnnotatesAccessor kinds (reading.trivia ++ (reading.lexeme ++ rest)) := by
  cases formed with
  | content => simp [IsGap]
  | inserted => simp [IsGap, nothing]
  | taken blank spells =>
      constructor
      · intro _
        exact Or.inr (Or.inr (spells.not_annotated blank kinds rest))
      · intro _
        exact blank
  | @annotated kind gap annotations lexeme blank broken passes spells =>
      constructor
      · intro all
        have start := all '@' (by simp)
        cases start
      · rintro (nothing | content | unannotated)
        · simp at nothing
        · dsimp only at content
          subst content
          exact spells.elim
        · apply absurd _ unannotated
          exact ⟨passes, gap, annotations ++ (lexeme ++ rest), by simp, blank, broken⟩

/-- A token has a gap as its trivia unless annotations of an accessor were passed over.

The three exceptions are tokens that the annotations cannot matter to: one for which nothing is
consumed, the content of a raw string, and one before which there are none. -/
theorem trivia_blank_iff {text : Text} {offset : Nat} {kinds : KindSet} {token : Token}
    (produced : Token.scan? text offset kinds = some token) :
    let trivia := ByteRange.mk token.span.consumed.start token.span.token.start
    (∀ c ∈ trivia.slice text, isBlank c = true) ↔
      token.span.consumed.isEmpty = true ∨ token.kind = .stringContent ∨
        ¬AnnotatesAccessor kinds (dropBytes text offset) := by
  intro trivia
  obtain ⟨front, reading, rest, rfl, rfl, rfl, read⟩ := Token.split_of_scan? produced
  have slice : trivia.slice (front ++ (reading.trivia ++ (reading.lexeme ++ rest)))
      = reading.trivia := slice_append front reading.trivia (reading.lexeme ++ rest)
  have empty : (reading.token (byteSize front)).span.consumed.isEmpty = true
      ↔ reading.trivia ++ reading.lexeme = [] := by
    change decide (byteSize front + byteSize reading.trivia + byteSize reading.lexeme
      ≤ byteSize front) = true ↔ _
    rw [decide_eq_true_eq, ← byteSize_eq_zero_iff, byteSize_append]
    omega
  rw [slice, empty, dropBytes_byteSize_append]
  exact (Request.formed_of_reading? read).isGap_trivia_iff rest

/-- An annotation that is passed over before safe navigation is not blank. -/
theorem trivia_annotated_safeNav :
    let text := "a\n@A ?.b".toList
    let kinds := KindSet.ofList [.memberSemi, .setter, .safeNav]
    Token.scan? text 1 kinds = some ⟨.safeNav, ⟨⟨1, 7⟩, ⟨5, 7⟩⟩⟩ ∧
      ¬∀ c ∈ (ByteRange.mk 1 5).slice text, isBlank c = true := by
  intro text kinds
  have produced : Token.scan? text 1 kinds = some ⟨.safeNav, ⟨⟨1, 7⟩, ⟨5, 7⟩⟩⟩ := by decide +kernel
  have annotates : AnnotatesAccessor kinds (dropBytes text 1) := by
    refine ⟨⟨by decide, Or.inr (by decide)⟩, ['\n'], "A ?.b".toList, by decide, ?_, rfl⟩
    simp [IsGap, isBlank]
  refine ⟨produced, fun blank => ?_⟩
  rcases (trivia_blank_iff produced).mp blank with empty | content | unannotated
  · exact absurd empty (by decide)
  · exact absurd content (by decide)
  · exact unannotated annotates

/-- An annotation that is passed over before a `;` lies in the trivia of the terminator. -/
theorem trivia_annotated_semicolon :
    let text := "\n@A ;".toList
    let token : Token := ⟨.semi, ⟨⟨0, 5⟩, ⟨4, 5⟩⟩⟩
    let trivia := ByteRange.mk token.span.consumed.start token.span.token.start
    Token.scan? text 0 (KindSet.ofList [.semi, .getter]) = some token ∧
      '@' ∈ trivia.slice text ∧ isBlank '@' = false := by
  decide +kernel

end ContextScan

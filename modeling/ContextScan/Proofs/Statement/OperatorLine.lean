import ContextScan.Proofs.SoftToken.BesideTerminator

namespace ContextScan

/-! Lines that start with an operator.

On a new line the first character decides, unless it starts a word, a negation or an annotation.
Most operators go on with the statement, and what is no operator starts a new one.  A doubled sign
and a sign before a digit are no operators.  Only safe navigation and a comment are left to their
resolvers. -/

open Scan Continuation

namespace Continuation

variable {line : Text}

theorem firstToken_of_continuing (kinds : KindSet) {c : Char} (rest : Text)
    (continues : c ∈ continuing) : (firstToken kinds (c :: rest)).value = .suppress := by
  have listed : continuing.contains c = true := List.contains_iff_mem.mpr continues
  change ((if continuing.contains c then _ else _ : Scan Decision) (c :: rest)).value = _
  rw [if_pos listed, pure_apply]

theorem firstToken_of_sign (kinds : KindSet) {c : Char} (rest : Text) (sign : c = '+' ∨ c = '-') :
    (firstToken kinds (c :: rest)).value
      = insertIf (rest.head?.any fun next => next == c || next.isDigit) := by
  have next : (firstToken kinds (c :: rest)).value
      = insertIf (rest.headD '\x00' == c || (rest.headD '\x00').isDigit) := by
    rcases sign with rfl | rfl
    · rfl
    · rfl
  rw [next]
  cases rest with
  | nil => rcases sign with rfl | rfl <;> rfl
  | cons next rest => rfl

theorem firstToken_of_question (kinds : KindSet) (rest : Text) : firstToken kinds ('?' :: rest)
    = ⟨if kinds.has .safeNav then .safeNav else .insert, [], [], '?' :: rest⟩ := rfl

theorem firstToken_of_other (kinds : KindSet) (other : line.headD '\x00' ∉ signs)
    (letter : isLetter (line.headD '\x00') = false) :
    (firstToken kinds line).value = .insert := by
  rw [firstToken_of_notMem kinds other, letter, if_neg Bool.false_ne_true, pure_apply]

/-- Only a `;` is marked. -/
theorem unmarked_firstToken (kinds : KindSet) (semicolon : line.headD '\x00' ≠ ';') :
    .markEnd ∉ (firstToken kinds line).moves := by
  intro member
  cases reached_firstToken kinds line with
  | settled _ only => cases only .markEnd member
  | semicolon here => exact semicolon (congrArg (·.headD '\x00') here)
  | left _ still =>
      rw [still] at member
      exact List.not_mem_nil member

/-- After a line break the first token decides, if it is no comment and no annotation. -/
theorem afterGap_firstToken (kinds : KindSet) (slash : line.headD '\x00' ≠ '/')
    (annotated : line.headD '\x00' ≠ '@') :
    afterGap kinds true line = reporting true (firstToken kinds line) := by
  rw [afterGap_newLine kinds slash, newLine_of_ne kinds annotated]

end Continuation

section Requested

variable {kinds : KindSet} {terminator : TokenKind} {gap line : Text}
  (outside : kinds.has .stringContent = false) (requested : kinds.terminator? = some terminator)
  (blank : IsGap gap) (broken : HasLineBreak gap)

include outside requested blank broken

/-- A terminator is inserted on a new line exactly if the first token starts a statement. -/
theorem Request.reading?_firstToken (stops : Stops isBlank line) (slash : line.headD '\x00' ≠ '/')
    (annotated : line.headD '\x00' ≠ '@') (semicolon : line.headD '\x00' ≠ ';') {starts : Bool}
    (value : (firstToken kinds line).value = insertIf starts) :
    reading? kinds (gap ++ line) = if starts then some (.nothing terminator) else none := by
  have decides := decision_append kinds blank stops
  rw [broken, afterGap_firstToken kinds slash annotated] at decides
  cases starts with
  | true =>
      exact reading?_of_insert outside requested decides value (unmarked_firstToken kinds semicolon)
  | false =>
      apply reading?_of_suppress outside requested
      rw [decides]
      exact value

/-- Where safe navigation is requested, a `?` is left to it. -/
theorem Request.reading?_question (safeNav : kinds.has .safeNav = true) (rest : Text) :
    reading? kinds (gap ++ '?' :: rest)
      = ((softToken kinds ('?' :: rest)).reading? ('?' :: rest)).map (Reading.after gap) := by
  have after : afterGap kinds (gap.any isLineBreak) ('?' :: rest)
      = reporting true ⟨.safeNav, [], [], '?' :: rest⟩ := by
    rw [broken, afterGap_firstToken kinds (by simp) (by simp), firstToken_of_question, safeNav]
    rfl
  have asked : softToken kinds ('?' :: rest) = SoftOperator.safeNav ('?' :: rest) := by
    simp [softToken, peek, safeNav]
  rw [reading?_of_left outside requested blank (.cons rfl) after (by simp [reporting]), asked]
  rfl

end Requested

namespace Token

variable {kinds : KindSet} {front gap rest : Text} {c : Char} {kind : TokenKind} {token : Token}

/-- The soft token after a gap is of the kind that starts with the character there. -/
theorem SoftAt.kind_eq (soft : token.SoftAt (front ++ (gap ++ c :: rest)) (byteSize front))
    (blank : IsGap gap) (visible : isBlank c = false) (initial : kind.softInitial? = some c) :
    token.kind = kind := by
  obtain ⟨reading, standing, rfl⟩ := (softAt_iff blank (.cons visible)).mp soft
  exact standing.kind_eq rfl initial

/-- A character that is left to the soft tokens is left to those of its kind. -/
theorem scan?_iff_of_initial (blank : IsGap gap) (visible : isBlank c = false)
    (initial : kind.softInitial? = some c) (left : Request.reading? kinds (gap ++ c :: rest)
      = ((Request.softToken kinds (c :: rest)).reading? (c :: rest)).map (Reading.after gap)) :
    scan? (front ++ (gap ++ c :: rest)) (byteSize front) kinds = some token ↔
      kinds.Admits kind ∧ token.kind = kind ∧
        token.SoftAt (front ++ (gap ++ c :: rest)) (byteSize front) := by
  rw [scan?_iff_of_softToken blank (.cons visible) left]
  constructor
  · intro ⟨admitted, soft⟩
    have same := soft.kind_eq blank visible initial
    exact ⟨same ▸ admitted, same, soft⟩
  · rintro ⟨admitted, rfl, soft⟩
    exact ⟨admitted, soft⟩

end Token

/-- The characters that a statement goes on with on a new line.  A `/` is left out, because it may
start a comment, which is looked for first. -/
def goingOn : Text := [',', '.', ':', '*', '%', '>', '<', '=', '{', '[', '|', '&']

/-- What a request for a terminator comes to after a line break, by the first character of the
line.  The inserted terminator stays where the call starts, however many lines were passed. -/
theorem Token.scan?_operatorLine {kinds : KindSet} {terminator : TokenKind}
    (requested : kinds.terminator? = some terminator) (outside : kinds.has .stringContent = false)
    (front : Text) {gap line : Text} (blank : IsGap gap) (broken : HasLineBreak gap)
    (other : ∀ c, line.head? = some c →
      isBlank c = false ∧ c ≠ '!' ∧ c ≠ '@' ∧ isLetter c = false) :
    let text := front ++ (gap ++ line)
    let offset := byteSize front
    let produced? := scan? text offset kinds
    let inserted : Token := ⟨terminator, ⟨⟨offset, offset⟩, ⟨offset, offset⟩⟩⟩
    (line = [] → produced? = some inserted) ∧
    ∀ c rest, line = c :: rest →
      (c ∈ goingOn → produced? = none) ∧
      (c = '+' ∨ c = '-' → produced? =
        if rest.head?.any fun next => next == c || next.isDigit then some inserted else none) ∧
      (c = '?' → if kinds.has .safeNav
        then ∀ token, produced? = some token ↔ token.kind = .safeNav ∧ token.SoftAt text offset
        else produced? = some inserted) ∧
      (c = ';' → let start := offset + byteSize gap
        produced? = some ⟨terminator, ⟨⟨offset, start + 1⟩, ⟨start, start + 1⟩⟩⟩) ∧
      (c = '/' → ∀ token, produced? = some token ↔
        (kinds.has .blockComment = true ∧ kinds.has .dollar = false) ∧
          token.kind = .blockComment ∧ token.SoftAt text offset) ∧
      (c ∉ goingOn ++ ['+', '-', '?', ';', '/'] → produced? = some inserted) := by
  intro text offset produced? inserted
  have stops : Stops isBlank line := fun c next => (other c next).1
  have read : produced? = (Request.reading? kinds (gap ++ line)).map (Reading.token offset) :=
    scan?_eq_reading? front (gap ++ line) kinds
  -- Where the first token settles it, the terminator is inserted or not.
  have settled (starts : Bool) (slash : line.headD '\x00' ≠ '/')
      (annotated : line.headD '\x00' ≠ '@') (semicolon : line.headD '\x00' ≠ ';')
      (value : (firstToken kinds line).value = insertIf starts) :
      produced? = if starts then some inserted else none := by
    rw [read, Request.reading?_firstToken outside requested blank broken stops slash annotated
      semicolon value]
    cases starts <;> rfl
  constructor
  · rintro rfl
    exact settled true (by decide) (by decide) (by decide)
      (firstToken_of_other kinds (by decide) isLetter_nul)
  rintro c rest rfl
  obtain ⟨visible, negation, annotated, letter⟩ := other c rfl
  refine ⟨?_, ?_, ?_, ?_, ?_, ?_⟩
  · intro goes
    have listed : ∀ c ∈ goingOn, c ∈ continuing ∧ c ≠ '/' ∧ c ≠ ';' := by
      simp [goingOn, continuing]
    obtain ⟨continues, slash, semicolon⟩ := listed c goes
    exact settled false slash annotated semicolon
      (firstToken_of_continuing kinds rest continues)
  · intro sign
    obtain ⟨slash, semicolon⟩ : c ≠ '/' ∧ c ≠ ';' := by
      rcases sign with rfl | rfl <;> decide
    exact settled _ slash annotated semicolon (firstToken_of_sign kinds rest sign)
  · rintro rfl
    cases safeNav : kinds.has .safeNav with
    | true =>
        intro token
        have left := Request.reading?_question outside requested blank broken safeNav rest
        have found : produced? = some token ↔ kinds.Admits .safeNav ∧ token.kind = .safeNav ∧
            token.SoftAt text offset := scan?_iff_of_initial blank visible rfl left
        simpa [KindSet.Admits, safeNav] using found
    | false =>
        have starts : (firstToken kinds ('?' :: rest)).value = insertIf true := by
          rw [firstToken_of_question, safeNav]
          rfl
        exact settled true (by simp) annotated (by simp) starts
  · rintro rfl
    intro start
    rw [read, Request.reading?_semicolon outside requested blank rest]
    rfl
  · rintro rfl token
    have left := Request.reading?_slash outside requested blank rest
    have found : produced? = some token ↔ kinds.Admits .blockComment ∧
        token.kind = .blockComment ∧ token.SoftAt text offset :=
      scan?_iff_of_initial blank visible rfl left
    simpa [KindSet.Admits] using found
  · intro unlisted
    have listed : ∀ c ∈ signs, c = '!' ∨ c ∈ goingOn ++ ['+', '-', '?', ';', '/'] := by
      simp [signs, continuing, goingOn]
    have other : c ∉ signs := fun sign => (listed c sign).elim negation unlisted
    have differs {d : Char} (sign : d ∈ goingOn ++ ['+', '-', '?', ';', '/']) : c ≠ d :=
      (ne_of_mem_of_not_mem sign unlisted).symm
    exact settled true (differs (by decide)) annotated (differs (by decide))
      (@firstToken_of_other (c :: rest) kinds other letter)

/-- After a carriage return and a line feed, a doubled sign starts a statement. -/
theorem Token.scan?_operatorLine_increment :
    scan? "é\r\n ++i".toList 2 (.ofList [.semi, .safeNav])
      = some ⟨.semi, ⟨⟨2, 2⟩, ⟨2, 2⟩⟩⟩ := by
  have blank : IsGap ['\r', '\n', ' '] := by simp [IsGap, isBlank]
  have other : ∀ c, "++i".toList.head? = some c →
      isBlank c = false ∧ c ≠ '!' ∧ c ≠ '@' ∧ isLetter c = false := by
    rintro c next
    cases next
    decide +kernel
  have laws := @scan?_operatorLine (.ofList [.semi, .safeNav]) .semi (by decide) (by decide)
    ['é'] _ _ blank rfl other
  exact (laws.2 '+' "+i".toList rfl).2.1 (Or.inl rfl)

end ContextScan

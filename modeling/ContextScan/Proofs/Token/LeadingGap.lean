import ContextScan.Proofs.Statement.OperatorLine

namespace ContextScan

/-! The gap in front of a token.

A call passes the gap that its text starts with, and what it reads there depends on the gap only
through whether it has a line break, and only where a terminator is requested.  At the end of the
text and at a `;` not even that matters.  A terminator that takes nothing is inserted in front of
the gap, and any other token stands behind it. -/

open Scan Continuation

/-- Whether two readings are one, behind one gap and behind another. -/
inductive Reading.Alike (gap other : Text) : Reading → Reading → Prop where
  | nothing (kind : TokenKind) : Alike gap other (.nothing kind) (.nothing kind)
  | after {reading : Reading} (nonempty : reading.lexeme ≠ []) :
      Alike gap other (reading.after gap) (reading.after other)

/-- Whether two tokens of calls at the start of a text are one, each seen from an origin of its own:
both take nothing where the call starts, or both take the same from the origin on. -/
inductive Token.AlikeFrom (origin otherOrigin : Nat) : Token → Token → Prop where
  | inserted (kind : TokenKind) :
      AlikeFrom origin otherOrigin ⟨kind, ⟨⟨0, 0⟩, ⟨0, 0⟩⟩⟩ ⟨kind, ⟨⟨0, 0⟩, ⟨0, 0⟩⟩⟩
  | taken (kind : TokenKind) {start stop : Nat} (nonempty : start < stop) :
      AlikeFrom origin otherOrigin
        ⟨kind, ⟨⟨0, origin + stop⟩, ⟨origin + start, origin + stop⟩⟩⟩
        ⟨kind, ⟨⟨0, otherOrigin + stop⟩, ⟨otherOrigin + start, otherOrigin + stop⟩⟩⟩

theorem Reading.token_after (gap : Text) (reading : Reading) :
    let start := byteSize reading.trivia
    let stop := start + byteSize reading.lexeme
    (reading.after gap).token 0 = ⟨reading.kind,
      ⟨⟨0, byteSize gap + stop⟩, ⟨byteSize gap + start, byteSize gap + stop⟩⟩⟩ := by
  simp [token, after, byteSize_append, Nat.add_assoc]

theorem Reading.Alike.token {gap other : Text} {left right : Reading}
    (alike : left.Alike gap other right) :
    (left.token 0).AlikeFrom (byteSize gap) (byteSize other) (right.token 0) := by
  cases alike with
  | nothing kind => exact .inserted kind
  | @after reading nonempty =>
      rw [token_after, token_after]
      exact .taken reading.kind (Nat.lt_add_of_pos_right (byteSize_pos_iff.mpr nonempty))

namespace Request

variable {kinds : KindSet} {terminator : TokenKind} {gap other rest : Text}

/-- At the end of the text a terminator is inserted. -/
theorem reading?_nil (outside : kinds.has .stringContent = false)
    (requested : kinds.terminator? = some terminator) (blank : IsGap gap) :
    reading? kinds (gap ++ []) = some (.nothing terminator) := by
  have stops : Stops isBlank [] := fun _ next => by cases next
  by_cases broken : HasLineBreak gap
  · have starts : (firstToken kinds []).value = insertIf true :=
      firstToken_of_other kinds (by decide) isLetter_nul
    exact reading?_firstToken outside requested blank broken stops (by decide) (by decide)
      (by decide) starts
  · have decides := decision_append kinds blank stops
    rw [not_hasLineBreak_iff.mp broken] at decides
    exact reading?_of_insert outside requested decides rfl List.not_mem_nil

theorem alike_terminator (outside : kinds.has .stringContent = false)
    (requested : kinds.terminator? = some terminator) (blank : IsGap gap) (otherBlank : IsGap other)
    (stops : Stops isBlank rest) (same : HasLineBreak gap ↔ HasLineBreak other) :
    Option.Rel (Reading.Alike gap other) (reading? kinds (gap ++ rest))
      (reading? kinds (other ++ rest)) := by
  obtain ⟨behind?, forms, behind⟩ :=
    reading?_afterGap outside requested stops (gap.any isLineBreak)
  rw [behind gap blank rfl, behind other otherBlank (Bool.eq_iff_iff.mpr same).symm]
  cases found : behind? with
  | none => exact .none
  | some reading =>
      apply Option.Rel.some
      rcases forms reading found with rfl | ⟨_, spells⟩
      · exact .nothing terminator
      · have taken : reading.kind.Spells reading.lexeme := spells
        rw [Reading.behind_of_ne_nil gap taken.ne_nil, Reading.behind_of_ne_nil other taken.ne_nil]
        exact .after taken.ne_nil

theorem alike_plain (outside : kinds.has .stringContent = false)
    (unrequested : kinds.terminator? = none) (blank : IsGap gap) (otherBlank : IsGap other)
    (stops : Stops isBlank rest) :
    Option.Rel (Reading.Alike gap other) (reading? kinds (gap ++ rest))
      (reading? kinds (other ++ rest)) := by
  rw [reading?_plain outside unrequested blank stops,
    reading?_plain outside unrequested otherBlank stops]
  cases found : (softToken kinds rest).reading? rest with
  | none => exact .none
  | some reading =>
      obtain ⟨_, _, _, _, soft⟩ := (softToken_iff stops).mp found
      exact .some (.after soft.spells.ne_nil)

/-- Two gaps in front of a text are told apart by their line breaks at most, and only where a
terminator may be inserted or not. -/
theorem reading?_alike (outside : kinds.has .stringContent = false) (blank : IsGap gap)
    (otherBlank : IsGap other) (stops : Stops isBlank rest)
    (alike : kinds.terminator? = none ∨ (HasLineBreak gap ↔ HasLineBreak other) ∨ rest = [] ∨
      rest.head? = some ';') :
    Option.Rel (Reading.Alike gap other) (reading? kinds (gap ++ rest))
      (reading? kinds (other ++ rest)) := by
  cases requested : kinds.terminator? with
  | none => exact alike_plain outside requested blank otherBlank stops
  | some terminator =>
      rcases alike with unrequested | same | rfl | semicolon
      · rw [requested] at unrequested
        cases unrequested
      · exact alike_terminator outside requested blank otherBlank stops same
      · rw [reading?_nil outside requested blank, reading?_nil outside requested otherBlank]
        exact .some (.nothing terminator)
      · obtain ⟨rest, rfl⟩ := List.head?_eq_some_iff.mp semicolon
        rw [reading?_semicolon outside requested blank,
          reading?_semicolon outside requested otherBlank]
        have taken : Reading.Alike gap other (Reading.after gap ⟨terminator, [], [';']⟩)
            (Reading.after other ⟨terminator, [], [';']⟩) := .after (List.cons_ne_nil ';' [])
        simp only [Reading.after, List.append_nil] at taken
        exact .some taken

end Request

/-- The token of a call does not depend on the gap that the text starts with, but for a terminator,
where line breaks count.  Behind another gap the same token is taken the same way from its end, or
the same terminator is inserted where the call starts. -/
theorem Token.scan?_leadingGap {kinds : KindSet} (outside : kinds.has .stringContent = false)
    {gap other rest : Text} (blank : IsGap gap) (otherBlank : IsGap other)
    (stops : Stops isBlank rest)
    (alike : kinds.terminator? = none ∨ (HasLineBreak gap ↔ HasLineBreak other) ∨ rest = [] ∨
      rest.head? = some ';') :
    Option.Rel (AlikeFrom (byteSize gap) (byteSize other)) (scan? (gap ++ rest) 0 kinds)
      (scan? (other ++ rest) 0 kinds) := by
  have atStart (text : Text) :
      scan? text 0 kinds = (Request.reading? kinds text).map (Reading.token 0) :=
    scan?_eq_reading? [] text kinds
  have readings := Request.reading?_alike outside blank otherBlank stops alike
  rw [atStart, atStart]
  generalize Request.reading? kinds (gap ++ rest) = first? at readings ⊢
  generalize Request.reading? kinds (other ++ rest) = second? at readings ⊢
  cases readings with
  | none => exact .none
  | some alike => exact .some alike.token

/-- Safe navigation is read behind a blank line of another kind as behind a line feed. -/
theorem Token.scan?_leadingGap_blankLine :
    let kinds := KindSet.ofList [.semi, .safeNav]
    scan? "\n?.b".toList 0 kinds = some ⟨.safeNav, ⟨⟨0, 3⟩, ⟨1, 3⟩⟩⟩ ∧
      Option.Rel (AlikeFrom 1 4) (scan? "\n?.b".toList 0 kinds)
        (scan? "\t\r\n\n?.b".toList 0 kinds) := by
  intro kinds
  have blank : IsGap ['\n'] := by simp [IsGap, isBlank]
  have otherBlank : IsGap ['\t', '\r', '\n', '\n'] := by simp [IsGap, isBlank]
  have stops : Stops isBlank "?.b".toList := .cons rfl
  have broken : HasLineBreak ['\n'] ↔ HasLineBreak ['\t', '\r', '\n', '\n'] :=
    iff_of_true rfl rfl
  exact ⟨by decide +kernel,
    scan?_leadingGap (by decide) blank otherBlank stops (Or.inr (Or.inl broken))⟩

end ContextScan

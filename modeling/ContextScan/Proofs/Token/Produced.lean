import ContextScan.Proofs.Stepwise.Resolvers

namespace ContextScan

/-! What a request can come to.

Each resolver produces tokens of one kind, and marks where they end.  The dispatch of a request asks
a resolver only where its kind is granted. -/

open Scan

/-- Whether a run that comes to a token marked its end, and the token is of a given kind. -/
def Run.ProducesOnly (kind : TokenKind) (run : Run (Option TokenKind)) : Prop :=
  ∀ produced, run.value = some produced → produced = kind ∧ .markEnd ∈ run.moves

namespace Run.ProducesOnly

variable {kind : TokenKind}

theorem of_none {run : Run (Option TokenKind)} (nothing : run.value = none) :
    run.ProducesOnly kind := by
  intro produced found
  rw [nothing] at found
  cases found

theorem precededBy {run : Run (Option TokenKind)} (only : run.ProducesOnly kind)
    (moves : List Move) : (run.precededBy moves).ProducesOnly kind := by
  intro produced found
  obtain ⟨same, marked⟩ := only produced found
  exact ⟨same, List.mem_append_right moves marked⟩

theorem bind {α : Type} {first : Scan α} {next : α → Scan (Option TokenKind)} {text : Text}
    (only : (next (first text).value (first text).rest).ProducesOnly kind) :
    ((first >>= next) text).ProducesOnly kind := by
  intro produced found
  obtain ⟨same, marked⟩ := only produced found
  exact ⟨same, List.mem_append_right _ marked⟩

end Run.ProducesOnly

theorem Comment.producesOnly_body (outer : Nat) (half : Half) (text : Text) :
    (body outer half text).ProducesOnly .blockComment := by
  fun_induction body outer half text with
  | case1 => exact .of_none rfl
  | case2 _ _ ih | case3 _ _ _ _ ih | case5 _ _ _ ih | case6 _ _ _ _ _ _ ih
  | case7 _ _ _ _ _ _ ih =>
      exact ih.precededBy _
  | case4 =>
      intro kind found
      cases found
      exact ⟨rfl, List.mem_cons_of_mem _ List.mem_cons_self⟩

theorem Comment.producesOnly_scan (text : Text) : (scan text).ProducesOnly .blockComment := by
  refine .bind ?_
  split
  · refine .bind (.bind ?_)
    split
    · exact .bind (producesOnly_body _ _ _)
    · exact .of_none rfl
  · exact .of_none rfl

theorem RawText.eq_of_produced {hasContent : Bool} {kind : TokenKind}
    (found : produced hasContent = some kind) : kind = .stringContent := by
  cases hasContent with
  | false => cases found
  | true => cases found; rfl

theorem RawText.producesOnly_content (hasContent : Bool) (text : Text) :
    (content hasContent text).ProducesOnly .stringContent := by
  fun_induction content hasContent text with
  | case1 => exact .of_none rfl
  | case2 | case4 | case5 =>
      intro kind found
      exact ⟨eq_of_produced found, List.mem_cons_self⟩
  | case3 _ _ _ ih | case6 _ _ _ _ ih | case7 _ _ _ _ _ ih | case8 _ _ _ _ _ _ _ _ ih =>
      exact ih.precededBy _

theorem SoftOperator.producesOnly_wholeWord (word : String) (kind : TokenKind) (text : Text) :
    (wholeWord word kind text).ProducesOnly kind := by
  refine .bind ?_
  split
  · intro produced found
    refine ⟨?_, List.mem_cons_self⟩
    simp only [bind_apply, pure_apply] at found
    split at found
    · cases found
    · exact (Option.some.inj found).symm
  · exact .of_none rfl

theorem SoftOperator.producesOnly_safeNav (text : Text) :
    (safeNav text).ProducesOnly .safeNav := by
  refine .bind (.bind ?_)
  split
  · refine .bind (.bind (.bind ?_))
    split
    · refine .bind ?_
      intro produced found
      cases found
      exact ⟨rfl, List.mem_cons_self⟩
    · exact .of_none rfl
  · exact .of_none rfl

namespace Continuation

theorem insertIf_ne_safeNav (starts : Bool) : insertIf starts ≠ .safeNav := by
  cases starts <;> decide

theorem negation_ne_safeNav (kinds : KindSet) (text : Text) :
    (negation kinds text).value ≠ .safeNav := by
  intro decided
  simp only [negation, bind_apply] at decided
  split at decided
  · simp only [bind_apply] at decided
    split at decided
    · cases decided
    · exact insertIf_ne_safeNav _ decided
  · exact insertIf_ne_safeNav _ decided

theorem firstToken_safeNav {kinds : KindSet} {text : Text}
    (decided : (firstToken kinds text).value = .safeNav) : kinds.has .safeNav = true := by
  simp only [firstToken, bind_apply] at decided
  split at decided
  · cases decided
  split at decided
  · exact absurd decided (insertIf_ne_safeNav _)
  split at decided
  · exact absurd decided (negation_ne_safeNav kinds _)
  split at decided
  · rw [pure_apply] at decided
    by_cases requested : kinds.has .safeNav = true
    · exact requested
    · rw [if_neg requested] at decided
      cases decided
  split at decided
  · cases decided
  split at decided
  · exact absurd decided (insertIf_ne_safeNav _)
  · cases decided

theorem newLine_safeNav {kinds : KindSet} {text : Text}
    (decided : (newLine kinds text).value = .safeNav) : kinds.has .safeNav = true := by
  simp only [newLine, bind_apply] at decided
  split at decided
  · split at decided
    · exact absurd decided (insertIf_ne_safeNav _)
    split at decided
    · simp only [bind_apply] at decided
      split at decided
      · cases decided
      · exact firstToken_safeNav decided
    · cases decided
  · exact firstToken_safeNav decided

theorem sameLine_safeNav {kinds : KindSet} {text : Text}
    (decided : (sameLine kinds text).value = .safeNav) : kinds.has .safeNav = true := by
  simp only [sameLine, bind_apply] at decided
  split at decided
  · cases decided
  split at decided
  · rename_i both
    exact (Bool.and_eq_true _ _ ▸ both).2
  split at decided
  · exact absurd decided (insertIf_ne_safeNav _)
  · cases decided

theorem decision_safeNav {kinds : KindSet} {text : Text}
    (decided : (decision kinds text).value = .safeNav) : kinds.has .safeNav = true := by
  simp only [decision, bind_apply] at decided
  split at decided
  · cases decided
  simp only [bind_apply] at decided
  split at decided
  · cases decided
  simp only [bind_apply, pure_apply, beforeToken] at decided
  split at decided
  · exact newLine_safeNav decided
  · exact sameLine_safeNav decided

end Continuation

theorem KindSet.terminator?_eq_some {kinds : KindSet} {kind : TokenKind}
    (chosen : kinds.terminator? = some kind) :
    kinds.has kind = true ∧ (kind = .semi ∨ kind = .memberSemi) ∧
      (kinds.has .semi = true → kind = .semi) := by
  rw [terminator?] at chosen
  split at chosen
  · cases chosen
    exact ⟨‹_›, Or.inl rfl, fun _ => rfl⟩
  · rename_i unrequested
    split at chosen
    · cases chosen
      exact ⟨‹_›, Or.inr rfl, fun requested => absurd requested unrequested⟩
    · cases chosen

namespace Request

/-- Why a request may come to a kind. -/
inductive Grants (kinds : KindSet) (text : Text) : TokenKind → Prop where
  | content (inside : kinds.has .stringContent = true) : Grants kinds text .stringContent
  | terminator {kind : TokenKind} (outside : kinds.has .stringContent = false)
      (requested : kinds.terminator? = some kind)
      (decided : (token kinds text).moves = (Continuation.decision kinds text).moves) :
      Grants kinds text kind
  | comment (outside : kinds.has .stringContent = false)
      (requested : kinds.has .blockComment = true) (outsideString : kinds.has .dollar = false) :
      Grants kinds text .blockComment
  | operator {kind : TokenKind} (outside : kinds.has .stringContent = false)
      (requested : kinds.has kind = true)
      (soft : kind = .notIs ∨ kind = .membership ∨ kind = .safeNav) : Grants kinds text kind

namespace Grants

variable {kinds : KindSet} {text : Text} {kind : TokenKind}

theorem requested (grants : Grants kinds text kind) : kinds.has kind = true := by
  cases grants with
  | content inside => exact inside
  | terminator _ chosen => exact (KindSet.terminator?_eq_some chosen).1
  | comment _ requested | operator _ requested => exact requested

/-- The kinds that are only ever requested are never granted. -/
theorem producible (grants : Grants kinds text kind) :
    kind ∉ [TokenKind.constructor, .getter, .setter, .dollar] := by
  cases grants with
  | content | comment => decide
  | terminator _ chosen =>
      rcases (KindSet.terminator?_eq_some chosen).2.1 with rfl | rfl <;> decide
  | operator _ _ soft => rcases soft with rfl | rfl | rfl <;> decide

theorem outsideString (grants : Grants kinds text kind) (comment : kind = .blockComment) :
    kinds.has .dollar = false := by
  cases grants with
  | content => cases comment
  | terminator _ chosen =>
      rcases (KindSet.terminator?_eq_some chosen).2.1 with rfl | rfl <;> cases comment
  | comment _ _ outsideString => exact outsideString
  | operator _ _ soft => rcases soft with rfl | rfl | rfl <;> cases comment

theorem contentOnly (grants : Grants kinds text kind) (inside : kinds.has .stringContent = true) :
    kind = .stringContent := by
  cases grants with
  | content => rfl
  | terminator outside | comment outside | operator outside =>
      rw [inside] at outside
      cases outside

/-- A terminator comes from a decision alone, and is of the kind chosen for it. -/
theorem decided (grants : Grants kinds text kind) (ends : kind = .semi ∨ kind = .memberSemi) :
    kinds.terminator? = some kind ∧
      (token kinds text).moves = (Continuation.decision kinds text).moves := by
  cases grants with
  | content | comment => rcases ends with ends | ends <;> cases ends
  | terminator _ chosen decided => exact ⟨chosen, decided⟩
  | operator _ _ soft =>
      rcases soft with rfl | rfl | rfl <;> rcases ends with ends | ends <;> cases ends

end Grants

theorem comment_produces {kinds : KindSet} {text : Text} {kind : TokenKind}
    (found : (comment kinds text).value = some kind) :
    kind = .blockComment ∧ kinds.has .blockComment = true ∧ kinds.has .dollar = false ∧
      .markEnd ∈ (comment kinds text).moves := by
  rw [comment] at found ⊢
  split at found
  · cases found
  · rename_i granted
    rw [if_neg granted]
    obtain ⟨same, marked⟩ := Comment.producesOnly_scan text kind found
    simp only [Bool.or_eq_true, Bool.not_eq_true', not_or, Bool.not_eq_true,
      Bool.not_eq_false] at granted
    exact ⟨same, granted.2, granted.1, marked⟩

theorem token_eq_content {kinds : KindSet} (inside : kinds.has .stringContent = true) :
    token kinds = RawText.content false := by
  rw [token, if_pos inside]
  rfl

theorem token_eq_statementEnd {kinds : KindSet} {terminator : TokenKind}
    (outside : kinds.has .stringContent = false) (requested : kinds.terminator? = some terminator) :
    token kinds = statementEnd kinds terminator := by
  rw [token, if_neg (Bool.not_eq_true _ ▸ outside), requested]

theorem token_eq_plainToken {kinds : KindSet} (outside : kinds.has .stringContent = false)
    (unrequested : kinds.terminator? = none) : token kinds = plainToken kinds := by
  rw [token, if_neg (Bool.not_eq_true _ ▸ outside), unrequested]

theorem grants_statementEnd {kinds : KindSet} {text : Text} {terminator kind : TokenKind}
    (outside : kinds.has .stringContent = false) (requested : kinds.terminator? = some terminator)
    (found : (token kinds text).value = some kind) :
    Grants kinds text kind ∧ .markEnd ∈ (token kinds text).moves := by
  have dispatched := token_eq_statementEnd outside requested
  have marked : .markEnd ∈ (token kinds text).moves := by
    rw [dispatched]
    exact List.mem_cons_self
  refine ⟨?_, marked⟩
  have sameMoves := congrArg (fun scan => (scan text).moves) dispatched
  rw [dispatched] at found
  simp only [statementEnd, bind_apply] at found sameMoves
  cases decided : (Continuation.decision kinds text).value with
  | insert =>
      simp only [decided, pure_apply, List.append_nil] at found sameMoves
      cases found
      exact .terminator outside requested sameMoves
  | suppress =>
      simp only [decided, pure_apply] at found
      cases found
  | comment =>
      simp only [decided] at found
      obtain ⟨rfl, comments, outsideString, _⟩ := comment_produces found
      exact .comment outside comments outsideString
  | safeNav =>
      simp only [decided] at found
      obtain ⟨rfl, _⟩ := SoftOperator.producesOnly_safeNav _ _ found
      exact .operator outside (Continuation.decision_safeNav decided) (Or.inr (Or.inr rfl))
  | notIs =>
      simp only [decided] at found
      split at found
      · obtain ⟨rfl, _⟩ := SoftOperator.producesOnly_wholeWord _ _ _ _ found
        exact .operator outside ‹_› (Or.inl rfl)
      · cases found

theorem grants_plainToken {kinds : KindSet} {text : Text} {kind : TokenKind}
    (outside : kinds.has .stringContent = false) (unrequested : kinds.terminator? = none)
    (found : (token kinds text).value = some kind) :
    Grants kinds text kind ∧ .markEnd ∈ (token kinds text).moves := by
  rw [token_eq_plainToken outside unrequested] at found ⊢
  simp only [plainToken, bind_apply] at found ⊢
  revert found
  split
  · rename_i both
    intro found
    obtain ⟨rfl, marked⟩ := SoftOperator.producesOnly_wholeWord _ _ _ _ found
    have requested := (Bool.and_eq_true _ _ ▸ both).1
    exact ⟨.operator outside requested (Or.inl rfl), List.mem_append_right _ marked⟩
  split
  · rename_i both
    intro found
    obtain ⟨rfl, marked⟩ := SoftOperator.producesOnly_wholeWord _ _ _ _ found
    have requested := (Bool.and_eq_true _ _ ▸ both).1
    exact ⟨.operator outside requested (Or.inr (Or.inl rfl)), List.mem_append_right _ marked⟩
  split
  · rename_i both
    intro found
    obtain ⟨rfl, marked⟩ := SoftOperator.producesOnly_safeNav _ _ found
    have requested := (Bool.and_eq_true _ _ ▸ both).1
    exact ⟨.operator outside requested (Or.inr (Or.inr rfl)), List.mem_append_right _ marked⟩
  · intro found
    obtain ⟨rfl, comments, outsideString, marked⟩ := comment_produces found
    exact ⟨.comment outside comments outsideString, List.mem_append_right _ marked⟩

/-- A request comes to a token only for a reason, and marks its end. -/
theorem grants_of_token {kinds : KindSet} {text : Text} {kind : TokenKind}
    (found : (token kinds text).value = some kind) :
    Grants kinds text kind ∧ .markEnd ∈ (token kinds text).moves := by
  cases inside : kinds.has .stringContent with
  | true =>
      rw [token_eq_content inside] at found ⊢
      obtain ⟨rfl, marked⟩ := RawText.producesOnly_content false text kind found
      exact ⟨.content inside, marked⟩
  | false =>
      cases requested : kinds.terminator? with
      | some terminator => exact grants_statementEnd inside requested found
      | none => exact grants_plainToken inside requested found

theorem moves_scan (kinds : KindSet) (text : Text) :
    (scan kinds text).moves = (token kinds text).moves :=
  List.append_nil _

end Request

end ContextScan

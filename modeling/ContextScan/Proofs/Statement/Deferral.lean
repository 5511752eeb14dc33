import ContextScan.Proofs.Token.Forms

namespace ContextScan

/-! Terminators that wait for a comment.

Where a comment stands after a line break, the call there takes the comment, and whether the
statement ends is left to the next call.  That call sees only what comes after the comment.  It
finds the same end if there is another line break, and without one only before an `import`. -/

open Scan Continuation

theorem Scan.skipWord_iff {word text : Text} (visible : '\x00' ∉ word) :
    (skipWord word text).value = true ↔ word <+: text := by
  induction word generalizing text with
  | nil => simp [skipWord]
  | cons letter word ih =>
      rw [List.mem_cons, not_or] at visible
      cases text with
      | nil =>
          have ended : '\x00' ≠ letter := visible.1
          simp [skipWord, peek, ended]
      | cons c text =>
          by_cases same : c = letter
          · subst same
            simpa [skipWord, peek, skip] using ih visible.2
          · simp [skipWord, peek, same, Ne.symm same]

section Outcome

variable {kinds : KindSet} {gap rest : Text} {terminator kind : TokenKind}

/-- Of a gap only whether it has a line break matters to an inserted terminator. -/
theorem Request.reading?_inserted {other : Text} (outside : kinds.has .stringContent = false)
    (requested : kinds.terminator? = some terminator) (blank : IsGap gap)
    (otherBlank : IsGap other) (broken : HasLineBreak gap) (otherBroken : HasLineBreak other)
    (stops : Stops isBlank rest) (inserted : reading? kinds (gap ++ rest) = some (.nothing kind)) :
    reading? kinds (other ++ rest) = some (.nothing kind) := by
  obtain ⟨behind?, forms, same⟩ := reading?_afterGap outside requested stops true
  rw [same gap blank broken] at inserted
  obtain ⟨own, found, nothing⟩ := Option.map_eq_some_iff.mp inserted
  rcases forms own found with rfl | ⟨_, spells⟩
  · rw [same other otherBlank otherBroken, found, ← nothing]
    rfl
  · have taken : own.kind.Spells own.lexeme := spells
    rw [Reading.behind_of_ne_nil gap taken.ne_nil] at nothing
    exact absurd (congrArg Reading.lexeme nothing) taken.ne_nil

theorem sameLine_insert_iff (kinds : KindSet) (text : Text) :
    (sameLine kinds text).value = .insert ↔ "import".toList <+: text := by
  have starts {c : Char} (next : (text.headD '\x00' == c) = true) (present : c ≠ '\x00')
      (other : c ≠ 'i') : ¬"import".toList <+: text := by
    obtain ⟨rest, rfl⟩ := List.head?_eq_some_iff.mp (head?_of_headD_beq next present)
    intro imports
    exact other (List.cons_prefix_cons.mp imports).1.symm
  simp only [sameLine, bind_apply]
  split
  · exact iff_of_false (by simp) (starts ‹_› (by decide) (by decide))
  split
  · rename_i both
    exact iff_of_false (by simp)
      (starts (Bool.and_eq_true _ _ ▸ both).1 (by decide) (by decide))
  split
  · have word : (skipWord "import".toList text).value = true ↔ "import".toList <+: text :=
      skipWord_iff (by decide)
    rw [← word]
    simp only [bind_apply, pure_apply]
    change insertIf (skipWord _ text).value = _ ↔ _
    cases (skipWord "import".toList text).value <;> simp [insertIf]
  · rename_i other
    refine iff_of_false (by simp) ?_
    rintro ⟨rest, rfl⟩
    exact other rfl

theorem Request.insert_of_follow {decided : Decision} {text : Text}
    (found : (follow kinds terminator decided text).value = some kind)
    (ends : kind = .semi ∨ kind = .memberSemi) : decided = .insert := by
  have other {produced : TokenKind} (same : kind = produced)
      (others : produced ≠ .semi ∧ produced ≠ .memberSemi) : False := by
    subst same
    rcases ends with semi | memberSemi
    · exact others.1 semi
    · exact others.2 memberSemi
  cases decided with
  | insert => rfl
  | suppress => cases found
  | comment => exact (other (comment_produces found).1 (by simp)).elim
  | safeNav => exact (other (SoftOperator.producesOnly_safeNav _ _ found).1 (by simp)).elim
  | notIs =>
      simp only [follow] at found
      split at found
      · exact (other (SoftOperator.producesOnly_wholeWord _ _ _ _ found).1 (by simp)).elim
      · cases found

/-- On the line of a statement the decision is left to what stands there. -/
theorem afterGap_sameLine (kinds : KindSet) {c : Char} (rest : Text) (semicolon : c ≠ ';')
    (slash : c ≠ '/') :
    (afterGap kinds false (c :: rest)).value = (sameLine kinds (c :: rest)).value ∧
      (afterGap kinds false (c :: rest)).moves = (sameLine kinds (c :: rest)).moves := by
  have same : afterGap kinds false (c :: rest) = (do
      let reached ← sameLine kinds
      note (.terminatorDecision reached false)
      pure reached : Scan Decision) (c :: rest) := by
    rw [afterGap_cons kinds false rest semicolon]
    simp [beforeVisible, beforeToken, peek, slash]
  rw [same]
  exact ⟨rfl, List.append_nil _⟩

/-- On the line of a statement a terminator is inserted only before an `import`. -/
theorem Request.reading?_sameLine (outside : kinds.has .stringContent = false)
    (requested : kinds.terminator? = some terminator) (blank : IsGap gap)
    (unbroken : ¬HasLineBreak gap) {c : Char} (visible : isBlank c = false) (semicolon : c ≠ ';')
    (slash : c ≠ '/') :
    ("import".toList <+: c :: rest →
      reading? kinds (gap ++ c :: rest) = some (.nothing terminator)) ∧
    (¬"import".toList <+: c :: rest → ∀ reading, reading? kinds (gap ++ c :: rest) = some reading →
      ¬(reading.kind = .semi ∨ reading.kind = .memberSemi)) := by
  have stops : Stops isBlank (c :: rest) := .cons visible
  have decides := decision_append kinds blank stops
  obtain ⟨value, moves⟩ := afterGap_sameLine kinds rest semicolon slash
  have imports := sameLine_insert_iff kinds (c :: rest)
  rw [← value] at imports
  rw [not_hasLineBreak_iff.mp unbroken] at decides
  constructor
  · intro starts
    apply reading?_of_insert outside requested decides (imports.mpr starts)
    rw [moves]
    intro member
    cases (stepwise_sameLine Move.isSkip_skip kinds).moves_allowed .markEnd member
  · intro other reading read ends
    obtain ⟨kind, found, rfl⟩ := Option.map_eq_some_iff.mp read
    rw [token_eq_statementEnd outside requested, statementEnd_apply, decides] at found
    exact other (imports.mp (insert_of_follow found ends))

/-- After a gap a comment is taken where one is requested. -/
theorem Request.reading?_comment {text : Text} (outside : kinds.has .stringContent = false)
    (requested : kinds.terminator? = some terminator) (comments : kinds.has .blockComment = true)
    (outsideString : kinds.has .dollar = false) (blank : IsGap gap)
    (closed : Comment.IsComment text) :
    reading? kinds (gap ++ (text ++ rest)) = some ⟨.blockComment, gap, text⟩ := by
  have scanned := Comment.scan_append closed rest
  have commented : comment kinds = Comment.scan := by simp [comment, comments, outsideString]
  obtain ⟨inside, rfl, _⟩ := closed
  have stops : Stops isBlank ('/' :: '*' :: inside ++ rest) := .cons rfl
  have after : afterGap kinds (gap.any isLineBreak) ('/' :: '*' :: inside ++ rest)
      = ⟨.comment, [], [], '/' :: '*' :: inside ++ rest⟩ := by
    cases gap.any isLineBreak <;> rfl
  have followed : follow kinds terminator .comment = Comment.scan := commented
  refine reading?_of_taking outside requested blank stops after ?_ ?_
  · simp only [Run.andThen, followed, scanned]
    rfl
  · simp only [Run.andThen, followed, scanned]
    rfl

end Outcome

/-- A terminator that takes nothing is inserted where its call starts. -/
theorem Reading.Formed.eq_nothing {kinds : KindSet} {reading : Reading} {offset : Nat}
    (formed : reading.Formed kinds) (ends : reading.kind = .semi ∨ reading.kind = .memberSemi)
    (still : (reading.token offset).span.isZeroWidth = true) :
    reading = .nothing reading.kind ∧ kinds.terminator? = some reading.kind := by
  have taken {kind : TokenKind} {trivia lexeme : Text} (spells : kind.Spells lexeme)
      (still : ((Reading.mk kind trivia lexeme).token offset).span.isZeroWidth = true) : False := by
    obtain ⟨c, rest, rfl, _⟩ := spells.exists_initial
    have positive := c.utf8Size_pos
    have short : offset + byteSize trivia + (c.utf8Size + byteSize rest)
        ≤ offset + byteSize trivia := of_decide_eq_true still
    omega
  cases formed with
  | content => simp at ends
  | inserted requested => exact ⟨rfl, requested⟩
  | taken _ spells => exact (taken spells still).elim
  | annotated _ _ _ spells => exact (taken spells still).elim

/-- Where a terminator would be inserted but for a comment, the comment comes first, and the next
call inserts the terminator if there is a line break after the comment, and otherwise only before an
`import`. -/
theorem comment_defers {kinds : KindSet} {terminator : TokenKind}
    (requested : kinds.terminator? = some terminator) (comments : kinds.has .blockComment = true)
    (outside : kinds.has .stringContent = false) (outsideString : kinds.has .dollar = false)
    {before comment after rest : Text} {c : Char} (blank : IsGap before)
    (broken : HasLineBreak before) (closed : Comment.IsComment comment) (afterBlank : IsGap after)
    (visible : isBlank c = false) (slash : c ≠ '/')
    (ends : ∃ token, Token.scan? (before ++ c :: rest) 0 kinds = some token ∧
      (token.kind = .semi ∨ token.kind = .memberSemi) ∧ token.span.isZeroWidth = true) :
    let text := before ++ (comment ++ (after ++ c :: rest))
    let start := byteSize before
    let stop := start + byteSize comment
    Token.scan? text 0 kinds = some ⟨.blockComment, ⟨⟨0, stop⟩, ⟨start, stop⟩⟩⟩ ∧
    (HasLineBreak after ∨ "import".toList <+: c :: rest →
      Token.scan? text stop kinds = some ⟨terminator, ⟨⟨stop, stop⟩, ⟨stop, stop⟩⟩⟩) ∧
    (¬(HasLineBreak after ∨ "import".toList <+: c :: rest) →
      ∀ token, Token.scan? text stop kinds = some token →
        ¬(token.kind = .semi ∨ token.kind = .memberSemi)) := by
  intro text start stop
  have atStart (text : Text) : Token.scan? text 0 kinds
      = (Request.reading? kinds text).map (Reading.token 0) := Token.scan?_eq_reading? [] text kinds
  have atStop : Token.scan? text stop kinds
      = (Request.reading? kinds (after ++ c :: rest)).map (Reading.token stop) := by
    have there := Token.scan?_eq_reading? (before ++ comment) (after ++ c :: rest) kinds
    rw [byteSize_append, List.append_assoc] at there
    exact there
  -- Without the comment nothing would be taken.
  have inserted : Request.reading? kinds (before ++ c :: rest) = some (.nothing terminator) := by
    obtain ⟨_, produced, terminates, still⟩ := ends
    rw [atStart] at produced
    obtain ⟨reading, read, rfl⟩ := Option.map_eq_some_iff.mp produced
    obtain ⟨nothing, chosen⟩ := (Request.formed_of_reading? read).eq_nothing terminates still
    rw [requested] at chosen
    rw [read, nothing, ← Option.some.inj chosen]
  have semicolon : c ≠ ';' := by
    rintro rfl
    rw [Request.reading?_semicolon outside requested blank rest] at inserted
    cases inserted
  refine ⟨?_, ?_, ?_⟩
  · rw [atStart, Request.reading?_comment outside requested comments outsideString blank closed]
    simp [Reading.token, start, stop]
  · intro follows
    have again : Request.reading? kinds (after ++ c :: rest) = some (.nothing terminator) := by
      by_cases afterBroken : HasLineBreak after
      · exact Request.reading?_inserted outside requested blank afterBlank broken afterBroken
          (.cons visible) inserted
      · exact (Request.reading?_sameLine outside requested afterBlank afterBroken visible semicolon
          slash).1 (follows.resolve_left afterBroken)
    rw [atStop, again]
    rfl
  · intro neither token produced
    rw [atStop] at produced
    obtain ⟨reading, read, rfl⟩ := Option.map_eq_some_iff.mp produced
    rw [not_or] at neither
    exact (Request.reading?_sameLine outside requested afterBlank neither.1 visible semicolon
      slash).2 neither.2 reading read

/-- The line break after a comment with another one in it ends the statement. -/
theorem comment_defers_nested :
    let text := "\n/*a/*b*/*/ \n1".toList
    let kinds := KindSet.ofList [.memberSemi, .blockComment]
    Token.scan? text 0 kinds = some ⟨.blockComment, ⟨⟨0, 11⟩, ⟨1, 11⟩⟩⟩ ∧
      Token.scan? text 11 kinds = some ⟨.memberSemi, ⟨⟨11, 11⟩, ⟨11, 11⟩⟩⟩ := by
  intro text kinds
  have closed : Comment.IsComment "/*a/*b*/*/".toList :=
    ⟨"a/*b*/*/".toList, rfl, .other (by decide) (.opens (.other (by decide) (.close .last)))⟩
  have blank : IsGap ['\n'] := by simp [IsGap, isBlank]
  have afterBlank : IsGap [' ', '\n'] := by simp [IsGap, isBlank]
  have requested : kinds.terminator? = some .memberSemi := by decide
  have ends : ∃ token, Token.scan? (['\n'] ++ '1' :: []) 0 kinds = some token ∧
      (token.kind = .semi ∨ token.kind = .memberSemi) ∧ token.span.isZeroWidth = true :=
    ⟨⟨.memberSemi, ⟨⟨0, 0⟩, ⟨0, 0⟩⟩⟩, by decide +kernel, by decide, by decide⟩
  obtain ⟨first, second, _⟩ := comment_defers requested (by decide) (by decide) (by decide) blank
    rfl closed afterBlank (by decide) (by decide) ends
  exact ⟨first, second (Or.inl rfl)⟩

/-- Without a line break after the comment, the end of the statement is lost. -/
theorem comment_defers_lost :
    let kinds := KindSet.ofList [.semi, .blockComment]
    Token.scan? "\n1".toList 0 kinds = some ⟨.semi, ⟨⟨0, 0⟩, ⟨0, 0⟩⟩⟩ ∧
      Token.scan? "\n/**/1".toList 0 kinds = some ⟨.blockComment, ⟨⟨0, 5⟩, ⟨1, 5⟩⟩⟩ ∧
      Token.scan? "\n/**/1".toList 5 kinds = none := by
  decide +kernel

end ContextScan

import ContextScan.Proofs.Stepwise.Elementary
import ContextScan.Request

namespace ContextScan

/-! Every resolver is stepwise.

The resolvers that recur over the text are first shown to be loops over a reader; the others are
written as such. -/

open Scan

variable {allowed : Move → Prop} {text : Text}

namespace Comment

theorem body_eq (outer : Nat) (half : Half) :
    body outer half = (do
      if ← atEnd then
        note (.unterminatedComment (outer + 1))
        pure none
      else
        let c ← peek
        if c = '*' then
          advance
          match half with
          | .slash => body (outer + 1) .neither
          | _ => body outer .star
        else if c = '/' then
          advance
          match half, outer with
          | .star, 0 => do
              markEnd
              pure (some .blockComment)
          | .star, outer + 1 => body outer .neither
          | _, outer => body outer .slash
        else
          advance
          body outer .neither) := by
  funext text
  cases text with
  | nil => rfl
  | cons c rest =>
      by_cases star : c = '*'
      · cases half <;> simp [body, atEnd, peek, advance, star, Run.precededBy]
      · by_cases slash : c = '/'
        · cases half <;> cases outer <;>
            simp [body, atEnd, peek, advance, markEnd, slash, Run.precededBy]
        · simp [body, atEnd, peek, advance, star, slash, Run.precededBy]

theorem stepwise_body (advances : allowed .advance) (marks : allowed .markEnd) (outer : Nat)
    (half : Half) : Stepwise allowed (body outer half) text := by
  induction text generalizing outer half with
  | nil => rw [body_eq]; exact .bind .atEnd (.bind (.note _) (.pure none))
  | cons c rest ih =>
      rw [body_eq]
      refine .bind .atEnd (.bind .peek (.ite (fun _ => ?_) fun _ => .ite (fun _ => ?_) fun _ => ?_))
      · refine .bind (stepwise_advance advances) ?_
        cases half <;> exact ih _ _
      · refine .bind (stepwise_advance advances) ?_
        cases half with
        | neither | slash => exact ih _ _
        | star =>
            cases outer with
            | zero => exact .bind (stepwise_markEnd marks) (.pure _)
            | succ outer => exact ih _ _
      · exact .bind (stepwise_advance advances) (ih _ _)

theorem stepwise_scan (advances : allowed .advance) (marks : allowed .markEnd) :
    Stepwise allowed scan text :=
  .bind .peek (.ite
    (fun _ => .bind (stepwise_advance advances) (.bind .peek (.ite
      (fun _ => .bind (stepwise_advance advances) (stepwise_body advances marks 0 .neither))
      fun _ => .pure none)))
    fun _ => .pure none)

end Comment

namespace RawText

theorem headD_ne_quote {rest : Text} (other : ∀ later, rest = '"' :: later → False) :
    rest.headD '\x00' ≠ '"' := by
  cases rest with
  | nil => decide
  | cons c rest =>
      intro quote
      exact other rest (congrArg (· :: rest) quote)

/-- A literal run is read up to the next `$` or quote, and then by what follows that. -/
theorem content_eq (hasContent : Bool) :
    content hasContent = (do
      if ← atEnd then
        note .unterminatedString
        pure none
      else
        let c ← peek
        if c = '$' then
          markEnd
          advance
          let next ← peek
          if isLetter next || next == '{' then pure (produced hasContent) else content true
        else if c = '"' then
          markEnd
          advance
          if (← peek) = '"' then
            advance
            if (← peek) = '"' then
              advance
              if (← peek) = '"' then
                advance
                pure (produced hasContent)
              else
                pure (produced hasContent)
            else
              content true
          else
            content true
        else
          ofMove (.advanceUntil '$' '"')
          content true : Scan (Option TokenKind)) := by
  funext text
  fun_cases content hasContent text with
  | case1 => rfl
  | case2 rest starts =>
      rw [startsInterpolation] at starts
      simp only [bind_apply, atEnd, peek, markEnd, advance, List.isEmpty_cons, List.headD_cons,
        List.tail_cons, Bool.false_eq_true, ↓reduceIte, starts, pure_apply, List.nil_append,
        List.append_nil, List.cons_append]
  | case3 rest literal =>
      rw [startsInterpolation] at literal
      simp only [bind_apply, atEnd, peek, markEnd, advance, List.isEmpty_cons, List.headD_cons,
        List.tail_cons, Bool.false_eq_true, ↓reduceIte, literal, List.nil_append,
        List.cons_append, Run.precededBy]
  | case4 rest => rfl
  | case5 rest other =>
      have last := headD_ne_quote other
      simp [atEnd, peek, markEnd, advance, last, -List.headD_eq_head?_getD]
  | case6 rest _ other =>
      have literal := headD_ne_quote other
      simp [atEnd, peek, markEnd, advance, literal, Run.precededBy, -List.headD_eq_head?_getD]
  | case7 rest _ _ other =>
      have literal := headD_ne_quote other
      simp [atEnd, peek, markEnd, advance, literal, Run.precededBy, -List.headD_eq_head?_getD]
  | case8 c rest dollar _ _ _ quote =>
      have others : ¬c = '$' ∧ ¬c = '"' := ⟨dollar, quote⟩
      have passed : (c :: rest).dropWhile (fun c => c != '$' && c != '"')
          = rest.dropWhile isPlain := by
        rw [List.dropWhile_cons_of_pos (by simp [others])]
        rfl
      simp [atEnd, peek, others, bind_function_apply, ofMove, Move.leave, passed, Run.precededBy]

theorem stepwise_content (advances : allowed .advance) (marks : allowed .markEnd)
    (searches : allowed (.advanceUntil '$' '"')) (hasContent : Bool) (text : Text) :
    Stepwise allowed (content hasContent) text := by
  have again : ∀ later : Text, later.length < text.length →
      Stepwise allowed (content true) later := fun later _ =>
    stepwise_content advances marks searches true later
  cases text with
  | nil => rw [content_eq]; exact .bind .atEnd (.bind (.note _) (.pure none))
  | cons c rest =>
      have shorter : rest.length < (c :: rest).length := Nat.lt_succ_self _
      have evenShorter : rest.tail.length < (c :: rest).length := by
        rw [List.length_tail]
        omega
      rw [content_eq]
      refine .bind .atEnd (.bind .peek
        (.ite (fun _ => ?_) fun plain => .ite (fun _ => ?_) fun other => ?_))
      · exact .bind (stepwise_markEnd marks) (.bind (stepwise_advance advances) (.bind .peek
          (.ite (fun _ => .pure _) fun _ => again rest shorter)))
      · exact .bind (stepwise_markEnd marks) (.bind (stepwise_advance advances) (.bind .peek (.ite
          (fun _ => .bind (stepwise_advance advances) (.bind .peek (.ite
            (fun _ => .bind (stepwise_advance advances) (.bind .peek (.ite
              (fun _ => .bind (stepwise_advance advances) (.pure _))
              fun _ => .pure _)))
            fun _ => again rest.tail evenShorter)))
          fun _ => again rest shorter)))
      · refine .bind (.ofMove searches) (again _ ?_)
        have notDollar : c ≠ '$' := plain
        have notQuote : c ≠ '"' := other
        change ((c :: rest).dropWhile fun c => c != '$' && c != '"').length < _
        rw [List.dropWhile_cons_of_pos (by simp [notDollar, notQuote])]
        exact Nat.lt_succ_of_le (List.dropWhile_suffix _).length_le
termination_by text.length

theorem stepwise_scan (advances : allowed .advance) (marks : allowed .markEnd)
    (searches : allowed (.advanceUntil '$' '"')) : Stepwise allowed scan text :=
  stepwise_content advances marks searches false text

end RawText

theorem SoftOperator.stepwise_wholeWord (advances : allowed .advance) (marks : allowed .markEnd)
    (word : String) (kind : TokenKind) : Stepwise allowed (wholeWord word kind) text :=
  .bind (stepwise_advanceWord advances _) (.ite
    (fun _ => .bind (stepwise_markEnd marks) (.bind .peek (.pure _)))
    fun _ => .pure none)

theorem SoftOperator.stepwise_safeNav (advances : allowed .advance) (skips : allowed .skip)
    (marks : allowed .markEnd) : Stepwise allowed safeNav text :=
  .bind (stepwise_skipWhile skips isBlank_nul) (.bind .peek (.ite
    (fun _ => .bind (stepwise_advance advances) (.bind (stepwise_advanceWhile advances isBlank_nul)
      (.bind .peek (.ite
        (fun _ => .bind (stepwise_advance advances) (.bind (stepwise_markEnd marks) (.pure _)))
        fun _ => .pure none))))
    fun _ => .pure none))

namespace Boundary

theorem stepwise_takeSemicolon (advances : allowed .advance) (marks : allowed .markEnd) :
    Stepwise allowed takeSemicolon text :=
  .bind (stepwise_advance advances) (stepwise_markEnd marks)

theorem stepwise_passLineBreak (skips : allowed .skip) : Stepwise allowed passLineBreak text :=
  .bind .peek (.ite (fun _ => stepwise_skip skips) fun _ =>
    .bind (stepwise_skip skips) (.bind .peek (.ite (fun _ => stepwise_skip skips)
      fun _ => .pure ())))

end Boundary

namespace LeadingWord

theorem captureOnto_eq (word : Word) :
    captureOnto word = (do
      let next ← peek
      if isLetter next then
        skip
        captureOnto (word.push next)
      else
        pure word) := by
  funext text
  rw [captureOnto, bind_apply, peek]
  by_cases letter : isLetter (text.headD '\x00') = true
  · rw [if_pos letter, if_pos letter]
    rfl
  · rw [if_neg letter, if_neg letter]
    rfl

theorem stepwise_captureOnto (skips : allowed .skip) (word : Word) :
    Stepwise allowed (captureOnto word) text := by
  induction word, text using captureOnto.induct with
  | case1 word text letter ih =>
      rw [captureOnto_eq]
      exact .bind .peek (.ite (fun _ => .bind (stepwise_skip skips) ih) fun _ => .pure word)
  | case2 word text other =>
      rw [captureOnto_eq]
      exact .bind .peek (.ite (fun letter => absurd letter other) fun _ => .pure word)

theorem stepwise_capture (skips : allowed .skip) : Stepwise allowed capture text :=
  stepwise_captureOnto skips .empty

theorem afterModifiers_eq :
    afterModifiers = (do
      let word ← capture
      if word.isModifier then
        skipWhile isBlank isBlank_nul
        afterModifiers
      else
        pure word : Scan Word) := by
  funext text
  rw [afterModifiers]
  split
  · rename_i modifier
    have silent : (capture text).events
        ++ (skipWhile isBlank isBlank_nul (capture text).rest).events = [] := by
      rw [capture, events_captureOnto, skipWhile, events_passWhile, List.nil_append]
    simp only [bind_apply, modifier, ↓reduceIte, bind_function_apply, Run.precededBy,
      ← List.append_assoc, silent, List.nil_append]
  · rename_i ordinary
    simp [ordinary]

theorem stepwise_afterModifiers (skips : allowed .skip) :
    Stepwise allowed afterModifiers text := by
  induction text using afterModifiers.induct with
  | case1 text word modifier gap ih =>
      rw [afterModifiers_eq]
      exact .bind (stepwise_capture skips) (.ite
        (fun _ => .bind (stepwise_skipWhile skips isBlank_nul) ih)
        fun _ => .pure word.value)
  | case2 text word ordinary =>
      rw [afterModifiers_eq]
      refine .bind (stepwise_capture skips) (.ite (fun modifier => absurd modifier ordinary)
        fun _ => .pure word.value)

theorem stepwise_contextWordStarts (skips : allowed .skip) (kinds : KindSet) (word : ContextWord) :
    Stepwise allowed (contextWordStarts kinds word) text := by
  have skipBlanks {text : Text} : Stepwise allowed (skipWhile isBlank isBlank_nul) text :=
    stepwise_skipWhile skips isBlank_nul
  cases word with
  | constructor => exact .bind skipBlanks (.bind .peek (.pure _))
  | otherwise =>
      exact .bind skipBlanks (.bind .peek (.ite
        (fun _ => .bind (stepwise_skip skips) (.bind .peek (.pure _)))
        fun _ => .pure false))
  | getter => exact .bind .peek (.pure _)
  | setter =>
      exact .ite
        (fun _ => .bind .peek (.ite
          (fun _ => .bind (stepwise_skipWithin skips _) (.bind (stepwise_skip skips)
            (.bind (stepwise_skipWhile skips _) (.bind .peek (.pure _)))))
          fun _ => .pure _))
        fun _ => .pure true
  | membership => exact .pure _
  | instanceTest | delegation | cast | constraints => exact .pure false

theorem stepwise_starts (skips : allowed .skip) (kinds : KindSet) :
    Stepwise allowed (starts kinds) text := by
  refine .bind (stepwise_afterModifiers skips) ?_
  split
  · exact .bind (stepwise_contextWordStarts skips kinds _)
      (.bind (.ite (fun _ => .pure ()) fun _ => .note _) (.pure _))
  · exact .bind (.note _) (.pure true)

end LeadingWord

namespace Annotations

/-- Between annotations nothing asks for the end of the text. -/
theorem skipAll_gap :
    skipAll .gap = (do
      let c ← peek
      if isBlank c then
        skip
        skipAll .gap
      else if c = '@' then
        skip
        skipAll .name
      else
        pure ()) := by
  funext text
  rw [skipAll_gap_apply, bind_apply, peek]
  by_cases blank : isBlank (text.headD '\x00') = true
  · rw [if_pos blank, if_pos blank]
    rfl
  · rw [if_neg blank, if_neg blank]
    by_cases start : text.headD '\x00' = '@'
    · rw [if_pos start, if_pos start]
      rfl
    · rw [if_neg start, if_neg start]
      rfl

theorem skipAll_name :
    skipAll .name = (do
      if ← atEnd then
        pure ()
      else
        let c ← peek
        skip
        skipAll (if isBlank c then .gap else if c = '(' then .arguments else .name)) := by
  funext text
  cases text with
  | nil => rw [skipAll_nil]; rfl
  | cons c rest => rw [skipAll_name_cons]; rfl

theorem skipAll_arguments :
    skipAll .arguments = (do
      if ← atEnd then
        pure ()
      else
        let c ← peek
        skip
        skipAll (if c = '\n' then .gap else if c = ')' then .name else .arguments)) := by
  funext text
  cases text with
  | nil => rw [skipAll_nil]; rfl
  | cons c rest => rw [skipAll_arguments_cons]; rfl

theorem stepwise_skipAll (skips : allowed .skip) (place : Place) :
    Stepwise allowed (skipAll place) text := by
  induction text generalizing place with
  | nil =>
      cases place with
      | gap => rw [skipAll_gap]; exact .bind .peek (.pure ())
      | name => rw [skipAll_name]; exact .bind .atEnd (.pure ())
      | arguments => rw [skipAll_arguments]; exact .bind .atEnd (.pure ())
  | cons c rest ih =>
      cases place with
      | gap =>
          rw [skipAll_gap]
          exact .bind .peek (.ite (fun _ => .bind (stepwise_skip skips) (ih .gap)) fun _ =>
            .ite (fun _ => .bind (stepwise_skip skips) (ih .name)) fun _ => .pure ())
      | name =>
          rw [skipAll_name]
          exact .bind .atEnd (.bind .peek (.bind (stepwise_skip skips) (ih _)))
      | arguments =>
          rw [skipAll_arguments]
          exact .bind .atEnd (.bind .peek (.bind (stepwise_skip skips) (ih _)))

theorem stepwise_constructorFollows (skips : allowed .skip) :
    Stepwise allowed constructorFollows text :=
  .bind (stepwise_skipWithin skips _)
    (.bind (stepwise_skipWhile skips isBlank_nul) (stepwise_skipWord skips _))

end Annotations

theorem Boundary.stepwise_seek (advances : allowed .advance) (skips : allowed .skip)
    (marks : allowed .markEnd) : Stepwise allowed seek text :=
  .bind (stepwise_skipWithin skips isInlineBlank) (.bind .atEnd (.ite (fun _ => .pure _) fun _ =>
    .bind .peek (.ite (fun _ => .bind (stepwise_takeSemicolon advances marks) (.pure _)) fun _ =>
      .ite (fun _ => .bind (stepwise_passLineBreak skips) (.pure _)) fun _ => .pure _)))

namespace Continuation

theorem stepwise_sign (skips : allowed .skip) (first : Char) :
    Stepwise allowed (sign first) text :=
  .bind (stepwise_skip skips) (.bind .peek (.pure _))

theorem stepwise_negation (skips : allowed .skip) (kinds : KindSet) :
    Stepwise allowed (negation kinds) text := by
  have bare {text : Text} : Stepwise allowed (do pure (insertIf ((← peek) != '='))) text :=
    .bind .peek (.pure _)
  exact .bind (stepwise_skip skips) (.bind .peek (.ite
    (fun _ => .bind (stepwise_skip skips) (.bind .peek (.ite
      (fun _ => .bind (stepwise_skip skips) (.pure _))
      fun _ => bare)))
    fun _ => bare))

theorem stepwise_firstToken (advances : allowed .advance) (skips : allowed .skip)
    (marks : allowed .markEnd) (kinds : KindSet) : Stepwise allowed (firstToken kinds) text :=
  .bind .peek (.ite (fun _ => .pure _) fun _ =>
    .ite (fun _ => stepwise_sign skips _) fun _ =>
    .ite (fun _ => stepwise_negation skips kinds) fun _ =>
    .ite (fun _ => .pure _) fun _ =>
    .ite (fun _ => .bind (Boundary.stepwise_takeSemicolon advances marks) (.pure _)) fun _ =>
    .ite (fun _ => .bind (LeadingWord.stepwise_starts skips kinds) (.pure _)) fun _ => .pure _)

theorem stepwise_newLine (advances : allowed .advance) (skips : allowed .skip)
    (marks : allowed .markEnd) (kinds : KindSet) : Stepwise allowed (newLine kinds) text := by
  have first {text : Text} : Stepwise allowed (firstToken kinds) text :=
    stepwise_firstToken advances skips marks kinds
  exact .bind .peek (.ite
    (fun _ => .ite
      (fun _ => .bind (Annotations.stepwise_constructorFollows skips) (.pure _)) fun _ =>
      .ite (fun _ => .bind (Annotations.stepwise_skipAll skips .gap)
        (.bind .peek (.ite (fun _ => .pure _) fun _ => first))) fun _ => .pure _)
    fun _ => first)

theorem stepwise_sameLine (skips : allowed .skip) (kinds : KindSet) :
    Stepwise allowed (sameLine kinds) text :=
  .bind .peek (.ite (fun _ => .pure _) fun _ => .ite (fun _ => .pure _) fun _ =>
    .ite (fun _ => .bind (stepwise_skipWord skips _) (.pure _)) fun _ => .pure _)

theorem stepwise_beforeToken (advances : allowed .advance) (skips : allowed .skip)
    (marks : allowed .markEnd) (kinds : KindSet) (sawLineBreak : Bool) :
    Stepwise allowed (beforeToken kinds sawLineBreak) text :=
  .ite (fun _ => stepwise_newLine advances skips marks kinds) fun _ =>
    stepwise_sameLine skips kinds

theorem stepwise_decision (advances : allowed .advance) (skips : allowed .skip)
    (marks : allowed .markEnd) (kinds : KindSet) : Stepwise allowed (decision kinds) text :=
  .bind (stepwise_markEnd marks) (.bind (Boundary.stepwise_seek advances skips marks)
    (.ite (fun _ => .pure _) fun _ =>
      .bind (stepwise_skipWhile skips isBlank_nul) (.bind .peek (.ite (fun _ => .pure _)
        fun _ => .bind (stepwise_beforeToken advances skips marks kinds _)
          (.bind (.note _) (.pure _))))))

end Continuation

namespace Request

theorem stepwise_comment (advances : allowed .advance) (marks : allowed .markEnd)
    (kinds : KindSet) : Stepwise allowed (comment kinds) text :=
  .ite (fun _ => .pure none) fun _ => Comment.stepwise_scan advances marks

theorem stepwise_statementEnd (advances : allowed .advance) (skips : allowed .skip)
    (marks : allowed .markEnd) (kinds : KindSet) (terminator : TokenKind) :
    Stepwise allowed (statementEnd kinds terminator) text := by
  refine .bind (Continuation.stepwise_decision advances skips marks kinds) ?_
  cases (Continuation.decision kinds text).value with
  | insert => exact .pure _
  | suppress => exact .pure none
  | comment => exact stepwise_comment advances marks kinds
  | safeNav => exact SoftOperator.stepwise_safeNav advances skips marks
  | notIs =>
      exact .ite (fun _ => SoftOperator.stepwise_wholeWord advances marks _ _) fun _ => .pure none

theorem stepwise_plainToken (advances : allowed .advance) (skips : allowed .skip)
    (marks : allowed .markEnd) (kinds : KindSet) : Stepwise allowed (plainToken kinds) text :=
  .bind (stepwise_skipWhile skips isBlank_nul) (.bind .peek
    (.ite (fun _ => SoftOperator.stepwise_wholeWord advances marks _ _) fun _ =>
    .ite (fun _ => SoftOperator.stepwise_wholeWord advances marks _ _) fun _ =>
    .ite (fun _ => SoftOperator.stepwise_safeNav advances skips marks) fun _ =>
      stepwise_comment advances marks kinds))

theorem stepwise_token (advances : allowed .advance) (skips : allowed .skip)
    (marks : allowed .markEnd) (searches : allowed (.advanceUntil '$' '"')) (kinds : KindSet) :
    Stepwise allowed (token kinds) text := by
  refine .ite (fun _ => RawText.stepwise_scan advances marks searches) fun _ => ?_
  split
  · exact stepwise_statementEnd advances skips marks kinds _
  · exact stepwise_plainToken advances skips marks kinds

/-- A request is stepwise wherever single moves and the search for `$` and quotes are allowed. -/
theorem stepwise_scan (advances : allowed .advance) (skips : allowed .skip)
    (marks : allowed .markEnd) (searches : allowed (.advanceUntil '$' '"')) (kinds : KindSet) :
    Stepwise allowed (scan kinds) text :=
  .bind (stepwise_token advances skips marks searches kinds) (.bind (.note _) (.pure _))

/-- The moves of a request lead from its text to what the scan left of it. -/
theorem leadsToRest_scan (kinds : KindSet) : LeadsToRest (scan kinds) := by
  intro text
  have stepwise : Stepwise (fun _ => True) (scan kinds) text :=
    stepwise_scan trivial trivial trivial trivial kinds
  exact stepwise.leadsToRest

end Request

end ContextScan

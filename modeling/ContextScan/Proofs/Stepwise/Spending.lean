import ContextScan.Proofs.Reader.Window
import ContextScan.Proofs.Token.Forms
import ContextScan.Proofs.Words.Leading

namespace ContextScan

/-! What the moves of a run are spent on.

A move made where the text has ended passes nothing: it is idle.  `Run.Spends` counts the idle moves
of a run and sets its marks against the characters that it passes.  Every loop stops at the end of
the text: some ask for it before each move, and the others look at the next character alone, which
there is NUL, neither a blank nor a letter.  So only one place makes an idle move: past the parameter
of a setter that nothing closes. -/

open Scan Continuation

def Move.isIdle (text : Text) : Move → Bool
  | .advance | .skip => text.isEmpty
  | .markEnd | .advanceUntil .. => false

/-- How many of some moves are made where the text has ended. -/
def idleMoves : List Move → Text → Nat
  | [], _ => 0
  | move :: moves, text => (move.isIdle text).toNat + idleMoves moves (move.leave text)

theorem idleMoves_append (moves later : List Move) (text : Text) :
    idleMoves (moves ++ later) text
      = idleMoves moves text + idleMoves later (leaveAll moves text) := by
  induction moves generalizing text with
  | nil => exact (Nat.zero_add _).symm
  | cons move moves ih =>
      rw [List.cons_append, idleMoves, idleMoves, leaveAll_cons, ih, Nat.add_assoc]

/-- Whether a run makes so many idle moves, and no more marks than it passes characters. -/
structure Run.Spends {α : Type} (run : Run α) (text : Text) (idle : Nat) : Prop where
  leads : run.LeadsToRest text
  idle : idleMoves run.moves text = idle
  marks : run.moves.count .markEnd + run.rest.length ≤ text.length

namespace Run.Spends

variable {α β : Type} {run : Run α} {text rest : Text} {idle : Nat}

theorem still (moves : run.moves = []) (whole : run.rest = text) : run.Spends text 0 := by
  refine ⟨?_, by rw [moves]; rfl, by simp [moves, whole]⟩
  rw [LeadsToRest, moves, whole]
  rfl

/-- What a run comes to, and what it reports, costs nothing. -/
theorem congr {other : Run β} (spends : run.Spends text idle) (moves : other.moves = run.moves)
    (left : other.rest = run.rest) : other.Spends text idle := by
  obtain ⟨leads, active, marks⟩ := spends
  rw [LeadsToRest, ← moves, ← left] at leads
  rw [← moves] at active marks
  rw [← left] at marks
  exact ⟨leads, active, marks⟩

theorem alone (spends : run.Spends text idle) :
    (Run.mk () run.moves [] run.rest).Spends text idle := spends.congr rfl rfl

/-- What comes after moves that are all well spent. -/
theorem precededBy {moves : List Move}
    (before : (Run.mk () moves [] rest).Spends text 0) (after : run.Spends rest idle) :
    (run.precededBy moves).Spends text idle := by
  have led : leaveAll moves text = rest := before.leads
  have active : idleMoves moves text = 0 := before.idle
  have marked : moves.count .markEnd + rest.length ≤ text.length := before.marks
  have laterMarks := after.marks
  refine ⟨?_, ?_, ?_⟩
  · rw [LeadsToRest, Run.precededBy, leaveAll_append, led]
    exact after.leads
  · rw [Run.precededBy, idleMoves_append, active, led, after.idle, Nat.zero_add]
  · simp only [Run.precededBy, List.count_append]
    omega

theorem bind {first : Scan α} {next : α → Scan β} (before : (first text).Spends text 0)
    (after : (next (first text).value (first text).rest).Spends (first text).rest idle) :
    ((first >>= next) text).Spends text idle :=
  (before.alone.precededBy after).congr rfl rfl

theorem bind_still {first : Scan α} {next : α → Scan β} (before : (first text).Spends text idle)
    (moves : ∀ value rest, (next value rest).moves = [])
    (whole : ∀ value rest, (next value rest).rest = rest) :
    ((first >>= next) text).Spends text idle := by
  refine ⟨?_, ?_, ?_⟩
  · rw [LeadsToRest, bind_apply, moves, List.append_nil, whole]
    exact before.leads
  · rw [bind_apply, moves, List.append_nil]
    exact before.idle
  · rw [bind_apply, moves, List.append_nil, whole]
    exact before.marks

theorem bind_pure {first : Scan α} {result : α → β} (before : (first text).Spends text idle) :
    ((first >>= fun value => pure (result value)) text).Spends text idle :=
  before.bind_still (fun _ _ => rfl) fun _ _ => rfl

end Run.Spends

theorem leaveAll_replicate {move : Move} (passes : move = .advance ∨ move = .skip)
    (passed rest : Text) : leaveAll (List.replicate passed.length move) (passed ++ rest) = rest := by
  induction passed with
  | nil => rfl
  | cons c passed ih => rcases passes with rfl | rfl <;> exact ih

theorem idleMoves_replicate {move : Move} (passes : move = .advance ∨ move = .skip)
    (passed rest : Text) : idleMoves (List.replicate passed.length move) (passed ++ rest) = 0 := by
  induction passed with
  | nil => rfl
  | cons c passed ih =>
      have later : idleMoves (List.replicate passed.length move) (move.leave (c :: passed ++ rest))
          = 0 := by
        rcases passes with rfl | rfl <;> exact ih
      have here : move.isIdle (c :: passed ++ rest) = false := by
        rcases passes with rfl | rfl <;> rfl
      rw [List.length_cons, List.replicate_succ, idleMoves, here, later]
      rfl

theorem Run.spends_replicate {move : Move} (passes : move = .advance ∨ move = .skip)
    (passed rest : Text) :
    (Run.mk () (List.replicate passed.length move) [] rest).Spends (passed ++ rest) 0 := by
  refine ⟨leaveAll_replicate passes passed rest, idleMoves_replicate passes passed rest, ?_⟩
  rcases passes with rfl | rfl <;> simp [List.count_replicate]

/-- A mark after some characters is set against the last of them. -/
theorem Run.spends_markedLast {α : Type} (value : α) {passed : Text} (nonempty : passed ≠ [])
    (rest : Text) :
    (Run.mk value (List.replicate passed.length .advance ++ [.markEnd]) [] rest).Spends
      (passed ++ rest) 0 := by
  have positive := List.length_pos_iff.mpr nonempty
  have led := leaveAll_replicate (Or.inl rfl) passed rest
  have active := idleMoves_replicate (Or.inl rfl) passed rest
  refine ⟨?_, ?_, ?_⟩
  · rw [LeadsToRest, leaveAll_append, led]
    rfl
  · rw [idleMoves_append, active]
    rfl
  · simp only [List.count_append, List.count_replicate, List.length_append]
    rw [if_neg (by decide), List.count_singleton_self]
    omega

/-- A mark before some characters is set against the first of them. -/
theorem Run.spends_markedFirst {α : Type} (value : α) {passed : Text} (nonempty : passed ≠ [])
    (rest : Text) :
    (Run.mk value (.markEnd :: List.replicate passed.length .advance) [] rest).Spends
      (passed ++ rest) 0 := by
  have positive := List.length_pos_iff.mpr nonempty
  refine ⟨leaveAll_replicate (Or.inl rfl) passed rest, ?_, ?_⟩
  · exact (Nat.zero_add _).trans (idleMoves_replicate (Or.inl rfl) passed rest)
  · simp only [List.count_cons_self, List.count_replicate, List.length_append]
    rw [if_neg (by decide)]
    omega

namespace Scan

theorem spends_skip (c : Char) (rest : Text) : (skip (c :: rest)).Spends (c :: rest) 0 :=
  Run.spends_replicate (Or.inr rfl) [c] rest

theorem spends_advance (c : Char) (rest : Text) : (advance (c :: rest)).Spends (c :: rest) 0 :=
  Run.spends_replicate (Or.inl rfl) [c] rest

/-- A scan that goes on only where a character is knows that the text has not ended. -/
theorem spends_ifNext {α : Type} {c : Char} (present : c ≠ '\x00') {found other : Scan α}
    {text : Text} (here : ∀ rest, text = c :: rest → (found (c :: rest)).Spends (c :: rest) 0)
    (elsewhere : (other text).Spends text 0) :
    ((do if (← peek) == c then found else other : Scan α) text).Spends text 0 := by
  refine .bind (.still rfl rfl) ?_
  split
  · rename_i next
    obtain ⟨rest, rfl⟩ := List.head?_eq_some_iff.mp (head?_of_headD_beq next present)
    exact here rest rfl
  · exact elsewhere

section Loops

variable {accepts : Char → Bool} (nul : accepts '\x00' = false)

/-- A loop that looks at the next character alone makes no idle move: at the end of the text that is
NUL, over which the loop does not go on. -/
theorem spends_passWhile {move : Move} (passes : move = .advance ∨ move = .skip) (text : Text) :
    (passWhile move accepts nul text).Spends text 0 := by
  fun_induction passWhile move accepts nul text with
  | case1 text accepted ih =>
      obtain ⟨c, rest, rfl⟩ := exists_cons_of_accepts nul accepted
      exact .precededBy (Run.spends_replicate passes [c] rest) ih
  | case2 text refused => exact .still rfl rfl

theorem spends_skipWhile (text : Text) : (skipWhile accepts nul text).Spends text 0 :=
  spends_passWhile nul (Or.inr rfl) text

theorem spends_advanceWhile (text : Text) : (advanceWhile accepts nul text).Spends text 0 :=
  spends_passWhile nul (Or.inl rfl) text

theorem spends_skipWithin (accepts : Char → Bool) (text : Text) :
    (skipWithin accepts text).Spends text 0 := by
  fun_induction skipWithin accepts text with
  | case1 => exact .still rfl rfl
  | case2 c rest accepted ih =>
      exact .precededBy (Run.spends_replicate (Or.inr rfl) [c] rest) ih
  | case3 c rest refused => exact .still rfl rfl

end Loops

/-- A word without NUL is not looked for past the end of the text. -/
theorem spends_skipWord {word : Text} (visible : '\x00' ∉ word) (text : Text) :
    (skipWord word text).Spends text 0 := by
  induction word generalizing text with
  | nil => exact .still rfl rfl
  | cons letter word ih =>
      rw [List.mem_cons, not_or] at visible
      exact spends_ifNext (Ne.symm visible.1)
        (fun rest _ => .bind (spends_skip letter rest) (ih visible.2 rest)) (.still rfl rfl)

theorem spends_advanceWord {word : Text} (visible : '\x00' ∉ word) (text : Text) :
    (advanceWord word text).Spends text 0 := by
  induction word generalizing text with
  | nil => exact .still rfl rfl
  | cons letter word ih =>
      rw [List.mem_cons, not_or] at visible
      exact spends_ifNext (Ne.symm visible.1)
        (fun rest _ => .bind (spends_advance letter rest) (ih visible.2 rest)) (.still rfl rfl)

end Scan

/-- A character that is taken on the way costs nothing else. -/
theorem Run.Spends.advanced {α : Type} {run : Run α} {text : Text} {idle : Nat}
    (spends : run.Spends text idle) (c : Char) :
    (run.precededBy [.advance]).Spends (c :: text) idle :=
  .precededBy (Run.spends_replicate (Or.inl rfl) [c] text) spends

namespace Comment

theorem spends_body (outer : Nat) (half : Half) (text : Text) :
    (body outer half text).Spends text 0 := by
  fun_induction body outer half text with
  | case1 => exact .still rfl rfl
  | case2 outer rest ih => exact ih.advanced _
  | case3 outer half rest other ih => exact ih.advanced _
  | case4 rest => exact Run.spends_markedLast _ (List.cons_ne_nil '/' []) rest
  | case5 rest notStar outer ih => exact ih.advanced _
  | case6 half rest outer _ _ notStar ih => exact ih.advanced _
  | case7 outer half c rest notStar notSlash ih => exact ih.advanced c

theorem spends_scan (text : Text) : (scan text).Spends text 0 :=
  spends_ifNext (by decide)
    (fun rest _ => .bind (spends_advance '/' rest) (spends_ifNext (by decide)
      (fun inside _ => .bind (spends_advance '*' inside) (spends_body 0 .neither inside))
      (.still rfl rfl)))
    (.still rfl rfl)

end Comment

theorem RawText.spends_content (hasContent : Bool) (text : Text) :
    (content hasContent text).Spends text 0 := by
  fun_induction content hasContent text with
  | case1 => exact .still rfl rfl
  | case2 hasContent rest =>
      exact Run.spends_markedFirst _ (List.cons_ne_nil '$' []) rest
  | case3 hasContent rest literal ih =>
      exact .precededBy (Run.spends_markedFirst () (List.cons_ne_nil '$' []) rest) ih
  | case4 hasContent rest =>
      exact Run.spends_markedFirst _ (List.cons_ne_nil '"' ['"', '"', '"']) rest
  | case5 hasContent rest =>
      exact Run.spends_markedFirst _ (List.cons_ne_nil '"' ['"', '"']) rest
  | case6 hasContent rest _ _ ih =>
      exact .precededBy (Run.spends_markedFirst () (List.cons_ne_nil '"' ['"']) rest) ih
  | case7 hasContent rest _ _ _ ih =>
      exact .precededBy (Run.spends_markedFirst () (List.cons_ne_nil '"' []) rest) ih
  | case8 hasContent c rest dollar _ _ _ quote ih =>
      have others : ¬c = '$' ∧ ¬c = '"' := ⟨dollar, quote⟩
      have passed : (c :: rest).dropWhile (fun c => c != '$' && c != '"')
          = rest.dropWhile isPlain := by
        rw [List.dropWhile_cons_of_pos (by simp [others])]
        rfl
      have shorter := (List.dropWhile_suffix isPlain (l := rest)).length_le
      exact .precededBy ⟨passed, rfl, by simpa using Nat.le_succ_of_le shorter⟩ ih

namespace SoftOperator

theorem spends_wholeWord {word : String} (visible : '\x00' ∉ word.toList)
    (nonempty : word.toList ≠ []) (kind : TokenKind) (text : Text) :
    (wholeWord word kind text).Spends text 0 := by
  cases read : (advanceWord word.toList text).value with
  | false =>
      refine .bind (spends_advanceWord visible text) ?_
      rw [read]
      exact .still rfl rfl
  | true =>
      obtain ⟨rest, rfl⟩ := prefix_of_advanceWord visible read
      rw [wholeWord, bind_silent (advanceWord_append word.toList rest)]
      exact (Run.spends_markedLast () nonempty rest).congr rfl rfl

theorem spends_safeNav (text : Text) : (safeNav text).Spends text 0 := by
  refine .bind (spends_skipWhile isBlank_nul text) (spends_ifNext (by decide) (fun rest _ => ?_)
    (.still rfl rfl))
  exact .bind (spends_advance '?' rest) (.bind (spends_advanceWhile isBlank_nul _)
    (spends_ifNext (by decide)
      (fun later _ =>
        (Run.spends_markedLast () (List.cons_ne_nil '.' []) later).congr rfl rfl)
      (.still rfl rfl)))

end SoftOperator

/-- What follows a decision. -/
theorem Request.spends_follow (kinds : KindSet) (terminator : TokenKind) (decided : Decision)
    (text : Text) : (follow kinds terminator decided text).Spends text 0 := by
  cases decided with
  | insert | suppress => exact .still rfl rfl
  | comment =>
      change (comment kinds text).Spends text 0
      rw [comment]
      split
      · exact .still rfl rfl
      · exact Comment.spends_scan text
  | safeNav => exact SoftOperator.spends_safeNav text
  | notIs =>
      rw [follow]
      split
      · exact SoftOperator.spends_wholeWord (by decide) (by decide) _ text
      · exact .still rfl rfl

theorem Request.spends_plainToken (kinds : KindSet) (text : Text) :
    (plainToken kinds text).Spends text 0 := by
  refine .bind (spends_skipWhile isBlank_nul text) (.bind (.still rfl rfl) ?_)
  split
  · exact SoftOperator.spends_wholeWord (by decide) (by decide) _ _
  split
  · exact SoftOperator.spends_wholeWord (by decide) (by decide) _ _
  split
  · exact SoftOperator.spends_safeNav _
  · exact Request.spends_follow kinds .semi .comment _

/-- Whether a text has a setter's parameter in it that nothing closes, where setters matter. -/
def KindSet.Overruns (kinds : KindSet) (text : Text) : Prop :=
  kinds.has .setter = true ∧ ∃ before after, text = before ++ ("set(".toList ++ after) ∧ ')' ∉ after

theorem KindSet.Overruns.after {kinds : KindSet} {text : Text} (overruns : kinds.Overruns text)
    (passed : Text) : kinds.Overruns (passed ++ text) := by
  obtain ⟨requested, before, after, rfl, unclosed⟩ := overruns
  exact ⟨requested, passed ++ before, after, (List.append_assoc ..).symm, unclosed⟩

/-- Whether a run makes no idle move, but for one where a setter's parameter is not closed. -/
def Run.Heeds {α : Type} (run : Run α) (kinds : KindSet) (text : Text) : Prop :=
  run.Spends text 0 ∨ run.Spends text 1 ∧ kinds.Overruns text

namespace Run.Heeds

variable {α β : Type} {kinds : KindSet} {text : Text}

theorem bind {first : Scan α} {next : α → Scan β} (before : (first text).Spends text 0)
    (after : (next (first text).value (first text).rest).Heeds kinds (first text).rest) :
    ((first >>= next) text).Heeds kinds text := by
  rcases after with spends | ⟨spends, overruns⟩
  · exact Or.inl (before.bind spends)
  · obtain ⟨passed, split, _⟩ := leaveAll_windowed (first text).moves text
    have led : leaveAll (first text).moves text = (first text).rest := before.leads
    rw [led] at split
    refine Or.inr ⟨before.bind spends, ?_⟩
    rw [split]
    exact overruns.after passed

theorem bind_still {first : Scan α} {next : α → Scan β} (before : (first text).Heeds kinds text)
    (moves : ∀ value rest, (next value rest).moves = [])
    (whole : ∀ value rest, (next value rest).rest = rest) :
    ((first >>= next) text).Heeds kinds text :=
  before.imp (·.bind_still moves whole) fun both => ⟨both.1.bind_still moves whole, both.2⟩

theorem bind_pure {first : Scan α} {result : α → β} (before : (first text).Heeds kinds text) :
    ((first >>= fun value => pure (result value)) text).Heeds kinds text :=
  before.bind_still (fun _ _ => rfl) fun _ _ => rfl

end Run.Heeds

namespace LeadingWord

theorem spends_captureOnto (word : Word) (text : Text) :
    (captureOnto word text).Spends text 0 := by
  fun_induction captureOnto word text with
  | case1 word text letter ih =>
      obtain ⟨c, rest, rfl⟩ := exists_cons_of_accepts isLetter_nul letter
      exact .precededBy (spends_skip c rest) ih
  | case2 word text other => exact .still rfl rfl

theorem spends_afterModifiers (line : Text) : (afterModifiers line).Spends line 0 := by
  fun_induction afterModifiers line with
  | case1 line word modifier gap ih =>
      have captured := (spends_captureOnto .empty line).alone
      have skipped := (spends_skipWhile isBlank_nul word.rest).alone
      rw [← Run.precededBy_precededBy]
      exact .precededBy captured (.precededBy skipped ih)
  | case2 line word ordinary => exact spends_captureOnto .empty line

/-- Past the end of the text there is nothing more to skip. -/
theorem pastParameter_nil : pastParameter [] = ⟨false, [.skip], [], []⟩ := by
  have skipped : skip [] = ⟨(), [.skip], [], []⟩ := rfl
  rw [pastParameter, bind_silent skipped, bind_silent (skipWhile_of_stops (.of_headD rfl))]
  rfl

theorem setterStarts_parameter {kinds : KindSet} (requested : kinds.has .setter = true)
    {inside rest : Text} (unclosed : ')' ∉ inside) (stops : Stops (· != ')') rest) :
    setterStarts kinds ('(' :: (inside ++ rest))
      = (pastParameter rest).precededBy (List.replicate ('(' :: inside).length .skip) := by
  have passed : ∀ c ∈ '(' :: inside, (c != ')') = true := by
    intro c member
    rw [bne_iff_ne]
    rintro rfl
    exact (List.mem_cons.mp member).elim (by decide) unclosed
  have parted : setterStarts kinds ('(' :: (inside ++ rest))
      = (do skipWithin (· != ')'); pastParameter : Scan Bool) ('(' :: inside ++ rest) := by
    rw [setterStarts, if_pos requested]
    rfl
  rw [parted]
  exact bind_silent (skipWithin_append passed stops)

/-- The search for the end of a setter's parameter goes past the text where there is none. -/
theorem spends_setterStarts (kinds : KindSet) (rest : Text) :
    (setterStarts kinds rest).Spends rest 0 ∨
      (setterStarts kinds rest).Spends rest 1 ∧ kinds.has .setter = true ∧
        ∃ after, rest = '(' :: after ∧ ')' ∉ after := by
  cases requested : kinds.has .setter with
  | false =>
      left
      rw [setterStarts, requested]
      exact .still rfl rfl
  | true =>
      by_cases opens : rest.head? = some '('
      · obtain ⟨later, rfl⟩ := List.head?_eq_some_iff.mp opens
        obtain ⟨inside, left, rfl, passed, stops⟩ := exists_stops (· != ')') later
        have unclosed : ')' ∉ inside := fun closed => absurd (passed ')' closed) (by decide)
        have spent := Run.spends_replicate (Or.inr rfl) ('(' :: inside) left
        rw [setterStarts_parameter requested unclosed stops]
        cases left with
        | nil =>
            have idle : (pastParameter []).Spends [] 1 := by
              rw [pastParameter_nil]
              exact ⟨rfl, rfl, Nat.le_refl _⟩
            refine Or.inr ⟨.precededBy spent idle, rfl, inside, ?_, unclosed⟩
            rw [List.append_nil]
        | cons c more =>
            exact Or.inl (.precededBy spent (.bind (spends_skip c more)
              (.bind (spends_skipWhile _ _) (.still rfl rfl))))
      · left
        rw [setterStarts, if_pos requested]
        exact spends_ifNext (by decide) (fun later here => absurd (congrArg List.head? here) opens)
          (.still rfl rfl)

theorem spends_contextWordStarts (kinds : KindSet) {word : ContextWord} (other : word ≠ .setter)
    (rest : Text) : (contextWordStarts kinds word rest).Spends rest 0 := by
  cases word with
  | constructor => exact .bind (spends_skipWhile isBlank_nul rest) (.still rfl rfl)
  | otherwise =>
      exact .bind (spends_skipWhile isBlank_nul rest) (spends_ifNext (by decide)
        (fun later _ => .bind (spends_skip '-' later) (.still rfl rfl)) (.still rfl rfl))
  | getter => exact .still rfl rfl
  | setter => exact absurd rfl other
  | membership | instanceTest | delegation | cast | constraints => exact .still rfl rfl

theorem spends_judge (kinds : KindSet) (word : Word) (rest : Text) :
    (judge kinds word rest).Spends rest 0 ∨
      (judge kinds word rest).Spends rest 1 ∧ word.contextWord? = some .setter ∧
        kinds.has .setter = true ∧ ∃ after, rest = '(' :: after ∧ ')' ∉ after := by
  cases known : word.contextWord? with
  | none =>
      simp only [judge, known]
      exact Or.inl (.still rfl rfl)
  | some contextWord =>
      have reported {idle : Nat}
          (spends : (contextWordStarts kinds contextWord rest).Spends rest idle) :
          (judge kinds word rest).Spends rest idle := by
        simp only [judge, known]
        refine spends.bind_still (fun inserts text => ?_) fun inserts text => ?_
        · cases contextWord <;> rfl
        · cases contextWord <;> rfl
      by_cases setter : contextWord = .setter
      · subst setter
        exact (spends_setterStarts kinds rest).imp reported fun both =>
          ⟨reported both.1, rfl, both.2⟩
      · exact Or.inl (reported (spends_contextWordStarts kinds setter rest))

theorem heeds_starts (kinds : KindSet) (line : Text) : (starts kinds line).Heeds kinds line := by
  obtain ⟨passed, run, rest, rfl, _, _, _, captured⟩ := exists_afterModifiers line
  have spent := (spends_afterModifiers (passed ++ (run ++ rest))).alone
  rw [captured] at spent
  rw [starts_eq_judge kinds captured]
  rcases spends_judge kinds (Word.ofRun run) rest with
    spends | ⟨spends, known, requested, after, rfl, unclosed⟩
  · exact Or.inl (.precededBy spent spends)
  · have spelled : run = "set".toList := Word.contextWord?_ofRun_iff.mp known
    refine Or.inr ⟨.precededBy spent spends, requested, passed, after, ?_, unclosed⟩
    rw [spelled]
    rfl

end LeadingWord

theorem Annotations.spends_skipAll (place : Place) (text : Text) :
    (skipAll place text).Spends text 0 := by
  obtain ⟨passed, later, rfl, skipped⟩ := exists_skipAll place text
  rw [skipped]
  exact Run.spends_replicate (Or.inr rfl) passed later

namespace Continuation

theorem spends_sign (first : Char) (rest : Text) :
    (sign first (first :: rest)).Spends (first :: rest) 0 :=
  .bind (spends_skip first rest) (.still rfl rfl)

theorem spends_negation (kinds : KindSet) (rest : Text) :
    (negation kinds ('!' :: rest)).Spends ('!' :: rest) 0 := by
  refine .bind (spends_skip '!' rest) (.bind (.still rfl rfl) ?_)
  split
  · rename_i both
    have next : (rest.headD '\x00' == 'i') = true := (Bool.and_eq_true _ _ ▸ both).2
    obtain ⟨later, rfl⟩ := List.head?_eq_some_iff.mp (head?_of_headD_beq next (by decide))
    exact .bind (spends_skip 'i' later) (spends_ifNext (by decide)
      (fun last _ => .bind (spends_skip 's' last) (.still rfl rfl)) (.still rfl rfl))
  · exact .still rfl rfl

theorem heeds_firstToken (kinds : KindSet) (text : Text) :
    (firstToken kinds text).Heeds kinds text := by
  have found {c : Char} (next : (text.headD '\x00' == c) = true) (present : c ≠ '\x00') :
      ∃ rest, text = c :: rest :=
    List.head?_eq_some_iff.mp (head?_of_headD_beq next present)
  refine .bind (.still rfl rfl) ?_
  split
  · exact Or.inl (.still rfl rfl)
  split
  · rename_i signs
    left
    rcases Bool.or_eq_true _ _ ▸ signs with plus | minus
    · obtain ⟨rest, rfl⟩ := found plus (by decide)
      exact spends_sign '+' rest
    · obtain ⟨rest, rfl⟩ := found minus (by decide)
      exact spends_sign '-' rest
  split
  · rename_i bang
    obtain ⟨rest, rfl⟩ := found bang (by decide)
    exact Or.inl (spends_negation kinds rest)
  split
  · exact Or.inl (.still rfl rfl)
  split
  · rename_i semicolon
    obtain ⟨rest, rfl⟩ := found semicolon (by decide)
    exact Or.inl ((Run.spends_markedLast () (List.cons_ne_nil ';' []) rest).congr rfl rfl)
  split
  · exact .bind_pure (LeadingWord.heeds_starts kinds text)
  · exact Or.inl (.still rfl rfl)

theorem heeds_newLine (kinds : KindSet) (text : Text) : (newLine kinds text).Heeds kinds text := by
  refine .bind (.still rfl rfl) ?_
  split
  · split
    · refine Or.inl (.bind_pure ?_)
      exact .bind (spends_skipWithin _ text) (.bind (spends_skipWhile isBlank_nul _)
        (spends_skipWord (by decide) _))
    split
    · refine .bind (Annotations.spends_skipAll .gap text) (.bind (.still rfl rfl) ?_)
      split
      · exact Or.inl (.still rfl rfl)
      · exact heeds_firstToken kinds _
    · exact Or.inl (.still rfl rfl)
  · exact heeds_firstToken kinds text

theorem spends_sameLine (kinds : KindSet) (text : Text) :
    (sameLine kinds text).Spends text 0 := by
  refine .bind (.still rfl rfl) ?_
  split
  · exact .still rfl rfl
  split
  · exact .still rfl rfl
  split
  · exact .bind_pure (spends_skipWord (by decide) text)
  · exact .still rfl rfl

/-- What is decided after a gap; on the same line nothing is decided that heeds a setter. -/
theorem heeds_afterGap (kinds : KindSet) (sawLineBreak : Bool) (text : Text) :
    (afterGap kinds sawLineBreak text).Spends text 0 ∨
      sawLineBreak = true ∧ (afterGap kinds sawLineBreak text).Spends text 1 ∧
        kinds.Overruns text := by
  cases sawLineBreak with
  | true =>
      have visible : (beforeVisible kinds true text).Heeds kinds text := by
        refine .bind (.still rfl rfl) ?_
        split
        · exact Or.inl (.still rfl rfl)
        · exact .bind_still (heeds_newLine kinds text) (fun _ _ => rfl) fun _ _ => rfl
      exact visible.imp_right fun both => ⟨rfl, both⟩
  | false =>
      have visible : (beforeVisible kinds false text).Spends text 0 := by
        refine .bind (.still rfl rfl) ?_
        split
        · exact .still rfl rfl
        · exact .bind_still (spends_sameLine kinds text) (fun _ _ => rfl) fun _ _ => rfl
      left
      cases text with
      | nil => exact .still rfl rfl
      | cons c rest =>
          by_cases semicolon : c = ';'
          · subst semicolon
            exact Run.spends_markedLast _ (List.cons_ne_nil ';' []) rest
          · rw [afterGap_cons kinds false rest semicolon]
            exact visible

/-- A decision that has read past the text leaves nothing to another resolver. -/
theorem settled_of_spends {kinds : KindSet} {sawLineBreak : Bool} {text : Text}
    (stops : Stops isBlank text) (spends : (afterGap kinds sawLineBreak text).Spends text 1) :
    (afterGap kinds sawLineBreak text).value = .insert ∨
      (afterGap kinds sawLineBreak text).value = .suppress := by
  obtain ⟨passed, _, later, reached, rfl, outcome, after⟩ :=
    reached_afterGap kinds sawLineBreak stops
  rw [after] at spends ⊢
  cases outcome with
  | settled value => exact value
  | semicolon _ value => exact Or.inl value
  | left _ still =>
      have idle := spends.idle
      have skips := idleMoves_replicate (Or.inr rfl) passed later
      rw [Run.precededBy, still, List.append_nil, skips] at idle
      cases idle

end Continuation

namespace Request

variable {kinds : KindSet} {terminator : TokenKind}

theorem heeds_statement (kinds : KindSet) (terminator : TokenKind) {sawLineBreak : Bool}
    {text : Text} (stops : Stops isBlank text) :
    let run := (afterGap kinds sawLineBreak text).andThen (follow kinds terminator)
    run.Spends text 0 ∨ sawLineBreak = true ∧ run.Spends text 1 ∧ kinds.Overruns text := by
  intro run
  rcases heeds_afterGap kinds sawLineBreak text with spends | ⟨broken, spends, overruns⟩
  · let decided := afterGap kinds sawLineBreak text
    have followed := spends_follow kinds terminator decided.value decided.rest
    exact Or.inl ((spends.alone.precededBy followed).congr rfl rfl)
  · have settled : run.moves = (afterGap kinds sawLineBreak text).moves ∧
        run.rest = (afterGap kinds sawLineBreak text).rest := by
      rcases settled_of_spends stops spends with value | value
      · simp [run, Run.andThen, value, follow]
      · simp [run, Run.andThen, value, follow]
    exact Or.inr ⟨broken, spends.congr settled.1 settled.2, overruns⟩

/-- A call may mark its start, and spends all its moves well after that, unless it goes past the
text in search of the end of a setter's parameter on a new line. -/
theorem exists_spends_token (kinds : KindSet) (text : Text) :
    ∃ (start : List Move) (run : Run (Option TokenKind)),
      (start = [] ∨ start = [.markEnd]) ∧ token kinds text = run.precededBy start ∧
      (run.Spends text 0 ∨ run.Spends text 1 ∧ kinds.has .setter = true ∧
        ∃ before after, text = before ++ ("set(".toList ++ after) ∧ HasLineBreak before ∧
          ')' ∉ after) := by
  cases inside : kinds.has .stringContent with
  | true =>
      refine ⟨[], token kinds text, Or.inl rfl, rfl, Or.inl ?_⟩
      rw [token_eq_content inside]
      exact RawText.spends_content false text
  | false =>
      cases requested : kinds.terminator? with
      | none =>
          refine ⟨[], token kinds text, Or.inl rfl, rfl, Or.inl ?_⟩
          rw [token_eq_plainToken inside requested]
          exact spends_plainToken kinds text
      | some terminator =>
          obtain ⟨gap, rest, rfl, blank, stops⟩ := exists_gap text
          have skips := Run.spends_replicate (Or.inr rfl) gap rest
          have decided := token_afterGap inside requested blank stops
          refine ⟨[.markEnd], _, Or.inr rfl,
            decided.trans (Run.precededBy_precededBy _ _ [.markEnd]).symm, ?_⟩
          rcases heeds_statement kinds terminator stops with
            spends | ⟨broken, spends, setters, before, after, rfl, unclosed⟩
          · exact Or.inl (.precededBy skips spends)
          · refine Or.inr ⟨.precededBy skips spends, setters, gap ++ before, after, ?_, ?_, unclosed⟩
            · rw [List.append_assoc]
            · rw [HasLineBreak, List.any_append, broken, Bool.true_or]

end Request

end ContextScan

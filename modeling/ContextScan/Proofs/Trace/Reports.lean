import ContextScan.Proofs.Statement.Line
import ContextScan.Proofs.Token.Forms

namespace ContextScan

/-! What the resolvers report.

Most of them report nothing.  A comment, and the content of a raw string, report at most that the
end of the text cut them off.  On a new line the word that decides is reported, unless it is
`set`. -/

open Scan

/-- Whether a scan reports nothing. -/
def Scan.Silent {α : Type} (scan : Scan α) : Prop := ∀ text, (scan text).events = []

namespace Scan.Silent

variable {α β : Type}

theorem pure (value : α) : Silent (pure value) := fun _ => rfl

theorem peek : Silent peek := fun _ => rfl

theorem skip : Silent skip := fun _ => rfl

theorem advance : Silent advance := fun _ => rfl

theorem markEnd : Silent markEnd := fun _ => rfl

theorem skipWhile {accepts : Char → Bool} (nul : accepts '\x00' = false) :
    Silent (skipWhile accepts nul) := events_passWhile .skip nul

theorem advanceWhile {accepts : Char → Bool} (nul : accepts '\x00' = false) :
    Silent (advanceWhile accepts nul) := events_passWhile .advance nul

theorem skipWithin (accepts : Char → Bool) : Silent (skipWithin accepts) := fun text =>
  congrArg Run.events (congrFun (skipWithin_eq_passing accepts) text)

theorem bind {first : Scan α} {next : α → Scan β} (before : Silent first)
    (after : ∀ value, Silent (next value)) : Silent (first >>= next) := by
  intro text
  rw [bind_apply, before, after]
  rfl

theorem ite {condition : Prop} [Decidable condition] {positive negative : Scan α}
    (whenTrue : Silent positive) (whenFalse : Silent negative) :
    Silent (if condition then positive else negative) := by
  split
  · exact whenTrue
  · exact whenFalse

theorem skipWord : (word : Text) → Silent (skipWord word)
  | [] => pure true
  | _ :: word => bind peek fun _ => ite (bind skip fun _ => skipWord word) (pure false)

theorem advanceWord : (word : Text) → Silent (advanceWord word)
  | [] => pure true
  | _ :: word => bind peek fun _ => ite (bind advance fun _ => advanceWord word) (pure false)

end Scan.Silent

theorem SoftOperator.silent_wholeWord (word : String) (kind : TokenKind) :
    Silent (wholeWord word kind) :=
  .bind (.advanceWord _) fun _ => .ite (.bind .markEnd fun _ => .bind .peek fun _ => .pure _)
    (.pure none)

theorem SoftOperator.silent_safeNav : Silent safeNav :=
  .bind (.skipWhile isBlank_nul) fun _ => .bind .peek fun _ => .ite
    (.bind .advance fun _ => .bind (.advanceWhile isBlank_nul) fun _ => .bind .peek fun _ => .ite
      (.bind .advance fun _ => .bind .markEnd fun _ => .pure _)
      (.pure none))
    (.pure none)

theorem LeadingWord.silent_contextWordStarts (kinds : KindSet) (word : ContextWord) :
    Silent (contextWordStarts kinds word) := by
  cases word with
  | constructor => exact .bind (.skipWhile isBlank_nul) fun _ => .bind .peek fun _ => .pure _
  | otherwise =>
      exact .bind (.skipWhile isBlank_nul) fun _ => .bind .peek fun _ => .ite
        (.bind .skip fun _ => .bind .peek fun _ => .pure _) (.pure false)
  | getter => exact .bind .peek fun _ => .pure _
  | setter =>
      exact .ite (.bind .peek fun _ => .ite
        (.bind (.skipWithin _) fun _ => .bind .skip fun _ => .bind (.skipWhile _) fun _ =>
          .bind .peek fun _ => .pure _)
        (.pure _)) (.pure true)
  | membership => exact .pure _
  | instanceTest | delegation | cast | constraints => exact .pure false

theorem Annotations.silent_constructorFollows : Silent constructorFollows :=
  .bind (.skipWithin _) fun _ => .bind (.skipWhile isBlank_nul) fun _ => .skipWord _

/-- Whether a run reports at most that it was cut off, and then comes to nothing. -/
def Run.CutOffBy (cuts : Event → Prop) (run : Run (Option TokenKind)) : Prop :=
  run.events = [] ∨ ∃ event, cuts event ∧ run.events = [event] ∧ run.value = none

namespace Run.CutOffBy

variable {cuts : Event → Prop}

theorem of_silent {scan : Scan (Option TokenKind)} (silent : Silent scan) (text : Text) :
    (scan text).CutOffBy cuts := Or.inl (silent text)

theorem bind {α : Type} {first : Scan α} {next : α → Scan (Option TokenKind)} {text : Text}
    (silent : Silent first)
    (cut : (next (first text).value (first text).rest).CutOffBy cuts) :
    ((first >>= next) text).CutOffBy cuts := by
  have events : ((first >>= next) text).events
      = (next (first text).value (first text).rest).events := by
    rw [bind_apply, silent]
    rfl
  rw [CutOffBy, events]
  exact cut

end Run.CutOffBy

def Event.CutsComment (event : Event) : Prop :=
  ∃ depth, 1 ≤ depth ∧ event = .unterminatedComment depth

theorem Comment.cutOff_body (outer : Nat) (half : Half) (text : Text) :
    (body outer half text).CutOffBy Event.CutsComment := by
  fun_induction body outer half text with
  | case1 outer => exact Or.inr ⟨_, ⟨outer + 1, Nat.succ_pos outer, rfl⟩, rfl, rfl⟩
  | case2 _ _ ih | case3 _ _ _ _ ih | case5 _ _ _ ih | case6 _ _ _ _ _ _ ih
  | case7 _ _ _ _ _ _ ih =>
      exact ih
  | case4 => exact Or.inl rfl

theorem RawText.cutOff_content (hasContent : Bool) (text : Text) :
    (content hasContent text).CutOffBy (· = .unterminatedString) := by
  fun_induction content hasContent text with
  | case1 => exact Or.inr ⟨_, rfl, rfl, rfl⟩
  | case2 | case4 | case5 => exact Or.inl rfl
  | case3 _ _ _ ih | case6 _ _ _ _ ih | case7 _ _ _ _ _ ih | case8 _ _ _ _ _ _ _ _ ih =>
      exact ih

theorem Request.cutOff_comment (kinds : KindSet) (text : Text) :
    (comment kinds text).CutOffBy Event.CutsComment := by
  rw [comment]
  split
  · exact .of_silent (.pure none) text
  · refine .bind .peek ?_
    split
    · refine .bind .advance (.bind .peek ?_)
      split
      · exact .bind .advance (Comment.cutOff_body 0 .neither _)
      · exact .of_silent (.pure none) _
    · exact .of_silent (.pure none) _

theorem Request.cutOff_plainToken (kinds : KindSet) (text : Text) :
    (plainToken kinds text).CutOffBy Event.CutsComment := by
  refine .bind (.skipWhile isBlank_nul) (.bind .peek ?_)
  split
  · exact .of_silent (SoftOperator.silent_wholeWord _ _) _
  split
  · exact .of_silent (SoftOperator.silent_wholeWord _ _) _
  split
  · exact .of_silent SoftOperator.silent_safeNav _
  · exact cutOff_comment kinds _

def Event.isDecision : Event → Bool
  | .terminatorDecision .. => true
  | .scanned .. | .contextWord .. | .noContextWord _ | .unterminatedComment _
  | .unterminatedString => false

/-- What the report of a word says: whether its line starts a statement. -/
def Event.verdict? : Event → Option Bool
  | .contextWord _ inserts => some inserts
  | .noContextWord _ => some true
  | .scanned .. | .terminatorDecision .. | .unterminatedComment .. | .unterminatedString => none

/-- Whether a run that decides on a new line reports at most the word that decided. -/
inductive Run.TellsWord (run : Run Decision) : Prop where
  | nothing (silent : run.events = [])
      (value : run.value = .insert ∨ run.value = .suppress ∨ run.value = .safeNav)
  | word {event : Event} {inserts : Bool} (verdict : event.verdict? = some inserts)
      (only : run.events = [event]) (value : run.value = Continuation.insertIf inserts)

theorem Run.TellsWord.precededBy {run : Run Decision} (tells : run.TellsWord)
    (moves : List Move) : (run.precededBy moves).TellsWord := by
  cases tells with
  | nothing silent value => exact .nothing silent value
  | word verdict only value => exact .word verdict only value

theorem LeadingWord.verdict_of_judge (kinds : KindSet) (word : Word) (text : Text) :
    (judge kinds word text).events = [] ∨ ∃ event : Event,
      event.verdict? = some (judge kinds word text).value ∧
        (judge kinds word text).events = [event] := by
  cases known : word.contextWord? with
  | none =>
      right
      simp only [judge, known]
      exact ⟨_, rfl, rfl⟩
  | some contextWord =>
      have silent := silent_contextWordStarts kinds contextWord text
      by_cases setter : contextWord = .setter
      · left
        rw [setter] at silent known
        simp only [judge, known, report, if_true, bind_apply, silent]
        rfl
      · right
        simp only [judge, known, report, setter, if_false, bind_apply, silent]
        exact ⟨_, rfl, rfl⟩

namespace Continuation

theorem silent_sign (first : Char) : Silent (sign first) :=
  .bind .skip fun _ => .bind .peek fun _ => .pure _

theorem silent_negation (kinds : KindSet) : Silent (negation kinds) :=
  .bind .skip fun _ => .bind .peek fun _ => .ite
    (.bind .skip fun _ => .bind .peek fun _ => .ite
      (.bind .skip fun _ => .pure _) (.bind .peek fun _ => .pure _))
    (.bind .peek fun _ => .pure _)

theorem silent_sameLine (kinds : KindSet) : Silent (sameLine kinds) :=
  .bind .peek fun _ => .ite (.pure _) (.ite (.pure _) (.ite
    (.bind (.skipWord _) fun _ => .pure _) (.pure _)))

theorem tellsWord_starts (kinds : KindSet) (line : Text) :
    ((do return insertIf (← LeadingWord.starts kinds) : Scan Decision) line).TellsWord := by
  obtain ⟨_, run, rest, _, _, _, _, captured⟩ := LeadingWord.exists_afterModifiers line
  have judged := LeadingWord.starts_eq_judge kinds captured
  have events : ((do return insertIf (← LeadingWord.starts kinds) : Scan Decision) line).events
      = (LeadingWord.judge kinds (Word.ofRun run) rest).events := by
    rw [bind_apply, judged]
    exact List.append_nil _
  have value : ((do return insertIf (← LeadingWord.starts kinds) : Scan Decision) line).value
      = insertIf (LeadingWord.judge kinds (Word.ofRun run) rest).value := by
    rw [bind_apply, judged]
    rfl
  rcases LeadingWord.verdict_of_judge kinds (Word.ofRun run) rest with
    silent | ⟨event, verdict, only⟩
  · refine .nothing (events.trans silent) ?_
    rw [value]
    exact (insertIf_settled _).imp_right Or.inl
  · exact .word verdict (events.trans only) value

theorem tellsWord_firstToken (kinds : KindSet) (line : Text) :
    (firstToken kinds line).TellsWord := by
  change Run.TellsWord ((if _ then _ else _ : Scan Decision) line)
  split
  · exact .nothing rfl (by simp)
  split
  · exact .nothing (silent_sign _ line) ((insertIf_settled _).imp_right Or.inl)
  split
  · exact .nothing (silent_negation kinds line) ((negation_settled kinds line).imp_right Or.inl)
  split
  · refine .nothing rfl ?_
    cases kinds.has .safeNav <;> simp
  split
  · exact .nothing rfl (by simp)
  split
  · exact tellsWord_starts kinds line
  · exact .nothing rfl (by simp)

theorem tellsWord_newLine (kinds : KindSet) (line : Text) : (newLine kinds line).TellsWord := by
  by_cases annotated : line.headD '\x00' = '@'
  · by_cases requested : kinds.has .constructor = true
    · rw [newLine_of_constructor annotated requested]
      have silent : Silent (do return insertIf (!(← Annotations.constructorFollows))) :=
        .bind Annotations.silent_constructorFollows fun _ => .pure _
      exact .nothing (silent line) ((insertIf_settled _).imp_right Or.inl)
    · by_cases passes : kinds.PassesAnnotations
      · obtain ⟨passed, later, rfl, skipped⟩ := Annotations.exists_skipAll .gap line
        rw [newLine_of_passes annotated passes skipped]
        refine .precededBy ?_ _
        split
        · exact .nothing rfl (by simp)
        · exact tellsWord_firstToken kinds later
      · rw [newLine_of_neither annotated (Bool.not_eq_true _ ▸ requested) passes]
        exact .nothing rfl (by simp)
  · rw [newLine_of_ne kinds annotated]
    exact tellsWord_firstToken kinds line

theorem insertIf_ne_comment (starts : Bool) : insertIf starts ≠ .comment := by
  cases starts <;> decide

theorem sameLine_ne_comment (kinds : KindSet) (line : Text) :
    (sameLine kinds line).value ≠ .comment := by
  change ((if _ then _ else _ : Scan Decision) line).value ≠ _
  split
  · simp
  split
  · simp
  split
  · exact insertIf_ne_comment _
  · simp

end Continuation

end ContextScan

import ContextScan.Proofs.LineEnds.Blind
import ContextScan.Proofs.LineEnds.Elementary

namespace ContextScan

/-! Every resolver runs alike without carriage returns.

Most of them do not tell line breaks apart.  Those that do look for a line feed find it after the
carriage return that is paired with it. -/

open Scan

variable {text : Text}

theorem Scan.BreakBlind.alike {α : Type} {scan : Scan α} (blind : BreakBlind @Alike scan text) :
    Alike scan text := by
  have other {text : Text} (visible : isLineBreak (text.headD '\x00') = false) :
      text.headD '\x00' ≠ '\r' := by
    intro next
    rw [next] at visible
    cases visible
  induction blind with
  | given known => exact known
  | pure value => exact .pure value
  | note event => exact .note event
  | atEnd => exact .atEnd
  | markEnd => exact .markEnd
  | peek same _ ih => exact .peek same ih
  | advance visible => exact .advance (other visible)
  | skip visible => exact .skip (other visible)
  | passing passes same => exact .passing passes same
  | advanceUntil visible =>
      refine .search ?_ ?_
      · rintro rfl
        cases visible.1
      · rintro rfl
        cases visible.2
  | bind _ _ before after => exact .bind before after

namespace Comment

theorem alike_body (outer : Nat) (half : Half) : Alike (body outer half) text := by
  refine .of_paired fun paired => ?_
  induction paired generalizing outer half with
  | nil =>
      rw [body_eq]
      exact .bind .atEnd (.bind (.note _) (.pure none))
  | pair _ ih =>
      refine .stepPair (Or.inl rfl) ?_ ?_ (ih outer .neither)
      · intro text
        simp [body, Run.precededBy]
      · intro text
        simp [body]
  | @other c rest visible _ ih =>
      rw [body_eq]
      refine .bind .atEnd (.peekOther visible ?_)
      have advances : Alike advance (c :: rest) := .advance visible
      refine .ite (fun _ => .bind advances ?_) fun _ => .ite (fun _ => .bind advances ?_) fun _ =>
        .bind advances (ih _ _)
      · cases half <;> exact ih _ _
      · cases half with
        | neither | slash => exact ih _ _
        | star =>
            cases outer with
            | zero => exact .bind .markEnd (.pure _)
            | succ outer => exact ih _ _

end Comment

namespace Boundary

/-- A line feed is passed by one skip, and together with its carriage return by two. -/
theorem alike_passLineBreak (lineBreak : isLineBreak (text.headD '\x00') = true) :
    Alike passLineBreak text := by
  have lineFeed (text : Text) : passLineBreak ('\n' :: text)
      = ((pure () : Scan Unit) text).precededBy [.skip] := rfl
  refine .of_paired fun paired => ?_
  cases paired with
  | nil => cases lineBreak
  | pair =>
      have both (text : Text) : passLineBreak ('\r' :: '\n' :: text)
          = ((pure () : Scan Unit) text).precededBy [.skip, .skip] := rfl
      exact .stepPair (Or.inr rfl) both lineFeed (.pure ())
  | @other c rest visible =>
      have same : c = '\n' := by simpa [isLineBreak, visible] using lineBreak
      subst same
      exact .step (Or.inr rfl) visible lineFeed (.pure ())

theorem alike_seek : Alike seek text :=
  .bind (.skipWithin rfl) (.bind .atEnd (.ite (fun _ => .pure _) fun _ => .peek rfl (.ite
    (fun semicolon => .bind
      (.bind (.advance (ne_return_of_next semicolon (by decide))) .markEnd) (.pure _))
    fun _ => .ite (fun lineBreak => .bind (alike_passLineBreak lineBreak) (.pure _))
    fun _ => .pure _)))

end Boundary

namespace LeadingWord

/-- Only here a line feed alone is looked for, and a carriage return before it is skipped. -/
theorem alike_setterStarts (kinds : KindSet) : Alike (setterStarts kinds) text := by
  rw [setterStarts_eq]
  refine .ite (fun _ => .peek rfl (.ite (fun _ => ?_) fun _ => .pure _)) fun _ => .pure true
  refine .bind (.passing (Or.inr rfl) rfl) (.assoc (.bind (.skip_passing ?_ fun _ => rfl)
    (.peekOther ?_ (.pure _))))
  · exact headD_dropWhile_ne rfl (by decide)
  · exact headD_dropWhile_ne rfl (by decide)

end LeadingWord

namespace Annotations

/-- A line feed ends annotations, and so does the carriage return before it or after it. -/
theorem alike_skipAll (place : Place) : Alike (skipAll place) text := by
  refine .of_paired fun paired => ?_
  induction paired generalizing place with
  | nil => exact .still (skipAll_nil place) (skipAll_nil place)
  | pair _ ih =>
      refine .stepPair (Or.inr rfl) ?_ ?_ (ih .gap) <;> intro text <;> cases place <;>
        simp [skipAll_gap_cons, skipAll_name_cons, skipAll_arguments_cons, isBlank, Run.precededBy]
  | @other c rest visible _ ih =>
      have skips : Alike skip (c :: rest) := .skip visible
      cases place with
      | gap =>
          rw [skipAll_gap]
          exact .peekOther visible (.ite (fun _ => .bind skips (ih .gap)) fun _ =>
            .ite (fun _ => .bind skips (ih .name)) fun _ => .pure ())
      | name =>
          rw [skipAll_name]
          exact .bind .atEnd (.peekOther visible (.bind skips (ih _)))
      | arguments =>
          rw [skipAll_arguments]
          exact .bind .atEnd (.peekOther visible (.bind skips (ih _)))

end Annotations

namespace Continuation

theorem alike_decision (kinds : KindSet) : Alike (decision kinds) text := by
  refine .bind .markEnd (.bind Boundary.alike_seek (.ite (fun _ => .pure _) fun _ =>
    .bind (.skipWhile rfl) ?_))
  exact (blind_beforeVisible (stops_skipWhile _) _
    (fun _ _ => Annotations.alike_skipAll .gap)
    fun _ _ => LeadingWord.alike_setterStarts kinds).alike

end Continuation

/-- A request runs alike without carriage returns. -/
theorem Request.alike_token (kinds : KindSet) : Alike (token kinds) text := by
  have inside (text : Text) : Alike (Comment.body 0 .neither) text := Comment.alike_body 0 .neither
  refine .ite (fun _ => RawText.blind_scan.alike) fun _ => ?_
  split
  · exact .bind (Continuation.alike_decision kinds) (blind_follow kinds inside _ _).alike
  · exact (blind_plainToken kinds inside).alike

end ContextScan

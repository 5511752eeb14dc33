import ContextScan.Moves

namespace ContextScan

/-! Scans that see the text only through a reader.

A resolver is written over the whole remaining text, but a reader offers less: the next character,
whether there is one, and moves.  `Stepwise` says that a run is put together from such elementary
scans alone, and which moves it may make.  What holds of every elementary scan and survives
sequencing then holds of every request, by one induction. -/

namespace Scan

def ofMove (move : Move) : Scan Unit := fun text => ⟨(), [move], [], move.leave text⟩

inductive Stepwise (allowed : Move → Prop) : {α : Type} → Scan α → Text → Prop where
  | pure {α : Type} {text : Text} (value : α) : Stepwise allowed (pure value) text
  | peek {text : Text} : Stepwise allowed peek text
  | atEnd {text : Text} : Stepwise allowed atEnd text
  | note {text : Text} (event : Event) : Stepwise allowed (note event) text
  | ofMove {text : Text} {move : Move} (permitted : allowed move) :
      Stepwise allowed (ofMove move) text
  | bind {α β : Type} {text : Text} {first : Scan α} {next : α → Scan β}
      (before : Stepwise allowed first text)
      (after : Stepwise allowed (next (first text).value) (first text).rest) :
      Stepwise allowed (first >>= next) text

variable {α : Type} {allowed : Move → Prop} {text : Text}

theorem Stepwise.moves_allowed {scan : Scan α} (stepwise : Stepwise allowed scan text) :
    ∀ move ∈ (scan text).moves, allowed move := by
  induction stepwise with
  | pure | peek | atEnd | note => intro move member; cases member
  | ofMove permitted =>
      intro move member
      rw [List.mem_singleton.mp member]
      exact permitted
  | bind before after beforeIH afterIH =>
      intro move member
      rcases List.mem_append.mp member with earlier | later
      · exact beforeIH move earlier
      · exact afterIH move later

/-- The moves of a stepwise run lead to the text that it leaves. -/
theorem Stepwise.leadsToRest {scan : Scan α} (stepwise : Stepwise allowed scan text) :
    (scan text).LeadsToRest text := by
  induction stepwise with
  | pure | peek | atEnd | note | ofMove => rfl
  | bind before after beforeIH afterIH =>
      rw [Run.LeadsToRest] at beforeIH afterIH ⊢
      rw [bind_apply, leaveAll_append, beforeIH, afterIH]

theorem Stepwise.ite {condition : Prop} [Decidable condition] {positive negative : Scan α}
    (whenTrue : condition → Stepwise allowed positive text)
    (whenFalse : ¬condition → Stepwise allowed negative text) :
    Stepwise allowed (if condition then positive else negative) text := by
  split
  · exact whenTrue ‹_›
  · exact whenFalse ‹_›

theorem stepwise_advance (advances : allowed .advance) : Stepwise allowed advance text :=
  .ofMove advances

theorem stepwise_skip (skips : allowed .skip) : Stepwise allowed skip text := .ofMove skips

theorem stepwise_markEnd (marks : allowed .markEnd) : Stepwise allowed markEnd text := .ofMove marks

-- `bind_apply` does not match where the second scan is given as a function on texts.
theorem bind_function_apply {β : Type} (first : Scan α) (next : α → Text → Run β) (text : Text) :
    (first >>= next : Scan β) text =
      ⟨(next (first text).value (first text).rest).value,
        (first text).moves ++ (next (first text).value (first text).rest).moves,
        (first text).events ++ (next (first text).value (first text).rest).events,
        (next (first text).value (first text).rest).rest⟩ := rfl

section Loops

variable {move : Move} {accepts : Char → Bool}

/-- A loop over a class without NUL never asks whether the text has ended. -/
theorem passWhile_eq (passes : move = .advance ∨ move = .skip) (nul : accepts '\x00' = false) :
    passWhile move accepts nul = (do
      if accepts (← peek) then
        ofMove move
        passWhile move accepts nul
      else
        pure ()) := by
  funext text
  rw [passWhile, bind_apply, peek]
  by_cases accepted : accepts (text.headD '\x00') = true
  · rw [if_pos accepted, if_pos accepted]
    rcases passes with rfl | rfl <;> rfl
  · rw [if_neg accepted, if_neg accepted]
    rfl

theorem stepwise_passWhile (passes : move = .advance ∨ move = .skip) (permitted : allowed move)
    (nul : accepts '\x00' = false) : Stepwise allowed (passWhile move accepts nul) text := by
  induction text using passWhile.induct accepts nul with
  | case1 text accepted ih =>
      rw [passWhile_eq passes nul]
      refine .bind .peek (.ite (fun _ => .bind (.ofMove permitted) ?_) fun _ => .pure ())
      rcases passes with rfl | rfl <;> exact ih
  | case2 text refused =>
      rw [passWhile_eq passes nul]
      exact .bind .peek (.ite (fun accepted => absurd accepted refused) fun _ => .pure ())

theorem stepwise_skipWhile (skips : allowed .skip) (nul : accepts '\x00' = false) :
    Stepwise allowed (skipWhile accepts nul) text := stepwise_passWhile (Or.inr rfl) skips nul

theorem stepwise_advanceWhile (advances : allowed .advance) (nul : accepts '\x00' = false) :
    Stepwise allowed (advanceWhile accepts nul) text :=
  stepwise_passWhile (Or.inl rfl) advances nul

theorem skipWithin_eq (accepts : Char → Bool) :
    skipWithin accepts = (do
      if ← atEnd then
        pure ()
      else if accepts (← peek) then
        skip
        skipWithin accepts
      else
        pure ()) := by
  funext text
  cases text with
  | nil => rfl
  | cons c rest =>
      cases accepted : accepts c <;>
        simp [skipWithin, atEnd, peek, skip, accepted, Run.precededBy]

theorem stepwise_skipWithin (skips : allowed .skip) (accepts : Char → Bool) :
    Stepwise allowed (skipWithin accepts) text := by
  induction text with
  | nil => rw [skipWithin_eq]; exact .bind .atEnd (.pure ())
  | cons c rest ih =>
      rw [skipWithin_eq]
      exact .bind .atEnd (.bind .peek (.ite (fun _ => .bind (stepwise_skip skips) ih)
        fun _ => .pure ()))

end Loops

theorem stepwise_skipWord (skips : allowed .skip) (word : Text) :
    Stepwise allowed (skipWord word) text := by
  induction word generalizing text with
  | nil => exact .pure true
  | cons letter word ih =>
      exact .bind .peek (.ite (fun _ => .bind (stepwise_skip skips) ih) fun _ => .pure false)

theorem stepwise_advanceWord (advances : allowed .advance) (word : Text) :
    Stepwise allowed (advanceWord word) text := by
  induction word generalizing text with
  | nil => exact .pure true
  | cons letter word ih =>
      exact .bind .peek (.ite (fun _ => .bind (stepwise_advance advances) ih) fun _ => .pure false)

end Scan

end ContextScan

import ContextScan.Text.Blank
import ContextScan.Trace

namespace ContextScan

/-! Scanning as a function of the text that is still to be read.

A scan looks at the remaining text, moves past some of it, and may report events.  It sees nothing
of what came before, and it never moves back.  The moves that it makes are part of its result, in
their order, so that every reader of the text can repeat them and keep its own books: positions,
marks, or calls to a host.

Advancing over a character makes it part of the token, skipping it makes the token start after it,
and marking fixes where the token ends.  What is read after the last mark was only looked at. -/

inductive Move where
  /-- Takes a character into the token; nothing at the end of the text. -/
  | advance
  /-- Passes a character, so that the token starts after it. -/
  | skip
  /-- Fixes the end of the token. -/
  | markEnd
  /-- Takes the characters before the next of two into the token. -/
  | advanceUntil (left right : Char)
deriving DecidableEq, Repr

structure Run (α : Type) where
  value : α
  moves : List Move
  events : List Event
  /-- The text that was not moved past. -/
  rest : Text

def Run.precededBy {α : Type} (run : Run α) (moves : List Move) : Run α :=
  { run with moves := moves ++ run.moves }

def Scan (α : Type) := Text → Run α

namespace Scan

instance : Monad Scan where
  pure value := fun text => ⟨value, [], [], text⟩
  bind first next := fun text =>
    let before := first text
    let after := next before.value before.rest
    ⟨after.value, before.moves ++ after.moves, before.events ++ after.events, after.rest⟩

variable {α β : Type}

@[simp] theorem pure_apply (value : α) (text : Text) :
    (pure value : Scan α) text = ⟨value, [], [], text⟩ := rfl

@[simp] theorem bind_apply (first : Scan α) (next : α → Scan β) (text : Text) :
    (first >>= next) text =
      ⟨(next (first text).value (first text).rest).value,
        (first text).moves ++ (next (first text).value (first text).rest).moves,
        (first text).events ++ (next (first text).value (first text).rest).events,
        (next (first text).value (first text).rest).rest⟩ := rfl

/-- The character to be read next, or NUL at the end of the text. -/
def peek : Scan Char := fun text => ⟨text.headD '\x00', [], [], text⟩

def atEnd : Scan Bool := fun text => ⟨text.isEmpty, [], [], text⟩

def advance : Scan Unit := fun text => ⟨(), [.advance], [], text.tail⟩

def skip : Scan Unit := fun text => ⟨(), [.skip], [], text.tail⟩

def markEnd : Scan Unit := fun text => ⟨(), [.markEnd], [], text⟩

def note (event : Event) : Scan Unit := fun text => ⟨(), [], [event], text⟩

/-- A class without NUL has the next character in it only where something is left to be read. -/
theorem exists_cons_of_accepts {accepts : Char → Bool} (nul : accepts '\x00' = false)
    {text : Text} (accepted : accepts (text.headD '\x00') = true) :
    ∃ c rest, text = c :: rest := by
  cases text with
  | nil =>
      rw [List.headD_nil, nul] at accepted
      cases accepted
  | cons c rest => exact ⟨c, rest, rfl⟩

theorem length_tail_lt {accepts : Char → Bool} (nul : accepts '\x00' = false) {text : Text}
    (accepted : accepts (text.headD '\x00') = true) : text.tail.length < text.length := by
  obtain ⟨c, rest, rfl⟩ := exists_cons_of_accepts nul accepted
  exact Nat.lt_succ_self _

/-- Passes characters by moves of one kind, for as long as the next one is of a class.

Nothing but the next character is looked at.  At the end of the text it is NUL, which the class must
leave out: there the loop would go on forever. -/
def passWhile (move : Move) (accepts : Char → Bool) (nul : accepts '\x00' = false) : Scan Unit :=
  fun text =>
  if accepts (text.headD '\x00') then
    (passWhile move accepts nul text.tail).precededBy [move]
  else
    ⟨(), [], [], text⟩
termination_by text => text.length
decreasing_by
  rename_i accepted
  exact length_tail_lt nul accepted

def advanceWhile (accepts : Char → Bool) (nul : accepts '\x00' = false) : Scan Unit :=
  passWhile .advance accepts nul

def skipWhile (accepts : Char → Bool) (nul : accepts '\x00' = false) : Scan Unit :=
  passWhile .skip accepts nul

/-- Skips characters of a class that may have NUL in it, and so looks for the end of the text before
each of them. -/
def skipWithin (accepts : Char → Bool) : Scan Unit
  | [] => ⟨(), [], [], []⟩
  | c :: rest =>
      if accepts c then (skipWithin accepts rest).precededBy [.skip] else ⟨(), [], [], c :: rest⟩

theorem length_rest_passWhile_le (move : Move) {accepts : Char → Bool}
    (nul : accepts '\x00' = false) (text : Text) :
    (passWhile move accepts nul text).rest.length ≤ text.length := by
  fun_induction passWhile move accepts nul text with
  | case1 text accepted ih => exact Nat.le_trans ih (Nat.le_of_lt (length_tail_lt nul accepted))
  | case2 text refused => exact Nat.le_refl _

@[simp] theorem events_passWhile (move : Move) {accepts : Char → Bool}
    (nul : accepts '\x00' = false) (text : Text) :
    (passWhile move accepts nul text).events = [] := by
  fun_induction passWhile move accepts nul text with
  | case1 text accepted ih => exact ih
  | case2 text refused => rfl

/-- Skips a word letter by letter and tells whether all of it was there.  The letters before the
first that differs stay skipped. -/
def skipWord : Text → Scan Bool
  | [] => pure true
  | letter :: word => do
      if (← peek) == letter then
        skip
        skipWord word
      else
        pure false

/-- Advances over a word letter by letter and tells whether all of it was there.  The letters
before the first that differs stay part of the token. -/
def advanceWord : Text → Scan Bool
  | [] => pure true
  | letter :: word => do
      if (← peek) == letter then
        advance
        advanceWord word
      else
        pure false

end Scan

end ContextScan

import ContextScan.Scan

namespace ContextScan

/-! Annotations at the start of a line.

An annotation starts with `@` and goes on to the next blank, but blanks inside its arguments, which
stand in parentheses, do not end it unless they are line feeds. -/

namespace Annotations

open Scan

inductive Place where
  /-- After an annotation, where another may start. -/
  | gap
  | name
  | arguments
deriving DecidableEq, Repr

/-- Skips annotations and the blanks around them. -/
def skipAll (place : Place) : Scan Unit := fun text =>
  match place, text with
  | .gap, text =>
      if isBlank (text.headD '\x00') then (skipAll .gap text.tail).precededBy [.skip]
      else if text.headD '\x00' = '@' then (skipAll .name text.tail).precededBy [.skip]
      else ⟨(), [], [], text⟩
  | .name, [] | .arguments, [] => ⟨(), [], [], []⟩
  | .name, c :: rest =>
      if isBlank c then (skipAll .gap rest).precededBy [.skip]
      else if c = '(' then (skipAll .arguments rest).precededBy [.skip]
      else (skipAll .name rest).precededBy [.skip]
  | .arguments, c :: rest =>
      if c = '\n' then (skipAll .gap rest).precededBy [.skip]
      else if c = ')' then (skipAll .name rest).precededBy [.skip]
      else (skipAll .arguments rest).precededBy [.skip]
termination_by text => text.length
decreasing_by
  · rename_i blank
    exact length_tail_lt isBlank_nul blank
  · rename_i start
    exact @length_tail_lt (· == '@') rfl text (beq_iff_eq.mpr start)
  all_goals exact Nat.lt_succ_self _

theorem skipAll_gap_apply (text : Text) : skipAll .gap text
    = if isBlank (text.headD '\x00') then (skipAll .gap text.tail).precededBy [.skip]
      else if text.headD '\x00' = '@' then (skipAll .name text.tail).precededBy [.skip]
      else ⟨(), [], [], text⟩ := by
  rw [skipAll.eq_def]

/-- In a gap NUL is neither a blank nor a `@`, so the end of the text ends it. -/
@[simp] theorem skipAll_nil (place : Place) : skipAll place [] = ⟨(), [], [], []⟩ := by
  cases place with
  | gap =>
      rw [skipAll_gap_apply, List.headD_nil, isBlank_nul]
      rfl
  | name | arguments => rw [skipAll.eq_def]

theorem skipAll_gap_cons (c : Char) (rest : Text) : skipAll .gap (c :: rest)
    = if isBlank c then (skipAll .gap rest).precededBy [.skip]
      else if c = '@' then (skipAll .name rest).precededBy [.skip]
      else ⟨(), [], [], c :: rest⟩ :=
  skipAll_gap_apply (c :: rest)

theorem skipAll_name_cons (c : Char) (rest : Text) : skipAll .name (c :: rest)
    = (skipAll (if isBlank c then .gap else if c = '(' then .arguments else .name)
        rest).precededBy [.skip] := by
  rw [skipAll.eq_def .name (c :: rest)]
  dsimp only
  split
  · rfl
  · split <;> rfl

theorem skipAll_arguments_cons (c : Char) (rest : Text) : skipAll .arguments (c :: rest)
    = (skipAll (if c = '\n' then .gap else if c = ')' then .name else .arguments)
        rest).precededBy [.skip] := by
  rw [skipAll.eq_def .arguments (c :: rest)]
  dsimp only
  split
  · rfl
  · split <;> rfl

/-- Skips an annotation, taken up to the first blank, and tells whether `constructor` follows: then
the annotation belongs to a constructor that continues the line before. -/
def constructorFollows : Scan Bool := do
  skipWithin fun c => !isBlank c
  skipWhile isBlank isBlank_nul
  skipWord "constructor".toList

end Annotations

end ContextScan

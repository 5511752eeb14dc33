import ContextScan.Text.Blank

namespace ContextScan

/-! Cutting a text at a separator. -/

/-- The parts of a text between the separators in it.  There is always one part more than there are
separators. -/
def split (separator : Char) : Text → List Text
  | [] => [[]]
  | c :: rest =>
      if c = separator then [] :: split separator rest
      else
        match split separator rest with
        | [] => [[c]]
        | part :: parts => (c :: part) :: parts

/-- A text splits at each separator in it, whatever follows. -/
theorem split_append (separator : Char) (part rest : Text) (apart : separator ∉ part) :
    split separator (part ++ separator :: rest) = part :: split separator rest := by
  induction part with
  | nil => simp [split]
  | cons c part ih =>
      simp only [List.mem_cons, not_or] at apart
      have differs : c ≠ separator := fun same => apart.1 same.symm
      simp only [List.cons_append, split, if_neg differs, ih apart.2]

theorem split_of_notMem (separator : Char) (part : Text) (apart : separator ∉ part) :
    split separator part = [part] := by
  induction part with
  | nil => rfl
  | cons c part ih =>
      simp only [List.mem_cons, not_or] at apart
      have differs : c ≠ separator := fun same => apart.1 same.symm
      simp only [split, if_neg differs, ih apart.2]

end ContextScan

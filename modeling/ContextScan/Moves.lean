import ContextScan.Scan

namespace ContextScan

/-! The moves of a scan account for the text that it leaves.

A reader sees only the moves of a scan.  Where they lead from a text to exactly what the scan left
of it, a reader that follows them stands where the scan stopped. -/

def Move.leave : Move → Text → Text
  | .advance, text => text.tail
  | .skip, text => text.tail
  | .markEnd, text => text
  | .advanceUntil left right, text => text.dropWhile fun c => c != left && c != right

def leaveAll (moves : List Move) (text : Text) : Text :=
  moves.foldl (fun left move => move.leave left) text

@[simp] theorem leaveAll_nil (text : Text) : leaveAll [] text = text := rfl

@[simp] theorem leaveAll_cons (move : Move) (moves : List Move) (text : Text) :
    leaveAll (move :: moves) text = leaveAll moves (move.leave text) := rfl

@[simp] theorem leaveAll_append (moves later : List Move) (text : Text) :
    leaveAll (moves ++ later) text = leaveAll later (leaveAll moves text) :=
  List.foldl_append

/-- Whether the moves of a run lead from a text to what the run left of it. -/
def Run.LeadsToRest {α : Type} (run : Run α) (text : Text) : Prop :=
  leaveAll run.moves text = run.rest

/-- Whether the moves of a scan always lead to what it leaves. -/
def Scan.LeadsToRest {α : Type} (scan : Scan α) : Prop := ∀ text, (scan text).LeadsToRest text

end ContextScan

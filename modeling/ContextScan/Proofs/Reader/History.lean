import ContextScan.Proofs.Reader.Bounds

namespace ContextScan

/-! What a reader of a text may have been through.

Between its start and the end of a call a reader may be looked at, moved, marked, searched with and
scanned with, in any order and any number of times.  Each of these comes to some moves; and since
moves keep the places of a reader in order, inside the text and between characters, every history
does. -/

/-- What can be done with a reader. -/
inductive Operation where
  | peek
  | advance
  | skip
  | markEnd
  | advanceUntil (left right : Char)
  | scan (kinds : KindSet)
deriving DecidableEq, Repr

/-- A search is for ASCII characters only. -/
def Operation.SearchesAscii : Operation → Prop
  | .advanceUntil left right => isAscii left ∧ isAscii right
  | _ => True

namespace TextReader

def perform (reader : TextReader) : Operation → TextReader
  | .peek => reader
  | .advance => reader.advance
  | .skip => reader.skip
  | .markEnd => reader.markEnd
  | .advanceUntil left right => (reader.advanceUntil left right).2
  | .scan kinds => (Reader.scan kinds reader).reader

def performAll (reader : TextReader) (history : List Operation) : TextReader :=
  history.foldl perform reader

@[simp] theorem performAll_nil (reader : TextReader) : reader.performAll [] = reader := rfl

@[simp] theorem performAll_append (reader : TextReader) (earlier later : List Operation) :
    reader.performAll (earlier ++ later) = (reader.performAll earlier).performAll later :=
  List.foldl_append

/-- Whatever is done with a reader comes to some moves. -/
theorem exists_perform_eq_moveAll {operation : Operation} (ascii : operation.SearchesAscii)
    (reader : TextReader) :
    ∃ moves, (∀ move ∈ moves, move.SearchesAscii) ∧
      reader.perform operation = Reader.moveAll reader moves := by
  have single {move : Move} (searches : move.SearchesAscii) :
      ∀ other ∈ [move], other.SearchesAscii := by
    intro other member
    rw [List.mem_singleton.mp member]
    exact searches
  cases operation with
  | peek => exact ⟨[], fun _ member => absurd member List.not_mem_nil, rfl⟩
  | advance => exact ⟨[.advance], single trivial, rfl⟩
  | skip => exact ⟨[.skip], single trivial, rfl⟩
  | markEnd => exact ⟨[.markEnd], single trivial, rfl⟩
  | advanceUntil left right => exact ⟨[.advanceUntil left right], single ascii, rfl⟩
  | scan kinds => exact ⟨_, Request.moves_ascii kinds reader.rest, rfl⟩

theorem exists_performAll_eq_moveAll {history : List Operation}
    (ascii : ∀ operation ∈ history, operation.SearchesAscii) (reader : TextReader) :
    ∃ moves, (∀ move ∈ moves, move.SearchesAscii) ∧
      reader.performAll history = Reader.moveAll reader moves := by
  induction history generalizing reader with
  | nil => exact ⟨[], fun _ member => absurd member List.not_mem_nil, rfl⟩
  | cons operation history ih =>
      obtain ⟨first, firstAscii, performed⟩ :=
        exists_perform_eq_moveAll (ascii operation List.mem_cons_self) reader
      obtain ⟨later, laterAscii, moved⟩ :=
        ih (fun other member => ascii other (List.mem_cons_of_mem operation member))
          (reader.perform operation)
      refine ⟨first ++ later, ?_, ?_⟩
      · intro move member
        rcases List.mem_append.mp member with early | late
        · exact firstAscii move early
        · exact laterAscii move late
      · calc reader.performAll (operation :: history)
            = (reader.perform operation).performAll history := rfl
          _ = Reader.moveAll (Reader.moveAll reader first) later := by rw [moved, performed]
          _ = Reader.moveAll reader (first ++ later) := List.foldl_append.symm

theorem position_le_moveAll {moves : List Move} (ascii : ∀ move ∈ moves, move.SearchesAscii)
    (reader : TextReader) : reader.position ≤ (Reader.moveAll reader moves).position := by
  let Reached (after : TextReader) : Prop := reader.position ≤ after.position
  have advances : ∀ after, Reached after → Reached (advance after) := by
    intro after reached
    obtain ⟨rest, start, position, tokenStart, mark?⟩ := after
    cases rest with
    | nil => exact reached
    | cons c rest => exact Nat.le_trans reached (Nat.le_add_right _ _)
  have kept : Reached (Reader.moveAll reader moves) :=
    Reader.moveAll_preserves advances advances (fun _ reached => reached) ascii (Nat.le_refl _)
  exact kept

variable {text : Text} {reader : TextReader}

/-- A reader stands where the text that it has still to read begins. -/
theorem Within.dropBytes_position (within : reader.Within text) :
    dropBytes text reader.position = reader.rest := by
  obtain ⟨passed, split, size⟩ := within.split
  rw [split, ← size, dropBytes_byteSize_append]

/-- The places of a reader stay in order whatever is done with it.

The reader is at the start of the text or at any offset where one can be.  What it is left with is
always a slice of the text that starts between two characters, it never moves back, and when its
call is closed the ranges follow each other within what was read. -/
theorem places_in_order (started : reader = ofText text ∨ ∃ offset, at? text offset = some reader)
    {history : List Operation} (ascii : ∀ operation ∈ history, operation.SearchesAscii) :
    let after := reader.performAll history
    let span := after.finish
    (after.start ≤ after.tokenStart ∧ after.tokenStart ≤ after.position ∧
      after.position ≤ byteSize text) ∧
    (∀ mark, after.mark? = some mark →
      after.start ≤ mark ∧ mark ≤ after.position ∧ isBoundary text mark = true) ∧
    (∀ place ∈ [after.start, after.tokenStart, after.position], isBoundary text place = true) ∧
    dropBytes text after.position = after.rest ∧
    (∀ earlier later, history = earlier ++ later →
      (reader.performAll earlier).position ≤ after.position) ∧
    (after.start = reader.start ∧ span.consumed.start = after.start ∧
      after.start ≤ span.token.start ∧ span.token.start ≤ span.token.stop ∧
      span.token.stop = span.consumed.stop ∧ span.consumed.stop ≤ after.position) := by
  intro after span
  have accepted : ∃ offset, at? text offset = some reader := by
    rcases started with rfl | accepted
    · exact ⟨0, at?_append [] text⟩
    · exact accepted
  obtain ⟨offset, accepted⟩ := accepted
  obtain ⟨moves, movesAscii, moved⟩ := exists_performAll_eq_moveAll ascii reader
  have within : after.Within text := by
    change (reader.performAll history).Within text
    rw [moved]
    exact (within_of_at? accepted).moveAll movesAscii
  have sameStart : after.start = reader.start := by
    change (reader.performAll history).start = _
    rw [moved]
    exact start_moveAll movesAscii reader
  obtain ⟨_, _, stopBound⟩ := within.stopPlaced
  obtain ⟨_, tokenFirst, tokenOrdered⟩ := within.tokenPlaced
  refine ⟨⟨within.startFirst, within.tokenBegun, within.position_le_byteSize⟩, ?_, ?_,
    within.dropBytes_position, ?_, sameStart, rfl, tokenFirst, tokenOrdered, rfl, stopBound⟩
  · intro mark marked
    obtain ⟨boundary, low, high⟩ := within.markPlaced mark marked
    exact ⟨low, high, boundary⟩
  · intro place member
    simp only [List.mem_cons, List.not_mem_nil, or_false] at member
    rcases member with rfl | rfl | rfl
    · exact within.startBoundary
    · exact within.tokenBoundary
    · exact within.positionBoundary
  · rintro earlier later rfl
    obtain ⟨more, moreAscii, onward⟩ := exists_performAll_eq_moveAll
      (fun operation member => ascii operation (List.mem_append_right earlier member))
      (reader.performAll earlier)
    change _ ≤ (reader.performAll (earlier ++ later)).position
    rw [performAll_append, onward]
    exact position_le_moveAll moreAscii _

/-- A search stops before the quote, past two characters of more than one byte, and a scan on the
reader that it leaves marks a place further on. -/
theorem places_in_order_search :
    let text := "aéü\" ?.b".toList
    let history : List Operation :=
      [.advance, .markEnd, .advanceUntil '"' '$', .skip, .scan (KindSet.ofList [.safeNav])]
    ∃ reader, at? text 1 = some reader ∧
      (reader.performAll (history.take 3)).position = 5 ∧
      (reader.performAll history).position ≤ byteSize text ∧
      (reader.performAll history).finish = ⟨⟨1, 9⟩, ⟨7, 9⟩⟩ := by
  intro text history
  have accepted : at? text 1 = some (resume 1 "éü\" ?.b".toList) := by decide
  have ascii : ∀ operation ∈ history, operation.SearchesAscii := by
    simp [history, Operation.SearchesAscii, isAscii]
  refine ⟨_, accepted, by decide, ?_, by decide +kernel⟩
  exact (places_in_order (Or.inr ⟨1, accepted⟩) ascii).1.2.2

end TextReader

end ContextScan

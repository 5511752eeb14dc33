import ContextScan.Proofs.Reader.Lawful

namespace ContextScan

/-! The places that a reader of a text keeps.

They stay in order, inside the text and between characters, whatever moves are made.  So a call can
be ended at any time, and its ranges are ranges of the text. -/

namespace TextReader

/-- Whether the places that a reader keeps are places of a text. -/
structure Within (text : Text) (reader : TextReader) : Prop where
  split : ∃ passed, text = passed ++ reader.rest ∧ byteSize passed = reader.position
  startBoundary : isBoundary text reader.start = true
  tokenBoundary : isBoundary text reader.tokenStart = true
  startFirst : reader.start ≤ reader.tokenStart
  tokenBegun : reader.tokenStart ≤ reader.position
  markPlaced : ∀ mark, reader.mark? = some mark →
    isBoundary text mark = true ∧ reader.start ≤ mark ∧ mark ≤ reader.position

theorem at?_eq_some_iff {text : Text} {offset : Nat} {reader : TextReader} :
    at? text offset = some reader ↔
      isBoundary text offset = true ∧ reader = resume offset (dropBytes text offset) := by
  rw [at?]
  constructor
  · intro accepted
    split at accepted
    · exact ⟨‹_›, (Option.some.inj accepted).symm⟩
    · cases accepted
  · intro both
    rw [both.2]
    exact if_pos both.1

theorem at?_append (front text : Text) :
    at? (front ++ text) (byteSize front) = some (resume (byteSize front) text) := by
  have boundary : isBoundary (front ++ text) (byteSize front) = true :=
    isBoundary_iff.mpr ⟨front, text, rfl, rfl⟩
  rw [at?, if_pos boundary, dropBytes_byteSize_append]

theorem start_moveAll {moves : List Move} (ascii : ∀ move ∈ moves, move.SearchesAscii)
    (reader : TextReader) : (Reader.moveAll reader moves).start = reader.start := by
  have advances : ∀ after : TextReader, after.start = reader.start →
      after.advance.start = reader.start := by
    intro after same
    obtain ⟨rest, start, position, tokenStart, mark?⟩ := after
    cases rest <;> exact same
  exact Reader.moveAll_preserves advances advances (fun _ same => same) ascii rfl

variable {text : Text} {reader : TextReader}

theorem within_of_at? {offset : Nat} (accepted : at? text offset = some reader) :
    reader.Within text := by
  obtain ⟨boundary, rfl⟩ := at?_eq_some_iff.mp accepted
  obtain ⟨passed, rest, rfl, size⟩ := isBoundary_iff.mp boundary
  refine ⟨⟨passed, ?_, size⟩, boundary, boundary, Nat.le_refl _, Nat.le_refl _, ?_⟩
  · rw [← size]
    exact congrArg (passed ++ ·) (dropBytes_byteSize_append passed rest).symm
  · intro mark marked
    cases marked

namespace Within

theorem positionBoundary (within : reader.Within text) :
    isBoundary text reader.position = true := by
  obtain ⟨passed, split, size⟩ := within.split
  exact isBoundary_iff.mpr ⟨passed, reader.rest, split, size⟩

theorem position_le_byteSize (within : reader.Within text) : reader.position ≤ byteSize text := by
  obtain ⟨passed, split, size⟩ := within.split
  rw [split, byteSize_append, size]
  exact Nat.le_add_right _ _

theorem start_le_position (within : reader.Within text) : reader.start ≤ reader.position :=
  Nat.le_trans within.startFirst within.tokenBegun

theorem advance (within : reader.Within text) : reader.advance.Within text := by
  obtain ⟨rest, start, position, tokenStart, mark?⟩ := reader
  cases rest with
  | nil => exact within
  | cons c rest =>
      obtain ⟨⟨passed, split, size⟩, startBoundary, tokenBoundary, startFirst, tokenBegun,
        markPlaced⟩ := within
      dsimp only at split size startBoundary tokenBoundary startFirst tokenBegun markPlaced
      have further : position ≤ position + c.utf8Size := Nat.le_add_right _ _
      refine ⟨⟨passed ++ [c], ?_, ?_⟩, startBoundary, tokenBoundary, startFirst,
        Nat.le_trans tokenBegun further, ?_⟩
      · rw [List.append_assoc]
        exact split
      · rw [byteSize_append, size]
        rfl
      · intro mark marked
        obtain ⟨boundary, low, high⟩ := markPlaced mark marked
        exact ⟨boundary, low, Nat.le_trans high further⟩

theorem skip (within : reader.Within text) : reader.skip.Within text := by
  have passed := within.advance
  exact ⟨passed.split, passed.startBoundary, passed.positionBoundary, passed.start_le_position,
    Nat.le_refl _, passed.markPlaced⟩

theorem markEnd (within : reader.Within text) : reader.markEnd.Within text := by
  refine ⟨within.split, within.startBoundary, within.tokenBoundary, within.startFirst,
    within.tokenBegun, ?_⟩
  intro mark marked
  cases marked
  exact ⟨within.positionBoundary, within.start_le_position, Nat.le_refl _⟩

theorem moveAll (within : reader.Within text) {moves : List Move}
    (ascii : ∀ move ∈ moves, move.SearchesAscii) : (Reader.moveAll reader moves).Within text :=
  have advances : ∀ reader : TextReader, reader.Within text → reader.advance.Within text :=
    fun _ => advance
  Reader.moveAll_preserves advances (fun _ => skip) (fun _ => markEnd) ascii within

theorem scan (within : reader.Within text) (kinds : KindSet) :
    (Reader.scan kinds reader).reader.Within text :=
  within.moveAll (Request.moves_ascii kinds reader.rest)

theorem stopPlaced (within : reader.Within text) :
    isBoundary text reader.finish.consumed.stop = true ∧
      reader.start ≤ reader.finish.consumed.stop ∧
      reader.finish.consumed.stop ≤ reader.position := by
  change isBoundary text (reader.mark?.getD reader.position) = true ∧
    reader.start ≤ reader.mark?.getD reader.position ∧
    reader.mark?.getD reader.position ≤ reader.position
  cases marked : reader.mark? with
  | none => exact ⟨within.positionBoundary, within.start_le_position, Nat.le_refl _⟩
  | some mark => exact within.markPlaced mark marked

theorem tokenPlaced (within : reader.Within text) :
    isBoundary text reader.finish.token.start = true ∧
      reader.start ≤ reader.finish.token.start ∧
      reader.finish.token.start ≤ reader.finish.token.stop := by
  obtain ⟨stopBoundary, low, _⟩ := within.stopPlaced
  refine ⟨?_, Nat.le_min.mpr ⟨within.startFirst, low⟩, Nat.min_le_right _ _⟩
  rcases Nat.le_total reader.tokenStart reader.finish.consumed.stop with before | after
  · have started : reader.finish.token.start = reader.tokenStart := Nat.min_eq_left before
    rw [started]
    exact within.tokenBoundary
  · have collapsed : reader.finish.token.start = reader.finish.consumed.stop :=
      Nat.min_eq_right after
    rw [collapsed]
    exact stopBoundary

end Within

end TextReader

end ContextScan

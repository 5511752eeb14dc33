import ContextScan.Proofs.Reader.Lawful
import ContextScan.Proofs.Statement.Ending

namespace ContextScan

/-! Places known by the text that is left there.

A reader of a text keeps its places as byte offsets.  `Remainders` keeps for each of them what is
left of the text, which the moves of a scan determine without any counting.  The two agree: the
ranges of a call are the sizes of the texts between its places. -/

structure Remainders where
  rest : Text
  tokenRest : Text
  markRest? : Option Text

namespace Remainders

def ofText (text : Text) : Remainders := ⟨text, text, none⟩

def advance (left : Remainders) : Remainders := { left with rest := left.rest.tail }

def skip (left : Remainders) : Remainders :=
  { left with rest := left.rest.tail, tokenRest := left.rest.tail }

def markEnd (left : Remainders) : Remainders := { left with markRest? := some left.rest }

instance : Reader Remainders where
  remaining := rest
  advance := advance
  skip := skip
  markEnd := markEnd

instance : LawfulReader Remainders where
  remaining_advance _ := rfl
  remaining_skip _ := rfl
  remaining_markEnd _ := rfl
  advanceUntil_eq _ _ _ := rfl

/-- What is left where the token ends. -/
def stopRest (left : Remainders) : Text := left.markRest?.getD left.rest

/-- What is left where the token starts; a token never starts after its end. -/
def startRest (left : Remainders) : Text :=
  if left.tokenRest.length < left.stopRest.length then left.stopRest else left.tokenRest

/-- Whether what is left at every place is a part of the text at its end. -/
structure Of (text : Text) (left : Remainders) : Prop where
  rest : left.rest <:+ text
  tokenRest : left.tokenRest <:+ text
  markRest : ∀ rest, left.markRest? = some rest → rest <:+ text

namespace Of

variable {text : Text} {left : Remainders}

theorem ofText (text : Text) : Of text (Remainders.ofText text) :=
  ⟨List.suffix_rfl, List.suffix_rfl, fun _ marked => by cases marked⟩

theorem advance (places : left.Of text) : left.advance.Of text :=
  ⟨(List.tail_suffix _).trans places.rest, places.tokenRest, places.markRest⟩

theorem skip (places : left.Of text) : left.skip.Of text :=
  ⟨(List.tail_suffix _).trans places.rest, (List.tail_suffix _).trans places.rest,
    places.markRest⟩

theorem markEnd (places : left.Of text) : left.markEnd.Of text :=
  ⟨places.rest, places.tokenRest, fun _ marked => by cases marked; exact places.rest⟩

theorem moveAll (places : left.Of text) {moves : List Move}
    (ascii : ∀ move ∈ moves, move.SearchesAscii) : (Reader.moveAll left moves).Of text :=
  have advances : ∀ left : Remainders, left.Of text → left.advance.Of text := fun _ => advance
  Reader.moveAll_preserves advances (fun _ => skip) (fun _ => markEnd) ascii places

theorem stopRest_suffix (places : left.Of text) : left.stopRest <:+ text := by
  rw [stopRest]
  cases marked : left.markRest? with
  | none => exact places.rest
  | some rest => exact places.markRest rest marked

theorem startRest_suffix (places : left.Of text) : left.startRest <:+ text := by
  rw [startRest]
  split
  · exact places.stopRest_suffix
  · exact places.tokenRest

theorem stopRest_suffix_startRest (places : left.Of text) : left.stopRest <:+ left.startRest := by
  rw [startRest]
  split
  · exact List.suffix_rfl
  · rename_i begun
    exact List.suffix_of_suffix_length_le places.stopRest_suffix places.tokenRest
      (Nat.not_lt.mp begun)

end Of

/-- Whether a reader of a text keeps the same places by their offsets. -/
structure Keeps (offset : Nat) (text : Text) (reader : TextReader) (left : Remainders) : Prop where
  rest : reader.rest = left.rest
  start : reader.start = offset
  position : reader.position + byteSize left.rest = offset + byteSize text
  tokenStart : reader.tokenStart + byteSize left.tokenRest = offset + byteSize text
  mark : reader.mark? = left.markRest?.map fun rest => offset + byteSize text - byteSize rest

namespace Keeps

variable {offset : Nat} {text : Text} {reader : TextReader} {left : Remainders}

theorem resume (offset : Nat) (text : Text) :
    Keeps offset text (TextReader.resume offset text) (ofText text) :=
  ⟨rfl, rfl, rfl, rfl, rfl⟩

theorem advance (keeps : Keeps offset text reader left) :
    Keeps offset text reader.advance left.advance := by
  obtain ⟨rest, start, position, tokenStart, mark?⟩ := reader
  obtain ⟨sameRest, sameStart, samePosition, sameToken, sameMark⟩ := keeps
  dsimp only at sameRest sameStart samePosition sameToken sameMark
  subst sameRest
  cases left with
  | mk leftRest tokenRest markRest? =>
      cases leftRest with
      | nil => exact ⟨rfl, sameStart, samePosition, sameToken, sameMark⟩
      | cons c rest =>
          refine ⟨rfl, sameStart, ?_, sameToken, sameMark⟩
          change position + c.utf8Size + byteSize rest = _
          rw [← samePosition, byteSize, Nat.add_assoc]

theorem skip (keeps : Keeps offset text reader left) :
    Keeps offset text reader.skip left.skip :=
  have passed := keeps.advance
  ⟨passed.rest, passed.start, passed.position, passed.position, passed.mark⟩

theorem markEnd (keeps : Keeps offset text reader left) :
    Keeps offset text reader.markEnd left.markEnd := by
  refine ⟨keeps.rest, keeps.start, keeps.position, keeps.tokenStart, ?_⟩
  have here := keeps.position
  change some reader.position = some (offset + byteSize text - byteSize left.rest)
  rw [← here, Nat.add_sub_cancel]

theorem moveAll (keeps : Keeps offset text reader left) {moves : List Move}
    (ascii : ∀ move ∈ moves, move.SearchesAscii) :
    Keeps offset text (Reader.moveAll reader moves) (Reader.moveAll left moves) := by
  have sameText : ∀ (reader : TextReader) (left : Remainders), Keeps offset text reader left →
      Reader.remaining reader = Reader.remaining left := fun _ _ keeps => keeps.rest
  exact Reader.moveAll_related sameText (fun _ _ => advance) (fun _ _ => skip)
    (fun _ _ => markEnd) ascii keeps

theorem stop_eq (keeps : Keeps offset text reader left) :
    reader.finish.consumed.stop = offset + byteSize text - byteSize left.stopRest := by
  change reader.mark?.getD reader.position = _
  rw [keeps.mark, stopRest]
  cases left.markRest? with
  | some rest => rfl
  | none =>
      have here := keeps.position
      change reader.position = offset + byteSize text - byteSize left.rest
      omega

/-- The ranges of a call are the sizes of the texts between its places. -/
theorem finish_eq (keeps : Keeps offset text reader left) (places : left.Of text)
    {trivia lexeme : Text} (led : text = trivia ++ left.startRest)
    (read : left.startRest = lexeme ++ left.stopRest) :
    reader.finish = ⟨⟨offset, offset + byteSize trivia + byteSize lexeme⟩,
      ⟨offset + byteSize trivia, offset + byteSize trivia + byteSize lexeme⟩⟩ := by
  have whole := congrArg byteSize led
  have own := congrArg byteSize read
  rw [byteSize_append] at whole own
  have stop : reader.finish.consumed.stop = offset + byteSize trivia + byteSize lexeme := by
    rw [keeps.stop_eq]
    omega
  have begun := keeps.tokenStart
  have start : min reader.tokenStart reader.finish.consumed.stop = offset + byteSize trivia := by
    rw [stop]
    rw [startRest] at whole own
    split at whole
    · rename_i late
      -- The last skip was after the mark, so the token is empty.
      obtain ⟨between, split⟩ := List.suffix_of_suffix_length_le places.tokenRest
        places.stopRest_suffix (Nat.le_of_lt late)
      have sizes := congrArg byteSize split
      rw [byteSize_append] at sizes
      rw [if_pos late] at own
      omega
    · rename_i early
      rw [if_neg early] at own
      omega
  calc reader.finish
      = ⟨⟨reader.start, reader.finish.consumed.stop⟩,
          ⟨min reader.tokenStart reader.finish.consumed.stop, reader.finish.consumed.stop⟩⟩ := rfl
    _ = _ := by rw [start, stop, keeps.start]

end Keeps

theorem repeat_advance (steps : Nat) (left : Remainders) :
    steps.repeat advance left = { left with rest := left.rest.drop steps } := by
  induction steps with
  | zero => rfl
  | succ steps ih => rw [Nat.repeat, ih, advance, List.tail_drop]

theorem move_advanceUntil (first second : Char) (left : Remainders) :
    Reader.move left (.advanceUntil first second)
      = { left with rest := left.rest.dropWhile fun c => c != first && c != second } := by
  have split := List.takeWhile_append_dropWhile (p := fun c => c != first && c != second)
    (l := left.rest)
  have dropped : left.rest.drop (left.rest.takeWhile fun c => c != first && c != second).length
      = left.rest.dropWhile fun c => c != first && c != second := by
    conv => lhs; arg 2; rw [← split]
    exact List.drop_left
  calc Reader.move left (.advanceUntil first second)
      = (left.rest.takeWhile fun c => c != first && c != second).length.repeat advance left := rfl
    _ = _ := by rw [repeat_advance, dropped]

theorem moveAll_append (left : Remainders) (moves later : List Move) :
    Reader.moveAll left (moves ++ later) = Reader.moveAll (Reader.moveAll left moves) later :=
  List.foldl_append

section Moves

variable {moves : List Move} {text tokenRest : Text}

theorem moveAll_skips (passed : Text) (markRest? : Option Text) :
    Reader.moveAll (Remainders.mk (passed ++ text) (passed ++ text) markRest?)
        (List.replicate passed.length .skip)
      = ⟨text, text, markRest?⟩ := by
  induction passed with
  | nil => rfl
  | cons c passed ih => exact ih

theorem moveAll_advances (passed : Text) (markRest? : Option Text) :
    Reader.moveAll (Remainders.mk (passed ++ text) tokenRest markRest?)
        (List.replicate passed.length .advance)
      = ⟨text, tokenRest, markRest?⟩ := by
  induction passed with
  | nil => rfl
  | cons c passed ih => exact ih

/-- What every single move keeps is kept by all of them. -/
theorem field_moveAll {α : Type} {field : Remainders → α}
    (keeps : ∀ move ∈ moves, ∀ left, field (Reader.move left move) = field left)
    (left : Remainders) : field (Reader.moveAll left moves) = field left := by
  induction moves generalizing left with
  | nil => rfl
  | cons move moves ih =>
      have later := ih (fun other member => keeps other (List.mem_cons_of_mem _ member))
        (Reader.move left move)
      exact later.trans (keeps move List.mem_cons_self left)

theorem markRest?_moveAll (unmarked : .markEnd ∉ moves) (left : Remainders) :
    (Reader.moveAll left moves).markRest? = left.markRest? := by
  apply field_moveAll
  intro move member left
  cases move with
  | advance | skip => rfl
  | markEnd => exact absurd member unmarked
  | advanceUntil first second => rw [move_advanceUntil]

theorem tokenRest_moveAll (unskipped : .skip ∉ moves) (left : Remainders) :
    (Reader.moveAll left moves).tokenRest = left.tokenRest := by
  apply field_moveAll
  intro move member left
  cases move with
  | advance | markEnd => rfl
  | skip => exact absurd member unskipped
  | advanceUntil first second => rw [move_advanceUntil]

/-- Moves that set a mark leave no trace of an earlier one. -/
theorem moveAll_remark (marked : .markEnd ∈ moves) (earlier? other? : Option Text) :
    Reader.moveAll (Remainders.mk text tokenRest earlier?) moves
      = Reader.moveAll ⟨text, tokenRest, other?⟩ moves := by
  induction moves generalizing text tokenRest with
  | nil => cases marked
  | cons move moves ih =>
      cases move with
      | markEnd => rfl
      | advance | skip => exact ih (List.mem_of_ne_of_mem (by decide) marked)
      | advanceUntil first second =>
          have later : .markEnd ∈ moves := List.mem_of_ne_of_mem (by simp) marked
          change Reader.moveAll (Reader.move _ _) moves = Reader.moveAll (Reader.move _ _) moves
          rw [move_advanceUntil, move_advanceUntil]
          exact ih later

end Moves

end Remainders

end ContextScan

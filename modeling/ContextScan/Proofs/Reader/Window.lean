import ContextScan.Proofs.Reader.Bounds
import ContextScan.Token

namespace ContextScan

/-! What a call can see of its text.

A call sees the characters that it passes and the one that it stops before.  So where it stopped
tells how much of the text it depends on, and on every text with the same window it passes the same
characters, sets its marks at the same distances and comes to the same token. -/

theorem dropWhile_takeWhile_append {accepts : Char → Bool} {text other : Text}
    (same : other.head? = (text.dropWhile accepts).head?) :
    (text.takeWhile accepts ++ other).dropWhile accepts = other := by
  have taken : ∀ c ∈ text.takeWhile accepts, accepts c = true :=
    List.all_eq_true.mp List.all_takeWhile
  rw [List.dropWhile_append_of_pos taken]
  cases other with
  | nil => rfl
  | cons c later =>
      have stopped := List.head?_dropWhile_not accepts text
      rw [← same] at stopped
      exact List.dropWhile_cons_of_neg (Bool.not_eq_true _ ▸ stopped)

/-- A move passes the same characters on every text that begins with them and goes on with the same
character. -/
theorem Move.leave_windowed (move : Move) (text : Text) :
    ∃ passed, text = passed ++ move.leave text ∧
      ∀ other : Text, other.head? = (move.leave text).head? →
        move.leave (passed ++ other) = other := by
  cases move with
  | advance | skip =>
      cases text with
      | nil =>
          refine ⟨[], rfl, fun other same => ?_⟩
          have ended : other = [] := List.head?_eq_none_iff.mp same
          rw [ended]
          rfl
      | cons c rest => exact ⟨[c], rfl, fun _ _ => rfl⟩
  | markEnd => exact ⟨[], rfl, fun _ _ => rfl⟩
  | advanceUntil left right =>
      exact ⟨_, List.takeWhile_append_dropWhile.symm,
        fun _ same => dropWhile_takeWhile_append same⟩

namespace Scan

variable {α : Type} {allowed : Move → Prop} {text : Text}

/-- Whether a run is the same on every text that begins with the characters that it passed and goes
on with the character that it stopped before. -/
def WindowedAt (scan : Scan α) (text : Text) : Prop :=
  ∃ passed, text = passed ++ (scan text).rest ∧
    ∀ other : Text, other.head? = (scan text).rest.head? →
      scan (passed ++ other) = { scan text with rest := other }

theorem Stepwise.windowedAt {scan : Scan α} (stepwise : Stepwise allowed scan text) :
    scan.WindowedAt text := by
  induction stepwise with
  | pure | note => exact ⟨[], rfl, fun _ _ => rfl⟩
  | @peek text =>
      refine ⟨[], rfl, fun other same => ?_⟩
      have next : other.headD '\x00' = text.headD '\x00' := by
        rw [List.headD_eq_head?_getD, List.headD_eq_head?_getD, same]
        rfl
      exact congrArg (Run.mk · [] [] other) next
  | @atEnd text =>
      refine ⟨[], rfl, fun other same => ?_⟩
      have next : other.isEmpty = text.isEmpty := by
        rw [Bool.eq_iff_iff, List.isEmpty_iff, List.isEmpty_iff, ← List.head?_eq_none_iff,
          ← List.head?_eq_none_iff, same]
        exact Iff.rfl
      exact congrArg (Run.mk · [] [] other) next
  | @ofMove text move permitted =>
      obtain ⟨passed, split, window⟩ := move.leave_windowed text
      exact ⟨passed, split, fun other same =>
        congrArg (Run.mk () [move] []) (window other same)⟩
  | @bind _ _ text first next before after beforeIH afterIH =>
      obtain ⟨passed, split, sameFirst⟩ := beforeIH
      obtain ⟨later, laterSplit, sameNext⟩ := afterIH
      refine ⟨passed ++ later, ?_, fun other same => ?_⟩
      · rw [bind_apply, List.append_assoc, ← laterSplit]
        exact split
      · have sameHead : (later ++ other).head? = (first text).rest.head? := by
          rw [laterSplit, List.head?_append, List.head?_append, same]
          rfl
        have firstRun := sameFirst (later ++ other) sameHead
        have nextRun := sameNext other same
        rw [List.append_assoc, bind_apply, firstRun]
        dsimp only
        rw [nextRun]
        rfl

end Scan

/-- How far into a text the last mark lies that moves set, if they set one. -/
def lastMark? : List Move → Text → Option Nat
  | [], _ => none
  | move :: moves, text =>
      let passed := byteSize text - byteSize (move.leave text)
      ((lastMark? moves (move.leave text)).map (passed + ·)).or
        (if move = .markEnd then some 0 else none)

theorem lastMark?_isSome {moves : List Move} (marked : .markEnd ∈ moves) (text : Text) :
    (lastMark? moves text).isSome = true := by
  induction moves generalizing text with
  | nil => cases marked
  | cons move moves ih =>
      rw [lastMark?]
      rcases List.mem_cons.mp marked with rfl | later
      · cases lastMark? moves _ <;> rfl
      · obtain ⟨mark, found⟩ := Option.isSome_iff_exists.mp (ih later (move.leave text))
        rw [found]
        rfl

theorem leaveAll_windowed (moves : List Move) (text : Text) :
    ∃ passed, text = passed ++ leaveAll moves text ∧
      ∀ other : Text, other.head? = (leaveAll moves text).head? →
        lastMark? moves (passed ++ other) = lastMark? moves text := by
  induction moves generalizing text with
  | nil => exact ⟨[], rfl, fun _ _ => rfl⟩
  | cons move moves ih =>
      obtain ⟨passed, split, window⟩ := move.leave_windowed text
      obtain ⟨later, laterSplit, laterMark⟩ := ih (move.leave text)
      refine ⟨passed ++ later, ?_, fun other same => ?_⟩
      · rw [leaveAll_cons, List.append_assoc, ← laterSplit]
        exact split
      · have sameHead : (later ++ other).head? = (move.leave text).head? := by
          rw [laterSplit, List.head?_append, List.head?_append, same]
          rfl
        have left := window (later ++ other) sameHead
        have size : byteSize (passed ++ (later ++ other)) - byteSize (later ++ other)
            = byteSize text - byteSize (move.leave text) := by
          have sizes := congrArg byteSize split
          rw [byteSize_append] at sizes ⊢
          omega
        rw [List.append_assoc, lastMark?, lastMark?, left, laterMark other same, size]

namespace TextReader

theorem position_moveAll {moves : List Move} (ascii : ∀ move ∈ moves, move.SearchesAscii)
    (reader : TextReader) :
    (Reader.moveAll reader moves).position + byteSize (leaveAll moves reader.rest)
      = reader.position + byteSize reader.rest := by
  let Ends (after : TextReader) : Prop :=
    after.position + byteSize after.rest = reader.position + byteSize reader.rest
  have advances : ∀ after, Ends after → Ends (advance after) := by
    intro after ends
    obtain ⟨rest, start, position, tokenStart, mark?⟩ := after
    cases rest with
    | nil => exact ends
    | cons c rest => exact (Nat.add_assoc position _ _).trans ends
  have kept : Ends (Reader.moveAll reader moves) :=
    Reader.moveAll_preserves advances (fun after ends => advances after ends)
      (fun _ ends => ends) ascii rfl
  have left : (Reader.moveAll reader moves).rest = leaveAll moves reader.rest :=
    Reader.remaining_moveAll ascii reader
  rw [← left]
  exact kept

theorem mark?_move (reader : TextReader) (move : Move) :
    (Reader.move reader move).mark?
      = if move = .markEnd then some reader.position else reader.mark? := by
  obtain ⟨rest, start, position, tokenStart, mark?⟩ := reader
  cases move with
  | advance | skip => cases rest <;> rfl
  | markEnd | advanceUntil left right => rfl

/-- The mark after some moves is the last one that they set, or else the one from before. -/
theorem mark?_moveAll {moves : List Move} (ascii : ∀ move ∈ moves, move.SearchesAscii)
    (reader : TextReader) :
    (Reader.moveAll reader moves).mark?
      = ((lastMark? moves reader.rest).map (reader.position + ·)).or reader.mark? := by
  induction moves generalizing reader with
  | nil => rfl
  | cons move moves ih =>
      have asciiMove : ∀ other ∈ [move], other.SearchesAscii := fun other member =>
        ascii other (List.mem_singleton.mp member ▸ List.mem_cons_self)
      have asciiLater : ∀ later ∈ moves, later.SearchesAscii := fun later member =>
        ascii later (List.mem_cons_of_mem move member)
      have moved := ih asciiLater (Reader.move reader move)
      have left : (Reader.move reader move).rest = move.leave reader.rest :=
        Reader.remaining_move (ascii move List.mem_cons_self) reader
      have position : (Reader.move reader move).position
          = reader.position + (byteSize reader.rest - byteSize (move.leave reader.rest)) := by
        obtain ⟨passed, split, _⟩ := move.leave_windowed reader.rest
        have ends := position_moveAll asciiMove reader
        have sizes := congrArg byteSize split
        rw [byteSize_append] at sizes
        change (Reader.move reader move).position + byteSize (move.leave reader.rest) = _ at ends
        omega
      change (Reader.moveAll (Reader.move reader move) moves).mark? = _
      rw [moved, left, position, mark?_move, lastMark?]
      cases lastMark? moves (move.leave reader.rest) with
      | some mark => simp [Nat.add_assoc]
      | none =>
          by_cases marks : move = .markEnd
          · subst marks
            simp
          · simp [marks]

end TextReader

def ByteRange.shift (distance : Nat) (range : ByteRange) : ByteRange :=
  ⟨distance + range.start, distance + range.stop⟩

def Token.shift (distance : Nat) (token : Token) : Token :=
  ⟨token.kind, ⟨token.span.consumed.shift distance, token.span.token.shift distance⟩⟩

namespace TextReader

def shift (distance : Nat) (reader : TextReader) : TextReader :=
  ⟨reader.rest, distance + reader.start, distance + reader.position, distance + reader.tokenStart,
    reader.mark?.map (distance + ·)⟩

theorem shift_advance (distance : Nat) (reader : TextReader) :
    (reader.shift distance).advance = reader.advance.shift distance := by
  obtain ⟨rest, start, position, tokenStart, mark?⟩ := reader
  cases rest with
  | nil => rfl
  | cons c rest =>
      change TextReader.mk rest _ (distance + position + c.utf8Size) _ _ = _
      rw [Nat.add_assoc]
      rfl

theorem moveAll_shift (distance : Nat) {moves : List Move}
    (ascii : ∀ move ∈ moves, move.SearchesAscii) (reader : TextReader) :
    Reader.moveAll (reader.shift distance) moves
      = (Reader.moveAll reader moves).shift distance := by
  have skips : ∀ reader : TextReader,
      (reader.shift distance).skip = reader.skip.shift distance := by
    intro reader
    rw [skip, shift_advance]
    rfl
  exact Reader.moveAll_comm (shift distance) (fun _ => rfl) (shift_advance distance) skips
    (fun _ => rfl) ascii reader

theorem finish_shift (distance : Nat) (reader : TextReader) :
    (reader.shift distance).finish =
      ⟨reader.finish.consumed.shift distance, reader.finish.token.shift distance⟩ := by
  have stop : (reader.mark?.map (distance + ·)).getD (distance + reader.position)
      = distance + reader.mark?.getD reader.position := Option.getD_map ..
  simp only [finish, shift, stop, ByteRange.shift, Nat.add_min_add_left]

end TextReader

theorem Token.scan?_append (front text : Text) (kinds : KindSet) :
    Token.scan? (front ++ text) (byteSize front) kinds
      = (Token.scan? text 0 kinds).map (Token.shift (byteSize front)) := by
  have here : TextReader.at? text 0 = some (TextReader.resume 0 text) :=
    TextReader.at?_append [] text
  have there : TextReader.resume (byteSize front) text
      = (TextReader.resume 0 text).shift (byteSize front) := rfl
  have moved := TextReader.moveAll_shift (byteSize front) (Request.moves_ascii kinds text)
    (TextReader.resume 0 text)
  rw [scan?, scan?, trace, trace, TextReader.at?_append, here]
  change (Request.scan kinds text).value.map _ = ((Request.scan kinds text).value.map _).map _
  rw [there, Option.map_map]
  cases (Request.scan kinds text).value with
  | none => rfl
  | some kind =>
      have finished := congrArg TextReader.finish moved
      rw [TextReader.finish_shift] at finished
      exact congrArg (fun span => some (Token.mk kind span)) finished

/-- A request is answered alike, and marks the same places, on every text that begins with the
characters it passes and goes on with the same character. -/
theorem Request.scan_windowed (kinds : KindSet) (text : Text) :
    let run := Request.scan kinds text
    ∃ passed, text = passed ++ run.rest ∧
      ∀ other : Text, other.head? = run.rest.head? →
        Request.scan kinds (passed ++ other) = { run with rest := other } ∧
        lastMark? run.moves (passed ++ other) = lastMark? run.moves text := by
  intro run
  have leads : leaveAll run.moves text = run.rest := leadsToRest_scan kinds text
  obtain ⟨passed, split, window⟩ := (Request.stepwise_ascii kinds text).windowedAt
  obtain ⟨moved, movedSplit, markWindow⟩ := leaveAll_windowed run.moves text
  rw [leads] at movedSplit markWindow
  have sameFront : moved = passed := List.append_cancel_right (movedSplit.symm.trans split)
  subst sameFront
  exact ⟨moved, split, fun other same => ⟨window other same, markWindow other same⟩⟩

theorem TextReader.position_scan {kinds : KindSet} {reader : TextReader} {passed : Text}
    (split : reader.rest = passed ++ (Request.scan kinds reader.rest).rest) :
    (Reader.scan kinds reader).reader.position = reader.position + byteSize passed := by
  have ends := position_moveAll (Request.moves_ascii kinds reader.rest) reader
  have leads : leaveAll (Request.scan kinds reader.rest).moves reader.rest
      = (Request.scan kinds reader.rest).rest := Request.leadsToRest_scan kinds reader.rest
  have sizes := congrArg byteSize split
  rw [byteSize_append] at sizes
  rw [leads] at ends
  change (Reader.scan kinds reader).reader.position + _ = _ at ends
  omega

/-- A call depends on its window alone.

Let a call move past some bytes.  Another reader, wherever it stands and whatever was done with it,
comes to the same outcome if its text starts with the same bytes and goes on with the same
character, or ends there as well. -/
theorem scan_within_window (kinds : KindSet) :
    (∀ first second : TextReader,
      let here := Reader.scan kinds first
      let there := Reader.scan kinds second
      let read := here.reader.position - first.position
      let marked? := lastMark? (Request.scan kinds first.rest).moves first.rest
      (utf8 second.rest).take read = (utf8 first.rest).take read →
      (dropBytes second.rest read).head? = (dropBytes first.rest read).head? →
      there.produced = here.produced ∧ there.events = here.events ∧
      here.reader.position = first.position + read ∧
      there.reader.position = second.position + read ∧
      lastMark? (Request.scan kinds second.rest).moves second.rest = marked? ∧
      here.reader.mark? = (marked?.map (first.position + ·)).or first.mark? ∧
      there.reader.mark? = (marked?.map (second.position + ·)).or second.mark?) ∧
    (∀ front text : Text, Token.scan? (front ++ text) (byteSize front) kinds
      = (Token.scan? text 0 kinds).map (Token.shift (byteSize front))) := by
  refine ⟨?_, fun front text => Token.scan?_append front text kinds⟩
  intro first second here there read marked? sameBytes sameNext
  let run := Request.scan kinds first.rest
  obtain ⟨passed, split, window⟩ := Request.scan_windowed kinds first.rest
  change first.rest = passed ++ run.rest at split
  have ends : here.reader.position = first.position + byteSize passed :=
    TextReader.position_scan split
  have readPassed : read = byteSize passed := by
    change here.reader.position - first.position = byteSize passed
    omega
  -- The bytes moved past are those of the characters passed, so the second text starts with them.
  have passedBytes : (utf8 first.rest).take read = utf8 passed := by
    rw [split, utf8_append, readPassed, ← length_utf8 passed, List.take_left]
  obtain ⟨other, secondSplit⟩ : ∃ other, second.rest = passed ++ other := by
    rw [passedBytes, readPassed] at sameBytes
    exact exists_eq_append_of_take_utf8 sameBytes
  have sameHead : other.head? = run.rest.head? := by
    rw [secondSplit, split, readPassed, dropBytes_byteSize_append,
      dropBytes_byteSize_append] at sameNext
    exact sameNext
  obtain ⟨sameRun, sameMark⟩ := window other sameHead
  rw [← secondSplit] at sameRun sameMark
  have secondEnds : there.reader.position = second.position + byteSize passed := by
    refine TextReader.position_scan ?_
    rw [sameRun]
    exact secondSplit
  have sameLast : lastMark? (Request.scan kinds second.rest).moves second.rest = marked? := by
    rw [sameRun]
    exact sameMark
  have secondMark := TextReader.mark?_moveAll (Request.moves_ascii kinds second.rest) second
  rw [sameLast] at secondMark
  refine ⟨?_, ?_, ?_, ?_, sameLast,
    TextReader.mark?_moveAll (Request.moves_ascii kinds first.rest) first, secondMark⟩
  · change (Request.scan kinds second.rest).value = run.value
    rw [sameRun]
  · change (Request.scan kinds second.rest).events = run.events
    rw [sameRun]
  · rw [readPassed]
    exact ends
  · rw [readPassed]
    exact secondEnds

/-- A comment is read alike by a fresh reader and by one that stands further on, was used before,
and has other text after the blank that follows the comment. -/
theorem comment_within_window :
    let kinds := KindSet.ofList [.blockComment]
    let first := TextReader.ofText "/*é*/ b".toList
    let second : TextReader := ⟨"/*é*/ else".toList, 2, 9, 4, some 3⟩
    (utf8 second.rest).take 6 = (utf8 first.rest).take 6 ∧
      (dropBytes second.rest 6).head? = (dropBytes first.rest 6).head? ∧
      (Reader.scan kinds second).produced = (Reader.scan kinds first).produced ∧
      (Reader.scan kinds second).reader.position = 9 + 6 := by
  intro kinds first second
  have read : (Reader.scan kinds first).reader.position - first.position = 6 := by decide +kernel
  have sameBytes : (utf8 second.rest).take 6 = (utf8 first.rest).take 6 := by decide
  have sameNext : (dropBytes second.rest 6).head? = (dropBytes first.rest 6).head? := by decide
  have window := (scan_within_window kinds).1 first second
  dsimp only at window
  rw [read] at window
  obtain ⟨produced, _, _, position, _⟩ := window sameBytes sameNext
  exact ⟨sameBytes, sameNext, produced, position⟩

end ContextScan

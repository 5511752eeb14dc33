import ContextScan.Proofs.Reader.Bounds
import ContextScan.Proofs.Reader.Window
import ContextScan.Proofs.Statement.Ending
import ContextScan.Proofs.Token.Produced

namespace ContextScan

/-! What can be relied on of a token.

Its kind was asked for, its ranges are ranges of the text in their order, and its end was marked by
the call.  A terminator is one `;`, or takes nothing at all. -/

namespace TextReader

theorem mark?_eq_stop {moves : List Move} (ascii : ∀ move ∈ moves, move.SearchesAscii)
    (marked : .markEnd ∈ moves) (reader : TextReader) :
    let after := Reader.moveAll reader moves
    after.mark? = some after.finish.consumed.stop := by
  intro after
  obtain ⟨mark, found⟩ := Option.isSome_iff_exists.mp (lastMark?_isSome marked reader.rest)
  have set : after.mark? = some (reader.position + mark) := by
    rw [mark?_moveAll ascii reader, found]
    rfl
  change after.mark? = some (after.mark?.getD after.position)
  rw [set]
  rfl

/-- While nothing is taken, the token has not begun. -/
theorem moveAll_skips {moves : List Move} (only : ∀ move ∈ moves, move.IsSkip)
    {reader : TextReader} (unbegun : reader.tokenStart = reader.position) :
    ∃ place, Reader.moveAll reader moves =
      ⟨leaveAll moves reader.rest, reader.start, place, place, reader.mark?⟩ := by
  induction moves generalizing reader with
  | nil =>
      obtain ⟨rest, start, position, tokenStart, mark?⟩ := reader
      dsimp only at unbegun
      subst unbegun
      exact ⟨_, rfl⟩
  | cons move moves ih =>
      have skips : move = .skip := only move List.mem_cons_self
      subst skips
      have still : reader.skip.tokenStart = reader.skip.position := rfl
      have onlyLater : ∀ later ∈ moves, later.IsSkip := fun later member =>
        only later (List.mem_cons_of_mem _ member)
      obtain ⟨place, moved⟩ := ih onlyLater still
      have left : reader.skip.rest = reader.rest.tail := LawfulReader.remaining_skip reader
      have sameStart : reader.skip.start = reader.start := by
        obtain ⟨rest, _⟩ := reader
        cases rest <;> rfl
      have sameMark : reader.skip.mark? = reader.mark? := mark?_move reader .skip
      rw [left, sameStart, sameMark] at moved
      exact ⟨place, moved⟩

/-- A call that only seeks the end of a statement ends it where it started, or takes one `;`. -/
theorem finish_seeksEnd {text : Text} {offset : Nat} {reader : TextReader} {later : List Move}
    (accepted : at? text offset = some reader) (seeks : SeeksEnd reader.rest later) :
    let span := (Reader.moveAll reader (.markEnd :: later)).finish
    span = ⟨⟨offset, offset⟩, ⟨offset, offset⟩⟩ ∨
      span.token.stop = span.token.start + 1 ∧ span.token.slice text = [';'] := by
  have marked : reader.markEnd.Within text := (within_of_at? accepted).markEnd
  obtain ⟨_, rfl⟩ := at?_eq_some_iff.mp accepted
  generalize dropBytes text offset = rest at marked seeks ⊢
  intro span
  have unbegun : (resume offset rest).markEnd.tokenStart
      = (resume offset rest).markEnd.position := rfl
  have ascii {skips : List Move} (only : ∀ move ∈ skips, move.IsSkip) :
      ∀ move ∈ skips, move.SearchesAscii := by
    intro move member
    rw [only move member]
    trivial
  cases seeks with
  | skips only =>
      left
      obtain ⟨place, moved⟩ := moveAll_skips only unbegun
      have begins : offset ≤ place := by
        have within := marked.moveAll (ascii only)
        rw [moved] at within
        exact within.startFirst
      change (Reader.moveAll (resume offset rest).markEnd later).finish = _
      rw [moved]
      change Span.mk ⟨offset, offset⟩ ⟨min place offset, offset⟩ = _
      rw [Nat.min_eq_right begins]
  | @takes skips only next =>
      right
      obtain ⟨place, moved⟩ := moveAll_skips only unbegun
      obtain ⟨more, left⟩ : ∃ more, leaveAll skips rest = ';' :: more :=
        List.head?_eq_some_iff.mp next
      have within := marked.moveAll (ascii only)
      have finished : span = ⟨⟨offset, place + 1⟩, ⟨place, place + 1⟩⟩ := by
        change (Reader.moveAll (resume offset rest).markEnd
          (skips ++ [.advance, .markEnd])).finish = _
        have split : Reader.moveAll (resume offset rest).markEnd (skips ++ [.advance, .markEnd])
            = (Reader.moveAll (resume offset rest).markEnd skips).advance.markEnd :=
          List.foldl_append
        have begins : min place (place + 1) = place := Nat.min_eq_left (Nat.le_succ place)
        rw [split, moved]
        change (markEnd (advance ⟨leaveAll skips rest, _, _, _, _⟩)).finish = _
        rw [left]
        change Span.mk ⟨offset, place + 1⟩ ⟨min place (place + 1), place + 1⟩ = _
        rw [begins]
      rw [moved] at within
      obtain ⟨passed, splits, size⟩ := within.split
      change text = passed ++ leaveAll skips rest at splits
      change byteSize passed = place at size
      rw [finished]
      refine ⟨rfl, ?_⟩
      change takeBytes (dropBytes text place) (place + 1 - place) = [';']
      rw [Nat.add_sub_cancel_left, splits, ← size, dropBytes_byteSize_append, left]
      cases more <;> rfl

end TextReader

theorem Token.scan?_eq_some_iff {text : Text} {offset : Nat} {kinds : KindSet} {token : Token} :
    Token.scan? text offset kinds = some token ↔
      ∃ reader, TextReader.at? text offset = some reader ∧
        (Reader.scan kinds reader).produced = some token.kind ∧
        (Reader.scan kinds reader).reader.finish = token.span := by
  rw [scan?, trace]
  cases TextReader.at? text offset with
  | none =>
      constructor
      · intro found
        cases found
      · intro called
        obtain ⟨_, accepted, _⟩ := called
        cases accepted
  | some reader =>
      change Option.map _ (Reader.scan kinds reader).produced = some token ↔ _
      rw [Option.map_eq_some_iff]
      constructor
      · intro mapped
        obtain ⟨kind, found, same⟩ := mapped
        subst same
        exact ⟨reader, rfl, found, rfl⟩
      · intro called
        obtain ⟨_, accepted, found, finished⟩ := called
        cases accepted
        exact ⟨token.kind, found, congrArg (Token.mk token.kind) finished⟩

/-- A token is what the books of its call come to, and they were kept in order. -/
theorem Token.within_of_scan? {text : Text} {offset : Nat} {kinds : KindSet} {token : Token}
    (produced : Token.scan? text offset kinds = some token) :
    ∃ reader, TextReader.at? text offset = some reader ∧
      (Reader.scan kinds reader).produced = some token.kind ∧
      (Reader.scan kinds reader).reader.finish = token.span ∧
      (Reader.scan kinds reader).reader.start = offset ∧
      (Reader.scan kinds reader).reader.Within text := by
  obtain ⟨reader, accepted, found, finished⟩ := Token.scan?_eq_some_iff.mp produced
  have within := (TextReader.within_of_at? accepted).scan kinds
  have started := TextReader.start_moveAll (Request.moves_ascii kinds reader.rest) reader
  have fresh : reader.start = offset := by
    obtain ⟨_, rfl⟩ := TextReader.at?_eq_some_iff.mp accepted
    rfl
  exact ⟨reader, accepted, found, finished, started.trans fresh, within⟩

theorem Token.boundary_of_scan? {text : Text} {offset : Nat} {kinds : KindSet} {token : Token}
    (produced : Token.scan? text offset kinds = some token) : isBoundary text offset = true := by
  obtain ⟨_, accepted, _⟩ := Token.scan?_eq_some_iff.mp produced
  exact (TextReader.at?_eq_some_iff.mp accepted).1

theorem Token.consumed_of_scan? {text : Text} {offset : Nat} {kinds : KindSet} {token : Token}
    (produced : Token.scan? text offset kinds = some token) :
    token.span.consumed.start = offset ∧ offset ≤ token.span.consumed.stop ∧
      token.span.consumed.stop ≤ byteSize text ∧
      isBoundary text token.span.consumed.stop = true := by
  obtain ⟨reader, _, _, finished, started, within⟩ := Token.within_of_scan? produced
  obtain ⟨boundary, low, high⟩ := within.stopPlaced
  rw [finished] at boundary low high
  rw [started] at low
  refine ⟨?_, low, Nat.le_trans high within.position_le_byteSize, boundary⟩
  rw [← finished]
  exact started

/-- A token is sound: its kind was requested and can be produced, its ranges lie in order in the
part of the text that the call read, its end is a mark that the call set, and a terminator is empty
or one `;`. -/
theorem token_sound {text : Text} {offset : Nat} {kinds : KindSet} {token : Token}
    (produced : Token.scan? text offset kinds = some token) :
    (kinds.has token.kind = true ∧
      token.kind ∉ [TokenKind.constructor, .getter, .setter, .dollar] ∧
      (token.kind = .blockComment → kinds.has .dollar = false) ∧
      (kinds.has .stringContent = true → token.kind = .stringContent)) ∧
    (∃ reader, TextReader.at? text offset = some reader ∧ reader.mark? = none ∧
      let after := (Reader.scan kinds reader).reader
      after.mark? = some token.span.consumed.stop ∧
      offset = token.span.consumed.start ∧
      token.span.consumed.start ≤ token.span.token.start ∧
      token.span.token.start ≤ token.span.token.stop ∧
      token.span.token.stop = token.span.consumed.stop ∧
      token.span.consumed.stop ≤ after.position ∧
      after.position ≤ byteSize text ∧
      ∀ place ∈ [offset, token.span.token.start, token.span.token.stop, after.position],
        isBoundary text place = true) ∧
    (token.kind = .semi ∨ token.kind = .memberSemi →
      (token.span = ⟨⟨offset, offset⟩, ⟨offset, offset⟩⟩ ∨
        token.span.token.stop = token.span.token.start + 1 ∧
        token.span.token.slice text = [';']) ∧
      (kinds.has .semi = true → token.kind = .semi)) := by
  obtain ⟨reader, accepted, found, finished, started, within⟩ := Token.within_of_scan? produced
  have come : (Request.token kinds reader.rest).value = some token.kind := found
  obtain ⟨grants, marked⟩ := Request.grants_of_token come
  rw [← Request.moves_scan] at marked
  refine ⟨⟨grants.requested, grants.producible, grants.outsideString, grants.contentOnly⟩,
    ⟨reader, accepted, ?_⟩, ?_⟩
  · obtain ⟨boundary, fresh⟩ := TextReader.at?_eq_some_iff.mp accepted
    obtain ⟨stopBoundary, _, stopBound⟩ := within.stopPlaced
    obtain ⟨tokenBoundary, tokenFirst, tokenOrdered⟩ := within.tokenPlaced
    have stopMarked :=
      TextReader.mark?_eq_stop (Request.moves_ascii kinds reader.rest) marked reader
    have unmarked : reader.mark? = none := by rw [fresh]; rfl
    rw [← finished]
    refine ⟨unmarked, stopMarked, started.symm, tokenFirst, tokenOrdered, rfl, stopBound,
      within.position_le_byteSize, ?_⟩
    intro place member
    simp only [List.mem_cons, List.not_mem_nil, or_false] at member
    rcases member with rfl | rfl | rfl | rfl
    · exact boundary
    · exact tokenBoundary
    · exact stopBoundary
    · exact within.positionBoundary
  · intro ends
    obtain ⟨chosen, decided⟩ := grants.decided ends
    refine ⟨?_, (KindSet.terminator?_eq_some chosen).2.2⟩
    obtain ⟨later, moves, seeks⟩ := Continuation.moves_decision kinds reader.rest
    have ending := TextReader.finish_seeksEnd accepted seeks
    rw [← moves, ← decided, ← Request.moves_scan] at ending
    rw [← finished]
    exact ending

/-- A `;` on the next line is the token, with the line break before it consumed. -/
theorem token_sound_semicolon :
    let token : Token := ⟨.semi, ⟨⟨2, 5⟩, ⟨4, 5⟩⟩⟩
    let kinds := KindSet.ofList [.memberSemi, .semi, .dollar]
    Token.scan? "é\n ; ".toList 2 kinds = some token ∧
      kinds.has .semi = true ∧ token.span.token.slice "é\n ; ".toList = [';'] := by
  intro token kinds
  have produced : Token.scan? "é\n ; ".toList 2 kinds = some token := by decide +kernel
  obtain ⟨⟨requested, _⟩, _, terminates⟩ := token_sound produced
  rcases (terminates (Or.inl rfl)).1 with empty | ⟨_, slice⟩
  · exact absurd empty (by decide)
  · exact ⟨produced, requested, slice⟩

end ContextScan

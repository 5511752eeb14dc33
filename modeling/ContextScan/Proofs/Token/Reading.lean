import ContextScan.Proofs.Reader.Remainders
import ContextScan.Proofs.Token.Soundness

namespace ContextScan

/-! Tokens read as texts.

A call divides the text that it starts at: it takes some trivia and then the token, and leaves the
rest.  A `Reading` is the kind of the token and these two texts.  The ranges of the token are their
sizes, so what a request comes to can be said without offsets. -/

structure Reading where
  kind : TokenKind
  trivia : Text
  lexeme : Text
deriving DecidableEq, Repr

namespace Reading

/-- The token of a reading that starts at an offset. -/
def token (offset : Nat) (reading : Reading) : Token :=
  let start := offset + byteSize reading.trivia
  let stop := start + byteSize reading.lexeme
  ⟨reading.kind, ⟨⟨offset, stop⟩, ⟨start, stop⟩⟩⟩

/-- The reading that takes some text first. -/
def after (gap : Text) (reading : Reading) : Reading :=
  { reading with trivia := gap ++ reading.trivia }

/-- A token that takes nothing. -/
def nothing (kind : TokenKind) : Reading := ⟨kind, [], []⟩

end Reading

/-- The reading of a text to which the places of a call divide it. -/
def Remainders.reading (text : Text) (left : Remainders) (kind : TokenKind) : Reading :=
  ⟨kind, text.take (text.length - left.startRest.length),
    left.startRest.take (left.startRest.length - left.stopRest.length)⟩

namespace Remainders

variable {text : Text} {left : Remainders}

theorem Of.trivia_append (places : left.Of text) (kind : TokenKind) :
    (left.reading text kind).trivia ++ left.startRest = text :=
  List.suffix_iff_eq_append.mp places.startRest_suffix

theorem Of.lexeme_append (places : left.Of text) (kind : TokenKind) :
    (left.reading text kind).lexeme ++ left.stopRest = left.startRest :=
  List.suffix_iff_eq_append.mp places.stopRest_suffix_startRest

/-- A token that is marked and was begun before its mark. -/
theorem reading_marked (left trivia lexeme rest : Text) (kind : TokenKind) :
    (Remainders.mk left (lexeme ++ rest) (some rest)).reading (trivia ++ (lexeme ++ rest)) kind
      = ⟨kind, trivia, lexeme⟩ := by
  have stop : (Remainders.mk left (lexeme ++ rest) (some rest)).stopRest = rest := rfl
  have start : (Remainders.mk left (lexeme ++ rest) (some rest)).startRest = lexeme ++ rest := by
    rw [startRest, stop, if_neg (by simp)]
  simp [reading, start, stop]

/-- A token that is marked where the call starts takes nothing. -/
theorem reading_still (places : left.Of text) (marked : left.markRest? = some text)
    (kind : TokenKind) :
    left.reading text kind = .nothing kind := by
  have stop : left.stopRest = text := by rw [stopRest, marked]; rfl
  have start : left.startRest = text := by
    refine places.startRest_suffix.eq_of_length_le ?_
    have whole := places.stopRest_suffix_startRest.length_le
    rwa [stop] at whole
  rw [reading, start, stop, Nat.sub_self, List.take_zero]
  rfl

/-- Where nothing is skipped, the token starts where the call does. -/
theorem trivia_unskipped (places : left.Of text) (begun : left.tokenRest = text)
    (kind : TokenKind) :
    (left.reading text kind).trivia = [] := by
  have start : left.startRest = text := by
    have bounded := places.stopRest_suffix.length_le
    rw [startRest, begun, if_neg (Nat.not_lt.mpr bounded)]
  rw [reading, start, Nat.sub_self, List.take_zero]

theorem reading_append (gap : Text) (places : left.Of text) (kind : TokenKind) :
    left.reading (gap ++ text) kind = (left.reading text kind).after gap := by
  have bounded := places.startRest_suffix.length_le
  have length : (gap ++ text).length - left.startRest.length
      = gap.length + (text.length - left.startRest.length) := by
    rw [List.length_append]
    omega
  rw [reading, length, List.take_length_add_append]
  rfl

end Remainders

/-- The reading that a run on a text comes to. -/
def Run.reading? (run : Run (Option TokenKind)) (text : Text) : Option Reading :=
  run.value.map ((Reader.moveAll (Remainders.ofText text) run.moves).reading text)

namespace Run

variable {run : Run (Option TokenKind)} {text : Text} {kind : TokenKind}

/-- What is skipped first is trivia of what is read after it. -/
theorem reading?_precededBy_skips (gap : Text) {rest : Text}
    (ascii : ∀ move ∈ run.moves, move.SearchesAscii) :
    (run.precededBy (List.replicate gap.length .skip)).reading? (gap ++ rest)
      = (run.reading? rest).map (Reading.after gap) := by
  have led : Reader.moveAll (Remainders.ofText (gap ++ rest))
      (List.replicate gap.length Move.skip ++ run.moves)
        = Reader.moveAll (Remainders.ofText rest) run.moves := by
    rw [Remainders.moveAll_append, Remainders.ofText, Remainders.moveAll_skips]
    rfl
  have places := (Remainders.Of.ofText rest).moveAll ascii
  rw [reading?, reading?, Option.map_map]
  refine congrArg (Option.map · run.value) (funext fun kind => ?_)
  change Remainders.reading _ (Reader.moveAll _ (List.replicate gap.length Move.skip ++ _)) kind = _
  rw [led]
  exact Remainders.reading_append gap places kind

/-- A first mark does not matter where another is set. -/
theorem reading?_remarked (gap : Text) {rest : Text} (marked : .markEnd ∈ run.moves)
    (ascii : ∀ move ∈ run.moves, move.SearchesAscii) :
    (run.precededBy (.markEnd :: List.replicate gap.length .skip)).reading? (gap ++ rest)
      = (run.reading? rest).map (Reading.after gap) := by
  have same : Reader.moveAll (Remainders.ofText (gap ++ rest)).markEnd
      (List.replicate gap.length .skip ++ run.moves)
        = Reader.moveAll (Remainders.ofText (gap ++ rest))
            (List.replicate gap.length .skip ++ run.moves) :=
    Remainders.moveAll_remark (List.mem_append_right _ marked) _ _
  rw [← reading?_precededBy_skips gap ascii]
  refine congrArg (Option.map · run.value) (funext fun kind => ?_)
  exact congrArg (Remainders.reading (gap ++ rest) · kind) same

/-- Where nothing is marked after the start, the token takes nothing. -/
theorem reading?_unmarked (skips : Nat) (unmarked : .markEnd ∉ run.moves)
    (ascii : ∀ move ∈ run.moves, move.SearchesAscii) :
    (run.precededBy (.markEnd :: List.replicate skips .skip)).reading? text
      = run.value.map .nothing := by
  have later : .markEnd ∉ List.replicate skips Move.skip ++ run.moves := by
    simp [List.mem_replicate, unmarked]
  have laterAscii : ∀ move ∈ List.replicate skips Move.skip ++ run.moves, move.SearchesAscii := by
    intro move member
    rcases List.mem_append.mp member with skip | own
    · rw [List.eq_of_mem_replicate skip]
      trivial
    · exact ascii move own
  have places := (Remainders.Of.ofText text).markEnd.moveAll laterAscii
  have mark := Remainders.markRest?_moveAll later (Remainders.ofText text).markEnd
  refine congrArg (Option.map · run.value) (funext fun kind => ?_)
  exact Remainders.reading_still places mark kind

/-- The run that takes some text and marks its end. -/
def taking (kind : TokenKind) (lexeme rest : Text) : Run (Option TokenKind) :=
  ⟨some kind, List.replicate lexeme.length .advance ++ [.markEnd], [], rest⟩

theorem taking_cons (kind : TokenKind) (c : Char) (lexeme rest : Text) :
    taking kind (c :: lexeme) rest = (taking kind lexeme rest).precededBy [.advance] := rfl

theorem reading?_taking (kind : TokenKind) (lexeme rest : Text) :
    (taking kind lexeme rest).reading? (lexeme ++ rest) = some ⟨kind, [], lexeme⟩ := by
  have taken : Reader.moveAll (Remainders.ofText (lexeme ++ rest))
      (List.replicate lexeme.length Move.advance ++ [.markEnd])
        = ⟨rest, lexeme ++ rest, some rest⟩ := by
    rw [Remainders.moveAll_append, Remainders.ofText, Remainders.moveAll_advances]
    rfl
  simp only [reading?, taking, Option.map_some, taken]
  exact congrArg some (Remainders.reading_marked rest [] lexeme rest kind)

/-- What a run reports, and what it leaves, is no part of its reading. -/
theorem reading?_congr {other : Run (Option TokenKind)} (value : run.value = other.value)
    (moves : run.moves = other.moves) : run.reading? text = other.reading? text := by
  rw [reading?, reading?, value, moves]

end Run

/-- What a request reads at the start of a text. -/
def Request.reading? (kinds : KindSet) (text : Text) : Option Reading :=
  (Request.token kinds text).reading? text

theorem Request.token_moves_ascii (kinds : KindSet) (text : Text) :
    ∀ move ∈ (token kinds text).moves, move.SearchesAscii := by
  rw [← moves_scan]
  exact moves_ascii kinds text

/-- A reader of a text ends with the ranges of what the same moves read. -/
theorem Remainders.finish_eq (offset : Nat) (text : Text) {moves : List Move}
    (ascii : ∀ move ∈ moves, move.SearchesAscii) (kind : TokenKind) :
    (Reader.moveAll (TextReader.resume offset text) moves).finish
      = (((Reader.moveAll (Remainders.ofText text) moves).reading text kind).token offset).span := by
  have keeps := (Remainders.Keeps.resume offset text).moveAll ascii
  have places := (Remainders.Of.ofText text).moveAll ascii
  exact keeps.finish_eq places (places.trivia_append kind).symm (places.lexeme_append kind).symm

theorem Run.finish_eq {run : Run (Option TokenKind)} {text : Text} {reading : Reading}
    (read : run.reading? text = some reading) (ascii : ∀ move ∈ run.moves, move.SearchesAscii)
    (offset : Nat) :
    (Reader.moveAll (TextReader.resume offset text) run.moves).finish
      = (reading.token offset).span := by
  obtain ⟨kind, _, rfl⟩ := Option.map_eq_some_iff.mp read
  exact Remainders.finish_eq offset text ascii kind

/-- The token of a call is the reading of the text that it starts at. -/
theorem Token.scan?_eq_reading? (front text : Text) (kinds : KindSet) :
    Token.scan? (front ++ text) (byteSize front) kinds
      = (Request.reading? kinds text).map (Reading.token (byteSize front)) := by
  have finished := Remainders.finish_eq (byteSize front) text (Request.moves_ascii kinds text)
  rw [scan?, trace, TextReader.at?_append, Request.reading?, Run.reading?, ← Request.moves_scan,
    Option.map_map]
  change Option.map _ (Request.token kinds text).value = _
  refine congrArg (Option.map · (Request.token kinds text).value) (funext fun kind => ?_)
  exact congrArg (Token.mk kind) (finished kind)

/-- A terminator that takes nothing is inserted where the call starts. -/
theorem Token.scan?_of_nothing {text : Text} {kinds : KindSet} {kind : TokenKind} (front : Text)
    (read : Request.reading? kinds text = some (.nothing kind)) :
    let offset := byteSize front
    Token.scan? (front ++ text) offset kinds
      = some ⟨kind, ⟨⟨offset, offset⟩, ⟨offset, offset⟩⟩⟩ := by
  intro offset
  rw [Token.scan?_eq_reading?, read]
  rfl

theorem Token.scan?_of_none {text : Text} {kinds : KindSet} (front : Text)
    (read : Request.reading? kinds text = none) :
    Token.scan? (front ++ text) (byteSize front) kinds = none := by
  rw [Token.scan?_eq_reading?, read]
  rfl

/-- A call reads at its offset, if that is a place of the text. -/
theorem Token.scan?_eq (text : Text) (offset : Nat) (kinds : KindSet) :
    Token.scan? text offset kinds = if isBoundary text offset then
      (Request.reading? kinds (dropBytes text offset)).map (Reading.token offset) else none := by
  split
  · rename_i boundary
    obtain ⟨front, here, rfl, rfl⟩ := isBoundary_iff.mp boundary
    rw [Token.scan?_eq_reading?, dropBytes_byteSize_append]
  · rename_i inside
    cases produced : Token.scan? text offset kinds with
    | none => rfl
    | some token => exact absurd (Token.boundary_of_scan? produced) inside

/-- A reading is the trivia and the token that the text starts with. -/
theorem Request.split_of_reading? {text : Text} {kinds : KindSet} {reading : Reading}
    (read : reading? kinds text = some reading) :
    ∃ rest, text = reading.trivia ++ (reading.lexeme ++ rest) := by
  obtain ⟨kind, _, rfl⟩ := Option.map_eq_some_iff.mp read
  have places := (Remainders.Of.ofText text).moveAll (token_moves_ascii kinds text)
  exact ⟨_, ((congrArg (_ ++ ·) (places.lexeme_append kind)).trans
    (places.trivia_append kind)).symm⟩

/-- A call splits its text into what came before, the trivia, the token and the rest. -/
theorem Token.split_of_scan? {text : Text} {offset : Nat} {kinds : KindSet} {token : Token}
    (produced : Token.scan? text offset kinds = some token) :
    ∃ front reading rest, text = front ++ (reading.trivia ++ (reading.lexeme ++ rest)) ∧
      byteSize front = offset ∧ token = reading.token offset ∧
      Request.reading? kinds (reading.trivia ++ (reading.lexeme ++ rest)) = some reading := by
  obtain ⟨front, here, rfl, rfl⟩ := isBoundary_iff.mp (Token.boundary_of_scan? produced)
  rw [Token.scan?_eq_reading?] at produced
  obtain ⟨reading, read, rfl⟩ := Option.map_eq_some_iff.mp produced
  obtain ⟨rest, rfl⟩ := Request.split_of_reading? read
  exact ⟨front, reading, rest, rfl, rfl, rfl, read⟩

end ContextScan

import ContextScan.Host.Session
import ContextScan.Proofs.Reader.Bounds
import ContextScan.Proofs.Text.Places
import ContextScan.Token

namespace ContextScan

/-! A host and a text in memory get the same answers.

The host shows its input one lookahead value after the other and counts characters; in memory the
same input is a text whose places are byte offsets.  A reader of the text and the lexer of the host
that make the same moves stay at corresponding places, so every call of a session is answered as
the request in memory is. -/

namespace HostLexer

def visibleText (input : List Int32) : Text := input.map visible

/-- A lookahead value is seen as itself if it is a scalar value, and as NUL otherwise. -/
theorem toNat_visible (lookahead : Int32) :
    (visible lookahead).toNat =
      if 0 ≤ lookahead.toInt ∧ lookahead.toInt.toNat.isValidChar then lookahead.toInt.toNat
      else 0 := by
  have seen : visible lookahead = Char.ofNat lookahead.toInt.toNat := rfl
  rw [seen, Char.ofNat]
  by_cases negative : lookahead.toInt < 0
  · have clamped : lookahead.toInt.toNat = 0 := Int.toNat_of_nonpos (Int.le_of_lt negative)
    rw [clamped, if_neg (fun scalar => absurd scalar.1 (Int.not_le.mpr negative))]
    rfl
  · have nonnegative : 0 ≤ lookahead.toInt := Int.not_lt.mp negative
    by_cases scalar : lookahead.toInt.toNat.isValidChar
    · rw [dif_pos scalar, if_pos ⟨nonnegative, scalar⟩]
      rfl
    · rw [dif_neg scalar, if_neg (fun both => scalar both.2)]
      rfl

end HostLexer

theorem TextReader.at?_placeOf (text : Text) (index : Nat) :
    TextReader.at? text (placeOf text index)
      = some (resume (placeOf text index) (text.drop index)) := by
  have accepted := TextReader.at?_append (text.take index) (text.drop index)
  rw [List.take_append_drop] at accepted
  exact accepted

/-- A reader of a text and a lexer whose places correspond. -/
structure Corresponds (text : Text) (start : Nat) (reader : TextReader) (lexer : HostLexer) :
    Prop where
  unread : HostLexer.visibleText lexer.unread = text.drop lexer.position
  rest : reader.rest = text.drop lexer.position
  start : reader.start = placeOf text start
  position : reader.position = placeOf text lexer.position
  tokenStart : reader.tokenStart = placeOf text lexer.tokenStart
  mark? : reader.mark? = lexer.mark?.map (placeOf text)

namespace Corresponds

variable {text : Text} {start : Nat} {reader : TextReader} {lexer : HostLexer}

theorem sameText (corresponds : Corresponds text start reader lexer) :
    Reader.remaining reader = Reader.remaining lexer :=
  corresponds.rest.trans corresponds.unread.symm

theorem pass (corresponds : Corresponds text start reader lexer) :
    Corresponds text start reader.advance lexer.pass := by
  obtain ⟨rest, readerStart, readerPosition, readerToken, readerMark?⟩ := reader
  obtain ⟨unread, position, tokenStart, mark?, symbol, calls⟩ := lexer
  obtain ⟨sameUnread, sameRest, sameStart, samePosition, sameToken, sameMark⟩ := corresponds
  dsimp only at sameUnread sameRest sameStart samePosition sameToken sameMark
  cases unread with
  | nil =>
      have ended : rest = [] := sameRest.trans sameUnread.symm
      subst ended
      exact ⟨sameUnread, sameRest, sameStart, samePosition, sameToken, sameMark⟩
  | cons lookahead unread =>
      have here : text.drop position
          = HostLexer.visible lookahead :: HostLexer.visibleText unread := sameUnread.symm
      have later : text.drop (position + 1) = HostLexer.visibleText unread := by
        rw [← List.tail_drop, here]
        rfl
      rw [here] at sameRest
      subst sameRest
      refine ⟨later.symm, later.symm, sameStart, ?_, sameToken, sameMark⟩
      change readerPosition + _ = placeOf text (position + 1)
      rw [placeOf_succ here, samePosition]

theorem advance (corresponds : Corresponds text start reader lexer) :
    Corresponds text start reader.advance lexer.advance := by
  obtain ⟨unread, rest, start, position, tokenStart, mark?⟩ := corresponds.pass
  exact ⟨unread, rest, start, position, tokenStart, mark?⟩

theorem skip (corresponds : Corresponds text start reader lexer) :
    Corresponds text start reader.skip lexer.skip := by
  obtain ⟨unread, rest, start, position, tokenStart, mark?⟩ := corresponds.pass
  exact ⟨unread, rest, start, position, position, mark?⟩

theorem markEnd (corresponds : Corresponds text start reader lexer) :
    Corresponds text start reader.markEnd lexer.markEnd := by
  obtain ⟨unread, rest, start, position, tokenStart, mark?⟩ := corresponds
  exact ⟨unread, rest, start, position, tokenStart, congrArg some position⟩

theorem moveAll (corresponds : Corresponds text start reader lexer) {moves : List Move}
    (ascii : ∀ move ∈ moves, move.SearchesAscii) :
    Corresponds text start (Reader.moveAll reader moves) (Reader.moveAll lexer moves) :=
  Reader.moveAll_related (fun _ _ => sameText) (fun _ _ => advance) (fun _ _ => skip)
    (fun _ _ => markEnd) ascii corresponds

theorem finish (corresponds : Corresponds text start reader lexer) :
    reader.finish =
      ⟨⟨placeOf text start, placeOf text lexer.tokenRange.2⟩,
        ⟨placeOf text lexer.tokenRange.1, placeOf text lexer.tokenRange.2⟩⟩ := by
  have stop : reader.mark?.getD reader.position
      = placeOf text (lexer.mark?.getD lexer.position) := by
    rw [corresponds.mark?, corresponds.position, Option.getD_map]
  rw [TextReader.finish, stop, corresponds.start, corresponds.tokenStart,
    HostLexer.tokenRange, placeOf_min]

end Corresponds

namespace Session

/-- A host's flags say which kinds are requested. -/
theorem ofFlags_flagsOf (kinds : KindSet) : KindSet.ofFlags (flagsOf kinds) = kinds := by
  refine KindSet.ext_has fun kind => ?_
  have flags : (flagsOf kinds).zip TokenKind.all
      = TokenKind.all.map fun kind => (kinds.has kind, kind) :=
    List.map_prod_right_eq_zip.symm
  rw [Bool.eq_iff_iff, KindSet.ofFlags, KindSet.has_ofList, flags]
  simp [TokenKind.mem_all]

def afterAll (session : Session) (requests : List HostRequest) : Session :=
  requests.foldl (fun session request => (session.call request).2) session

theorem input_afterAll (session : Session) (requests : List HostRequest) :
    (session.afterAll requests).input = session.input := by
  induction requests generalizing session with
  | nil => rfl
  | cons request requests ih => exact ih (session.call request).2

theorem getElem?_callAll (session : Session) (earlier later : List HostRequest)
    (request : HostRequest) :
    (session.callAll (earlier ++ request :: later))[earlier.length]? =
      some ((session.afterAll earlier).call request).1 := by
  induction earlier generalizing session with
  | nil => rfl
  | cons first earlier ih => exact ih (session.call first).2

end Session

namespace HostLexer

def withSymbol (lexer : HostLexer) (symbol : UInt16) : HostLexer :=
  { lexer with resultSymbol := symbol }

theorem moveAll_withSymbol (lexer : HostLexer) (symbol : UInt16) {moves : List Move}
    (ascii : ∀ move ∈ moves, move.SearchesAscii) :
    Reader.moveAll (lexer.withSymbol symbol) moves
      = (Reader.moveAll lexer moves).withSymbol symbol := by
  have advances : ∀ lexer : HostLexer,
      (lexer.withSymbol symbol).advance = lexer.advance.withSymbol symbol := by
    intro lexer
    obtain ⟨unread, _⟩ := lexer
    cases unread <;> rfl
  have skips : ∀ lexer : HostLexer,
      (lexer.withSymbol symbol).skip = lexer.skip.withSymbol symbol := by
    intro lexer
    obtain ⟨unread, _⟩ := lexer
    cases unread <;> rfl
  exact Reader.moveAll_comm (·.withSymbol symbol) (fun _ => rfl) advances skips (fun _ => rfl) ascii
    lexer

theorem scan_withSymbol (kinds : KindSet) (lexer : HostLexer) (symbol : UInt16) :
    Reader.scan kinds (lexer.withSymbol symbol) =
      { Reader.scan kinds lexer with
        reader := (Reader.scan kinds lexer).reader.withSymbol symbol } := by
  have ascii := Request.moves_ascii kinds (Reader.remaining lexer)
  have relabelled := lexer.moveAll_withSymbol symbol ascii
  have sameText : Reader.remaining (lexer.withSymbol symbol) = Reader.remaining lexer := rfl
  rw [Reader.scan, sameText, relabelled]
  rfl

/-- The result symbol after a call that came to a kind or to none. -/
def symbolAfter (before : UInt16) (produced : Option TokenKind) : UInt16 :=
  produced.elim before fun kind => UInt16.ofNat kind.symbol

theorem hostScan_eq (lexer : HostLexer) (flags : List Bool) :
    let outcome := Reader.scan (KindSet.ofFlags flags) lexer
    hostScan (some lexer) (some flags) =
      (outcome.produced.isSome,
        some (outcome.reader.withSymbol (symbolAfter lexer.resultSymbol outcome.produced))) := by
  intro outcome
  have kept : outcome.reader = outcome.reader.withSymbol lexer.resultSymbol :=
    congrArg Reader.Outcome.reader
      (lexer.scan_withSymbol (KindSet.ofFlags flags) lexer.resultSymbol)
  cases found : (Reader.scan (KindSet.ofFlags flags) lexer).produced with
  | none =>
      simp only [hostScan, found, outcome]
      exact congrArg (fun reader => (false, some reader)) kept
  | some kind =>
      simp only [hostScan, found, outcome]
      rfl

end HostLexer

namespace Session

theorem corresponds_lexer (session : Session) :
    Corresponds (HostLexer.visibleText session.input) session.start
      (TextReader.resume (placeOf (HostLexer.visibleText session.input) session.start)
        ((HostLexer.visibleText session.input).drop session.start))
      session.lexer :=
  ⟨List.map_drop, rfl, rfl, rfl, rfl, rfl⟩

theorem call_eq (session : Session) {request : HostRequest} (supplied : request.missing? = none) :
    let outcome := Reader.scan request.kinds session.lexer
    (session.call request).1 =
      ⟨outcome.produced.isSome, HostLexer.symbolAfter session.resultSymbol outcome.produced,
        outcome.reader.log, outcome.reader.position,
        outcome.produced.map fun _ => outcome.reader.tokenRange⟩ := by
  intro outcome
  have scanned := session.lexer.hostScan_eq (flagsOf request.kinds)
  rw [ofFlags_flagsOf] at scanned
  have given : (if request.missing? = some .lexer then none else some session.lexer)
      = some session.lexer := if_neg (by simp [supplied])
  have flags : (if request.missing? = some .flags then none else some (flagsOf request.kinds))
      = some (flagsOf request.kinds) := if_neg (by simp [supplied])
  rw [call, given, flags, scanned]
  change HostAnswer.mk _ _ _ _ _ = HostAnswer.mk _ _ _ _ _
  cases (Reader.scan request.kinds session.lexer).produced <;> rfl

theorem call_withSymbol (session : Session) (request : HostRequest) (symbol : UInt16) :
    let answer := (session.call request).1
    (({ session with resultSymbol := symbol } : Session).call request).1 =
      { answer with symbol := if answer.found then answer.symbol else symbol } := by
  intro answer
  cases missing : request.missing? with
  | some absent =>
      cases absent <;> simp only [answer, call, missing] <;> rfl
  | none =>
      have relabelled := session.lexer.scan_withSymbol request.kinds symbol
      have asked := call_eq { session with resultSymbol := symbol } missing
      change _ = HostAnswer.mk _ _ _ _ _ at asked
      have lexer : ({ session with resultSymbol := symbol } : Session).lexer
        = session.lexer.withSymbol symbol := rfl
      simp only [answer, session.call_eq missing]
      rw [asked, lexer, relabelled]
      cases (Reader.scan request.kinds session.lexer).produced <;> rfl

end Session

/-- Whether what a host learns from a call is what the request in memory says.

The call started at an index, with a result symbol from before.  It left a symbol and a position,
and a range in characters if it found a token. -/
structure Agrees (input : List Int32) (start : Nat) (kinds : KindSet) (before : UInt16)
    (found : Bool) (symbol : UInt16) (position : Nat) (range? : Option (Nat × Nat)) : Prop where
  token :
    let text := HostLexer.visibleText input
    ∃ (produced : Option TokenKind) (first stop : Nat),
      Token.scan? text (placeOf text start) kinds = (produced.map fun kind =>
        ⟨kind, ⟨⟨placeOf text start, placeOf text stop⟩,
          ⟨placeOf text first, placeOf text stop⟩⟩⟩) ∧
      found = produced.isSome ∧
      symbol = HostLexer.symbolAfter before produced ∧
      range? = produced.map fun _ => (first, stop)
  position :
    let text := HostLexer.visibleText input
    ∃ reader, TextReader.at? text (placeOf text start) = some reader ∧
      (Reader.scan kinds reader).reader.position = placeOf text position

theorem Session.outcome_agrees (session : Session) (kinds : KindSet) :
    let outcome := Reader.scan kinds session.lexer
    Agrees session.input session.start kinds session.resultSymbol outcome.produced.isSome
      (HostLexer.symbolAfter session.resultSymbol outcome.produced) outcome.reader.position
      (outcome.produced.map fun _ => outcome.reader.tokenRange) := by
  intro outcome
  let text := HostLexer.visibleText session.input
  let reader := TextReader.resume (placeOf text session.start) (text.drop session.start)
  have here := session.corresponds_lexer
  have ascii := Request.moves_ascii kinds (Reader.remaining session.lexer)
  have moved : Corresponds text session.start (Reader.scan kinds reader).reader outcome.reader := by
    rw [Reader.scan, here.sameText]
    exact here.moveAll ascii
  have sameProduced : (Reader.scan kinds reader).produced = outcome.produced := by
    rw [Reader.scan, here.sameText]
    rfl
  have started := TextReader.at?_placeOf text session.start
  have inMemory : Token.scan? text (placeOf text session.start) kinds =
      outcome.produced.map fun kind => ⟨kind, (Reader.scan kinds reader).reader.finish⟩ := by
    rw [Token.scan?, Token.trace, started, ← sameProduced]
    rfl
  rw [moved.finish] at inMemory
  exact ⟨⟨outcome.produced, _, _, inMemory, rfl, rfl, rfl⟩, reader, started, moved.position⟩

/-- Host and memory agree.

A lookahead value that is no scalar value is seen as NUL.  A call is what the lexer's own callbacks
drive it to, and it agrees with the request in memory.  So does every call among others on one
lexer, and of what the calls before it did nothing but its start matters, and the result symbol if
it leaves that. -/
theorem host_agrees_with_memory (input : List Int32) :
    (∀ lookahead : Int32, (HostLexer.visible lookahead).toNat =
      if 0 ≤ lookahead.toInt ∧ lookahead.toInt.toNat.isValidChar then lookahead.toInt.toNat
      else 0) ∧
    (∀ (kinds : KindSet) (start : Nat) (symbol : UInt16),
      let lexer := Session.lexer ⟨input, start, symbol⟩
      ∃ produced moved after,
        Reader.Drives (Request.scan kinds) lexer produced moved ∧
        after = moved.withSymbol (HostLexer.symbolAfter symbol produced) ∧
        hostScan (some lexer) (some (Session.flagsOf kinds)) = (produced.isSome, some after) ∧
        Agrees input start kinds symbol produced.isSome after.resultSymbol after.position
          (produced.map fun _ => after.tokenRange)) ∧
    (∀ (first : Nat) (symbol : UInt16) (earlier later : List HostRequest) (request : HostRequest),
      let session : Session := ⟨input, first, symbol⟩
      let reached := session.afterAll earlier
      ∃ answer, (session.callAll (earlier ++ request :: later))[earlier.length]? = some answer ∧
        (request.missing? = none → Agrees input reached.start request.kinds reached.resultSymbol
          answer.found answer.symbol answer.position answer.token?) ∧
        ∀ other : UInt16, (Session.call ⟨input, reached.start, other⟩ request).1 =
          { answer with symbol := if answer.found then answer.symbol else other }) := by
  refine ⟨HostLexer.toNat_visible, ?_, ?_⟩
  · intro kinds start symbol lexer
    have scanned := lexer.hostScan_eq (Session.flagsOf kinds)
    rw [Session.ofFlags_flagsOf] at scanned
    exact ⟨_, _, _, Reader.drives_iff.mpr ⟨rfl, rfl⟩, rfl, scanned,
      Session.outcome_agrees ⟨input, start, symbol⟩ kinds⟩
  · intro first symbol earlier later request session reached
    have sameInput : reached.input = input := session.input_afterAll earlier
    refine ⟨_, session.getElem?_callAll earlier later request, ?_, ?_⟩
    · intro supplied
      have agrees := reached.outcome_agrees request.kinds
      rw [sameInput] at agrees
      rw [Session.call_eq _ supplied]
      exact agrees
    · intro other
      have relabelled := reached.call_withSymbol request other
      rw [sameInput] at relabelled
      exact relabelled

/-- The second call of a session, on an input with a value that is no character. -/
theorem host_agrees_second_call :
    let input : List Int32 := [-1, 10, 59]
    let first : HostRequest := ⟨KindSet.empty, none, false⟩
    let second : HostRequest := ⟨KindSet.ofList [.memberSemi], none, false⟩
    second.missing? = none ∧
      ∃ answer, (Session.callAll ⟨input, 0, 65535⟩ [first, second])[1]? = some answer ∧
        Agrees input 1 second.kinds 65535 answer.found answer.symbol answer.position
          answer.token? := by
  intro input first second
  have supplied : second.missing? = none := rfl
  let reached := Session.afterAll ⟨input, 0, 65535⟩ [first]
  have start : reached.start = 1 := by decide
  have symbol : reached.resultSymbol = 65535 := by decide +kernel
  obtain ⟨answer, listed, agrees, _⟩ :=
    (host_agrees_with_memory input).2.2 0 65535 [first] [] second
  have agreed : Agrees input reached.start second.kinds reached.resultSymbol answer.found
      answer.symbol answer.position answer.token? := agrees supplied
  rw [start, symbol] at agreed
  exact ⟨supplied, answer, listed, agreed⟩

end ContextScan

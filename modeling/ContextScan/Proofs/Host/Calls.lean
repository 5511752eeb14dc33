import ContextScan.Proofs.Host.Agreement
import ContextScan.Proofs.Stepwise.Spending

namespace ContextScan

/-! How many calls a scan makes on its host.

The moves of a scan reach a host as calls, a search as one call for each character that it passes.
So the calls that pass characters are as many as the characters passed, apart from those made where
the input has ended, and a scan makes at most one of these. -/

/-- Whether a call is made to pass a character. -/
def HostCall.passes : HostCall → Bool
  | .advance | .skip => true
  | .markEnd => false

/-- How many of some calls are made to pass a character where none is left, given how many are left
before the first of them. -/
def idleCalls : Nat → List HostCall → Nat
  | _, [] => 0
  | unread, call :: later =>
      if call.passes then (if unread = 0 then 1 else 0) + idleCalls (unread - 1) later
      else idleCalls unread later

theorem idleCalls_eq (unread : Nat) (calls : List HostCall) :
    idleCalls unread calls = calls.countP HostCall.passes - unread := by
  induction calls generalizing unread with
  | nil => exact (Nat.zero_sub unread).symm
  | cons call later ih =>
      rw [idleCalls, List.countP_cons, ih, ih]
      cases call.passes with
      | false => simp
      | true =>
          simp only [if_true]
          split <;> omega

theorem length_eq_countP_passes_add (calls : List HostCall) :
    calls.length = calls.countP HostCall.passes + calls.count .markEnd := by
  induction calls with
  | nil => rfl
  | cons call later ih =>
      rw [List.length_cons, List.countP_cons, List.count_cons, ih]
      cases call with
      | advance | skip => exact Nat.add_right_comm ..
      | markEnd => rfl

/-- The calls by which a host is moved. -/
def Move.calls : Move → Text → List HostCall
  | .advance, _ => [.advance]
  | .skip, _ => [.skip]
  | .markEnd, _ => [.markEnd]
  | .advanceUntil left right, text =>
      List.replicate (text.takeWhile fun c => c != left && c != right).length .advance

def callsOf : List Move → Text → List HostCall
  | [], _ => []
  | move :: moves, text => move.calls text ++ callsOf moves (move.leave text)

theorem Move.count_markEnd_calls (move : Move) (text : Text) :
    (move.calls text).count .markEnd = [move].count .markEnd := by
  cases move with
  | advance | skip | markEnd => rfl
  | advanceUntil left right => simp [calls, List.count_replicate]

theorem count_markEnd_callsOf (moves : List Move) (text : Text) :
    (callsOf moves text).count .markEnd = moves.count .markEnd := by
  induction moves generalizing text with
  | nil => rfl
  | cons move moves ih =>
      rw [callsOf, List.count_append, ih, move.count_markEnd_calls, ← List.count_append]
      rfl

/-- A move passes a character for each of its calls, but for one made where the text has ended. -/
theorem Move.length_leave (move : Move) (text : Text) :
    (move.calls text).countP HostCall.passes + (move.leave text).length
      = text.length + (move.isIdle text).toNat := by
  cases move with
  | advance | skip => cases text <;> simp [calls, HostCall.passes, leave, isIdle, Nat.add_comm]
  | markEnd => simp [calls, HostCall.passes, leave, isIdle]
  | advanceUntil left right =>
      have split := congrArg List.length
        (List.takeWhile_append_dropWhile (p := fun c => c != left && c != right) (l := text))
      rw [List.length_append] at split
      simpa [calls, List.countP_replicate, HostCall.passes, leave, isIdle] using split

theorem length_leaveAll (moves : List Move) (text : Text) :
    (callsOf moves text).countP HostCall.passes + (leaveAll moves text).length
      = text.length + idleMoves moves text := by
  induction moves generalizing text with
  | nil => exact Nat.zero_add _
  | cons move moves ih =>
      have here := move.length_leave text
      have later := ih (move.leave text)
      rw [callsOf, List.countP_append, leaveAll_cons, idleMoves]
      omega

theorem leaveAll_of_ended (moves : List Move) : leaveAll moves [] = [] := by
  induction moves with
  | nil => rfl
  | cons move moves ih =>
      have ended : move.leave [] = [] := by cases move <;> rfl
      rw [leaveAll_cons, ended]
      exact ih

/-- Idle moves are made only where nothing is left. -/
theorem leaveAll_of_idle {moves : List Move} {text : Text} (idle : idleMoves moves text ≠ 0) :
    leaveAll moves text = [] := by
  induction moves generalizing text with
  | nil => exact absurd rfl idle
  | cons move moves ih =>
      cases text with
      | nil => exact leaveAll_of_ended (move :: moves)
      | cons c rest =>
          have active : move.isIdle (c :: rest) = false := by cases move <;> rfl
          rw [idleMoves, active, Bool.toNat_false, Nat.zero_add] at idle
          exact ih idle

namespace HostLexer

theorem calls_repeat_advance (steps : Nat) (lexer : HostLexer) :
    (steps.repeat advance lexer).calls = List.replicate steps .advance ++ lexer.calls := by
  induction steps with
  | zero => rfl
  | succ steps ih =>
      have added : (steps.repeat advance lexer).advance.calls
          = .advance :: (steps.repeat advance lexer).calls := by
        rw [advance, pass]
        cases (steps.repeat advance lexer).unread <;> rfl
      rw [Nat.repeat, added, ih]
      rfl

theorem calls_move (lexer : HostLexer) (move : Move) :
    (Reader.move lexer move).calls
      = (move.calls (Reader.remaining lexer)).reverse ++ lexer.calls := by
  cases move with
  | advance | skip =>
      obtain ⟨unread, _⟩ := lexer
      cases unread <;> rfl
  | markEnd => rfl
  | advanceUntil left right =>
      have steps := calls_repeat_advance
        ((Reader.remaining lexer).takeWhile fun c => c != left && c != right).length lexer
      rw [Move.calls, List.reverse_replicate]
      exact steps

theorem calls_moveAll (lexer : HostLexer) {moves : List Move}
    (ascii : ∀ move ∈ moves, move.SearchesAscii) :
    (Reader.moveAll lexer moves).calls
      = (callsOf moves (Reader.remaining lexer)).reverse ++ lexer.calls := by
  induction moves generalizing lexer with
  | nil => rfl
  | cons move moves ih =>
      have later := ih (Reader.move lexer move) fun later member =>
        ascii later (List.mem_cons_of_mem move member)
      have left := Reader.remaining_move (ascii move List.mem_cons_self) lexer
      rw [callsOf, List.reverse_append, List.append_assoc, ← calls_move, ← left]
      exact later

/-- What a host counts as passed is no longer unread. -/
theorem position_moveAll (lexer : HostLexer) {moves : List Move}
    (ascii : ∀ move ∈ moves, move.SearchesAscii) :
    (Reader.moveAll lexer moves).position
        + (leaveAll moves (Reader.remaining lexer)).length
      = lexer.position + lexer.unread.length := by
  have passes : ∀ after : HostLexer,
      after.position + after.unread.length = lexer.position + lexer.unread.length →
      after.pass.position + after.pass.unread.length
        = lexer.position + lexer.unread.length := by
    intro after same
    obtain ⟨unread, position, tokenStart, mark?, symbol, calls⟩ := after
    cases unread with
    | nil => exact same
    | cons lookahead unread =>
        simp only [pass, List.length_cons] at same ⊢
        omega
  have kept : (Reader.moveAll lexer moves).position + (Reader.moveAll lexer moves).unread.length
      = lexer.position + lexer.unread.length :=
    Reader.moveAll_preserves passes passes (fun _ same => same) ascii rfl
  have left := congrArg List.length (Reader.remaining_moveAll ascii lexer)
  rw [← left]
  change _ + ((Reader.moveAll lexer moves).unread.map visible).length = _
  rw [List.length_map]
  exact kept

end HostLexer

/-- What the moves of a scan are spent on. -/
theorem Request.spends_scan (kinds : KindSet) (text : Text) :
    let moves := (scan kinds text).moves
    moves.count .markEnd + (leaveAll moves text).length ≤ text.length + 1 ∧
    (idleMoves moves text = 0 ∨ idleMoves moves text = 1 ∧ kinds.has .setter = true ∧
      ∃ before after, text = before ++ ("set(".toList ++ after) ∧ HasLineBreak before ∧
        ')' ∉ after) := by
  intro moves
  obtain ⟨start, run, marked, same, spent⟩ := exists_spends_token kinds text
  have split : moves = start ++ run.moves :=
    (moves_scan kinds text).trans (congrArg Run.moves same)
  have still : idleMoves start text = 0 ∧ leaveAll start text = text ∧ start.count .markEnd ≤ 1 := by
    rcases marked with rfl | rfl <;> exact ⟨rfl, rfl, by decide⟩
  obtain ⟨active, stays, once⟩ := still
  rw [split, idleMoves_append, active, stays, Nat.zero_add, leaveAll_append, stays,
    List.count_append]
  have marks {idle : Nat} (spends : run.Spends text idle) :
      start.count .markEnd + run.moves.count .markEnd + (leaveAll run.moves text).length
        ≤ text.length + 1 := by
    have bound := spends.marks
    rw [spends.leads]
    omega
  rcases spent with spends | ⟨spends, overruns⟩
  · exact ⟨marks spends, Or.inl spends.idle⟩
  · exact ⟨marks spends, Or.inr ⟨spends.idle, overruns⟩⟩

/-- A scan comes to its end along the calls of its host.

The calls that pass characters are as many as the characters passed and at most one more, which is
made at the end of the input and only where setters are requested and nothing closes the parameter
after a `set` on a new line.  Marks are at most one more than those calls. -/
theorem calls_linear (lexer : HostLexer) (kinds : KindSet) :
    let outcome := Reader.scan kinds lexer
    Reader.Drives (Request.scan kinds) lexer outcome.produced outcome.reader ∧
    ∃ made : List HostCall, outcome.reader.calls = made.reverse ++ lexer.calls ∧
      let passing := made.countP HostCall.passes
      let idle := idleCalls lexer.unread.length made
      lexer.position ≤ outcome.reader.position ∧
      passing = outcome.reader.position - lexer.position + idle ∧
      idle ≤ 1 ∧
      (idle = 1 → kinds.has .setter = true ∧
        ∃ before after, HostLexer.visibleText lexer.unread = before ++ ("set(".toList ++ after) ∧
          HasLineBreak before ∧ ')' ∉ after) ∧
      made.count .markEnd ≤ passing + 1 ∧
      made.length ≤ 2 * (lexer.unread.length + 1) + 1 := by
  intro outcome
  refine ⟨Reader.drives_iff.mpr ⟨rfl, rfl⟩, ?_⟩
  let text := HostLexer.visibleText lexer.unread
  let moves := (Request.scan kinds text).moves
  have sized : text.length = lexer.unread.length := List.length_map _
  have ascii : ∀ move ∈ moves, move.SearchesAscii := Request.moves_ascii kinds text
  have logged : outcome.reader.calls = (callsOf moves text).reverse ++ lexer.calls :=
    lexer.calls_moveAll ascii
  have reached : outcome.reader.position + (leaveAll moves text).length
      = lexer.position + lexer.unread.length := lexer.position_moveAll ascii
  have passed := length_leaveAll moves text
  have shorter : (leaveAll moves text).length ≤ text.length := by
    obtain ⟨window, split, _⟩ := leaveAll_windowed moves text
    have sizes := congrArg List.length split
    rw [List.length_append] at sizes
    omega
  have idle := idleCalls_eq lexer.unread.length (callsOf moves text)
  have marked := count_markEnd_callsOf moves text
  have sorts := length_eq_countP_passes_add (callsOf moves text)
  obtain ⟨spent, active⟩ := Request.spends_scan kinds text
  change moves.count .markEnd + (leaveAll moves text).length ≤ text.length + 1 at spent
  refine ⟨callsOf moves text, logged, ?_⟩
  rcases active with none | ⟨once, overruns⟩
  · change idleMoves moves text = 0 at none
    exact ⟨by omega, by omega, by omega, fun one => by omega, by omega, by omega⟩
  · change idleMoves moves text = 1 at once
    have ended : leaveAll moves text = [] :=
      leaveAll_of_idle (Nat.ne_of_gt (once ▸ Nat.one_pos))
    rw [ended, List.length_nil] at reached passed spent
    exact ⟨by omega, by omega, by omega, fun _ => overruns, by omega, by omega⟩

/-- Seven characters, and one skip more where the input has ended. -/
example : (Reader.scan (.ofList [.semi, .setter])
    (Session.ofInput ("\n set(v".toList.map fun c => Int32.ofNat c.toNat)).lexer).reader.log
      = "MSSSSSSSS" := by
  decide +kernel

end ContextScan

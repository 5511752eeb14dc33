import ContextScan.Host.Lexer
import ContextScan.Proofs.Stepwise.Resolvers
import ContextScan.Proofs.Text.Encoding
import ContextScan.Proofs.Text.Places
import ContextScan.Reader.TextReader

namespace ContextScan

/-! Readers that move as a scan expects.

A lawful reader passes one character at a time, and its search for two ASCII characters ends in the
state to which single advances lead.  What single moves keep is then kept by whole calls, and a scan
may as well be read along the reader, one look and one move at a time: `Drives` does so, and
`drives_iff` says that it comes to what `Reader.scan` gives. -/

def Move.SearchesAscii : Move → Prop
  | .advanceUntil left right => isAscii left ∧ isAscii right
  | _ => True

class LawfulReader (ρ : Type) [Reader ρ] : Prop where
  remaining_advance (reader : ρ) :
    Reader.remaining (Reader.advance reader) = (Reader.remaining reader).tail
  remaining_skip (reader : ρ) :
    Reader.remaining (Reader.skip reader) = (Reader.remaining reader).tail
  remaining_markEnd (reader : ρ) :
    Reader.remaining (Reader.markEnd reader) = Reader.remaining reader
  advanceUntil_eq {left right : Char} (leftAscii : isAscii left) (rightAscii : isAscii right)
    (reader : ρ) : Reader.advanceUntil left right reader
      = advanceStepwise Reader.remaining Reader.advance left right reader

theorem Request.stepwise_ascii (kinds : KindSet) (text : Text) :
    Scan.Stepwise Move.SearchesAscii (Request.scan kinds) text := by
  have searches : Move.SearchesAscii (.advanceUntil '$' '"') := by
    constructor <;> (unfold isAscii; decide)
  exact Request.stepwise_scan trivial trivial trivial searches kinds

theorem Request.moves_ascii (kinds : KindSet) (text : Text) :
    ∀ move ∈ (Request.scan kinds text).moves, move.SearchesAscii :=
  (Request.stepwise_ascii kinds text).moves_allowed

namespace Reader

variable {ρ : Type} [Reader ρ] [LawfulReader ρ]

theorem remaining_repeat_advance (steps : Nat) (reader : ρ) :
    remaining (steps.repeat advance reader) = (remaining reader).drop steps := by
  induction steps with
  | zero => rfl
  | succ steps ih =>
      rw [Nat.repeat, LawfulReader.remaining_advance, ih, List.tail_drop]

theorem remaining_move {move : Move} (ascii : move.SearchesAscii) (reader : ρ) :
    remaining (Reader.move reader move) = move.leave (remaining reader) := by
  cases move with
  | advance => exact LawfulReader.remaining_advance reader
  | skip => exact LawfulReader.remaining_skip reader
  | markEnd => exact LawfulReader.remaining_markEnd reader
  | advanceUntil left right =>
      have split := List.takeWhile_append_dropWhile (p := fun c => c != left && c != right)
        (l := remaining reader)
      change remaining (advanceUntil left right reader).2 = _
      rw [LawfulReader.advanceUntil_eq ascii.1 ascii.2, advanceStepwise, remaining_repeat_advance]
      conv => lhs; arg 2; rw [← split]
      exact List.drop_left

theorem remaining_moveAll {moves : List Move} (ascii : ∀ move ∈ moves, move.SearchesAscii)
    (reader : ρ) : remaining (moveAll reader moves) = leaveAll moves (remaining reader) := by
  induction moves generalizing reader with
  | nil => rfl
  | cons move moves ih =>
      have here := remaining_move (ascii move List.mem_cons_self) reader
      rw [leaveAll_cons, ← here]
      exact ih (fun later member => ascii later (List.mem_cons_of_mem move member)) _

/-- What every single move keeps holds after any moves. -/
theorem moveAll_preserves {Holds : ρ → Prop}
    (advances : ∀ reader, Holds reader → Holds (advance reader))
    (skips : ∀ reader, Holds reader → Holds (skip reader))
    (marks : ∀ reader, Holds reader → Holds (markEnd reader))
    {moves : List Move} (ascii : ∀ move ∈ moves, move.SearchesAscii) {reader : ρ}
    (holds : Holds reader) : Holds (moveAll reader moves) := by
  induction moves generalizing reader with
  | nil => exact holds
  | cons move moves ih =>
      refine ih (fun later member => ascii later (List.mem_cons_of_mem move member)) ?_
      cases move with
      | advance => exact advances reader holds
      | skip => exact skips reader holds
      | markEnd => exact marks reader holds
      | advanceUntil left right =>
          have needles := ascii _ List.mem_cons_self
          change Holds (advanceUntil left right reader).2
          rw [LawfulReader.advanceUntil_eq needles.1 needles.2, advanceStepwise]
          induction List.length _ with
          | zero => exact holds
          | succ steps stepsIH => exact advances _ stepsIH

/-- A relation between two readers of one text that every single move keeps holds after any
moves. -/
theorem moveAll_related {σ : Type} [Reader σ] [LawfulReader σ] {Related : ρ → σ → Prop}
    (sameText : ∀ left right, Related left right → remaining left = remaining right)
    (advances : ∀ left right, Related left right → Related (advance left) (advance right))
    (skips : ∀ left right, Related left right → Related (skip left) (skip right))
    (marks : ∀ left right, Related left right → Related (markEnd left) (markEnd right))
    {moves : List Move} (ascii : ∀ move ∈ moves, move.SearchesAscii) {left : ρ} {right : σ}
    (related : Related left right) : Related (moveAll left moves) (moveAll right moves) := by
  induction moves generalizing left right with
  | nil => exact related
  | cons move moves ih =>
      refine ih (fun later member => ascii later (List.mem_cons_of_mem move member)) ?_
      cases move with
      | advance => exact advances left right related
      | skip => exact skips left right related
      | markEnd => exact marks left right related
      | advanceUntil first second =>
          have needles := ascii _ List.mem_cons_self
          change Related (advanceUntil first second left).2 (advanceUntil first second right).2
          rw [LawfulReader.advanceUntil_eq needles.1 needles.2,
            LawfulReader.advanceUntil_eq needles.1 needles.2, advanceStepwise, advanceStepwise,
            sameText left right related]
          induction List.length _ with
          | zero => exact related
          | succ steps stepsIH => exact advances _ _ stepsIH

/-- A change of a reader that every single move carries along is carried along by any moves. -/
theorem moveAll_comm (change : ρ → ρ)
    (sameText : ∀ reader, remaining (change reader) = remaining reader)
    (advances : ∀ reader, advance (change reader) = change (advance reader))
    (skips : ∀ reader, skip (change reader) = change (skip reader))
    (marks : ∀ reader, markEnd (change reader) = change (markEnd reader))
    {moves : List Move} (ascii : ∀ move ∈ moves, move.SearchesAscii) (reader : ρ) :
    moveAll (change reader) moves = change (moveAll reader moves) := by
  let Changed (left right : ρ) : Prop := left = change right
  have sameTexts : ∀ left right, Changed left right → remaining left = remaining right := by
    intro left right changed
    subst changed
    exact sameText right
  have advancesBoth : ∀ left right, Changed left right →
      Changed (advance left) (advance right) := by
    intro left right changed
    subst changed
    exact advances right
  have skipsBoth : ∀ left right, Changed left right → Changed (skip left) (skip right) := by
    intro left right changed
    subst changed
    exact skips right
  have marksBoth : ∀ left right, Changed left right →
      Changed (markEnd left) (markEnd right) := by
    intro left right changed
    subst changed
    exact marks right
  have start : Changed (change reader) reader := rfl
  exact moveAll_related sameTexts advancesBoth skipsBoth marksBoth ascii start

/-- A scan read along a reader: each look is at the reader as it stands, and each move is made at
once. -/
inductive Drives : {α : Type} → Scan α → ρ → α → ρ → Prop where
  | pure {α : Type} (value : α) (reader : ρ) : Drives (pure value) reader value reader
  | peek (reader : ρ) : Drives Scan.peek reader (peek reader) reader
  | atEnd (reader : ρ) : Drives Scan.atEnd reader (atEnd reader) reader
  | note (event : Event) (reader : ρ) : Drives (Scan.note event) reader () reader
  | ofMove {move : Move} (ascii : move.SearchesAscii) (reader : ρ) :
      Drives (Scan.ofMove move) reader () (Reader.move reader move)
  | bind {α β : Type} {first : Scan α} {next : α → Scan β} {before middle after : ρ} {value : α}
      {result : β} (earlier : Drives first before value middle)
      (later : Drives (next value) middle result after) :
      Drives (first >>= next) before result after

theorem drives_of_stepwise {α : Type} {scan : Scan α} {text : Text}
    (stepwise : scan.Stepwise Move.SearchesAscii text) {reader : ρ}
    (here : remaining reader = text) :
    Drives scan reader (scan text).value (moveAll reader (scan text).moves) := by
  induction stepwise generalizing reader with
  | pure value => exact .pure value reader
  | peek => rw [← here]; exact .peek reader
  | atEnd => rw [← here]; exact .atEnd reader
  | note event => exact .note event reader
  | ofMove ascii => exact .ofMove ascii reader
  | @bind _ _ text first next before after beforeIH afterIH =>
      have arrived : remaining (moveAll reader (first text).moves) = (first text).rest := by
        rw [remaining_moveAll before.moves_allowed, here]
        exact before.leadsToRest
      have all : moveAll reader ((first >>= next) text).moves
          = moveAll (moveAll reader (first text).moves)
              (next (first text).value (first text).rest).moves := List.foldl_append
      rw [all]
      exact .bind (beforeIH here) (afterIH arrived)

theorem eq_of_drives {α : Type} {scan : Scan α} {reader after : ρ} {value : α}
    (drives : Drives scan reader value after) :
    value = (scan (remaining reader)).value ∧
      after = moveAll reader (scan (remaining reader)).moves ∧
      remaining after = (scan (remaining reader)).rest := by
  induction drives with
  | pure | peek | atEnd | note => exact ⟨rfl, rfl, rfl⟩
  | ofMove ascii reader => exact ⟨rfl, rfl, remaining_move ascii reader⟩
  | bind earlier later earlierIH laterIH =>
      obtain ⟨sameValue, sameReader, sameText⟩ := earlierIH
      rw [sameText, sameValue] at laterIH
      obtain ⟨laterValue, laterReader, laterText⟩ := laterIH
      refine ⟨laterValue, ?_, laterText⟩
      rw [laterReader, sameReader]
      exact List.foldl_append.symm

/-- Read along a reader, a request comes to the outcome of the call and to nothing else. -/
theorem drives_iff {kinds : KindSet} {reader after : ρ} {produced : Option TokenKind} :
    Drives (Request.scan kinds) reader produced after ↔
      produced = (scan kinds reader).produced ∧ after = (scan kinds reader).reader := by
  constructor
  · intro drives
    obtain ⟨sameValue, sameReader, _⟩ := eq_of_drives drives
    exact ⟨sameValue, sameReader⟩
  · intro both
    obtain ⟨rfl, rfl⟩ := both
    exact drives_of_stepwise (Request.stepwise_ascii kinds _) rfl

end Reader

instance : LawfulReader HostLexer where
  remaining_advance lexer := by
    obtain ⟨unread, _⟩ := lexer
    cases unread <;> rfl
  remaining_skip lexer := by
    obtain ⟨unread, _⟩ := lexer
    cases unread <;> rfl
  remaining_markEnd _ := rfl
  advanceUntil_eq _ _ _ := rfl

namespace TextReader

theorem repeat_advance (steps : Nat) (reader : TextReader) :
    steps.repeat advance reader =
      { reader with
        rest := reader.rest.drop steps
        position := reader.position + byteSize (reader.rest.take steps) } := by
  induction steps with
  | zero => rfl
  | succ steps ih =>
      rw [Nat.repeat, ih, advance]
      cases left : reader.rest.drop steps with
      | nil =>
          have whole := List.drop_eq_nil_iff.mp left
          rw [List.drop_eq_nil_of_le (Nat.le_succ_of_le whole), List.take_of_length_le whole,
            List.take_of_length_le (Nat.le_succ_of_le whole)]
      | cons c rest =>
          have next : reader.rest.take (steps + 1) = reader.rest.take steps ++ [c] := by
            rw [List.take_add, left]
            rfl
          have later : reader.rest.drop (steps + 1) = rest := by rw [← List.tail_drop, left]; rfl
          simp [next, later, byteSize, Nat.add_assoc]

theorem advanceUntil_eq_stepwise {left right : Char} (leftAscii : isAscii left)
    (rightAscii : isAscii right) (reader : TextReader) :
    advanceUntil left right reader = advanceStepwise rest advance left right reader := by
  rw [advanceUntil, byteIndex_eq_byteSize_takeWhile leftAscii rightAscii, advanceStepwise,
    repeat_advance]
  have split := List.takeWhile_append_dropWhile (p := fun c => c != left && c != right)
    (l := reader.rest)
  generalize reader.rest.takeWhile (fun c => c != left && c != right) = passed at split ⊢
  have found : 0 < byteSize passed ↔ 0 < passed.length := by
    rw [byteSize_pos_iff, List.length_pos_iff]
  rw [← split, dropBytes_byteSize_append, List.drop_left, List.take_left,
    decide_eq_decide.mpr found]

end TextReader

instance : LawfulReader TextReader where
  remaining_advance reader := by
    obtain ⟨rest, _⟩ := reader
    cases rest <;> rfl
  remaining_skip reader := by
    obtain ⟨rest, _⟩ := reader
    cases rest <;> rfl
  remaining_markEnd _ := rfl
  advanceUntil_eq := TextReader.advanceUntil_eq_stepwise

end ContextScan

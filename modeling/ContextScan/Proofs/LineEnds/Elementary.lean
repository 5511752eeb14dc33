import ContextScan.Proofs.Reader.Remainders
import ContextScan.Proofs.Statement.Gap
import ContextScan.Proofs.Text.Returns

namespace ContextScan

/-! Scanning a text with and without its carriage returns.

Two runs of one scan are compared: on a text, and on the text without its carriage returns.  They
are alike if they come to the same value and if every place that their moves keep is the same place,
as what is left there tells.  The first run may make more moves, since it passes carriage returns.

Alikeness survives sequencing, so it is shown of the elementary scans; where a scan looks at the
next character, it must not tell a carriage return from a line feed. -/

namespace Remainders

def withoutReturns (left : Remainders) : Remainders :=
  ⟨ContextScan.withoutReturns left.rest, ContextScan.withoutReturns left.tokenRest,
    left.markRest?.map ContextScan.withoutReturns⟩

end Remainders

structure Run.Alike {α : Type} (text : Text) (run plain : Run α) : Prop where
  value : plain.value = run.value
  rest : plain.rest = withoutReturns run.rest
  paired : Paired run.rest
  leads : ∀ left : Remainders, left.rest = text → (Reader.moveAll left run.moves).rest = run.rest
  places : ∀ left : Remainders, left.rest = text →
    Reader.moveAll left.withoutReturns plain.moves = (Reader.moveAll left run.moves).withoutReturns

/-- Whether a scan runs alike on a text and on the text without its carriage returns. -/
def Scan.Alike {α : Type} (scan : Scan α) (text : Text) : Prop :=
  Paired text → (scan text).Alike text (scan (withoutReturns text))

theorem ne_return_of_next {text : Text} {c : Char} (next : (text.headD '\x00' == c) = true)
    (other : c ≠ '\r') : text.headD '\x00' ≠ '\r' := by
  rw [eq_of_beq next]
  exact other

/-- What stands after a run of a class is not in the class. -/
theorem headD_dropWhile_ne {accepts : Char → Bool} {c : Char} (accepted : accepts c = true)
    (visible : c ≠ '\x00') {text : Text} : (text.dropWhile accepts).headD '\x00' ≠ c := by
  intro next
  have head := head?_of_headD_beq (beq_iff_eq.mpr next) visible
  have stopped := List.head?_dropWhile_not accepts text
  rw [head] at stopped
  simp [accepted] at stopped

namespace Scan.Alike

variable {α β : Type} {text : Text}

theorem bind {first : Scan α} {next : α → Scan β} (before : Alike first text)
    (after : Alike (next (first text).value) (first text).rest) : Alike (first >>= next) text := by
  intro paired
  have early := before paired
  have late := after early.paired
  have plain : next (first (withoutReturns text)).value (first (withoutReturns text)).rest
      = next (first text).value (withoutReturns (first text).rest) := by
    rw [early.value, early.rest]
  constructor
  · rw [bind_apply, bind_apply, plain]
    exact late.value
  · rw [bind_apply, bind_apply, plain]
    exact late.rest
  · exact late.paired
  · intro left here
    rw [bind_apply, Remainders.moveAll_append]
    exact late.leads _ (early.leads left here)
  · intro left here
    rw [bind_apply, bind_apply, plain, Remainders.moveAll_append, Remainders.moveAll_append,
      early.places left here]
    exact late.places _ (early.leads left here)

theorem ite {condition : Prop} [Decidable condition] {positive negative : Scan α}
    (whenTrue : condition → Alike positive text) (whenFalse : ¬condition → Alike negative text) :
    Alike (if condition then positive else negative) text := by
  split
  · exact whenTrue ‹_›
  · exact whenFalse ‹_›

theorem pure (value : α) : Alike (pure value) text := fun paired =>
  ⟨rfl, rfl, paired, fun _ here => here, fun _ _ => rfl⟩

theorem note (event : Event) : Alike (note event) text := fun paired =>
  ⟨rfl, rfl, paired, fun _ here => here, fun _ _ => rfl⟩

theorem atEnd : Alike atEnd text := fun paired =>
  ⟨paired.isEmpty_withoutReturns, rfl, paired, fun _ here => here, fun _ _ => rfl⟩

theorem markEnd : Alike markEnd text := fun paired =>
  ⟨rfl, rfl, paired, fun _ here => here, fun _ _ => rfl⟩

/-- A look at the next character that does not tell a carriage return from a line feed. -/
theorem peek {next : Char → Scan β} (same : next '\r' = next '\n')
    (after : Alike (next (text.headD '\x00')) text) : Alike (peek >>= next) text := by
  intro paired
  have plain : (Scan.peek >>= next) (withoutReturns text)
      = next (text.headD '\x00') (withoutReturns text) :=
    congrFun (paired.next_withoutReturns same) (withoutReturns text)
  rw [plain]
  exact after paired

/-- A look at a next character that is no carriage return. -/
theorem peekOther {next : Char → Scan β} (other : text.headD '\x00' ≠ '\r')
    (after : Alike (next (text.headD '\x00')) text) : Alike (Scan.peek >>= next) text := by
  have same : (withoutReturns text).headD '\x00' = text.headD '\x00' := by
    cases text with
    | nil => rfl
    | cons c rest =>
        have visible : c ≠ '\r' := other
        rw [withoutReturns_cons visible]
        rfl
  intro paired
  have plain : (Scan.peek >>= next) (withoutReturns text)
      = next (text.headD '\x00') (withoutReturns text) :=
    congrArg (fun c => next c (withoutReturns text)) same
  rw [plain]
  exact after paired

theorem advance (other : text.headD '\x00' ≠ '\r') : Alike advance text := by
  intro paired
  refine ⟨rfl, tail_withoutReturns other, paired.tail, ?_, ?_⟩
  · rintro left rfl
    rfl
  · rintro ⟨rest, tokenRest, markRest?⟩ rfl
    exact congrArg (Remainders.mk · _ _) (tail_withoutReturns other)

theorem skip (other : text.headD '\x00' ≠ '\r') : Alike skip text := by
  intro paired
  refine ⟨rfl, tail_withoutReturns other, paired.tail, ?_, ?_⟩
  · rintro left rfl
    rfl
  · rintro ⟨rest, tokenRest, markRest?⟩ rfl
    exact congrArg (fun rest => Remainders.mk rest rest _) (tail_withoutReturns other)

theorem congr {scan other : Scan α} (same : scan text = other text)
    (plain : scan (withoutReturns text) = other (withoutReturns text))
    (alike : Alike other text) : Alike scan text := by
  intro paired
  rw [same, plain]
  exact alike paired

theorem assoc {γ : Type} {first : Scan α} {second : α → Scan β} {third : β → Scan γ}
    (alike : Alike ((first >>= second) >>= third) text) :
    Alike (first >>= fun value => second value >>= third) text := by
  refine congr ?_ ?_ alike <;> simp

section Steps

variable {scan later : Scan α} {rest : Text} {move : Move}

/-- A step over one character. -/
theorem step {c : Char} (passes : move = .advance ∨ move = .skip) (visible : c ≠ '\r')
    (one : ∀ text, scan (c :: text) = (later text).precededBy [move])
    (others : Alike later rest) : Alike scan (c :: rest) := by
  have start := withoutReturns_cons visible rest
  have plain : scan (withoutReturns (c :: rest))
      = (later (withoutReturns rest)).precededBy [move] := by
    rw [start, one]
  rcases passes with rfl | rfl
  · have passed : Alike (do Scan.advance; later) (c :: rest) := bind (advance visible) others
    refine congr (one rest) ?_ passed
    rw [plain, start]
    rfl
  · have passed : Alike (do Scan.skip; later) (c :: rest) := bind (skip visible) others
    refine congr (one rest) ?_ passed
    rw [plain, start]
    rfl

/-- Two steps over a carriage return and a line feed are one over the line feed alone. -/
theorem stepPair (passes : move = .advance ∨ move = .skip)
    (both : ∀ text, scan ('\r' :: '\n' :: text) = (later text).precededBy [move, move])
    (one : ∀ text, scan ('\n' :: text) = (later text).precededBy [move])
    (others : Alike later rest) : Alike scan ('\r' :: '\n' :: rest) := by
  intro paired
  have onward := others paired.tail.tail
  rw [both, withoutReturns_pair, one]
  rcases passes with rfl | rfl
  · refine ⟨onward.value, onward.rest, onward.paired, ?_, ?_⟩
    · rintro ⟨_, tokenRest, markRest?⟩ rfl
      exact onward.leads ⟨rest, tokenRest, markRest?⟩ rfl
    · rintro ⟨_, tokenRest, markRest?⟩ rfl
      exact onward.places ⟨rest, tokenRest, markRest?⟩ rfl
  · refine ⟨onward.value, onward.rest, onward.paired, ?_, ?_⟩
    · rintro ⟨_, tokenRest, markRest?⟩ rfl
      exact onward.leads ⟨rest, rest, markRest?⟩ rfl
    · rintro ⟨_, tokenRest, markRest?⟩ rfl
      exact onward.places ⟨rest, rest, markRest?⟩ rfl

end Steps

/-- What stays at a text stays there without its carriage returns. -/
theorem still {scan : Scan α} {value : α} (same : scan text = ⟨value, [], [], text⟩)
    (plain : scan (withoutReturns text) = ⟨value, [], [], withoutReturns text⟩) :
    Alike scan text := congr same plain (pure value)

/-- Only paired texts count, so the cases of being paired can be told apart first. -/
theorem of_paired {scan : Scan α} (alike : Paired text → Alike scan text) : Alike scan text :=
  fun paired => alike paired paired

section Classes

variable {accepts : Char → Bool} {move : Move}

theorem passing (passes : move = .advance ∨ move = .skip)
    (same : accepts '\r' = accepts '\n') : Alike (passing move accepts) text := by
  refine of_paired fun paired => ?_
  induction paired with
  | nil => exact pure ()
  | @pair rest others ih =>
      cases lineFeed : accepts '\n' with
      | true =>
          have carriageReturn := same.trans lineFeed
          refine stepPair passes (fun text => ?_) (passing_of_accepts lineFeed) ih
          rw [passing_of_accepts carriageReturn, passing_of_accepts lineFeed]
          rfl
      | false =>
          have carriageReturn := same.trans lineFeed
          exact still (passing_of_refuses carriageReturn _) (passing_of_refuses lineFeed _)
  | @other c rest visible others ih =>
      cases accepted : accepts c with
      | true => exact step passes visible (passing_of_accepts accepted) ih
      | false =>
          refine still (passing_of_refuses accepted _) ?_
          rw [withoutReturns_cons visible]
          exact passing_of_refuses accepted _

theorem skipWhile {nul : accepts '\x00' = false} (same : accepts '\r' = accepts '\n') :
    Alike (skipWhile accepts nul) text := by
  rw [skipWhile_eq_passing]
  exact passing (Or.inr rfl) same

theorem advanceWhile {nul : accepts '\x00' = false} (same : accepts '\r' = accepts '\n') :
    Alike (advanceWhile accepts nul) text := by
  rw [advanceWhile_eq_passing]
  exact passing (Or.inl rfl) same

theorem skipWithin (same : accepts '\r' = accepts '\n') : Alike (skipWithin accepts) text := by
  rw [skipWithin_eq_passing]
  exact passing (Or.inr rfl) same

/-- After a skip the token starts where the text does, so a carriage return may be skipped alone. -/
theorem skip_passing (other : text.headD '\x00' ≠ '\r')
    (within : accepts '\n' = true → accepts '\r' = true) :
    Alike (do Scan.skip; Scan.passing .skip accepts) text := by
  have moved (text : Text) (markRest? : Option Text) :
      Reader.moveAll (Remainders.mk text text markRest?) (Scan.passing .skip accepts text).moves
        = ⟨text.dropWhile accepts, text.dropWhile accepts, markRest?⟩ := by
    have split := List.takeWhile_append_dropWhile (p := accepts) (l := text)
    conv => lhs; arg 1; rw [← split]
    exact Remainders.moveAll_skips (text.takeWhile accepts) markRest?
  intro paired
  have start := tail_withoutReturns other
  have left := paired.tail.dropWhile_withoutReturns within
  refine ⟨rfl, ?_, paired.tail.dropWhile accepts, ?_, ?_⟩
  · change (withoutReturns text).tail.dropWhile accepts = _
    rw [start, left]
    rfl
  · rintro ⟨_, tokenRest, markRest?⟩ rfl
    exact congrArg Remainders.rest (moved _ markRest?)
  · rintro ⟨text, tokenRest, markRest?⟩ rfl
    have plain := moved (withoutReturns text).tail (markRest?.map withoutReturns)
    have here := congrArg Remainders.withoutReturns (moved text.tail markRest?)
    refine (plain.trans ?_).trans here.symm
    rw [start, left]
    rfl

theorem search {left right : Char} (leftOther : left ≠ '\r') (rightOther : right ≠ '\r') :
    Alike (ofMove (.advanceUntil left right)) text := by
  intro paired
  have past : (withoutReturns text).dropWhile (fun c => c != left && c != right)
      = withoutReturns (text.dropWhile fun c => c != left && c != right) :=
    paired.dropWhile_withoutReturns fun _ => by simp [leftOther.symm, rightOther.symm]
  refine ⟨rfl, past, paired.dropWhile _, ?_, ?_⟩
  · rintro left' rfl
    exact congrArg Remainders.rest (Remainders.move_advanceUntil left right left')
  · rintro ⟨text, tokenRest, markRest?⟩ rfl
    have plain := Remainders.move_advanceUntil left right
      ⟨withoutReturns text, withoutReturns tokenRest, markRest?.map withoutReturns⟩
    have here := Remainders.move_advanceUntil left right ⟨text, tokenRest, markRest?⟩
    refine (plain.trans ?_).trans (congrArg Remainders.withoutReturns here).symm
    exact congrArg (Remainders.mk · _ _) past

end Classes

end Scan.Alike

end ContextScan

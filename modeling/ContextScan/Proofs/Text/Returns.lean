import ContextScan.Proofs.Text.Places

namespace ContextScan

/-! Texts with and without carriage returns.

A text whose lines end with a carriage return and a line feed becomes one whose lines end with a
line feed when all carriage returns are taken out.  In a paired text a carriage return stands only
before a line feed; `Paired` has three cases, and what is shown of such texts by going along them
has the same three. -/

def withoutReturns (text : Text) : Text := text.filter (· != '\r')

/-- Whether every carriage return is followed by a line feed. -/
def PairsReturns (text : Text) : Prop :=
  ∀ front rest, text = front ++ '\r' :: rest → ∃ later, rest = '\n' :: later

inductive Paired : Text → Prop where
  | nil : Paired []
  | pair {rest : Text} (others : Paired rest) : Paired ('\r' :: '\n' :: rest)
  | other {c : Char} {rest : Text} (visible : c ≠ '\r') (others : Paired rest) : Paired (c :: rest)

theorem PairsReturns.paired : {text : Text} → PairsReturns text → Paired text
  | [], _ => .nil
  | c :: rest, pairs => by
      have others : PairsReturns rest := fun front later split =>
        pairs (c :: front) later (by rw [split]; rfl)
      by_cases isReturn : c = '\r'
      · subst isReturn
        obtain ⟨later, rfl⟩ := pairs [] rest rfl
        have laterPairs : PairsReturns later := fun front last split =>
          others ('\n' :: front) last (by rw [split]; rfl)
        exact .pair laterPairs.paired
      · exact .other isReturn others.paired

theorem Paired.pairsReturns {text : Text} (paired : Paired text) : PairsReturns text := by
  induction paired with
  | nil =>
      intro front rest split
      simp at split
  | @pair later _ ih =>
      intro front rest split
      cases front with
      | nil => exact ⟨later, (List.cons.inj split).2.symm⟩
      | cons c front =>
          cases front with
          | nil => simp at split
          | cons d front => exact ih front rest (List.cons.inj (List.cons.inj split).2).2
  | other visible _ ih =>
      intro front rest split
      cases front with
      | nil => exact absurd (List.cons.inj split).1 visible
      | cons c front => exact ih front rest (List.cons.inj split).2

theorem Paired.tail {text : Text} (paired : Paired text) : Paired text.tail := by
  cases paired with
  | nil => exact .nil
  | pair others => exact .other (by decide) others
  | other _ others => exact others

theorem Paired.of_append {front rest : Text} (paired : Paired (front ++ rest)) : Paired rest := by
  induction front with
  | nil => exact paired
  | cons c front ih => exact ih paired.tail

theorem Paired.dropWhile {text : Text} (paired : Paired text) (accepts : Char → Bool) :
    Paired (text.dropWhile accepts) := by
  rw [← List.takeWhile_append_dropWhile (p := accepts) (l := text)] at paired
  exact paired.of_append

theorem withoutReturns_append (front back : Text) :
    withoutReturns (front ++ back) = withoutReturns front ++ withoutReturns back :=
  List.filter_append front back

@[simp] theorem withoutReturns_pair (rest : Text) :
    withoutReturns ('\r' :: '\n' :: rest) = '\n' :: withoutReturns rest := rfl

theorem withoutReturns_cons {c : Char} (other : c ≠ '\r') (rest : Text) :
    withoutReturns (c :: rest) = c :: withoutReturns rest := by
  simp [withoutReturns, other]

/-- What a carriage return and a line feed are alike to sees no difference at the next character. -/
theorem Paired.next_withoutReturns {α : Type} {text : Text} (paired : Paired text)
    {next : Char → α} (same : next '\r' = next '\n') :
    next ((withoutReturns text).headD '\x00') = next (text.headD '\x00') := by
  cases paired with
  | nil => rfl
  | pair others => exact same.symm
  | other visible others => rw [withoutReturns_cons visible]; rfl

theorem Paired.isEmpty_withoutReturns {text : Text} (paired : Paired text) :
    (withoutReturns text).isEmpty = text.isEmpty := by
  cases paired with
  | nil | pair => rfl
  | other visible others => rw [withoutReturns_cons visible]; rfl

theorem tail_withoutReturns {text : Text} (other : text.headD '\x00' ≠ '\r') :
    (withoutReturns text).tail = withoutReturns text.tail := by
  cases text with
  | nil => rfl
  | cons c rest =>
      have visible : c ≠ '\r' := other
      rw [withoutReturns_cons visible]
      rfl

section Classes

variable {accepts : Char → Bool} {text : Text}

theorem Paired.dropWhile_withoutReturns (paired : Paired text)
    (within : accepts '\n' = true → accepts '\r' = true) :
    (withoutReturns text).dropWhile accepts = withoutReturns (text.dropWhile accepts) := by
  induction paired with
  | nil => rfl
  | @pair rest others ih =>
      rw [withoutReturns_pair]
      cases lineFeed : accepts '\n' with
      | true => simp [within lineFeed, lineFeed, ih]
      | false =>
          have lineFeedStays : ('\n' :: withoutReturns rest).dropWhile accepts
              = '\n' :: withoutReturns rest := by simp [lineFeed]
          rw [lineFeedStays]
          cases carriageReturn : accepts '\r' with
          | true => simp [lineFeed, carriageReturn, withoutReturns_cons]
          | false => simp [carriageReturn]
  | @other c rest visible others ih =>
      rw [withoutReturns_cons visible]
      cases accepted : accepts c with
      | true => simp [accepted, ih]
      | false => simp [accepted, withoutReturns_cons visible]

end Classes

/-- The offset that a place has when the carriage returns before it are taken out. -/
def placeWithoutReturns (text : Text) (place : Nat) : Nat :=
  place - (takeBytes text place).count '\r'

theorem byteSize_withoutReturns (text : Text) :
    byteSize (withoutReturns text) + text.count '\r' = byteSize text := by
  induction text with
  | nil => rfl
  | cons c rest ih =>
      by_cases isReturn : c = '\r'
      · subst isReturn
        have single : '\r'.utf8Size = 1 := rfl
        have gone : withoutReturns ('\r' :: rest) = withoutReturns rest := rfl
        rw [gone, byteSize, List.count_cons_self, single]
        omega
      · rw [withoutReturns_cons isReturn, byteSize, byteSize, List.count_cons_of_ne isReturn]
        omega

theorem placeWithoutReturns_byteSize (front rest : Text) :
    placeWithoutReturns (front ++ rest) (byteSize front) = byteSize (withoutReturns front) := by
  have sizes := byteSize_withoutReturns front
  rw [placeWithoutReturns, takeBytes_byteSize_append]
  omega

end ContextScan

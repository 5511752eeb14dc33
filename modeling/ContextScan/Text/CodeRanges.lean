namespace ContextScan

/-! Sets of code points as ascending ranges.

Unicode properties are given as tables of inclusive ranges.  Since a table ascends, a search can
stop at the first range that starts after the code point in question. -/

/-- Inclusive ranges of code points. -/
abbrev CodeRanges := List (Nat × Nat)

namespace CodeRanges

/-- Whether a code point lies in one of the ranges of an ascending table. -/
def covers : CodeRanges → Nat → Bool
  | [], _ => false
  | (first, last) :: later, code =>
      if code < first then false
      else if code ≤ last then true
      else covers later code

/-- Whether the ranges lie above a floor, ascend, and are neither empty nor overlapping. -/
def ascendAbove (floor : Nat) : CodeRanges → Bool
  | [] => true
  | (first, last) :: later =>
      decide (floor < first) && decide (first ≤ last) && ascendAbove last later

theorem lt_of_ascendAbove {floor : Nat} {ranges : CodeRanges}
    (ascend : ranges.ascendAbove floor = true) {range : Nat × Nat} (member : range ∈ ranges) :
    floor < range.1 := by
  induction ranges generalizing floor with
  | nil => cases member
  | cons head later ih =>
      simp only [ascendAbove, Bool.and_eq_true, decide_eq_true_eq] at ascend
      obtain ⟨⟨above, nonempty⟩, laterAscend⟩ := ascend
      cases member with
      | head => exact above
      | tail _ member =>
          have := ih laterAscend member
          omega

/-- Stopping early loses nothing in an ascending table. -/
theorem covers_iff {floor : Nat} {ranges : CodeRanges}
    (ascend : ranges.ascendAbove floor = true) (code : Nat) :
    ranges.covers code = true ↔ ∃ range ∈ ranges, range.1 ≤ code ∧ code ≤ range.2 := by
  induction ranges generalizing floor with
  | nil => simp [covers]
  | cons head later ih =>
      simp only [ascendAbove, Bool.and_eq_true, decide_eq_true_eq] at ascend
      obtain ⟨⟨above, nonempty⟩, laterAscend⟩ := ascend
      simp only [covers, List.mem_cons, exists_eq_or_imp]
      by_cases before : code < head.1
      · simp only [before, ↓reduceIte, Bool.false_eq_true, false_iff, not_or, not_exists, not_and]
        refine ⟨by omega, fun range member lower => ?_⟩
        have beyond := lt_of_ascendAbove laterAscend member
        omega
      · by_cases within : code ≤ head.2
        · simp only [before, within, ↓reduceIte, true_iff]
          exact Or.inl ⟨by omega, trivial⟩
        · simp only [before, within, ↓reduceIte, ih laterAscend, and_false, false_or]

/-- A class that is given apart below U+0080 and by a table from there on holds what either does. -/
theorem covers_above_ascii_iff {ascii : Char → Bool} {ranges : CodeRanges}
    (small : ∀ c, ascii c = true → c.toNat < 0x80) (ascend : ranges.ascendAbove 0x7f = true)
    (c : Char) : (if c.toNat < 0x80 then ascii c else ranges.covers c.toNat) = true
      ↔ ascii c = true ∨ ∃ range ∈ ranges, range.1 ≤ c.toNat ∧ c.toNat ≤ range.2 := by
  split
  · rename_i below
    refine ⟨Or.inl, fun either => either.resolve_right ?_⟩
    rintro ⟨range, member, lower, _⟩
    have above := lt_of_ascendAbove ascend member
    omega
  · rename_i above
    rw [covers_iff ascend]
    exact ⟨Or.inr, fun either => either.resolve_left fun listed => above (small c listed)⟩

end CodeRanges

end ContextScan

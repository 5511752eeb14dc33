import ContextScan.Text.Utf8

namespace ContextScan

/-! Places in a text.

A place is known by its byte offset, by the number of characters before it, or by the text that is
left there.  At boundaries these agree, and the parts between boundaries follow each other. -/

theorem byteSize_pos_iff {text : Text} : 0 < byteSize text ↔ text ≠ [] := by
  cases text with
  | nil => simp [byteSize]
  | cons c rest =>
      have := c.utf8Size_pos
      simp only [byteSize, ne_eq, reduceCtorEq, not_false_eq_true, iff_true]
      omega

theorem byteSize_eq_zero_iff {text : Text} : byteSize text = 0 ↔ text = [] := by
  have positive : 0 < byteSize text ↔ text ≠ [] := byteSize_pos_iff
  by_cases empty : text = []
  · simp [empty, byteSize]
  · simp only [empty, ne_eq, not_false_eq_true, iff_true] at positive
    simp only [empty, iff_false]
    omega

/-- The byte offset at which the character with an index stands. -/
def placeOf (text : Text) (index : Nat) : Nat := byteSize (text.take index)

theorem placeOf_succ {text : Text} {index : Nat} {c : Char} {rest : Text}
    (here : text.drop index = c :: rest) :
    placeOf text (index + 1) = placeOf text index + c.utf8Size := by
  have next : text.take (index + 1) = text.take index ++ [c] := by
    rw [List.take_add, here]
    rfl
  rw [placeOf, next, byteSize_append]
  rfl

theorem placeOf_le_placeOf (text : Text) {low high : Nat} (le : low ≤ high) :
    placeOf text low ≤ placeOf text high := by
  have split := List.take_append_drop low (text.take high)
  rw [List.take_take, Nat.min_eq_left le] at split
  rw [placeOf, placeOf, ← split, byteSize_append]
  exact Nat.le_add_right _ _

theorem placeOf_min (text : Text) (left right : Nat) :
    placeOf text (min left right) = min (placeOf text left) (placeOf text right) := by
  rcases Nat.le_total left right with le | le
  · rw [Nat.min_eq_left le, Nat.min_eq_left (placeOf_le_placeOf text le)]
  · rw [Nat.min_eq_right le, Nat.min_eq_right (placeOf_le_placeOf text le)]

/-- A boundary that is not before an offset leaves characters between them. -/
theorem exists_between {front rest : Text} {stop : Nat}
    (boundary : isBoundary (front ++ rest) stop = true) (low : byteSize front ≤ stop) :
    ∃ between after, rest = between ++ after ∧ byteSize (front ++ between) = stop := by
  obtain ⟨before, after, split, size⟩ := isBoundary_iff.mp boundary
  rcases List.append_eq_append_iff.mp split with ⟨between, rfl, rfl⟩ | ⟨excess, rfl, rfl⟩
  · exact ⟨between, after, rfl, size⟩
  · have nothing : excess = [] := by
      rw [byteSize_append] at low
      by_cases nonempty : excess = []
      · exact nonempty
      · have positive := byteSize_pos_iff.mpr nonempty
        omega
    subst nothing
    exact ⟨[], rest, rfl, by rw [List.append_nil, List.append_nil, size]⟩

theorem dropBytes_dropBytes {text : Text} {low high : Nat}
    (lowBoundary : isBoundary text low = true) (highBoundary : isBoundary text high = true)
    (ordered : low ≤ high) :
    dropBytes (dropBytes text low) (high - low) = dropBytes text high := by
  obtain ⟨front, rest, rfl, rfl⟩ := isBoundary_iff.mp lowBoundary
  obtain ⟨between, after, rfl, rfl⟩ := exists_between highBoundary ordered
  rw [dropBytes_byteSize_append, ← List.append_assoc, dropBytes_byteSize_append, byteSize_append,
    Nat.add_sub_cancel_left, dropBytes_byteSize_append]

theorem slice_append_dropBytes {text : Text} {low high : Nat}
    (lowBoundary : isBoundary text low = true) (highBoundary : isBoundary text high = true)
    (ordered : low ≤ high) :
    (ByteRange.mk low high).slice text ++ dropBytes text high = dropBytes text low := by
  rw [← dropBytes_dropBytes lowBoundary highBoundary ordered]
  exact takeBytes_append_dropBytes (dropBytes text low) (high - low)

theorem byteSize_dropBytes {text : Text} {offset : Nat} (boundary : isBoundary text offset = true) :
    offset + byteSize (dropBytes text offset) = byteSize text := by
  obtain ⟨front, back, rfl, rfl⟩ := isBoundary_iff.mp boundary
  rw [dropBytes_byteSize_append, byteSize_append]

theorem takeBytes_byteSize_append (front back : Text) :
    takeBytes (front ++ back) (byteSize front) = front := by
  have split := takeBytes_append_dropBytes (front ++ back) (byteSize front)
  rw [dropBytes_byteSize_append] at split
  exact List.append_cancel_right split

/-- The slice between two places is the text between them. -/
theorem slice_append (front between back : Text) :
    (ByteRange.mk (byteSize front) (byteSize front + byteSize between)).slice
      (front ++ (between ++ back)) = between := by
  rw [ByteRange.slice, Nat.add_sub_cancel_left, dropBytes_byteSize_append,
    takeBytes_byteSize_append]

theorem dropBytes_byteSize (text : Text) : dropBytes text (byteSize text) = [] := by
  have ended := dropBytes_byteSize_append text []
  rw [List.append_nil] at ended
  exact ended

def StandsAt (text : Text) (offset : Nat) (c : Char) (rest : Text) : Prop :=
  ∃ front, text = front ++ c :: rest ∧ byteSize front = offset

namespace StandsAt

variable {text : Text} {offset : Nat} {c : Char} {rest : Text}

theorem dropBytes_eq (stands : StandsAt text offset c rest) :
    dropBytes text offset = c :: rest := by
  obtain ⟨front, rfl, rfl⟩ := stands
  exact dropBytes_byteSize_append front (c :: rest)

theorem passed (stands : StandsAt text offset c rest) :
    ∃ front, text = front ++ rest ∧ byteSize front = offset + c.utf8Size := by
  obtain ⟨front, rfl, rfl⟩ := stands
  exact ⟨front ++ [c], List.append_cons front c rest, byteSize_append front [c]⟩

theorem dropBytes_next (stands : StandsAt text offset c rest) :
    dropBytes text (offset + c.utf8Size) = rest := by
  obtain ⟨front, rfl, size⟩ := stands.passed
  rw [← size]
  exact dropBytes_byteSize_append front rest

theorem boundary (stands : StandsAt text offset c rest) : isBoundary text offset = true := by
  obtain ⟨front, split, size⟩ := stands
  exact isBoundary_iff.mpr ⟨front, c :: rest, split, size⟩

theorem nextBoundary (stands : StandsAt text offset c rest) :
    isBoundary text (offset + c.utf8Size) = true := by
  obtain ⟨front, split, size⟩ := stands.passed
  exact isBoundary_iff.mpr ⟨front, rest, split, size⟩

theorem lt_byteSize (stands : StandsAt text offset c rest) : offset < byteSize text := by
  obtain ⟨front, rfl, rfl⟩ := stands
  have positive := c.utf8Size_pos
  simp only [byteSize_append, byteSize]
  omega

/-- The next boundary after a character is not before its end. -/
theorem next_le (stands : StandsAt text offset c rest) {place : Nat}
    (boundary : isBoundary text place = true) (later : offset < place) :
    offset + c.utf8Size ≤ place := by
  obtain ⟨front, rfl, rfl⟩ := stands
  obtain ⟨between, after, split, rfl⟩ := exists_between boundary (Nat.le_of_lt later)
  rw [byteSize_append] at later ⊢
  cases between with
  | nil => simp [byteSize] at later
  | cons d between =>
      cases (List.cons.inj split).1
      simp only [byteSize]
      omega

end StandsAt

end ContextScan

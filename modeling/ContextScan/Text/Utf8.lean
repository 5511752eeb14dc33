import ContextScan.Text.Blank

namespace ContextScan

/-! Byte offsets into a text.

Positions are counted in bytes of the UTF-8 form, although a text is kept as its characters.  An
offset is a boundary when it does not fall inside a character; at a boundary a text splits into the
characters before it and those after it. -/

def utf8 (text : Text) : List UInt8 := text.flatMap String.utf8EncodeChar

def byteSize : Text → Nat
  | [] => 0
  | c :: rest => c.utf8Size + byteSize rest

/-- Whether an offset lies between two characters, at the start or at the end. -/
def isBoundary : Text → Nat → Bool
  | _, 0 => true
  | [], _ + 1 => false
  | c :: rest, offset => c.utf8Size ≤ offset && isBoundary rest (offset - c.utf8Size)

/-- The characters that start before an offset. -/
def takeBytes : Text → Nat → Text
  | _, 0 => []
  | [], _ + 1 => []
  | c :: rest, offset => c :: takeBytes rest (offset - c.utf8Size)

/-- The characters that start at or after an offset. -/
def dropBytes : Text → Nat → Text
  | text, 0 => text
  | [], _ + 1 => []
  | c :: rest, offset => dropBytes rest (offset - c.utf8Size)

/-- The offset of the first byte of a kind, or the size of the text if there is none. -/
def byteIndex (wanted : UInt8 → Bool) : Text → Nat
  | [] => 0
  | c :: rest =>
      let bytes := String.utf8EncodeChar c
      if bytes.any wanted then bytes.findIdx wanted
      else c.utf8Size + byteIndex wanted rest

/-- A half-open range of byte offsets. -/
structure ByteRange where
  start : Nat
  stop : Nat
deriving DecidableEq, Repr

namespace ByteRange

def isEmpty (range : ByteRange) : Bool := decide (range.stop ≤ range.start)

def slice (range : ByteRange) (text : Text) : Text :=
  takeBytes (dropBytes text range.start) (range.stop - range.start)

end ByteRange

@[simp] theorem byteSize_append (front back : Text) :
    byteSize (front ++ back) = byteSize front + byteSize back := by
  induction front with
  | nil => simp [byteSize]
  | cons c rest ih => simp [byteSize, ih, Nat.add_assoc]

theorem length_utf8 (text : Text) : (utf8 text).length = byteSize text := by
  induction text with
  | nil => rfl
  | cons c rest ih =>
      simp only [utf8, List.flatMap_cons, List.length_append, byteSize] at *
      rw [ih, String.length_utf8EncodeChar]

theorem takeBytes_append_dropBytes (text : Text) (offset : Nat) :
    takeBytes text offset ++ dropBytes text offset = text := by
  induction text generalizing offset with
  | nil => cases offset <;> rfl
  | cons c rest ih => cases offset <;> simp [takeBytes, dropBytes, ih]

@[simp] theorem dropBytes_zero (text : Text) : dropBytes text 0 = text := by cases text <;> rfl

/-- Past the characters at the front, bytes are dropped from what follows them. -/
theorem dropBytes_byteSize_add (front back : Text) (offset : Nat) :
    dropBytes (front ++ back) (byteSize front + offset) = dropBytes back offset := by
  induction front with
  | nil => rw [byteSize, Nat.zero_add, List.nil_append]
  | cons c rest ih =>
      obtain ⟨size, sized⟩ := Nat.exists_eq_succ_of_ne_zero
        (Nat.ne_of_gt (Nat.lt_of_lt_of_le c.utf8Size_pos
          (Nat.le_add_right _ (byteSize rest + offset))))
      simp only [List.cons_append, byteSize, Nat.add_assoc, sized, dropBytes]
      rw [← sized, Nat.add_sub_cancel_left, ih]

@[simp] theorem dropBytes_byteSize_append (front back : Text) :
    dropBytes (front ++ back) (byteSize front) = back := by
  have dropped := dropBytes_byteSize_add front back 0
  rwa [Nat.add_zero, dropBytes_zero] at dropped

/-- A boundary is an offset at which the text splits. -/
theorem isBoundary_iff {text : Text} {offset : Nat} :
    isBoundary text offset = true ↔
      ∃ front back, text = front ++ back ∧ byteSize front = offset := by
  induction text generalizing offset with
  | nil =>
      cases offset with
      | zero => simp [isBoundary, byteSize]
      | succ offset => simp [isBoundary, byteSize]
  | cons c rest ih =>
      cases offset with
      | zero =>
          simp only [isBoundary, true_iff]
          exact ⟨[], c :: rest, rfl, rfl⟩
      | succ offset =>
          simp only [isBoundary, Bool.and_eq_true, decide_eq_true_eq, ih]
          constructor
          · rintro ⟨fits, front, back, rfl, size⟩
            exact ⟨c :: front, back, rfl, by simp only [byteSize]; omega⟩
          · rintro ⟨front, back, split, size⟩
            cases front with
            | nil => simp [byteSize] at size
            | cons head front =>
                simp only [List.cons_append, List.cons.injEq] at split
                obtain ⟨rfl, rfl⟩ := split
                simp only [byteSize] at size
                exact ⟨by omega, front, back, rfl, by omega⟩

/-- Dropping some bytes of a text that has any leaves fewer characters. -/
theorem length_dropBytes_lt {text : Text} {offset : Nat} (nonempty : text ≠ [])
    (positive : 0 < offset) : (dropBytes text offset).length < text.length := by
  have bound : ∀ (rest : Text) (offset : Nat), (dropBytes rest offset).length ≤ rest.length := by
    intro rest
    induction rest with
    | nil => intro offset; cases offset <;> simp [dropBytes]
    | cons c rest ih =>
        intro offset
        cases offset with
        | zero => simp [dropBytes]
        | succ offset => exact Nat.le_succ_of_le (ih _)
  cases text with
  | nil => exact absurd rfl nonempty
  | cons c rest =>
      cases offset with
      | zero => omega
      | succ offset => exact Nat.lt_succ_of_le (bound rest _)

/-- Searching character by character finds what a search through all bytes finds. -/
theorem byteIndex_eq_findIdx (wanted : UInt8 → Bool) (text : Text) :
    byteIndex wanted text = (utf8 text).findIdx wanted := by
  induction text with
  | nil => rfl
  | cons c rest ih =>
      simp only [byteIndex, utf8, List.flatMap_cons, List.findIdx_append, List.findIdx_lt_length,
        List.any_eq_true, ih]
      split
      · rfl
      · rw [String.length_utf8EncodeChar, Nat.add_comm]

end ContextScan

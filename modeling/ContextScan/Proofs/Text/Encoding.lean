import ContextScan.Text.Utf8

namespace ContextScan

/-! What the bytes of a text tell about its characters.

A byte below 128 is the whole of a character, and all other bytes are at least 128.  So a search
through the bytes for ASCII characters stops where a search through the characters does.  No
character's bytes begin those of another, so texts whose bytes begin alike begin with the same
characters. -/

def isAscii (c : Char) : Prop := c.toNat < 128

theorem utf8EncodeChar_of_isAscii {c : Char} (ascii : isAscii c) :
    String.utf8EncodeChar c = [UInt8.ofNat c.toNat] := by
  have small : c.val.toNat ≤ 127 := Nat.le_of_lt_succ ascii
  rw [String.utf8EncodeChar, if_pos small]
  rfl

theorem le_of_mem_utf8EncodeChar {c : Char} (long : ¬isAscii c) {byte : UInt8}
    (member : byte ∈ String.utf8EncodeChar c) : 128 ≤ byte.toNat := by
  have large : ¬c.val.toNat ≤ 127 := fun small => long (Nat.lt_succ_of_le small)
  rw [String.utf8EncodeChar, if_neg large] at member
  split at member
  · simp only [List.mem_cons, List.not_mem_nil, or_false] at member
    rcases member with rfl | rfl <;> simp only [UInt8.toNat_ofNat'] <;> omega
  · split at member
    · simp only [List.mem_cons, List.not_mem_nil, or_false] at member
      rcases member with rfl | rfl | rfl <;> simp only [UInt8.toNat_ofNat'] <;> omega
    · simp only [List.mem_cons, List.not_mem_nil, or_false] at member
      rcases member with rfl | rfl | rfl | rfl <;> simp only [UInt8.toNat_ofNat'] <;> omega

theorem mem_utf8EncodeChar_iff {needle : Char} (ascii : isAscii needle) (c : Char) :
    UInt8.ofNat needle.toNat ∈ String.utf8EncodeChar c ↔ c = needle := by
  have needleByte : (UInt8.ofNat needle.toNat).toNat = needle.toNat := by
    rw [UInt8.toNat_ofNat']
    exact Nat.mod_eq_of_lt (Nat.lt_trans ascii (by decide))
  constructor
  · intro member
    by_cases short : isAscii c
    · rw [utf8EncodeChar_of_isAscii short, List.mem_singleton] at member
      have cByte : (UInt8.ofNat c.toNat).toNat = c.toNat := by
        rw [UInt8.toNat_ofNat']
        exact Nat.mod_eq_of_lt (Nat.lt_trans short (by decide))
      have codes : c.toNat = needle.toNat := by rw [← cByte, ← member, needleByte]
      exact Char.toNat_inj.mp codes
    · have large := le_of_mem_utf8EncodeChar short member
      rw [needleByte] at large
      exact absurd ascii (Nat.not_lt.mpr large)
  · intro same
    subst same
    rw [utf8EncodeChar_of_isAscii ascii]
    exact List.mem_singleton_self _

theorem any_utf8EncodeChar_iff {left right : Char} (leftAscii : isAscii left)
    (rightAscii : isAscii right) (c : Char) :
    (String.utf8EncodeChar c).any (fun byte =>
        byte == UInt8.ofNat left.toNat || byte == UInt8.ofNat right.toNat) = true ↔
      c = left ∨ c = right := by
  simp only [List.any_eq_true, Bool.or_eq_true, beq_iff_eq]
  rw [← mem_utf8EncodeChar_iff leftAscii c, ← mem_utf8EncodeChar_iff rightAscii c]
  constructor
  · intro found
    obtain ⟨byte, member, wanted⟩ := found
    rcases wanted with rfl | rfl
    · exact Or.inl member
    · exact Or.inr member
  · intro found
    rcases found with member | member
    · exact ⟨_, member, Or.inl rfl⟩
    · exact ⟨_, member, Or.inr rfl⟩

/-- The bytes before the first of two ASCII characters are those of the characters before it. -/
theorem byteIndex_eq_byteSize_takeWhile {left right : Char} (leftAscii : isAscii left)
    (rightAscii : isAscii right) (text : Text) :
    byteIndex (fun byte => byte == UInt8.ofNat left.toNat || byte == UInt8.ofNat right.toNat) text
      = byteSize (text.takeWhile fun c => c != left && c != right) := by
  induction text with
  | nil => rfl
  | cons c rest ih =>
      have found := any_utf8EncodeChar_iff leftAscii rightAscii c
      by_cases stops : c = left ∨ c = right
      · have ascii : isAscii c := by
          rcases stops with rfl | rfl
          · exact leftAscii
          · exact rightAscii
        have first : (String.utf8EncodeChar c).findIdx (fun byte =>
            byte == UInt8.ofNat left.toNat || byte == UInt8.ofNat right.toNat) = 0 := by
          rw [utf8EncodeChar_of_isAscii ascii]
          rcases stops with rfl | rfl <;> simp [List.findIdx_cons]
        have kept : (c :: rest).takeWhile (fun c => c != left && c != right) = [] :=
          List.takeWhile_cons_of_neg (by rcases stops with rfl | rfl <;> simp)
        rw [byteIndex, if_pos (found.mpr stops), first, kept]
        rfl
      · have kept : (c :: rest).takeWhile (fun c => c != left && c != right)
            = c :: rest.takeWhile fun c => c != left && c != right :=
          List.takeWhile_cons_of_pos (by simpa [not_or] using stops)
        rw [byteIndex, if_neg (mt found.mp stops), ih, kept, byteSize]

theorem utf8_append (front back : Text) : utf8 (front ++ back) = utf8 front ++ utf8 back :=
  List.flatMap_append

/-- The bytes of a character tell where it ends. -/
theorem utf8EncodeChar_append_inj {left right : Char} {leftRest rightRest : List UInt8}
    (same : String.utf8EncodeChar left ++ leftRest = String.utf8EncodeChar right ++ rightRest) :
    left = right ∧ leftRest = rightRest := by
  have decoded := congrArg (fun bytes => bytes.toByteArray.utf8DecodeChar? 0) same
  simp only [List.toByteArray_append, ByteArray.utf8DecodeChar?_utf8EncodeChar_append,
    Option.some.injEq] at decoded
  subst decoded
  exact ⟨rfl, List.append_cancel_left same⟩

/-- A text whose bytes begin as those of another begins with its characters. -/
theorem exists_eq_append_of_take_utf8 {passed text : Text}
    (agree : (utf8 text).take (byteSize passed) = utf8 passed) :
    ∃ other, text = passed ++ other := by
  induction passed generalizing text with
  | nil => exact ⟨text, rfl⟩
  | cons c passed ih =>
      have bytes : utf8 text = utf8 (c :: passed) ++ (utf8 text).drop (byteSize (c :: passed)) := by
        rw [← agree, List.take_append_drop]
      cases text with
      | nil =>
          have sizes := congrArg List.length bytes
          rw [List.length_append, length_utf8, length_utf8, byteSize, byteSize] at sizes
          have := c.utf8Size_pos
          omega
      | cons head rest =>
          generalize (utf8 (head :: rest)).drop (byteSize (c :: passed)) = later at bytes
          simp only [utf8, List.flatMap_cons, List.append_assoc] at bytes
          obtain ⟨rfl, restBytes⟩ := utf8EncodeChar_append_inj bytes
          have restAgree : (utf8 rest).take (byteSize passed) = utf8 passed := by
            have whole : utf8 rest = utf8 passed ++ later := restBytes
            rw [whole, ← length_utf8 passed, List.take_left]
          obtain ⟨other, rfl⟩ := ih restAgree
          exact ⟨other, rfl⟩

end ContextScan

namespace ContextScan

/-! Blanks, line breaks and trimming.

A blank is a character with the Unicode property White_Space.  A line break is a line feed or a
carriage return; both are blanks. -/

abbrev Text := List Char

/-- Whether a character has the property White_Space. -/
def isBlank (c : Char) : Bool :=
  let code := c.toNat
  (9 ≤ code && code ≤ 13) || code == 0x20 || code == 0x85 || code == 0xa0 || code == 0x1680
    || (0x2000 ≤ code && code ≤ 0x200a) || code == 0x2028 || code == 0x2029 || code == 0x202f
    || code == 0x205f || code == 0x3000

def isLineBreak (c : Char) : Bool := c == '\n' || c == '\r'

def isInlineBlank (c : Char) : Bool := isBlank c && !isLineBreak c

@[simp] theorem isBlank_nul : isBlank '\x00' = false := rfl

theorem isBlank_of_isLineBreak {c : Char} (lineBreak : isLineBreak c = true) :
    isBlank c = true := by
  simp only [isLineBreak, Bool.or_eq_true, beq_iff_eq] at lineBreak
  rcases lineBreak with rfl | rfl <;> rfl

/-- The text without the blanks at its two ends. -/
def trim (text : Text) : Text :=
  ((text.dropWhile isBlank).reverse.dropWhile isBlank).reverse

end ContextScan

import ContextScan.Text.Blank

namespace ContextScan

/-! Decimal numbers: digits without a sign.  Leading zeros are read but not written. -/

def decimal (number : Nat) : Text := Nat.toDigits 10 number

/-- The number that a text of decimal digits stands for. -/
def parseDecimal? (text : Text) : Option Nat :=
  if !text.isEmpty && text.all Char.isDigit then some (Nat.ofDigitChars 10 text 0) else none

theorem decimal_ne_nil (number : Nat) : decimal number ≠ [] := Nat.toDigits_ne_nil

theorem isDigit_of_mem_decimal {number : Nat} {c : Char} (digit : c ∈ decimal number) :
    c.isDigit = true :=
  Nat.isDigit_of_mem_toDigits (Nat.succ_pos 9) (Nat.le_refl 10) digit

theorem parseDecimal?_decimal (number : Nat) : parseDecimal? (decimal number) = some number := by
  have digits : (decimal number).all Char.isDigit = true :=
    List.all_eq_true.mpr fun _ digit => isDigit_of_mem_decimal digit
  have nonempty : (decimal number).isEmpty = false := by
    simp [decimal_ne_nil]
  simp only [parseDecimal?, digits, nonempty, Bool.not_false, Bool.and_self, ↓reduceIte]
  rw [decimal, Nat.ofDigitChars_toDigits (by decide) (by decide)]

end ContextScan

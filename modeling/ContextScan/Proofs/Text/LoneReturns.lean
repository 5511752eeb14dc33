import ContextScan.Proofs.Text.Places

namespace ContextScan

/-! Texts with a carriage return for every line feed.

Both are line breaks of one byte, so the places of the two texts are the same, and whatever does not
tell one line break from the other finds the same in both. -/

def asReturn (c : Char) : Char := if c = '\n' then '\r' else c

def withReturns (text : Text) : Text := text.map asReturn

theorem asReturn_of_ne {c : Char} (other : c ≠ '\n') : asReturn c = c := if_neg other

theorem asReturn_ne (c : Char) : asReturn c ≠ '\n' := by
  rw [asReturn]
  split
  · decide
  · assumption

theorem utf8Size_asReturn (c : Char) : (asReturn c).utf8Size = c.utf8Size := by
  by_cases lineFeed : c = '\n'
  · subst lineFeed
    rfl
  · rw [asReturn_of_ne lineFeed]

theorem apply_asReturn {α : Type} {test : Char → α} (same : test '\r' = test '\n') (c : Char) :
    test (asReturn c) = test c := by
  by_cases lineFeed : c = '\n'
  · subst lineFeed
    exact same
  · rw [asReturn_of_ne lineFeed]

theorem withReturns_append (front back : Text) :
    withReturns (front ++ back) = withReturns front ++ withReturns back := List.map_append

section Classes

variable {α : Type} {text : Text}

theorem apply_headD_withReturns {test : Char → α} (same : test '\r' = test '\n') :
    test ((withReturns text).headD '\x00') = test (text.headD '\x00') := by
  cases text with
  | nil => rfl
  | cons c rest => exact apply_asReturn same c

theorem headD_withReturns_of_ne (other : text.headD '\x00' ≠ '\n') :
    (withReturns text).headD '\x00' = text.headD '\x00' := by
  cases text with
  | nil => rfl
  | cons c rest => exact asReturn_of_ne other

variable {accepts : Char → Bool} (same : accepts '\r' = accepts '\n')

include same

theorem takeWhile_withReturns :
    (withReturns text).takeWhile accepts = withReturns (text.takeWhile accepts) := by
  rw [withReturns, List.takeWhile_map]
  exact congrArg (withReturns <| text.takeWhile ·) (funext (apply_asReturn same))

theorem dropWhile_withReturns :
    (withReturns text).dropWhile accepts = withReturns (text.dropWhile accepts) := by
  rw [withReturns, List.dropWhile_map]
  exact congrArg (withReturns <| text.dropWhile ·) (funext (apply_asReturn same))

theorem any_withReturns : (withReturns text).any accepts = text.any accepts := by
  rw [withReturns, List.any_map]
  exact congrArg text.any (funext (apply_asReturn same))

end Classes

theorem length_withReturns (text : Text) : (withReturns text).length = text.length :=
  List.length_map _

theorem isBoundary_withReturns (text : Text) (offset : Nat) :
    isBoundary (withReturns text) offset = isBoundary text offset := by
  induction text generalizing offset with
  | nil => rfl
  | cons c rest ih =>
      cases offset with
      | zero => rfl
      | succ offset =>
          change (decide _ && isBoundary (withReturns rest) _) = _
          rw [utf8Size_asReturn, ih]
          rfl

theorem dropBytes_withReturns (text : Text) (offset : Nat) :
    dropBytes (withReturns text) offset = withReturns (dropBytes text offset) := by
  induction text generalizing offset with
  | nil => cases offset <;> rfl
  | cons c rest ih =>
      cases offset with
      | zero => rfl
      | succ offset =>
          change dropBytes (withReturns rest) _ = _
          rw [utf8Size_asReturn, ih]
          rfl

end ContextScan

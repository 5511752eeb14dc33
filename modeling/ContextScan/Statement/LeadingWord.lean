import ContextScan.Scan
import ContextScan.Text.Letter

namespace ContextScan

/-! The word that a line starts with, and what it says about the line.

Modifiers are passed over.  The word after them is either a context word, whose surroundings decide,
or an ordinary one, and then the line starts a statement. -/

namespace LeadingWord

open Scan

/-- Skips letters for as long as one is next, and pushes each onto a word before it is skipped. -/
def captureOnto (word : Word) : Scan Word := fun text =>
  if isLetter (text.headD '\x00') then
    (captureOnto (word.push (text.headD '\x00')) text.tail).precededBy [.skip]
  else
    ⟨word, [], [], text⟩
termination_by text => text.length
decreasing_by
  rename_i letter
  exact length_tail_lt isLetter_nul letter

def capture : Scan Word := captureOnto .empty

theorem length_rest_captureOnto_le (word : Word) (text : Text) :
    (captureOnto word text).rest.length ≤ text.length := by
  fun_induction captureOnto word text with
  | case1 word text letter ih =>
      exact Nat.le_trans ih (Nat.le_of_lt (length_tail_lt isLetter_nul letter))
  | case2 word text other => exact Nat.le_refl _

@[simp] theorem events_captureOnto (word : Word) (text : Text) :
    (captureOnto word text).events = [] := by
  fun_induction captureOnto word text with
  | case1 word text letter ih => exact ih
  | case2 word text other => rfl

theorem length_rest_capture_lt {text : Text} (modifier : (capture text).value.isModifier = true) :
    (capture text).rest.length < text.length := by
  rw [capture, captureOnto] at modifier ⊢
  split
  · rename_i letter
    exact Nat.lt_of_le_of_lt (length_rest_captureOnto_le _ _) (length_tail_lt isLetter_nul letter)
  · rename_i other
    rw [if_neg other] at modifier
    cases modifier

/-- Skips modifiers and the blanks after them, and then captures the next word. -/
def afterModifiers (text : Text) : Run Word :=
  let word := capture text
  if word.value.isModifier then
    let gap := skipWhile isBlank isBlank_nul word.rest
    (afterModifiers gap.rest).precededBy (word.moves ++ gap.moves)
  else
    word
termination_by text.length
decreasing_by
  rename_i modifier
  exact Nat.lt_of_le_of_lt (length_rest_passWhile_le .skip isBlank_nul _)
    (length_rest_capture_lt modifier)

/-- Whether a line that starts with `constructor` starts a statement: a secondary constructor, or
a variable of that name which is accessed or assigned. -/
def constructorStarts (kinds : KindSet) : Scan Bool := do
  skipWhile isBlank isBlank_nul
  let next ← peek
  pure (kinds.has .memberSemi || next == '.' || next == '=')

/-- Whether a line that starts with `else` starts a statement: only the branch `else ->`. -/
def otherwiseStarts : Scan Bool := do
  skipWhile isBlank isBlank_nul
  if (← peek) == '-' then
    skip
    pure ((← peek) == '>')
  else
    pure false

/-- Whether a line that starts with `get` starts a statement: where no getter may follow, and where
`get` is a variable that is indexed. -/
def getterStarts (kinds : KindSet) : Scan Bool := do
  pure (!kinds.has .getter || (← peek) == '[')

/-- Passes the end of a setter's parameter, and tells whether nothing else stands on the line. -/
def pastParameter : Scan Bool := do
  skip
  skipWhile (fun c => isBlank c && c != '\n') (by rw [isBlank_nul, Bool.false_and])
  pure ((← peek) == '\n')

/-- Whether a line that starts with `set` starts a statement: where no setter may follow, and where
`set` is a variable that is indexed or accessed, or a function that is called on a line of its
own. -/
def setterStarts (kinds : KindSet) : Scan Bool := do
  if kinds.has .setter then
    let next ← peek
    if next == '(' then
      skipWithin (· != ')')
      pastParameter
    else
      pure (next == '[' || next == '.')
  else
    pure true

def contextWordStarts (kinds : KindSet) : ContextWord → Scan Bool
  | .constructor => constructorStarts kinds
  | .otherwise => otherwiseStarts
  | .getter => getterStarts kinds
  | .setter => setterStarts kinds
  | .membership => pure (kinds.has .membership)
  | .instanceTest | .delegation | .cast | .constraints => pure false

/-- Reports what a context word decided; nothing is reported of `set`. -/
def report (word : ContextWord) (inserts : Bool) : Scan Unit :=
  if word = .setter then pure () else note (.contextWord word inserts)

def starts (kinds : KindSet) : Scan Bool := do
  let word ← afterModifiers
  match word.contextWord? with
  | some contextWord =>
      let inserts ← contextWordStarts kinds contextWord
      report contextWord inserts
      pure inserts
  | none =>
      note (.noContextWord word.isEmpty)
      pure true

end LeadingWord

end ContextScan

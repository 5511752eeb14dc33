import ContextScan.Scan
import ContextScan.Text.Number

namespace ContextScan

/-! Operators that only context tells from something else: `!is`, `in` and `?.`.

`!is` and `in` are whole words, so a letter or a number after them makes them the beginning of
something longer.  The two characters of `?.` may have blanks between them, also line breaks, which
belong to the token. -/

namespace SoftOperator

open Scan

/-- Reads a word that starts here, unless it is only the beginning of a longer one. -/
def wholeWord (word : String) (kind : TokenKind) : Scan (Option TokenKind) := do
  if ← advanceWord word.toList then
    markEnd
    pure (if isAlphanumeric (← peek) then none else some kind)
  else
    pure none

def notIs : Scan (Option TokenKind) := wholeWord "!is" .notIs

def membership : Scan (Option TokenKind) := wholeWord "in" .membership

def safeNav : Scan (Option TokenKind) := do
  skipWhile isBlank isBlank_nul
  if (← peek) == '?' then
    advance
    advanceWhile isBlank isBlank_nul
    if (← peek) == '.' then
      advance
      markEnd
      pure (some .safeNav)
    else
      pure none
  else
    pure none

end SoftOperator

end ContextScan

import ContextScan.Statement.Annotations
import ContextScan.Statement.Boundary
import ContextScan.Statement.LeadingWord

namespace ContextScan

/-! Whether a statement ends before the text that follows.

On a new line a statement ends unless the line clearly continues it.  On the same line it goes on
except before an `import`. -/

namespace Continuation

open Scan

/-- The characters that continue a statement when a line starts with them. -/
def continuing : Text :=
  [',', '.', ':', '*', '%', '>', '<', '=', '{', '[', '|', '&', '/']

def insertIf (starts : Bool) : Decision := if starts then .insert else .suppress

/-- A line that starts with a sign starts a statement if the sign is doubled or before a digit. -/
def sign (first : Char) : Scan Decision := do
  skip
  let next ← peek
  pure (insertIf (next == first || next.isDigit))

/-- A line that starts with `!` starts a statement unless a `=` follows.  Where a negated type check
is requested, an `i` after the `!` is passed over first, and `!is` starts a statement whatever
follows. -/
def negation (kinds : KindSet) : Scan Decision := do
  skip
  if kinds.has .notIs && (← peek) == 'i' then
    skip
    if (← peek) == 's' then
      skip
      pure .insert
    else
      pure (insertIf ((← peek) != '='))
  else
    pure (insertIf ((← peek) != '='))

/-- Decides on a new line by the first token on it, annotations apart. -/
def firstToken (kinds : KindSet) : Scan Decision := do
  let next ← peek
  if continuing.contains next then
    pure .suppress
  else if next == '+' || next == '-' then
    sign next
  else if next == '!' then
    negation kinds
  else if next == '?' then
    pure (if kinds.has .safeNav then .safeNav else .insert)
  else if next == ';' then
    Boundary.takeSemicolon
    pure .insert
  else if isLetter next then
    return insertIf (← LeadingWord.starts kinds)
  else
    pure .insert

/-- Decides on a new line.  Annotations before an accessor are passed over where one may follow; an
annotated constructor continues the statement where one may follow; elsewhere an annotation starts
a statement. -/
def newLine (kinds : KindSet) : Scan Decision := do
  if (← peek) == '@' then
    if kinds.has .constructor then
      return insertIf (!(← Annotations.constructorFollows))
    else if kinds.has .getter || kinds.has .setter then
      Annotations.skipAll .gap
      if (← peek) == '/' then pure .insert else firstToken kinds
    else
      pure .insert
  else
    firstToken kinds

def sameLine (kinds : KindSet) : Scan Decision := do
  let next ← peek
  if next == '!' then
    pure .notIs
  else if next == '?' && kinds.has .safeNav then
    pure .safeNav
  else if next == 'i' then
    return insertIf (← skipWord "import".toList)
  else
    pure .suppress

/-- Decides before something that is neither blank nor a `/`. -/
def beforeToken (kinds : KindSet) (sawLineBreak : Bool) : Scan Decision :=
  if sawLineBreak then newLine kinds else sameLine kinds

/-- Looks for the end of a statement.  The token ends where the call starts, unless a later mark
says otherwise: an inserted terminator takes no characters. -/
def decision (kinds : KindSet) : Scan Decision := do
  markEnd
  let boundary ← Boundary.seek
  if boundary == .settled then
    pure .insert
  else
    skipWhile isBlank isBlank_nul
    if (← peek) == '/' then
      pure .comment
    else
      let sawLineBreak := boundary == .lineBreak
      let reached ← beforeToken kinds sawLineBreak
      note (.terminatorDecision reached sawLineBreak)
      pure reached

end Continuation

end ContextScan

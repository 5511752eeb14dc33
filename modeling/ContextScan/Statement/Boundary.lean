import ContextScan.Scan

namespace ContextScan

/-! Where a statement may end.

A statement can end at the end of the text, at a `;`, and at a line break.  What follows a line
break, or stands on the same line, has still to be looked at. -/

inductive Boundary where
  /-- The statement ends: at the end of the text, or at a `;`, which is taken. -/
  | settled
  | lineBreak
  | sameLine
deriving DecidableEq, Repr

namespace Boundary

open Scan

def takeSemicolon : Scan Unit := do
  advance
  markEnd

/-- Passes a line feed, a carriage return, or both in this order. -/
def passLineBreak : Scan Unit := do
  if (← peek) == '\n' then
    skip
  else
    skip
    if (← peek) == '\n' then skip

/-- Looks along the line for the end of the statement. -/
def seek : Scan Boundary := do
  skipWithin isInlineBlank
  if ← atEnd then
    pure .settled
  else
    let next ← peek
    if next == ';' then
      takeSemicolon
      pure .settled
    else if isLineBreak next then
      passLineBreak
      pure .lineBreak
    else
      pure .sameLine

end Boundary

end ContextScan

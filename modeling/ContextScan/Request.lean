import ContextScan.Comment
import ContextScan.RawText
import ContextScan.SoftOperator
import ContextScan.Statement.Continuation

namespace ContextScan

/-! Answering a request for a token.

The requested kinds decide what is tried, in this order: the content of a raw string, which keeps
everything else out; a terminator; `!is`; `in`; `?.`; a comment.  Once one of them has been tried
there is no way back to another. -/

namespace Request

open Scan

/-- Reads a comment where one is requested.  Inside a string, where an interpolation may follow,
`/*` is literal. -/
def comment (kinds : KindSet) : Scan (Option TokenKind) :=
  if kinds.has .dollar || !kinds.has .blockComment then pure none else Comment.scan

/-- Reads a terminator of the given kind, or whatever stands where it would be decided. -/
def statementEnd (kinds : KindSet) (terminator : TokenKind) : Scan (Option TokenKind) := do
  match ← Continuation.decision kinds with
  | .insert => pure (some terminator)
  | .suppress => pure none
  | .comment => comment kinds
  | .safeNav => SoftOperator.safeNav
  | .notIs => if kinds.has .notIs then SoftOperator.notIs else pure none

def plainToken (kinds : KindSet) : Scan (Option TokenKind) := do
  skipWhile isBlank isBlank_nul
  let next ← peek
  if kinds.has .notIs && next == '!' then
    SoftOperator.notIs
  else if kinds.has .membership && next == 'i' then
    SoftOperator.membership
  else if kinds.has .safeNav && next == '?' then
    SoftOperator.safeNav
  else
    comment kinds

/-- Reads the requested token that the text starts with, if there is one. -/
def token (kinds : KindSet) : Scan (Option TokenKind) :=
  if kinds.has .stringContent then
    RawText.scan
  else
    match kinds.terminator? with
    | some terminator => statementEnd kinds terminator
    | none => plainToken kinds

def scan (kinds : KindSet) : Scan (Option TokenKind) := do
  let produced ← token kinds
  note (.scanned kinds produced)
  pure produced

end Request

end ContextScan

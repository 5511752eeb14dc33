import ContextScan.Scan

namespace ContextScan

/-! Block comments.

A comment starts with `/*` and ends with the `*/` that closes it.  Comments nest: inside one, each
further `/*` opens a level and each `*/` closes one, read greedily from left to right.  A text that
ends before the comment does holds no comment at all. -/

namespace Comment

open Scan

/-- What the character read last may be the first half of. -/
inductive Half where
  | neither
  /-- A `*`, which a `/` completes to `*/`. -/
  | star
  /-- A `/`, which a `*` completes to `/*`. -/
  | slash
deriving DecidableEq, Repr

/-- Reads on inside a comment.  Besides the innermost level, `outer` levels are open.

The levels are counted without a bound.  A counter of 32 bits, as `Head` has it, counts the same in
any text of fewer than `2 ^ 33` bytes, since each level takes two of them to open. -/
def body (outer : Nat) (half : Half) : Scan (Option TokenKind)
  | [] => ⟨none, [], [.unterminatedComment (outer + 1)], []⟩
  | c :: rest =>
      if c = '*' then
        match half with
        | .slash => (body (outer + 1) .neither rest).precededBy [.advance]
        | _ => (body outer .star rest).precededBy [.advance]
      else if c = '/' then
        match half, outer with
        | .star, 0 => ⟨some .blockComment, [.advance, .markEnd], [], rest⟩
        | .star, outer + 1 => (body outer .neither rest).precededBy [.advance]
        | _, outer => (body outer .slash rest).precededBy [.advance]
      else
        (body outer .neither rest).precededBy [.advance]

def scan : Scan (Option TokenKind) := do
  if (← peek) == '/' then
    advance
    if (← peek) == '*' then
      advance
      body 0 .neither
    else
      pure none
  else
    pure none

end Comment

end ContextScan

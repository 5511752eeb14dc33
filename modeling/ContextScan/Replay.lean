import ContextScan.Token

namespace ContextScan

/-! Replaying a whole text with one set of requested kinds.

A host parser would call the scanner at many places, with a set of its own at each.  A replay calls
it from the start to the end of the text with always the same set.  After a token the next call
starts where the token ends.  After a call without a token, and after one whose token consumed
nothing, the host takes one character by itself. -/

structure Segment where
  /-- The kind of a token, or nothing for a character that the host took. -/
  kind? : Option TokenKind
  span : Span
deriving DecidableEq, Repr

namespace Segment

def ofToken (token : Token) : Segment := ⟨some token.kind, token.span⟩

def ofHost (offset : Nat) (c : Char) : Segment :=
  let range := ⟨offset, offset + c.utf8Size⟩
  ⟨none, ⟨range, range⟩⟩

end Segment

/-- The segments of a text that stands at an offset. -/
def segmentsFrom (kinds : KindSet) (offset : Nat) (text : Text) : List Segment :=
  let token? := (Token.ofReader (TextReader.resume offset text) kinds).token?
  let produced := (token?.map Segment.ofToken).toList
  match text with
  | [] => produced
  | c :: rest =>
      let stop := token?.elim offset fun token => token.span.consumed.stop
      if offset < stop then
        produced ++ segmentsFrom kinds stop (dropBytes (c :: rest) (stop - offset))
      else
        produced ++ .ofHost offset c :: segmentsFrom kinds (offset + c.utf8Size) rest
termination_by text.length
decreasing_by
  · rename_i progress
    exact length_dropBytes_lt (List.cons_ne_nil _ _) (Nat.sub_pos_of_lt progress)
  · simp

def segments (text : Text) (kinds : KindSet) : List Segment := segmentsFrom kinds 0 text

end ContextScan

import ContextScan.Scan
import ContextScan.Text.Letter

namespace ContextScan

/-! The content of raw strings.

Inside a raw string one call takes the longest literal run: up to an interpolation, that is a `$`
before a letter or `{`, or up to the three quotes that close the string.  Neither belongs to the
run.  Other `$`, and one or two quotes, are literal.  An empty run is no token, and neither is a run
that the end of the text cuts off. -/

namespace RawText

/-- Whether a `$` before this text starts an interpolation.  At the end of the text it does not, as
NUL is no letter. -/
def startsInterpolation (text : Text) : Bool :=
  isLetter (text.headD '\x00') || text.headD '\x00' == '{'

/-- Whether a character is literal wherever it stands. -/
def isPlain (c : Char) : Bool := c != '$' && c != '"'

def produced (hasContent : Bool) : Option TokenKind :=
  if hasContent then some .stringContent else none

/-- Reads on in a literal run, given whether the run has content so far. -/
def content (hasContent : Bool) (text : Text) : Run (Option TokenKind) :=
  match text with
  | [] => ⟨none, [], [.unterminatedString], []⟩
  | '$' :: rest =>
      if startsInterpolation rest then ⟨produced hasContent, [.markEnd, .advance], [], rest⟩
      else (content true rest).precededBy [.markEnd, .advance]
  | '"' :: '"' :: '"' :: '"' :: rest =>
      ⟨produced hasContent, [.markEnd, .advance, .advance, .advance, .advance], [], rest⟩
  | '"' :: '"' :: '"' :: rest =>
      ⟨produced hasContent, [.markEnd, .advance, .advance, .advance], [], rest⟩
  | '"' :: '"' :: rest => (content true rest).precededBy [.markEnd, .advance, .advance]
  | '"' :: rest => (content true rest).precededBy [.markEnd, .advance]
  | _ :: rest =>
      (content true (rest.dropWhile isPlain)).precededBy [.advanceUntil '$' '"']
termination_by text.length
decreasing_by
  · simp
  · simp only [List.length_cons]; omega
  · simp
  · exact Nat.lt_succ_of_le (List.dropWhile_suffix isPlain).length_le

def scan : Scan (Option TokenKind) := content false

end RawText

end ContextScan

import ContextScan.Reader.Basic
import ContextScan.Text.Utf8

namespace ContextScan

/-! A reader over a text in memory.

Its positions are byte offsets.  Skipping moves the start of the token to the read position; the
token ends at the last mark, or at the read position if nothing was marked; a token that would end
before it starts is empty and stands at its end. -/

/-- What one call consumes, and which part of that is the token. -/
structure Span where
  /-- From the start of the call to the end of the token, blanks included. -/
  consumed : ByteRange
  /-- The token without what was skipped before it. -/
  token : ByteRange
deriving DecidableEq, Repr

def Span.isZeroWidth (span : Span) : Bool := span.token.isEmpty

structure TextReader where
  rest : Text
  start : Nat
  position : Nat
  tokenStart : Nat
  mark? : Option Nat
deriving DecidableEq, Repr

namespace TextReader

/-- A reader at an offset whose remaining text is known. -/
def resume (offset : Nat) (rest : Text) : TextReader := ⟨rest, offset, offset, offset, none⟩

def ofText (text : Text) : TextReader := resume 0 text

/-- A reader at an offset of a text, unless the offset is past the end or inside a character. -/
def at? (text : Text) (offset : Nat) : Option TextReader :=
  if isBoundary text offset then some (resume offset (dropBytes text offset)) else none

def advance (reader : TextReader) : TextReader :=
  match reader.rest with
  | [] => reader
  | c :: rest => { reader with rest, position := reader.position + c.utf8Size }

def skip (reader : TextReader) : TextReader :=
  let passed := reader.advance
  { passed with tokenStart := passed.position }

def markEnd (reader : TextReader) : TextReader := { reader with mark? := some reader.position }

/-- Searches the bytes of the text instead of its characters.  No byte of a longer UTF-8 sequence
is an ASCII character, so what is found is the start of a character. -/
def advanceUntil (left right : Char) (reader : TextReader) : Bool × TextReader :=
  let leftByte := UInt8.ofNat left.toNat
  let rightByte := UInt8.ofNat right.toNat
  let passed := byteIndex (fun byte => byte == leftByte || byte == rightByte) reader.rest
  (decide (0 < passed),
    { reader with rest := dropBytes reader.rest passed, position := reader.position + passed })

instance : Reader TextReader where
  remaining := rest
  advance := advance
  skip := skip
  markEnd := markEnd
  advanceUntil := advanceUntil

def finish (reader : TextReader) : Span :=
  let stop := reader.mark?.getD reader.position
  ⟨⟨reader.start, stop⟩, ⟨min reader.tokenStart stop, stop⟩⟩

end TextReader

end ContextScan

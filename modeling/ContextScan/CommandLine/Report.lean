import ContextScan.CommandLine.Failure
import ContextScan.Replay
import ContextScan.Text.Decimal
import ContextScan.Text.Quoted

namespace ContextScan

/-! Reports of tokens, as lines of text. -/

namespace Report

def padRight (width : Nat) (text : Text) : Text :=
  text ++ List.replicate (width - text.length) ' '

def padLeft (width : Nat) (text : Text) : Text :=
  List.replicate (width - text.length) ' ' ++ text

/-- Lines as one text, each with a line feed at its end. -/
def unlines (lines : List Text) : String :=
  String.ofList (lines.flatMap fun line => line ++ ['\n'])

def describe (text : Text) (range : ByteRange) : Text :=
  decimal range.start ++ "..".toList ++ decimal range.stop ++ ' ' :: Quoted.encode (range.slice text)

def kinds : String :=
  unlines (TokenKind.all.map fun kind =>
    padLeft 2 (decimal kind.symbol) ++ "  ".toList ++ kind.name.toList)

def probeLines (text : Text) (offset : Nat) (requested : KindSet) : List Text :=
  let head := "offset ".toList ++ decimal offset ++ ": ".toList
  match Token.scan? text offset requested with
  | some token =>
      [head ++ token.kind.name.toList,
        "  consumed ".toList ++ describe text token.span.consumed,
        "  token    ".toList ++ describe text token.span.token]
  | none => [head ++ "no token".toList]

/-- The report of one call on a file, whose path is only told if the offset does not fit. -/
def probe (path : String) (text : Text) (offset : Nat) (requested : KindSet) :
    Except Failure String :=
  if isBoundary text offset then .ok (unlines (probeLines text offset requested))
  else .error (.offsetOutOfRange offset path)

/-- The name that stands before a segment: its kind's, or a dash for a character of the host. -/
def segmentName (segment : Segment) : Text :=
  match segment.kind? with
  | some kind => kind.name.toList
  | none => ['-']

/-- Names are filled up to the same width, which is longer than any of them. -/
def nameWidth : Nat := 26

def walkLine (text : Text) (segment : Segment) : Text :=
  padRight nameWidth (segmentName segment) ++ ' ' :: describe text segment.span.token

/-- The segments that a replay lists: the tokens, or all of them. -/
def listed (text : Text) (requested : KindSet) (all : Bool) : List Segment :=
  (segments text requested).filter fun segment => all || segment.kind?.isSome

def walk (text : Text) (requested : KindSet) (all : Bool) : String :=
  unlines ((listed text requested all).map (walkLine text))

end Report

end ContextScan

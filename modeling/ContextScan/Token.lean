import ContextScan.Reader.TextReader

namespace ContextScan

/-! Tokens of a text, one call at a time. -/

structure Token where
  kind : TokenKind
  span : Span
deriving DecidableEq, Repr

/-- One call on a text: the token, if one is produced, and the events. -/
structure Scanned where
  token? : Option Token
  events : List Event
deriving DecidableEq, Repr

namespace Token

def ofReader (reader : TextReader) (kinds : KindSet) : Scanned :=
  let outcome := Reader.scan kinds reader
  ⟨outcome.produced.map fun kind => ⟨kind, outcome.reader.finish⟩, outcome.events⟩

/-- Answers a request at an offset.  An offset past the end or inside a character gives neither a
token nor an event. -/
def trace (text : Text) (offset : Nat) (kinds : KindSet) : Scanned :=
  match TextReader.at? text offset with
  | some reader => ofReader reader kinds
  | none => ⟨none, []⟩

def scan? (text : Text) (offset : Nat) (kinds : KindSet) : Option Token :=
  (trace text offset kinds).token?

end Token

end ContextScan

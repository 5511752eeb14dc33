import ContextScan.Reader.Basic

namespace ContextScan

/-! The lexer of a host parser.

A host shows the scanner one 32-bit lookahead value at a time, counts positions in characters, and
is moved only by calls.  A value that is no Unicode scalar value is shown as NUL; it is still a
character to be passed, and only the end of the input is the end. -/

inductive HostCall where
  | advance
  /-- Advances and lets the token start after the character. -/
  | skip
  | markEnd
deriving DecidableEq, Repr

def HostCall.letter : HostCall → Char
  | advance => 'A'
  | skip => 'S'
  | markEnd => 'M'

structure HostLexer where
  /-- The lookahead values from the position to the end of the input. -/
  unread : List Int32
  position : Nat
  tokenStart : Nat
  mark? : Option Nat
  resultSymbol : UInt16
  /-- The calls made so far, the latest first. -/
  calls : List HostCall
deriving Repr

namespace HostLexer

/-- The character that the scanner sees for a lookahead value: NUL for a negative value, and for
one that is a surrogate or too large to be a character. -/
def visible (lookahead : Int32) : Char := Char.ofNat lookahead.toNatClampNeg

/-- Passes one character, or none at the end of the input. -/
def pass (lexer : HostLexer) : HostLexer :=
  match lexer.unread with
  | [] => lexer
  | _ :: unread => { lexer with unread, position := lexer.position + 1 }

def record (lexer : HostLexer) (call : HostCall) : HostLexer :=
  { lexer with calls := call :: lexer.calls }

def advance (lexer : HostLexer) : HostLexer := lexer.pass.record .advance

def skip (lexer : HostLexer) : HostLexer :=
  let passed := lexer.pass
  { passed.record .skip with tokenStart := passed.position }

def markEnd (lexer : HostLexer) : HostLexer :=
  { lexer.record .markEnd with mark? := some lexer.position }

/-- Nothing is known about the input but what the calls show, so the search for a character goes
call by call. -/
instance : Reader HostLexer where
  remaining := fun lexer => lexer.unread.map visible
  advance := advance
  skip := skip
  markEnd := markEnd

def log (lexer : HostLexer) : String := String.ofList (lexer.calls.reverse.map HostCall.letter)

/-- The range of the token, in characters. -/
def tokenRange (lexer : HostLexer) : Nat × Nat :=
  let stop := lexer.mark?.getD lexer.position
  (min lexer.tokenStart stop, stop)

end HostLexer

/-- Answers a host's call.  The flags tell by symbol which kinds are requested.  Whether a token was
produced is returned; its symbol is left in the lexer.  Without a lexer or without flags there is no
token, and nothing is touched. -/
def hostScan (lexer? : Option HostLexer) (flags? : Option (List Bool)) :
    Bool × Option HostLexer :=
  match lexer?, flags? with
  | some lexer, some flags =>
      let outcome := Reader.scan (KindSet.ofFlags flags) lexer
      match outcome.produced with
      | some kind =>
          (true, some { outcome.reader with resultSymbol := UInt16.ofNat kind.symbol })
      | none => (false, some outcome.reader)
  | lexer?, _ => (false, lexer?)

end ContextScan

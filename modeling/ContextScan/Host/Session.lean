import ContextScan.Host.Lexer

namespace ContextScan

/-! A host that makes several calls on one input.

Every call starts where the session stands, with the marks and the log cleared; the result symbol
stays until a token replaces it.  After a token the session goes on at the token's end, otherwise
one character further. -/

/-- An argument that a host may fail to supply. -/
inductive Missing where
  | lexer
  | flags
deriving DecidableEq, Repr

structure HostRequest where
  kinds : KindSet
  missing? : Option Missing
  /-- Whether the session goes on one character further even after a token. -/
  bump : Bool
deriving DecidableEq, Repr

structure HostAnswer where
  found : Bool
  symbol : UInt16
  log : String
  position : Nat
  /-- The range of the token in characters, if there is one. -/
  token? : Option (Nat × Nat)
deriving DecidableEq, Repr

structure Session where
  input : List Int32
  start : Nat
  resultSymbol : UInt16
deriving Repr

namespace Session

/-- A session at the start of an input.  Before the first token the result symbol is none of a
kind. -/
def ofInput (input : List Int32) : Session := ⟨input, 0, 65535⟩

def lexer (session : Session) : HostLexer :=
  ⟨session.input.drop session.start, session.start, session.start, none, session.resultSymbol, []⟩

def flagsOf (kinds : KindSet) : List Bool := TokenKind.all.map kinds.has

def call (session : Session) (request : HostRequest) : HostAnswer × Session :=
  let lexer? := if request.missing? = some .lexer then none else some session.lexer
  let flags? := if request.missing? = some .flags then none else some (flagsOf request.kinds)
  let (found, after?) := hostScan lexer? flags?
  let after := after?.getD session.lexer
  let token? := if found then some after.tokenRange else none
  let reached := token?.elim session.start (·.2)
  let start :=
    if found && !request.bump then reached else min (reached + 1) session.input.length
  (⟨found, after.resultSymbol, after.log, after.position, token?⟩,
    { session with start, resultSymbol := after.resultSymbol })

def callAll (session : Session) : List HostRequest → List HostAnswer
  | [] => []
  | request :: later =>
      let (answer, after) := session.call request
      answer :: after.callAll later

end Session

end ContextScan

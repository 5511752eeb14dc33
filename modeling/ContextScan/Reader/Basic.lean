import ContextScan.Request

namespace ContextScan

/-! Readers: what a scan moves along.

A reader knows the text that is still to be read, and keeps books of the moves made on it.  Since a
scan depends on the remaining text only, every kind of reader gives the same answer; the books
differ. -/

/-- Advances character by character up to the next of two characters, or to the end of the text, and
tells whether any character was passed. -/
def advanceStepwise {ρ : Type} (remaining : ρ → Text) (advance : ρ → ρ) (left right : Char)
    (reader : ρ) : Bool × ρ :=
  let steps := ((remaining reader).takeWhile fun c => c != left && c != right).length
  (decide (0 < steps), steps.repeat advance reader)

class Reader (ρ : Type) where
  remaining : ρ → Text
  advance : ρ → ρ
  skip : ρ → ρ
  markEnd : ρ → ρ
  /-- Advances up to the next of two ASCII characters, and may know a quicker way than character by
  character. -/
  advanceUntil : Char → Char → ρ → Bool × ρ := advanceStepwise remaining advance

namespace Reader

variable {ρ : Type} [Reader ρ]

/-- The character to be read next, or NUL at the end of the text. -/
def peek (reader : ρ) : Char := (remaining reader).headD '\x00'

def atEnd (reader : ρ) : Bool := (remaining reader).isEmpty

def move (reader : ρ) : Move → ρ
  | .advance => advance reader
  | .skip => skip reader
  | .markEnd => markEnd reader
  | .advanceUntil left right => (advanceUntil left right reader).2

def moveAll (reader : ρ) (moves : List Move) : ρ := moves.foldl move reader

structure Outcome (ρ : Type) where
  produced : Option TokenKind
  events : List Event
  reader : ρ

/-- Answers a request at the place where the reader stands. -/
def scan (kinds : KindSet) (reader : ρ) : Outcome ρ :=
  let run := Request.scan kinds (remaining reader)
  ⟨run.value, run.events, moveAll reader run.moves⟩

end Reader

end ContextScan

import ContextScan.KindSet
import ContextScan.Vocabulary

namespace ContextScan

/-! What a scan reports about the way it took.

Events are values; a log shows an event as a message with named fields. -/

inductive Decision where
  | insert
  | suppress
  /-- A `/` follows: at most a comment is produced, and insertion is left to the next call. -/
  | comment
  /-- A `?` follows: at most safe navigation is produced. -/
  | safeNav
  /-- A `!` follows on the same line: at most a negated type check is produced. -/
  | notIs
deriving DecidableEq, Repr

def Decision.label : Decision → String
  | insert => "Insert"
  | suppress => "Suppress"
  | comment => "Comment"
  | safeNav => "SafeNav"
  | notIs => "NotIs"

inductive Event where
  | scanned (requested : KindSet) (produced : Option TokenKind)
  /-- The text after the blanks decided whether a statement ends. -/
  | terminatorDecision (decision : Decision) (sawLineBreak : Bool)
  /-- A context word decided whether the line starts a statement. -/
  | contextWord (word : ContextWord) (inserts : Bool)
  /-- The line starts with a word that is no context word, or with none after its modifiers. -/
  | noContextWord (empty : Bool)
  /-- The text ended inside a comment, with so many levels still open. -/
  | unterminatedComment (depth : Nat)
  /-- The text ended inside a raw string. -/
  | unterminatedString
deriving DecidableEq, Repr

inductive FieldValue where
  | text (value : String)
  | flag (value : Bool)
  | number (value : Nat)
deriving DecidableEq, Repr

namespace Event

def message : Event → String
  | scanned .. => "external scan"
  | terminatorDecision .. => "terminator decision"
  | contextWord .. => "context word"
  | noContextWord .. => "no context word"
  | unterminatedComment .. => "unterminated block comment"
  | unterminatedString => "raw string content reached end of input"

def fields : Event → List (String × FieldValue)
  | scanned requested produced =>
      let shown := match produced with
        | some kind => "Some(" ++ kind.label ++ ")"
        | none => "None"
      [("valid", .text requested.display), ("produced", .text shown)]
  | terminatorDecision decision sawLineBreak =>
      [("decision", .text decision.label), ("saw_newline", .flag sawLineBreak)]
  | contextWord word inserts => [("keyword", .text word.spelling), ("insert", .flag inserts)]
  | noContextWord empty => [("empty", .flag empty)]
  | unterminatedComment depth => [("depth", .number depth)]
  | unterminatedString => []

end Event

end ContextScan

import ContextScan.CommandLine.Failure
import ContextScan.KindSet
import ContextScan.Text.Split

namespace ContextScan

/-! Lists of kinds as they are written on the command line.

A list holds names between commas, with any blanks around them; empty parts count for nothing.  In
place of a list, `all` stands for every kind and `none` for no kind. -/

namespace KindList

def names (list : Text) : List Text :=
  ((split ',' list).map trim).filter fun name => !name.isEmpty

def parseName (name : Text) : Except Failure TokenKind :=
  match TokenKind.ofName? (String.ofList name) with
  | some kind => .ok kind
  | none => .error (.unknownKind (String.ofList name))

/-- Reads a list.  The first name that is none of a kind is reported. -/
def parse (list : String) : Except Failure KindSet :=
  let trimmed := String.ofList (trim list.toList)
  if trimmed = "all" then .ok .full
  else if trimmed = "none" || trimmed = "" then .ok .empty
  else ((names list.toList).mapM parseName).map KindSet.ofList

/-- Writes the names of a set in the order of their symbols. -/
def render (kinds : KindSet) : String := ",".intercalate (kinds.toList.map (·.name))

end KindList

end ContextScan

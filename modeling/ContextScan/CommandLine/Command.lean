import ContextScan.CommandLine.KindList
import ContextScan.Text.Decimal

namespace ContextScan

/-! Commands and the arguments that spell them.

Arguments are taken from left to right, and the first one that does not fit is reported.  Only then
a missing path is, and after it an unreadable default for the requested kinds. -/

inductive Command where
  | listKinds
  | probe (path : String) (offset : Nat) (kinds : KindSet)
  /-- Replays a file.  If `all` is set, characters that the host takes are listed as well. -/
  | walk (path : String) (kinds : KindSet) (all : Bool)
deriving DecidableEq, Repr

/-- The variable that holds the kinds requested by default. -/
def kindsVariable : String := "KTSCAN_KINDS"

/-- The kinds requested when neither an option nor the variable names any. -/
def defaultKinds : String := "semi,block_comment"

/-- Reads a byte offset: digits, after a plus sign or not, for a number below 2^64. -/
def parseOffset? (text : Text) : Option Nat :=
  let digits := match text with
    | '+' :: digits => digits
    | digits => digits
  (parseDecimal? digits).filter fun offset => offset < UInt64.size

def dropLead? : Text → Text → Option Text
  | [], text => some text
  | _ :: _, [] => none
  | c :: lead, d :: text => if c = d then dropLead? lead text else none

def optionValue? (lead argument : String) : Option String :=
  (dropLead? lead.toList argument.toList).map String.ofList

inductive FileCommand where
  | probe
  | walk
deriving DecidableEq, Repr

/-- What the arguments of a command on a file have said so far. -/
structure FileOptions where
  path? : Option String
  offset : Nat
  kinds? : Option KindSet
  all : Bool
deriving DecidableEq, Repr

namespace FileOptions

def initial : FileOptions := ⟨none, 0, none, false⟩

/-- Takes a path, of which there may be one. -/
def addPath (options : FileOptions) (path : String) : Except Failure FileOptions :=
  match options.path? with
  | none => .ok { options with path? := some path }
  | some _ => .error (.unexpectedArgument path)

def setOffset (options : FileOptions) (value : String) : Except Failure FileOptions :=
  match parseOffset? value.toList with
  | some offset => .ok { options with offset }
  | none => .error (.invalidOffset value)

def add (command : FileCommand) (options : FileOptions) (argument : String) :
    Except Failure FileOptions :=
  match optionValue? "--kinds=" argument with
  | some list => (KindList.parse list).map fun kinds => { options with kinds? := some kinds }
  | none =>
      match command, optionValue? "--at=" argument with
      | .probe, some value => options.setOffset value
      | _, _ =>
          if command = .walk && argument = "--all" then
            .ok { options with all := true }
          else if (dropLead? ['-'] argument.toList).isSome then
            .error (.unknownOption argument)
          else
            options.addPath argument

def finish (command : FileCommand) (options : FileOptions) (setting? : Option String) :
    Except Failure Command := do
  let path ← match options.path? with
    | some path => .ok path
    | none => .error (.missingArgument .filePath)
  let kinds ← match options.kinds? with
    | some kinds => .ok kinds
    | none => KindList.parse (setting?.getD defaultKinds)
  match command with
  | .probe => .ok (.probe path options.offset kinds)
  | .walk => .ok (.walk path kinds options.all)

end FileOptions

namespace Command

def parseFileCommand (command : FileCommand) (arguments : List String)
    (setting? : Option String) : Except Failure Command := do
  let options ← arguments.foldlM (FileOptions.add command) .initial
  options.finish command setting?

/-- Reads a command and its arguments, given the value of the variable for the requested kinds. -/
def parse (arguments : List String) (setting? : Option String) : Except Failure Command :=
  match arguments with
  | [] => .error (.missingArgument .command)
  | "kinds" :: [] => .ok .listKinds
  | "kinds" :: argument :: _ => .error (.unexpectedArgument argument)
  | "probe" :: arguments => parseFileCommand .probe arguments setting?
  | "walk" :: arguments => parseFileCommand .walk arguments setting?
  | command :: _ => .error (.unknownCommand command)

/-- The arguments that spell a command in full. -/
def arguments : Command → List String
  | listKinds => ["kinds"]
  | probe path offset kinds =>
      ["probe", path, "--at=" ++ String.ofList (decimal offset), "--kinds=" ++ KindList.render kinds]
  | walk path kinds all =>
      ["walk", path, "--kinds=" ++ KindList.render kinds] ++ if all then ["--all"] else []

def path? : Command → Option String
  | listKinds => none
  | probe path _ _ => some path
  | walk path _ _ => some path

end Command

end ContextScan

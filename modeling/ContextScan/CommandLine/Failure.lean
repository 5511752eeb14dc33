namespace ContextScan

/-! What stops a command, and how it is told. -/

inductive ReadFailure where
  | notFound
  | isDirectory
  /-- A file stands where the path needs a directory. -/
  | notDirectory
  | notUtf8
  /-- Any other reason that the system gives. -/
  | other (reason : String)
deriving DecidableEq, Repr

def ReadFailure.message : ReadFailure → String
  | notFound => "No such file or directory (os error 2)"
  | isDirectory => "Is a directory (os error 21)"
  | notDirectory => "Not a directory (os error 20)"
  | notUtf8 => "stream did not contain valid UTF-8"
  | other reason => reason

inductive Needed where
  | command
  | filePath
deriving DecidableEq, Repr

def Needed.name : Needed → String
  | command => "command"
  | filePath => "file path"

inductive Failure where
  | missingArgument (needed : Needed)
  | unknownCommand (command : String)
  | unknownOption (option : String)
  | unexpectedArgument (argument : String)
  | unknownKind (name : String)
  | invalidOffset (value : String)
  /-- The offset is past the end of the file or inside a character. -/
  | offsetOutOfRange (offset : Nat) (path : String)
  | unreadable (path : String) (reason : ReadFailure)
deriving DecidableEq, Repr

namespace Failure

def message : Failure → String
  | missingArgument needed => "missing " ++ needed.name
  | unknownCommand command => "unknown command `" ++ command ++ "`"
  | unknownOption option => "unknown option `" ++ option ++ "`"
  | unexpectedArgument argument => "unexpected argument `" ++ argument ++ "`"
  | unknownKind name =>
      "unknown token kind `" ++ name ++ "` (run `ktscan kinds` for the list)"
  | invalidOffset value => "invalid offset `" ++ value ++ "`: expected a byte offset"
  | offsetOutOfRange offset path =>
      "offset " ++ offset.repr ++ " is past the end of " ++ path ++ " or inside a character"
  | unreadable path reason => "cannot read " ++ path ++ ": " ++ reason.message

def showsUsage : Failure → Bool
  | missingArgument _ | unknownCommand _ => true
  | _ => false

end Failure

end ContextScan

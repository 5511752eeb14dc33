import ContextScan.CommandLine.Command
import ContextScan.CommandLine.Report

namespace ContextScan

/-! The program: from arguments to what it prints. -/

structure Exit where
  code : UInt32
  output : String
  errors : String
deriving DecidableEq, Repr

namespace Program

def usage : String :=
  "\n".intercalate
    ["Usage: ktscan <command> [options]",
      "",
      "Commands:",
      "  kinds                         List token kinds and their symbols",
      "  probe <file> [--at=N]         Run one scan call at byte offset N",
      "  walk <file> [--all]           Replay the scanner over a whole file",
      "",
      "Options:",
      "  --kinds=<a,b,...>   Requested kinds (also `all`, `none`)",
      "",
      "Environment:",
      "  " ++ kindsVariable ++ "        Default requested kinds (default: " ++ defaultKinds ++ ")",
      "  RUST_LOG            Scanner trace filter, e.g. kt_scanner=trace",
      ""]

abbrev FileReader := String → Except ReadFailure (List UInt8)

def readText (read : FileReader) (path : String) : Except Failure Text :=
  match read path with
  | .error reason => .error (.unreadable path reason)
  | .ok bytes =>
      match String.fromUTF8? ⟨bytes.toArray⟩ with
      | some text => .ok text.toList
      | none => .error (.unreadable path .notUtf8)

def report (read : FileReader) : Command → Except Failure String
  | .listKinds => .ok Report.kinds
  | .probe path offset kinds => do
      Report.probe path (← readText read path) offset kinds
  | .walk path kinds all => do
      return Report.walk (← readText read path) kinds all

def explain (failure : Failure) : String :=
  "error: " ++ failure.message ++ "\n" ++ if failure.showsUsage then "\n" ++ usage else ""

/-- Runs the program.  Without arguments it shows how it is used. -/
def run (arguments : List String) (setting? : Option String) (read : FileReader) : Exit :=
  if arguments.isEmpty then
    ⟨0, "", usage⟩
  else
    match Command.parse arguments setting? >>= report read with
    | .ok text => ⟨0, text, ""⟩
    | .error failure => ⟨1, "", explain failure⟩

def requestedPath? (arguments : List String) (setting? : Option String) : Option String :=
  match Command.parse arguments setting? with
  | .ok command => command.path?
  | .error _ => none

end Program

end ContextScan

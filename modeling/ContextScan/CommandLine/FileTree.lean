import ContextScan.CommandLine.Failure
import ContextScan.Text.Split

namespace ContextScan

/-! A working directory in memory.

Files and directories are listed with their paths.  A path is resolved step by step from the
working directory: every step but the last needs a directory to start from, and so does an empty
step at the end, as after a closing slash. -/

inductive FileEntry where
  | file (content : List UInt8)
  | directory
deriving DecidableEq, Repr

/-- The entries of a working directory with their paths, as lists of steps. -/
abbrev FileTree := List (List Text × FileEntry)

namespace FileTree

def steps (path : Text) : List Text := split '/' path

def ofList (entries : List (String × FileEntry)) : FileTree :=
  entries.map fun (path, entry) => (steps path.toList, entry)

/-- What stands at a place.  The working directory is there, and so are the directories that lead to
an entry. -/
def entryAt? (tree : FileTree) (place : List Text) : Option FileEntry :=
  match tree.find? fun entry => entry.1 == place with
  | some (_, entry) => some entry
  | none =>
      if place.isEmpty || tree.any fun entry => place.isPrefixOf entry.1 then some .directory
      else none

/-- Whether a step leads nowhere. -/
def stays (step : Text) : Bool := step.isEmpty || step == ['.']

def isUp (step : Text) : Bool := step == ['.', '.']

/-- Reads the file to which steps lead from a place.  Outside the working directory there are only
the directories above it. -/
def readFrom (tree : FileTree) (place : List Text) :
    List Text → Except ReadFailure (List UInt8)
  | [] =>
      match tree.entryAt? place with
      | none => .error .notFound
      | some .directory => .error .isDirectory
      | some (.file content) => .ok content
  | step :: later =>
      match tree.entryAt? place with
      | none => .error .notFound
      | some (.file _) => .error .notDirectory
      | some .directory =>
          if stays step then
            tree.readFrom place later
          else if !isUp step then
            tree.readFrom (place ++ [step]) later
          else if !place.isEmpty then
            tree.readFrom place.dropLast later
          else if later.all fun step => stays step || isUp step then
            .error .isDirectory
          else
            .error .notFound

/-- Reads the file at a path.  The empty path, and one that does not start in the working directory,
name nothing. -/
def read (tree : FileTree) (path : String) : Except ReadFailure (List UInt8) :=
  match path.toList with
  | [] => .error .notFound
  | '/' :: _ => .error .notFound
  | text => tree.readFrom [] (steps text)

end FileTree

end ContextScan

import ContextScan.Text.Blank

namespace ContextScan

/-! The words that matter at the start of a line.

Modifiers may stand before a declaration and say nothing about whether the line starts a statement.
Context words are soft keywords: whether the line continues the one before it depends on the word
and on what is requested or follows. -/

def modifiers : List String :=
  ["public", "private", "protected", "internal", "abstract", "final", "open", "override",
    "lateinit", "vararg", "noinline", "crossinline", "external", "suspend", "inline"]

def isModifier (word : Text) : Bool := modifiers.contains (String.ofList word)

/-- A soft keyword that decides whether a line starts a statement. -/
inductive ContextWord where
  | otherwise
  | membership
  | instanceTest
  | getter
  | setter
  | constructor
  | delegation
  | cast
  | constraints
deriving DecidableEq, Repr

namespace ContextWord

def all : List ContextWord :=
  [otherwise, membership, instanceTest, getter, setter, constructor, delegation, cast, constraints]

def index : ContextWord → Nat
  | otherwise => 0
  | membership => 1
  | instanceTest => 2
  | getter => 3
  | setter => 4
  | constructor => 5
  | delegation => 6
  | cast => 7
  | constraints => 8

def spelling : ContextWord → String
  | otherwise => "else"
  | membership => "in"
  | instanceTest => "instanceof"
  | getter => "get"
  | setter => "set"
  | constructor => "constructor"
  | delegation => "by"
  | cast => "as"
  | constraints => "where"

def ofText? (text : Text) : Option ContextWord :=
  all.find? fun word => word.spelling == String.ofList text

end ContextWord

def contextWords : List String := ContextWord.all.map (·.spelling)

/-- The most letters that a modifier or a context word has. -/
def longestWord : Nat := 11

/-- A run of letters as far as the vocabulary needs it.

Only a run that can still be a word of the vocabulary is kept.  A longer run, or one with a letter
outside ASCII, matches nothing, and only the number of its letters is known. -/
structure Word where
  /-- The letters of a run that may match, at most `longestWord` of them. -/
  letters : Text
  size : Nat
  matchable : Bool
deriving DecidableEq, Repr

namespace Word

def empty : Word := ⟨[], 0, true⟩

def push (word : Word) (letter : Char) : Word :=
  if word.matchable && letter.toNat < 0x80 && word.size < longestWord then
    ⟨word.letters ++ [letter], word.size + 1, true⟩
  else
    ⟨word.letters, word.size + 1, false⟩

def ofRun (run : Text) : Word := run.foldl push empty

def isEmpty (word : Word) : Bool := word.size == 0

/-- The run, if it can be a word of the vocabulary. -/
def text? (word : Word) : Option Text := if word.matchable then some word.letters else none

def isModifier (word : Word) : Bool := word.text?.any ContextScan.isModifier

def contextWord? (word : Word) : Option ContextWord := word.text?.bind ContextWord.ofText?

end Word

theorem ContextWord.ofText?_spelling (word : ContextWord) :
    ContextWord.ofText? word.spelling.toList = some word := by
  cases word <;> decide +kernel

/-- No word of the vocabulary is longer than the letters that are kept. -/
theorem length_le_longestWord {spelling : String}
    (known : spelling ∈ modifiers ∨ spelling ∈ contextWords) :
    spelling.length ≤ longestWord := by
  have each : ∀ word ∈ modifiers ++ contextWords, word.length ≤ longestWord := by decide +kernel
  exact each spelling (List.mem_append.mpr known)

theorem disjoint_modifiers_contextWords {spelling : String} (modifier : spelling ∈ modifiers) :
    spelling ∉ contextWords := by
  have each : ∀ word ∈ modifiers, word ∉ contextWords := by decide +kernel
  exact each spelling modifier

end ContextScan

import ContextScan.Proofs.Reader.Lawful
import ContextScan.Proofs.Words.Leading

namespace ContextScan

/-! Words captured into a buffer that the longest word of the vocabulary fills.

A letter is written to the buffer as long as the run can still be a word; past that the letters are
counted only.  What the buffer holds is compared with the words of its size alone.  The buffer is
never accessed outside, and neither it nor the lookup by size costs an answer: what they say of a
run is what the tables of the vocabulary say of its whole text. -/

def modifiersOfSize : Nat → List String
  | 4 => ["open"]
  | 5 => ["final"]
  | 6 => ["public", "vararg", "inline"]
  | 7 => ["private", "suspend"]
  | 8 => ["internal", "abstract", "override", "lateinit", "noinline", "external"]
  | 9 => ["protected"]
  | 11 => ["crossinline"]
  | _ => []

def isModifierBySize (word : String) : Bool := (modifiersOfSize word.utf8ByteSize).contains word

namespace ContextWord

def spelledInSize : Nat → List (String × ContextWord)
  | 2 => [("in", membership), ("by", delegation), ("as", cast)]
  | 3 => [("get", getter), ("set", setter)]
  | 4 => [("else", otherwise)]
  | 5 => [("where", constraints)]
  | 10 => [("instanceof", instanceTest)]
  | 11 => [("constructor", constructor)]
  | _ => []

def bySize? (word : String) : Option ContextWord :=
  (spelledInSize word.utf8ByteSize).lookup word

end ContextWord

/-- No word is filed under another size than its own, and none is missing. -/
theorem isModifierBySize_iff {word : String} :
    isModifierBySize word = true ↔ word ∈ modifiers := by
  constructor
  · have filed (size : Nat) : ∀ word ∈ modifiersOfSize size, word ∈ modifiers := by
      unfold modifiersOfSize
      split <;> decide
    intro known
    exact filed _ word (List.contains_iff_mem.mp known)
  · have each : ∀ word ∈ modifiers, isModifierBySize word = true := by decide +kernel
    exact each word

namespace ContextWord

theorem bySize?_eq_some_iff {word : String} {contextWord : ContextWord} :
    bySize? word = some contextWord ↔ contextWord.spelling = word := by
  constructor
  · have filed (size : Nat) : ∀ entry ∈ spelledInSize size, entry.2.spelling = entry.1 := by
      unfold spelledInSize
      split <;> decide
    intro found
    obtain ⟨before, after, split, _⟩ := List.lookup_eq_some_iff.mp found
    exact filed word.utf8ByteSize (word, contextWord) (by rw [split]; simp)
  · rintro rfl
    cases contextWord <;> decide +kernel

theorem eq_spelling_iff {run : Text} {word : ContextWord} :
    run = word.spelling.toList ↔ word.spelling = String.ofList run := by
  constructor
  · rintro rfl
    exact String.ofList_toList.symm
  · intro same
    rw [same, String.toList_ofList]

theorem getElem?_contextWords (word : ContextWord) :
    contextWords[word.index]? = some word.spelling := by
  cases word <;> rfl

end ContextWord

theorem isAscii_of_mem_vocabulary {word : String} (known : word ∈ modifiers ∨ word ∈ contextWords) :
    ∀ c ∈ word.toList, isAscii c := by
  have each : ((modifiers ++ contextWords).all fun word =>
      word.toList.all fun c => decide (c.toNat < 128)) = true := by decide +kernel
  have letters := List.all_eq_true.mp each word (List.mem_append.mpr known)
  intro c member
  have small : c.toNat < 128 := of_decide_eq_true (List.all_eq_true.mp letters c member)
  exact small

theorem fromUTF8?_utf8 (text : Text) :
    String.fromUTF8? (utf8 text).toByteArray = some (String.ofList text) := by
  have valid : (utf8 text).toByteArray.IsValidUTF8 := ByteArray.isValidUTF8_utf8Encode
  rw [String.fromUTF8?, dif_pos valid]
  rfl

theorem Reader.length_remaining_skip_lt {ρ : Type} [Reader ρ] [LawfulReader ρ] {reader : ρ}
    (letter : isLetter (peek reader) = true) :
    (remaining (skip reader)).length < (remaining reader).length := by
  rw [LawfulReader.remaining_skip]
  exact Scan.length_tail_lt isLetter_nul letter

/-- An access to a place that a buffer does not have. -/
structure OutOfRange where
  place : Nat
  capacity : Nat
deriving DecidableEq, Repr

/-- A run of letters, with the bytes of one that can still be a word of the vocabulary. -/
structure WordBuffer where
  bytes : Vector UInt8 longestWord
  /-- The number of letters, whether they are written or not. -/
  size : Nat
  matchable : Bool
deriving DecidableEq, Repr

namespace WordBuffer

def empty : WordBuffer := ⟨.replicate longestWord 0, 0, true⟩

def write (buffer : WordBuffer) (byte : UInt8) : Except OutOfRange (Vector UInt8 longestWord) :=
  if inside : buffer.size < longestWord then .ok (buffer.bytes.set buffer.size byte inside)
  else .error ⟨buffer.size, longestWord⟩

def push (buffer : WordBuffer) (letter : Char) : Except OutOfRange WordBuffer :=
  if buffer.matchable && letter.toNat < 0x80 && buffer.size < longestWord then do
    let bytes ← buffer.write (UInt8.ofNat letter.toNat)
    return { buffer with bytes, size := buffer.size + 1 }
  else
    return { buffer with size := buffer.size + 1, matchable := false }

/-- The first bytes, as many as there are letters. -/
def written (buffer : WordBuffer) : Except OutOfRange (List UInt8) :=
  if buffer.size ≤ longestWord then .ok (buffer.bytes.toList.take buffer.size)
  else .error ⟨buffer.size, longestWord⟩

def text? (buffer : WordBuffer) : Except OutOfRange (Option String) :=
  if buffer.matchable then do
    let bytes ← buffer.written
    return String.fromUTF8? bytes.toByteArray
  else
    return none

def isEmpty (buffer : WordBuffer) : Bool := buffer.size == 0

def isModifier (buffer : WordBuffer) : Except OutOfRange Bool := do
  return (← buffer.text?).any isModifierBySize

def contextWord? (buffer : WordBuffer) : Except OutOfRange (Option ContextWord) := do
  return (← buffer.text?).bind ContextWord.bySize?

/-- Takes letters off a reader, one after the other, as long as one is next. -/
def captureOnto {ρ : Type} [Reader ρ] [LawfulReader ρ] (buffer : WordBuffer) (reader : ρ) :
    Except OutOfRange (WordBuffer × ρ) :=
  if _letter : isLetter (Reader.peek reader) = true then do
    let grown ← buffer.push (Reader.peek reader)
    captureOnto grown (Reader.skip reader)
  else
    return (buffer, reader)
termination_by (Reader.remaining reader).length
decreasing_by exact Reader.length_remaining_skip_lt _letter

def capture {ρ : Type} [Reader ρ] [LawfulReader ρ] (reader : ρ) :
    Except OutOfRange (WordBuffer × ρ) :=
  captureOnto empty reader

/-- What a buffer holds of a run.  It is the whole run as long as the run can be a word. -/
structure Holds (run : Text) (buffer : WordBuffer) : Prop where
  size_eq : buffer.size = run.length
  kept : buffer.matchable = true →
    buffer.size ≤ longestWord ∧ buffer.bytes.toList.take buffer.size = utf8 run
  dropped : buffer.matchable = false → longestWord < run.length ∨ ∃ c ∈ run, ¬isAscii c

theorem holds_empty : empty.Holds [] where
  size_eq := rfl
  kept _ := ⟨Nat.zero_le _, rfl⟩
  dropped no := by cases no

variable {run : Text} {buffer : WordBuffer}

theorem take_toList_set (bytes : Vector UInt8 longestWord) {place : Nat} (byte : UInt8)
    (inside : place < longestWord) :
    (bytes.set place byte inside).toList.take (place + 1) = bytes.toList.take place ++ [byte] := by
  have within : place < bytes.toList.length := by rwa [Vector.length_toList]
  have written : (bytes.toList.set place byte)[place]? = some byte :=
    List.getElem?_set_self within
  rw [Vector.toList_set, List.take_add_one, written, List.take_set_of_le (Nat.le_refl place)]
  rfl

/-- A letter that is not written ends what can be a word. -/
theorem Holds.lost (holds : buffer.Holds run) {letter : Char}
    (unfit : ¬(buffer.matchable = true ∧ isAscii letter ∧ buffer.size < longestWord)) :
    longestWord < (run ++ [letter]).length ∨ ∃ c ∈ run ++ [letter], ¬isAscii c := by
  have longer : (run ++ [letter]).length = buffer.size + 1 := by
    rw [List.length_append, holds.size_eq]
    rfl
  cases matchable : buffer.matchable with
  | false =>
      rcases holds.dropped matchable with long | ⟨c, member, wide⟩
      · rw [← holds.size_eq] at long
        exact Or.inl (longer ▸ Nat.lt_succ_of_lt long)
      · exact Or.inr ⟨c, List.mem_append_left [letter] member, wide⟩
  | true =>
      by_cases ascii : isAscii letter
      · have full : ¬buffer.size < longestWord := fun room => unfit ⟨matchable, ascii, room⟩
        left
        omega
      · exact Or.inr ⟨letter, List.mem_append_right run List.mem_cons_self, ascii⟩

/-- A letter is pushed without fault, and held with those before it. -/
theorem Holds.push (holds : buffer.Holds run) (letter : Char) :
    ∃ grown, buffer.push letter = .ok grown ∧ grown.Holds (run ++ [letter]) := by
  have longer : buffer.size + 1 = (run ++ [letter]).length := by
    rw [List.length_append, holds.size_eq]
    rfl
  rw [WordBuffer.push]
  split
  · rename_i fits
    simp only [Bool.and_eq_true, decide_eq_true_eq] at fits
    obtain ⟨⟨matchable, ascii⟩, inside⟩ := fits
    refine ⟨⟨buffer.bytes.set buffer.size (UInt8.ofNat letter.toNat) inside, buffer.size + 1,
      buffer.matchable⟩, ?_, longer, fun _ => ⟨inside, ?_⟩, fun no => ?_⟩
    · rw [write, dif_pos inside]
      rfl
    · -- The place written to is the one after the bytes of the run.
      rw [take_toList_set, (holds.kept matchable).2, utf8_append]
      change _ = utf8 run ++ (String.utf8EncodeChar letter ++ [])
      rw [utf8EncodeChar_of_isAscii ascii, List.append_nil]
    · rw [matchable] at no
      cases no
  · rename_i unfit
    simp only [Bool.and_eq_true, decide_eq_true_eq, and_assoc] at unfit
    exact ⟨_, rfl, longer, (fun yes => by cases yes), fun _ => holds.lost unfit⟩

section Capture

variable {ρ : Type} [Reader ρ] [LawfulReader ρ]

/-- The loop takes the letters that are next, and leaves the reader behind them. -/
theorem Holds.captureOnto {passed : Text} (holds : buffer.Holds passed) {reader : ρ} {rest : Text}
    (here : Reader.remaining reader = run ++ rest) (letters : ∀ c ∈ run, isLetter c = true)
    (stops : Stops isLetter rest) :
    ∃ full, buffer.captureOnto reader
        = .ok (full, Reader.moveAll reader (List.replicate run.length .skip)) ∧
      full.Holds (passed ++ run) := by
  induction run generalizing buffer passed reader with
  | nil =>
      have ended : ¬isLetter (Reader.peek reader) = true := by
        rw [Reader.peek, here, List.nil_append, stops.headD isLetter_nul]
        exact Bool.false_ne_true
      refine ⟨buffer, ?_, by rwa [List.append_nil]⟩
      rw [WordBuffer.captureOnto, dif_neg ended]
      rfl
  | cons letter run ih =>
      have next : Reader.peek reader = letter := by rw [Reader.peek, here]; rfl
      have isNext : isLetter (Reader.peek reader) = true := by
        rw [next]
        exact letters letter List.mem_cons_self
      have onward : Reader.remaining (Reader.skip reader) = run ++ rest := by
        rw [LawfulReader.remaining_skip, here]
        rfl
      obtain ⟨grown, pushed, held⟩ := holds.push letter
      obtain ⟨full, captured, all⟩ :=
        ih held onward fun c member => letters c (List.mem_cons_of_mem letter member)
      refine ⟨full, ?_, ?_⟩
      · rw [WordBuffer.captureOnto, dif_pos isNext, next, pushed]
        exact captured
      · rwa [List.append_assoc] at all

end Capture

/-- A buffer is read without fault.  Its text is the run, or the run is no word. -/
theorem Holds.text?_eq (holds : buffer.Holds run) :
    buffer.text? = .ok (if buffer.matchable then some (String.ofList run) else none) := by
  rw [text?]
  cases matchable : buffer.matchable with
  | false => rfl
  | true =>
      obtain ⟨inside, bytes⟩ := holds.kept matchable
      rw [written, if_pos inside, bytes]
      exact congrArg Except.ok (fromUTF8?_utf8 run)

/-- A run of which letters were dropped is no word of the vocabulary. -/
theorem Holds.unknown (holds : buffer.Holds run) (unmatchable : buffer.matchable = false) :
    String.ofList run ∉ modifiers ∧ String.ofList run ∉ contextWords := by
  rw [← not_or]
  intro known
  rcases holds.dropped unmatchable with long | ⟨c, member, wide⟩
  · have short := length_le_longestWord known
    rw [String.length_ofList] at short
    omega
  · have ascii := isAscii_of_mem_vocabulary known
    rw [String.toList_ofList] at ascii
    exact wide (ascii c member)

theorem Holds.isEmpty_eq (holds : buffer.Holds run) : buffer.isEmpty = run.isEmpty := by
  rw [isEmpty, holds.size_eq]
  cases run <;> rfl

theorem Holds.isModifier_eq (holds : buffer.Holds run) :
    buffer.isModifier = .ok (Word.ofRun run).isModifier := by
  rw [isModifier, holds.text?_eq]
  refine congrArg Except.ok ?_
  rw [Bool.eq_iff_iff, Word.isModifier_ofRun_iff]
  cases matchable : buffer.matchable with
  | false => simp [(holds.unknown matchable).1]
  | true => exact isModifierBySize_iff

theorem Holds.contextWord?_eq (holds : buffer.Holds run) :
    buffer.contextWord? = .ok (Word.ofRun run).contextWord? := by
  rw [contextWord?, holds.text?_eq]
  refine congrArg Except.ok (Option.ext fun word => ?_)
  rw [Word.contextWord?_ofRun_iff, ContextWord.eq_spelling_iff]
  cases matchable : buffer.matchable with
  | false =>
      have other : word.spelling ≠ String.ofList run := by
        intro same
        apply (holds.unknown matchable).2
        rw [← same]
        exact word.spelling_mem
      simp [other]
  | true => exact ContextWord.bySize?_eq_some_iff

end WordBuffer

theorem Word.size_foldl_push (run : Text) (word : Word) :
    (run.foldl push word).size = word.size + run.length := by
  induction run generalizing word with
  | nil => rfl
  | cons letter run ih =>
      have grown : (word.push letter).size = word.size + 1 := by
        rw [push]
        split <;> rfl
      rw [List.foldl_cons, ih, grown, List.length_cons]
      omega

theorem Word.isEmpty_ofRun (run : Text) : (ofRun run).isEmpty = run.isEmpty := by
  rw [isEmpty, ofRun, size_foldl_push]
  cases run <;> simp [empty]

/-- Capturing a word is exact, whatever its length and its letters.

The buffer is never accessed outside.  The whole run of letters that is next is skipped and nothing
else, and the buffer answers as the captured word does: it is empty if the run is, a modifier if the
run is in that table, and a context word if the run stands at its index in the other.  No run is
both. -/
theorem capture_exact {ρ : Type} [Reader ρ] [LawfulReader ρ] (reader : ρ) :
    let run := (Reader.remaining reader).takeWhile isLetter
    let spelling := String.ofList run
    let word := Word.ofRun run
    let after := Reader.moveAll reader (List.replicate run.length .skip)
    (∃ buffer, WordBuffer.capture reader = .ok (buffer, after) ∧
      buffer.isEmpty = word.isEmpty ∧ buffer.isModifier = .ok word.isModifier ∧
      buffer.contextWord? = .ok word.contextWord?) ∧
    Reader.Drives LeadingWord.capture reader word after ∧
    Reader.remaining after = (Reader.remaining reader).dropWhile isLetter ∧
    (word.isEmpty = true ↔ run = []) ∧
    (word.isModifier = true ↔ spelling ∈ modifiers) ∧
    (∀ contextWord, word.contextWord? = some contextWord ↔
      contextWords[contextWord.index]? = some spelling) ∧
    ¬(word.isModifier = true ∧ word.contextWord?.isSome = true) := by
  intro run spelling word after
  have split := List.takeWhile_append_dropWhile (p := isLetter) (l := Reader.remaining reader)
  have letters : ∀ c ∈ run, isLetter c = true := List.all_eq_true.mp List.all_takeWhile
  have stops := Stops.dropWhile isLetter (Reader.remaining reader)
  have isContextWord (contextWord : ContextWord) : word.contextWord? = some contextWord ↔
      contextWords[contextWord.index]? = some spelling := by
    rw [Word.contextWord?_ofRun_iff, ContextWord.eq_spelling_iff,
      ContextWord.getElem?_contextWords, Option.some.injEq]
  obtain ⟨buffer, captured, holds⟩ :=
    WordBuffer.holds_empty.captureOnto split.symm letters stops
  have taken := LeadingWord.capture_append letters stops
  rw [split] at taken
  have drives : Reader.Drives LeadingWord.capture reader word after := by
    have stepwise : Scan.Stepwise Move.SearchesAscii LeadingWord.capture
        (Reader.remaining reader) := LeadingWord.stepwise_capture trivial
    have driven := Reader.drives_of_stepwise stepwise rfl
    rwa [taken] at driven
  have left : Reader.remaining after = (Reader.remaining reader).dropWhile isLetter :=
    (Reader.eq_of_drives drives).2.2.trans (congrArg Run.rest taken)
  refine ⟨⟨buffer, captured, ?_, holds.isModifier_eq, holds.contextWord?_eq⟩, drives, left, ?_,
    Word.isModifier_ofRun_iff, isContextWord, ?_⟩
  · rw [holds.isEmpty_eq, Word.isEmpty_ofRun]
    rfl
  · rw [Word.isEmpty_ofRun, List.isEmpty_iff]
  · rintro ⟨modifier, contextual⟩
    obtain ⟨contextWord, found⟩ := Option.isSome_iff_exists.mp contextual
    have listed := List.mem_of_getElem? ((isContextWord contextWord).mp found)
    exact disjoint_modifiers_contextWords (Word.isModifier_ofRun_iff.mp modifier) listed

/-- A run of twelve letters leaves a modifier of eleven in the buffer, and is not taken for it. -/
theorem capture_exact_overlong :
    let reader := TextReader.ofText "crossinlines(".toList
    ∃ buffer, WordBuffer.capture reader = .ok (buffer, ⟨['('], 0, 12, 12, none⟩) ∧
      buffer.isEmpty = false ∧ buffer.isModifier = .ok false ∧ buffer.contextWord? = .ok none := by
  intro reader
  obtain ⟨⟨buffer, captured, empty, modifier, contextual⟩, _⟩ := capture_exact reader
  exact ⟨buffer, captured, empty, modifier, contextual⟩

end ContextScan

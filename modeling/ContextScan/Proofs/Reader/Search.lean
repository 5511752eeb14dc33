import ContextScan.Proofs.Reader.History
import ContextScan.Proofs.Statement.Gap

namespace ContextScan

/-! Two ways to advance to the next of two ASCII characters.

A loop looks at one character after the other; a search goes through the bytes that are still to be
read and moves once.  Bytes below 128 are whole characters, so the search stops at a character, and
both ways end in one state: at the first of the two characters, or at the end of the text. -/

theorem not_plain_iff {left right c : Char} :
    (c != left && c != right) = false ↔ c = left ∨ c = right := by
  simp [Classical.or_iff_not_imp_left]

namespace Reader

variable {ρ : Type} [Reader ρ]

theorem length_remaining_advance_lt [LawfulReader ρ] {reader : ρ} (more : ¬atEnd reader = true) :
    (remaining (advance reader)).length < (remaining reader).length := by
  rw [LawfulReader.remaining_advance]
  cases left : remaining reader with
  | nil => exact absurd (by rw [atEnd, left]; rfl) more
  | cons c rest => exact Nat.lt_succ_self _

/-- Passes one character after the other, from the reader that the loop has come to and whether any
was passed on the way. -/
def advanceByLoop [LawfulReader ρ] (left right : Char) (moved : Bool) (reader : ρ) : Bool × ρ :=
  if _more : atEnd reader = true then (moved, reader)
  else if peek reader = left ∨ peek reader = right then (moved, reader)
  else advanceByLoop left right true (advance reader)
termination_by (remaining reader).length
decreasing_by exact length_remaining_advance_lt _more

theorem repeat_advance_advance (steps : Nat) (reader : ρ) :
    steps.repeat advance (advance reader) = (steps + 1).repeat advance reader := by
  induction steps with
  | zero => rfl
  | succ steps ih => rw [Nat.repeat, ih]; rfl

variable [LawfulReader ρ] {left right : Char}

theorem advanceByLoop_append {passed unread : Text} {reader : ρ}
    (here : remaining reader = passed ++ unread)
    (plain : ∀ c ∈ passed, (c != left && c != right) = true)
    (stops : Stops (fun c => c != left && c != right) unread) (moved : Bool) :
    advanceByLoop left right moved reader
      = (moved || decide (0 < passed.length), passed.length.repeat advance reader) := by
  induction passed generalizing reader moved with
  | nil =>
      rw [List.length_nil, Nat.repeat, advanceByLoop]
      cases unread with
      | nil =>
          -- A look would show NUL here, which may be wanted; the loop asks for the end first.
          have ended : atEnd reader = true := by rw [atEnd, here]; rfl
          simp [ended]
      | cons c unread =>
          have next : peek reader = c := by rw [peek, here]; rfl
          have wanted : c = left ∨ c = right := not_plain_iff.mp (stops c rfl)
          simp [next, wanted]
  | cons c passed ih =>
      have more : ¬atEnd reader = true := by rw [atEnd, here]; exact Bool.false_ne_true
      have next : peek reader = c := by rw [peek, here]; rfl
      have other : ¬(c = left ∨ c = right) := by
        rw [← not_plain_iff, plain c List.mem_cons_self]
        exact Bool.noConfusion
      have onward : remaining (advance reader) = passed ++ unread := by
        rw [LawfulReader.remaining_advance, here]
        rfl
      have later := ih onward (fun d member => plain d (List.mem_cons_of_mem c member)) true
      rw [advanceByLoop, dif_neg more, next, if_neg other, later, repeat_advance_advance]
      simp

/-- Advancing stepwise is the loop. -/
theorem advanceStepwise_eq_loop (left right : Char) (reader : ρ) :
    advanceStepwise remaining advance left right reader
      = advanceByLoop left right false reader := by
  obtain ⟨passed, unread, split, plain, stops⟩ :=
    exists_stops (fun c => c != left && c != right) (remaining reader)
  rw [advanceByLoop_append split plain stops, advanceStepwise, split, stops.takeWhile_append plain,
    Bool.false_or]

end Reader

/-- A search for either of two bytes. -/
abbrev ByteSearch := UInt8 → UInt8 → List UInt8 → Option Nat

/-- Whether a search tells the least index at which one of the two bytes is. -/
structure ByteSearch.FindsFirst (search : ByteSearch) : Prop where
  found {left right : UInt8} {bytes : List UInt8} {index : Nat}
    (told : search left right bytes = some index) :
    (∃ byte, bytes[index]? = some byte ∧ (byte = left ∨ byte = right)) ∧
      ∀ earlier ∈ bytes.take index, earlier ≠ left ∧ earlier ≠ right
  absent {left right : UInt8} {bytes : List UInt8} (told : search left right bytes = none) :
    ∀ byte ∈ bytes, byte ≠ left ∧ byte ≠ right

namespace ByteSearch

def plain : ByteSearch := fun left right bytes =>
  bytes.findIdx? fun byte => byte == left || byte == right

theorem findsFirst_plain : plain.FindsFirst where
  found {left right bytes index} told := by
    obtain ⟨inside, wanted, before⟩ := List.findIdx?_eq_some_iff_getElem.mp told
    refine ⟨⟨bytes[index], List.getElem?_eq_getElem inside, by simpa using wanted⟩, ?_⟩
    intro earlier member
    obtain ⟨place, within, rfl⟩ := List.mem_take_iff_getElem.mp member
    simpa using before place (by omega)
  absent {left right bytes} told byte member := by
    simpa using List.findIdx?_eq_none_iff.mp told byte member

/-- There is one index only that a search can tell. -/
theorem FindsFirst.getD_eq {search : ByteSearch} (finds : search.FindsFirst) (left right : UInt8)
    (bytes : List UInt8) :
    (search left right bytes).getD bytes.length
      = bytes.findIdx fun byte => byte == left || byte == right := by
  cases told : search left right bytes with
  | none =>
      have absent := finds.absent told
      exact (List.findIdx_eq_length.mpr fun byte member => by simpa using absent byte member).symm
  | some index =>
      obtain ⟨⟨byte, here, wanted⟩, before⟩ := finds.found told
      obtain ⟨inside, rfl⟩ := List.getElem?_eq_some_iff.mp here
      refine ((List.findIdx_eq inside).mpr ⟨by simpa using wanted, fun place less => ?_⟩).symm
      have member : bytes[place] ∈ bytes.take index :=
        List.mem_take_iff_getElem.mpr ⟨place, by omega, rfl⟩
      simpa using before _ member

end ByteSearch

namespace TextReader

/-- Advances a reader of a text by a search through the bytes from its position on. -/
def advanceThroughBytes (search : ByteSearch) (text : Text) (left right : Char)
    (reader : TextReader) : Bool × TextReader :=
  let unread := (utf8 text).drop reader.position
  let passed :=
    (search (UInt8.ofNat left.toNat) (UInt8.ofNat right.toNat) unread).getD unread.length
  let position := reader.position + passed
  (decide (0 < passed), { reader with rest := dropBytes text position, position })

variable {text : Text} {reader start : TextReader} {left right : Char}

theorem Within.drop_utf8 (within : reader.Within text) :
    (utf8 text).drop reader.position = utf8 reader.rest := by
  obtain ⟨passed, split, size⟩ := within.split
  rw [split, utf8_append, ← size, ← length_utf8 passed, List.drop_left]

theorem within_performAll
    (started : start = ofText text ∨ ∃ offset, at? text offset = some start)
    {history : List Operation} (ascii : ∀ operation ∈ history, operation.SearchesAscii) :
    (start.performAll history).Within text := by
  have accepted : ∃ offset, at? text offset = some start := by
    rcases started with rfl | accepted
    · exact ⟨0, at?_append [] text⟩
    · exact accepted
  obtain ⟨offset, accepted⟩ := accepted
  obtain ⟨moves, movesAscii, moved⟩ := exists_performAll_eq_moveAll ascii start
  rw [moved]
  exact (within_of_at? accepted).moveAll movesAscii

theorem Within.dropBytes_add (within : reader.Within text) (offset : Nat) :
    dropBytes text (reader.position + offset) = dropBytes reader.rest offset := by
  obtain ⟨passed, split, size⟩ := within.split
  rw [split, ← size, dropBytes_byteSize_add]

theorem advanceThroughBytes_eq {search : ByteSearch} (finds : search.FindsFirst)
    (within : reader.Within text) :
    advanceThroughBytes search text left right reader = advanceUntil left right reader := by
  simp only [advanceThroughBytes, advanceUntil, within.drop_utf8, finds.getD_eq,
    byteIndex_eq_findIdx, within.dropBytes_add]

/-- What is passed are the characters before the first of the two. -/
theorem advanceUntil_append (within : reader.Within text) (leftAscii : isAscii left)
    (rightAscii : isAscii right) {passed unread : Text} (split : reader.rest = passed ++ unread)
    (plain : ∀ c ∈ passed, (c != left && c != right) = true)
    (stops : Stops (fun c => c != left && c != right) unread) :
    let stop := reader.position + byteSize passed
    reader.advanceUntil left right = (decide (reader.position < stop),
      { reader with rest := dropBytes text stop, position := stop }) := by
  have found : byteIndex (fun byte => byte == UInt8.ofNat left.toNat
      || byte == UInt8.ofNat right.toNat) reader.rest = byteSize passed := by
    rw [byteIndex_eq_byteSize_takeWhile leftAscii rightAscii, split, stops.takeWhile_append plain]
  have moved : decide (0 < byteSize passed)
      = decide (reader.position < reader.position + byteSize passed) := by
    simp
  intro stop
  simp only [advanceUntil, found, moved, stop, within.dropBytes_add]

/-- A character between the position of a reader and the end of what it passes is one of those that
it passes. -/
theorem Within.mem_passed (within : reader.Within text) {passed unread : Text}
    (split : reader.rest = passed ++ unread) {place : Nat} {c : Char} {rest : Text}
    (stands : StandsAt text place c rest) (low : reader.position ≤ place)
    (high : place < reader.position + byteSize passed) : c ∈ passed := by
  obtain ⟨before, whole, size⟩ := within.split
  have boundary := stands.boundary
  rw [whole, split] at boundary
  obtain ⟨between, after, parts, placed⟩ := exists_between boundary (size ▸ low)
  have left : after = c :: rest := by
    rw [← stands.dropBytes_eq, whole, split, parts, ← List.append_assoc, ← placed,
      dropBytes_byteSize_append]
  subst left
  rcases List.append_eq_append_iff.mp parts with ⟨more, rfl, _⟩ | ⟨more, rfl, following⟩
  · -- All that is passed would stand before the character.
    rw [← placed, byteSize_append, byteSize_append] at high
    omega
  · cases more with
    | nil =>
        rw [← placed, byteSize_append, List.append_nil] at high
        omega
    | cons d more =>
        rw [(List.cons.inj following).1]
        exact List.mem_append_right between List.mem_cons_self

/-- Both ways to advance to the next of two ASCII characters come to one state.

The reader has been through any history in a text.  The search through its bytes, the loop and
the reader's own way report alike whether they moved, keep the token start and the mark, and stop at
one place: at the first of the two characters that is not before the reader, or at the end of the
text. -/
theorem advanceUntil_agrees
    (started : start = ofText text ∨ ∃ offset, at? text offset = some start)
    {history : List Operation} (ascii : ∀ operation ∈ history, operation.SearchesAscii)
    (leftAscii : isAscii left) (rightAscii : isAscii right)
    {search : ByteSearch} (finds : search.FindsFirst) :
    let reader := start.performAll history
    ∃ stop, let outcome := (decide (reader.position < stop),
        { reader with rest := dropBytes text stop, position := stop })
      reader.advanceUntil left right = outcome ∧
      advanceThroughBytes search text left right reader = outcome ∧
      advanceStepwise rest advance left right reader = outcome ∧
      Reader.advanceByLoop left right false reader = outcome ∧
      reader.position ≤ stop ∧
      (stop = byteSize text ∨ ∃ c rest, StandsAt text stop c rest ∧ (c = left ∨ c = right)) ∧
      ∀ place c rest, StandsAt text place c rest → reader.position ≤ place → place < stop →
        c ≠ left ∧ c ≠ right := by
  intro reader
  have within : reader.Within text := within_performAll started ascii
  obtain ⟨passed, unread, split, plain, stops⟩ :=
    exists_stops (fun c => c != left && c != right) reader.rest
  have advanced := advanceUntil_append within leftAscii rightAscii split plain stops
  have stepwise := advanceUntil_eq_stepwise leftAscii rightAscii reader
  have looped : advanceStepwise rest advance left right reader
      = Reader.advanceByLoop left right false reader :=
    Reader.advanceStepwise_eq_loop left right reader
  refine ⟨reader.position + byteSize passed, advanced,
    (advanceThroughBytes_eq finds within).trans advanced, stepwise.symm.trans advanced,
    looped.symm.trans (stepwise.symm.trans advanced), Nat.le_add_right _ _, ?_, ?_⟩
  · obtain ⟨before, whole, size⟩ := within.split
    rw [split, ← List.append_assoc] at whole
    have placed : byteSize (before ++ passed) = reader.position + byteSize passed := by
      rw [byteSize_append, size]
    cases unread with
    | nil =>
        left
        rw [whole, List.append_nil, placed]
    | cons c unread =>
        right
        exact ⟨c, unread, ⟨before ++ passed, whole, placed⟩, not_plain_iff.mp (stops c rfl)⟩
  · intro place c rest stands low high
    simpa using plain c (within.mem_passed split stands low high)

/-- NUL is what a reader sees at the end, too: past the one NUL of a text, a search for it goes on to
the end. -/
theorem advanceUntil_agrees_nul :
    let text := "aé\x00ü€".toList
    let history : List Operation := [.skip, .markEnd, .advanceUntil '\x00' '\x00', .advance]
    let reader := (ofText text).performAll history
    reader.position = 4 ∧
      advanceThroughBytes .plain text '\x00' '\x00' reader
        = (true, ⟨[], 0, 9, 1, some 1⟩) ∧
      Reader.advanceByLoop '\x00' '\x00' false reader = (true, ⟨[], 0, 9, 1, some 1⟩) := by
  intro text history reader
  have nul : isAscii '\x00' := by simp [isAscii]
  have ascii : ∀ operation ∈ history, operation.SearchesAscii := by
    simp [history, Operation.SearchesAscii, nul]
  have started : ofText text = ofText text ∨ ∃ offset, at? text offset = some (ofText text) :=
    Or.inl rfl
  obtain ⟨stop, advanced, bytes, _, looped, _⟩ :=
    advanceUntil_agrees started ascii nul nul ByteSearch.findsFirst_plain
  have ends : reader.advanceUntil '\x00' '\x00' = (true, ⟨[], 0, 9, 1, some 1⟩) := by decide
  exact ⟨by decide, bytes.trans (advanced.symm.trans ends), looped.trans (advanced.symm.trans ends)⟩

end TextReader

end ContextScan

import ContextScan.Proofs.Statement.Ending

namespace ContextScan

/-! What stands before the next token.

A gap is a run of blanks.  Where the end of a statement is looked for, a gap is skipped as a whole,
however the blanks and line breaks in it follow each other, and all that matters of it afterwards is
whether it has a line break. -/

open Scan

def IsGap (text : Text) : Prop := ∀ c ∈ text, isBlank c = true

def HasLineBreak (text : Text) : Prop := text.any isLineBreak = true

theorem not_hasLineBreak_iff {text : Text} :
    ¬HasLineBreak text ↔ text.any isLineBreak = false := by
  rw [HasLineBreak, Bool.not_eq_true]

/-- Whether a text does not start with a character of a class. -/
def Stops (accepts : Char → Bool) (text : Text) : Prop :=
  ∀ c, text.head? = some c → accepts c = false

theorem Stops.cons {accepts : Char → Bool} {c : Char} {rest : Text} (refused : accepts c = false) :
    Stops accepts (c :: rest) := fun _ next => by cases next; exact refused

theorem Stops.headD {accepts : Char → Bool} {text : Text} (stops : Stops accepts text)
    (nul : accepts '\x00' = false) : accepts (text.headD '\x00') = false := by
  cases text with
  | nil => exact nul
  | cons c rest => exact stops c rfl

theorem Stops.of_headD {accepts : Char → Bool} {text : Text}
    (refused : accepts (text.headD '\x00') = false) : Stops accepts text := by
  cases text with
  | nil => intro c next; cases next
  | cons c rest => exact .cons refused

theorem Stops.mono {accepts wider : Char → Bool} {text : Text} (stops : Stops wider text)
    (within : ∀ c, accepts c = true → wider c = true) : Stops accepts text := by
  intro c next
  have refused := stops c next
  cases accepted : accepts c with
  | false => rfl
  | true => rw [within c accepted] at refused; cases refused

theorem Stops.takeWhile_append {accepts : Char → Bool} {passed rest : Text}
    (stops : Stops accepts rest) (inside : ∀ c ∈ passed, accepts c = true) :
    (passed ++ rest).takeWhile accepts = passed := by
  rw [List.takeWhile_append_of_pos inside]
  cases rest with
  | nil => simp
  | cons c rest => simp [stops c rfl]

theorem Stops.dropWhile_append {accepts : Char → Bool} {passed rest : Text}
    (stops : Stops accepts rest) (inside : ∀ c ∈ passed, accepts c = true) :
    (passed ++ rest).dropWhile accepts = rest := by
  rw [List.dropWhile_append_of_pos inside]
  cases rest with
  | nil => rfl
  | cons c rest => simp [stops c rfl]

theorem Stops.dropWhile (accepts : Char → Bool) (text : Text) :
    Stops accepts (text.dropWhile accepts) := by
  intro c next
  have stopped := List.head?_dropWhile_not accepts text
  rw [next] at stopped
  simpa using stopped

theorem exists_stops (accepts : Char → Bool) (text : Text) :
    ∃ passed rest, text = passed ++ rest ∧ (∀ c ∈ passed, accepts c = true) ∧
      Stops accepts rest :=
  ⟨text.takeWhile accepts, text.dropWhile accepts, List.takeWhile_append_dropWhile.symm,
    List.all_eq_true.mp List.all_takeWhile, .dropWhile accepts text⟩

theorem exists_gap (text : Text) :
    ∃ gap rest, text = gap ++ rest ∧ IsGap gap ∧ Stops isBlank rest :=
  exists_stops isBlank text

/-- A run of characters of a class ends where the first other character stands. -/
theorem Stops.append_inj {accepts : Char → Bool} {run other rest otherRest : Text}
    (stops : Stops accepts rest) (otherStops : Stops accepts otherRest)
    (inside : ∀ c ∈ run, accepts c = true) (otherInside : ∀ c ∈ other, accepts c = true)
    (same : run ++ rest = other ++ otherRest) : run = other ∧ rest = otherRest := by
  have runs : run = other := by
    rw [← stops.takeWhile_append inside, same, otherStops.takeWhile_append otherInside]
  subst runs
  exact ⟨rfl, List.append_cancel_left same⟩

theorem IsGap.append_inj {gap other rest otherRest : Text} (blank : IsGap gap)
    (otherBlank : IsGap other) (stops : Stops isBlank rest) (otherStops : Stops isBlank otherRest)
    (same : gap ++ rest = other ++ otherRest) : gap = other ∧ rest = otherRest :=
  stops.append_inj otherStops blank otherBlank same

theorem Run.precededBy_precededBy {α : Type} (run : Run α) (moves earlier : List Move) :
    (run.precededBy moves).precededBy earlier = run.precededBy (earlier ++ moves) := by
  simp [precededBy]

namespace Scan

/-- What comes after a run that reports nothing. -/
theorem bind_silent {α β : Type} {first : Scan α} {next : α → Scan β} {text rest : Text}
    {value : α} {moves : List Move} (run : first text = ⟨value, moves, [], rest⟩) :
    (first >>= next) text = (next value rest).precededBy moves := by
  rw [bind_apply, run]
  rfl

section Loops

variable {move : Move} {accepts : Char → Bool} {passed rest : Text}

/-- What a loop over a class comes to: the longest run of its characters is passed. -/
def passing (move : Move) (accepts : Char → Bool) : Scan Unit := fun text =>
  ⟨(), List.replicate (text.takeWhile accepts).length move, [], text.dropWhile accepts⟩

theorem passing_of_accepts {c : Char} (accepted : accepts c = true) (text : Text) :
    passing move accepts (c :: text) = (passing move accepts text).precededBy [move] := by
  simp [passing, accepted, List.replicate_succ, Run.precededBy]

theorem passing_of_refuses {c : Char} (refused : accepts c = false) (text : Text) :
    passing move accepts (c :: text) = ⟨(), [], [], c :: text⟩ := by
  simp [passing, refused]

/-- Where the text has ended the next character is NUL, which stops the loop. -/
theorem passWhile_eq_passing (move : Move) (nul : accepts '\x00' = false) :
    passWhile move accepts nul = passing move accepts := by
  funext text
  induction text with
  | nil =>
      rw [passWhile, List.headD_nil, nul]
      rfl
  | cons c text ih =>
      rw [passWhile, List.headD_cons, List.tail_cons, ih]
      cases accepted : accepts c with
      | true => exact (passing_of_accepts accepted text).symm
      | false => exact (passing_of_refuses accepted text).symm

theorem skipWhile_eq_passing (nul : accepts '\x00' = false) :
    skipWhile accepts nul = passing .skip accepts := passWhile_eq_passing .skip nul

theorem advanceWhile_eq_passing (nul : accepts '\x00' = false) :
    advanceWhile accepts nul = passing .advance accepts := passWhile_eq_passing .advance nul

theorem skipWithin_eq_passing (accepts : Char → Bool) :
    skipWithin accepts = passing .skip accepts := by
  funext text
  induction text with
  | nil => rfl
  | cons c text ih =>
      rw [skipWithin, ih]
      cases accepted : accepts c with
      | true => exact (passing_of_accepts accepted text).symm
      | false => exact (passing_of_refuses accepted text).symm

theorem passing_append (inside : ∀ c ∈ passed, accepts c = true) (stops : Stops accepts rest) :
    passing move accepts (passed ++ rest) = ⟨(), List.replicate passed.length move, [], rest⟩ := by
  rw [passing, stops.takeWhile_append inside, stops.dropWhile_append inside]

theorem skipWhile_append {nul : accepts '\x00' = false} (inside : ∀ c ∈ passed, accepts c = true)
    (stops : Stops accepts rest) : skipWhile accepts nul (passed ++ rest)
      = ⟨(), List.replicate passed.length .skip, [], rest⟩ :=
  (congrFun (skipWhile_eq_passing nul) _).trans (passing_append inside stops)

theorem advanceWhile_append {nul : accepts '\x00' = false}
    (inside : ∀ c ∈ passed, accepts c = true) (stops : Stops accepts rest) :
    advanceWhile accepts nul (passed ++ rest)
      = ⟨(), List.replicate passed.length .advance, [], rest⟩ :=
  (congrFun (advanceWhile_eq_passing nul) _).trans (passing_append inside stops)

theorem skipWithin_append (inside : ∀ c ∈ passed, accepts c = true) (stops : Stops accepts rest) :
    skipWithin accepts (passed ++ rest) = ⟨(), List.replicate passed.length .skip, [], rest⟩ :=
  (congrFun (skipWithin_eq_passing accepts) _).trans (passing_append inside stops)

theorem skipWhile_of_stops {nul : accepts '\x00' = false} {text : Text}
    (stops : Stops accepts text) : skipWhile accepts nul text = ⟨(), [], [], text⟩ :=
  have nothing : ∀ c ∈ ([] : Text), accepts c = true := by simp
  skipWhile_append nothing stops

theorem stops_skipWhile {nul : accepts '\x00' = false} (text : Text) :
    Stops accepts (skipWhile accepts nul text).rest := by
  rw [skipWhile_eq_passing]
  exact .dropWhile accepts text

theorem skipWithin_of_stops {text : Text} (stops : Stops accepts text) :
    skipWithin accepts text = ⟨(), [], [], text⟩ :=
  have nothing : ∀ c ∈ ([] : Text), accepts c = true := by simp
  skipWithin_append nothing stops

end Loops

end Scan

theorem isBlank_of_isInlineBlank {c : Char} (inline : isInlineBlank c = true) :
    isBlank c = true :=
  (Bool.and_eq_true _ _ ▸ inline).1

namespace Boundary

/-- The end of a statement is looked for past the blanks on the line. -/
theorem seek_append {inline rest : Text} (blank : ∀ c ∈ inline, isInlineBlank c = true)
    (stops : Stops isInlineBlank rest) :
    seek (inline ++ rest) = (seek rest).precededBy (List.replicate inline.length .skip) := by
  rw [seek, bind_silent (skipWithin_append blank stops), bind_silent (skipWithin_of_stops stops)]
  rfl

theorem seek_semicolon (rest : Text) :
    seek (';' :: rest) = ⟨.settled, [.advance, .markEnd], [], rest⟩ := rfl

theorem seek_sameLine {c : Char} {rest : Text} (visible : isBlank c = false) (other : c ≠ ';') :
    seek (c :: rest) = ⟨.sameLine, [], [], c :: rest⟩ := by
  have inline : isInlineBlank c = false := by rw [isInlineBlank, visible]; rfl
  have line : isLineBreak c = false := by
    cases lineBreak : isLineBreak c with
    | false => rfl
    | true => rw [isBlank_of_isLineBreak lineBreak] at visible; cases visible
  rw [seek, bind_silent (skipWithin_of_stops (.cons inline))]
  simp [atEnd, peek, other, line, Run.precededBy]

/-- A line break takes a line feed along that belongs to it. -/
theorem seek_lineBreak {c : Char} (gap : Text) {rest : Text} (lineBreak : isLineBreak c = true)
    (stops : Stops isBlank rest) :
    ∃ fed later, gap = fed ++ later ∧ seek (c :: (gap ++ rest))
      = ⟨.lineBreak, List.replicate (fed.length + 1) .skip, [], later ++ rest⟩ := by
  have inline : isInlineBlank c = false := by simp [isInlineBlank, lineBreak]
  have other : c ≠ ';' := by rintro rfl; cases lineBreak
  have passed : seek (c :: (gap ++ rest))
      = (do passLineBreak; pure Boundary.lineBreak : Scan Boundary) (c :: (gap ++ rest)) := by
    rw [seek, bind_silent (skipWithin_of_stops (.cons inline))]
    simp [atEnd, peek, other, lineBreak, Run.precededBy]
  rw [passed]
  by_cases lineFeed : c = '\n'
  · exact ⟨[], gap, rfl, by simp [passLineBreak, peek, skip, lineFeed]⟩
  · by_cases paired : (gap ++ rest).head? = some '\n'
    · cases gap with
      | nil => exact absurd (stops _ paired) (by decide)
      | cons next gap =>
          have same : next = '\n' := Option.some.inj paired
          exact ⟨[next], gap, rfl, by simp [passLineBreak, peek, skip, lineFeed, same]⟩
    · have next : (gap ++ rest).headD '\x00' ≠ '\n' := fun same =>
        paired (head?_of_headD_beq (beq_iff_eq.mpr same) (by decide))
      refine ⟨[], gap, rfl, ?_⟩
      rw [bind_apply]
      simp only [passLineBreak, bind_apply, peek, skip, List.headD_cons, List.tail_cons, lineFeed,
        next, beq_iff_eq, ↓reduceIte]
      rfl

end Boundary

namespace Continuation

/-- Decides before something that is no blank. -/
def beforeVisible (kinds : KindSet) (sawLineBreak : Bool) : Scan Decision := do
  if (← peek) == '/' then
    pure .comment
  else
    let reached ← beforeToken kinds sawLineBreak
    note (.terminatorDecision reached sawLineBreak)
    pure reached

/-- Decides after a gap, given whether the gap has a line break. -/
def afterGap (kinds : KindSet) (sawLineBreak : Bool) (text : Text) : Run Decision :=
  if sawLineBreak then
    beforeVisible kinds true text
  else
    match text with
    | [] => ⟨.insert, [], [], []⟩
    | ';' :: rest => ⟨.insert, [.advance, .markEnd], [], rest⟩
    | text => beforeVisible kinds false text

theorem afterGap_cons (kinds : KindSet) (sawLineBreak : Bool) {c : Char} (rest : Text)
    (semicolon : c ≠ ';') :
    afterGap kinds sawLineBreak (c :: rest) = beforeVisible kinds sawLineBreak (c :: rest) := by
  cases sawLineBreak <;> simp [afterGap, semicolon]

section Decision

variable {kinds : KindSet} {text gap rest : Text} {moves : List Move}

theorem decision_settled (sought : Boundary.seek text = ⟨.settled, moves, [], rest⟩) :
    decision kinds text = ⟨.insert, .markEnd :: moves, [], rest⟩ := by
  have marked : markEnd text = ⟨(), [.markEnd], [], text⟩ := rfl
  rw [decision, bind_silent marked, bind_silent sought]
  simp [Run.precededBy]

theorem decision_unsettled {boundary : Boundary}
    (sought : Boundary.seek text = ⟨boundary, moves, [], gap ++ rest⟩)
    (unsettled : boundary ≠ .settled) (blank : IsGap gap) (stops : Stops isBlank rest) :
    decision kinds text = (beforeVisible kinds (boundary == .lineBreak) rest).precededBy
      (.markEnd :: (moves ++ List.replicate gap.length .skip)) := by
  have marked : markEnd text = ⟨(), [.markEnd], [], text⟩ := rfl
  have skipped : skipWhile isBlank isBlank_nul (gap ++ rest)
      = ⟨(), List.replicate gap.length .skip, [], rest⟩ := skipWhile_append blank stops
  rw [decision, bind_silent marked, bind_silent sought, if_neg (by simpa using unsettled),
    bind_silent skipped, Run.precededBy_precededBy, Run.precededBy_precededBy]
  rfl

theorem decision_inline (kinds : KindSet) (inline : ∀ c ∈ gap, isInlineBlank c = true)
    (stops : Stops isBlank rest) :
    decision kinds (gap ++ rest) = (afterGap kinds false rest).precededBy
      (.markEnd :: List.replicate gap.length .skip) := by
  have sought := Boundary.seek_append inline (stops.mono fun _ => isBlank_of_isInlineBlank)
  cases rest with
  | nil => exact decision_settled sought
  | cons c rest =>
      by_cases semicolon : c = ';'
      · subst semicolon
        rw [Boundary.seek_semicolon] at sought
        exact decision_settled sought
      · rw [Boundary.seek_sameLine (stops c rfl) semicolon] at sought
        have still : IsGap [] := fun _ member => absurd member List.not_mem_nil
        have soughtStill : Boundary.seek (gap ++ c :: rest) = ⟨.sameLine, _, [], [] ++ c :: rest⟩ :=
          sought
        rw [decision_unsettled soughtStill (by simp) still stops,
          afterGap_cons kinds false rest semicolon]
        change (beforeVisible kinds false (c :: rest)).precededBy
          (.markEnd :: (List.replicate gap.length .skip ++ [] ++ [])) = _
        rw [List.append_nil, List.append_nil]

theorem decision_lineBreak (kinds : KindSet) {inline : Text} {c : Char}
    (within : ∀ c ∈ inline, isInlineBlank c = true) (lineBreak : isLineBreak c = true)
    (blank : IsGap gap) (stops : Stops isBlank rest) :
    decision kinds (inline ++ c :: (gap ++ rest)) = (afterGap kinds true rest).precededBy
      (.markEnd :: List.replicate (inline.length + (gap.length + 1)) .skip) := by
  have stopsInline : Stops isInlineBlank (c :: (gap ++ rest)) :=
    .cons (by simp [isInlineBlank, lineBreak])
  have sought := Boundary.seek_append within stopsInline
  obtain ⟨fed, later, rfl, passed⟩ := Boundary.seek_lineBreak gap lineBreak stops
  have laterBlank : IsGap later := fun c member => blank c (List.mem_append_right fed member)
  rw [passed] at sought
  have skips : List.replicate (inline.length + ((fed ++ later).length + 1)) Move.skip
      = List.replicate inline.length .skip ++ List.replicate (fed.length + 1) .skip
        ++ List.replicate later.length .skip := by
    rw [List.replicate_append_replicate, List.replicate_append_replicate, List.length_append]
    congr 1
    omega
  rw [decision_unsettled sought (by simp) laterBlank stops, skips]
  rfl

/-- Of a gap only its size and whether it has a line break matter to a decision. -/
theorem decision_append (kinds : KindSet) (blank : IsGap gap) (stops : Stops isBlank rest) :
    decision kinds (gap ++ rest)
      = (afterGap kinds (gap.any isLineBreak) rest).precededBy
          (.markEnd :: List.replicate gap.length .skip) := by
  obtain ⟨inline, others, rfl, within, ends⟩ := exists_stops isInlineBlank gap
  cases others with
  | nil =>
      rw [List.append_nil] at blank ⊢
      have unbroken : inline.any isLineBreak = false := by
        rw [List.any_eq_false]
        intro c member
        have parts := Bool.and_eq_true _ _ ▸ within c member
        simpa using parts.2
      rw [unbroken]
      exact decision_inline kinds within stops
  | cons c others =>
      have visible : isBlank c = true := blank c (by simp)
      have lineBreak : isLineBreak c = true := by
        have refused := ends c rfl
        simpa [isInlineBlank, visible] using refused
      have broken : (inline ++ c :: others).any isLineBreak = true := by simp [lineBreak]
      have othersBlank : IsGap others := fun c member => blank c (by simp [member])
      rw [broken, List.append_assoc, List.length_append]
      exact decision_lineBreak kinds within lineBreak othersBlank stops

end Decision

end Continuation

end ContextScan

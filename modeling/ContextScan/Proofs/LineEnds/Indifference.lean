import ContextScan.Proofs.LineEnds.Blind
import ContextScan.Proofs.Text.LoneReturns

namespace ContextScan

/-! Runs on a text with carriage returns for its line feeds.

A scan is indifferent to the change if it makes the same run on both texts, and leaves the same of
them.  A scan that does not tell line breaks apart is.  Two resolvers look for a line feed alone:
the one that passes the arguments of an annotation, and the one that looks behind a call of
`set`.  They are indifferent where there is no line feed that they would find. -/

open Scan

/-- The run on the text with carriage returns. -/
def Run.withReturns {α : Type} (run : Run α) : Run α :=
  { run with rest := ContextScan.withReturns run.rest }

def Scan.Indifferent {α : Type} (scan : Scan α) (text : Text) : Prop :=
  scan (withReturns text) = (scan text).withReturns

variable {text : Text}

namespace Scan.Indifferent

variable {α β : Type}

theorem pure (value : α) : Indifferent (pure value) text := rfl

theorem skip : Indifferent skip text :=
  congrArg (Run.mk () [.skip] []) List.map_tail.symm

theorem bind {first : Scan α} {next : α → Scan β} (before : Indifferent first text)
    (after : Indifferent (next (first text).value) (first text).rest) :
    Indifferent (first >>= next) text := by
  have later : next (first (withReturns text)).value (first (withReturns text)).rest
      = (next (first text).value (first text).rest).withReturns := by
    rw [before]
    exact after
  rw [Indifferent, bind_apply, later, before]
  rfl

theorem ite {condition : Prop} [Decidable condition] {positive negative : Scan α}
    (whenTrue : condition → Indifferent positive text)
    (whenFalse : ¬condition → Indifferent negative text) :
    Indifferent (if condition then positive else negative) text := by
  split
  · exact whenTrue ‹_›
  · exact whenFalse ‹_›

theorem peek {next : Char → Scan β} (same : next '\r' = next '\n')
    (after : Indifferent (next (text.headD '\x00')) text) : Indifferent (peek >>= next) text :=
  (congrFun (apply_headD_withReturns same) (withReturns text)).trans after

/-- A look at a next character that is no line feed. -/
theorem peekOther {next : Char → Scan β} (other : text.headD '\x00' ≠ '\n')
    (after : Indifferent (next (text.headD '\x00')) text) :
    Indifferent (Scan.peek >>= next) text :=
  (congrArg (next · (withReturns text)) (headD_withReturns_of_ne other)).trans after

theorem precededBy {later : Scan α} (same : Indifferent later text) (moves : List Move) :
    (later (withReturns text)).precededBy moves = ((later text).precededBy moves).withReturns :=
  congrArg (Run.precededBy · moves) same

end Scan.Indifferent

/-- What does not tell line breaks apart makes the same run. -/
theorem Scan.BreakBlind.indifferent {α : Type} {scan : Scan α}
    (blind : BreakBlind @Indifferent scan text) : Indifferent scan text := by
  induction blind with
  | given known => exact known
  | pure | note | markEnd => rfl
  | @atEnd text => cases text <;> rfl
  | peek same _ ih => exact .peek same ih
  | advance visible => exact congrArg (Run.mk () [.advance] []) List.map_tail.symm
  | skip visible => exact .skip
  | passing passes same =>
      rw [Indifferent, Scan.passing, takeWhile_withReturns same, dropWhile_withReturns same,
        length_withReturns]
      rfl
  | @advanceUntil text left right visible =>
      have other {needle : Char} (visible : isLineBreak needle = false) :
          ('\r' != needle) = ('\n' != needle) := by
        simp [bne, beq_false_of_break visible]
      have same : ('\r' != left && '\r' != right) = ('\n' != left && '\n' != right) := by
        rw [other visible.1, other visible.2]
      exact congrArg (Run.mk () [.advanceUntil left right] []) (dropWhile_withReturns same)
  | bind _ _ before after => exact .bind before after

theorem Comment.indifferent_body (outer : Nat) (half : Half) :
    Indifferent (body outer half) text := by
  induction text generalizing outer half with
  | nil => rfl
  | cons c rest ih =>
      by_cases lineFeed : c = '\n'
      · subst lineFeed
        exact (ih outer .neither).precededBy [.advance]
      · rw [body_eq]
        refine .bind BreakBlind.atEnd.indifferent (.peekOther lineFeed ?_)
        have advances : Indifferent advance (c :: rest) := rfl
        refine .ite (fun _ => .bind advances ?_) fun _ => .ite (fun _ => .bind advances ?_) fun _ =>
          .bind advances (ih _ _)
        · cases half <;> exact ih _ _
        · cases half with
          | neither | slash => exact ih _ _
          | star =>
              cases outer with
              | zero => exact rfl
              | succ outer => exact ih _ _

namespace Annotations

/-- Whether a line feed stands in the arguments of an annotation that is passed over. -/
def feedsArguments : Place → Text → Bool
  | _, [] => false
  | .gap, c :: rest =>
      if isBlank c then feedsArguments .gap rest
      else if c = '@' then feedsArguments .name rest
      else false
  | .name, c :: rest =>
      feedsArguments (if isBlank c then .gap else if c = '(' then .arguments else .name) rest
  | .arguments, c :: rest =>
      if c = '\n' then true else feedsArguments (if c = ')' then .name else .arguments) rest

-- Stated by hand, because the generated equations evaluate `isBlank` to tell the places apart.
theorem feedsArguments_gap (c : Char) (rest : Text) : feedsArguments .gap (c :: rest)
    = if isBlank c then feedsArguments .gap rest
      else if c = '@' then feedsArguments .name rest else false := rfl

theorem feedsArguments_arguments (c : Char) (rest : Text) : feedsArguments .arguments (c :: rest)
    = if c = '\n' then true
      else feedsArguments (if c = ')' then .name else .arguments) rest := rfl

/-- Only in the arguments of an annotation a line feed is told from a carriage return. -/
theorem indifferent_skipAll {place : Place} (unfed : feedsArguments place text = false) :
    Indifferent (skipAll place) text := by
  induction text generalizing place with
  | nil =>
      change skipAll place [] = (skipAll place []).withReturns
      rw [skipAll_nil]
      rfl
  | cons c rest ih =>
      by_cases lineFeed : c = '\n'
      · subst lineFeed
        cases place with
        | gap =>
            have gap : Indifferent (skipAll .gap) rest := ih unfed
            change skipAll .gap ('\r' :: withReturns rest) = _
            rw [skipAll_gap_cons, skipAll_gap_cons]
            exact gap.precededBy [.skip]
        | name =>
            have gap : Indifferent (skipAll .gap) rest := ih unfed
            change skipAll .name ('\r' :: withReturns rest) = _
            rw [skipAll_name_cons, skipAll_name_cons]
            exact gap.precededBy [.skip]
        | arguments => cases unfed
      · cases place with
        | gap =>
            rw [feedsArguments_gap] at unfed
            rw [skipAll_gap]
            refine .peekOther lineFeed (.ite (fun blank : isBlank c = true => .bind .skip (ih ?_))
              fun visible : ¬isBlank c = true =>
                .ite (fun start : c = '@' => .bind .skip (ih ?_)) fun _ => .pure ())
            · rwa [if_pos blank] at unfed
            · rwa [if_neg visible, if_pos start] at unfed
        | name =>
            rw [skipAll_name]
            exact .bind BreakBlind.atEnd.indifferent (.peekOther lineFeed (.bind .skip (ih unfed)))
        | arguments =>
            rw [feedsArguments_arguments, if_neg lineFeed] at unfed
            rw [skipAll_arguments]
            refine .bind BreakBlind.atEnd.indifferent (.peekOther lineFeed (.bind .skip (ih ?_)))
            change feedsArguments (if c = '\n' then .gap else _) rest = false
            rw [if_neg lineFeed]
            exact unfed

end Annotations

/-- Whether arguments stand here, and after them on their line only blanks and then a line feed. -/
def ArgumentsAlone (text : Text) : Prop :=
  ∃ arguments blanks rest, text = '(' :: (arguments ++ ')' :: (blanks ++ '\n' :: rest)) ∧
    ')' ∉ arguments ∧ ∀ c ∈ blanks, (isBlank c && c != '\n') = true

/-- What follows the first closing parenthesis tells whether the arguments stand alone. -/
theorem ArgumentsAlone.of_next (called : text.headD '\x00' = '(')
    (fed : ((text.dropWhile (· != ')')).tail.dropWhile fun c => isBlank c && c != '\n').headD '\x00'
      = '\n') : ArgumentsAlone text := by
  cases text with
  | nil => cases called
  | cons c text =>
      cases called
      obtain ⟨arguments, later, rfl, inside, ends⟩ := exists_stops (· != ')') text
      rw [List.dropWhile_cons_of_pos (by decide), ends.dropWhile_append inside] at fed
      cases later with
      | nil => cases fed
      | cons closing after =>
          have closes : closing = ')' := by simpa using ends closing rfl
          subst closes
          obtain ⟨blanks, rest, rfl, blank, stops⟩ :=
            exists_stops (fun c => isBlank c && c != '\n') after
          rw [List.tail_cons, stops.dropWhile_append blank] at fed
          cases rest with
          | nil => cases fed
          | cons lineFeed rest =>
              cases fed
              refine ⟨arguments, blanks, rest, rfl, fun member => ?_, blank⟩
              cases inside ')' member

namespace LeadingWord

/-- Blanks are passed alike up to where no line feed stands. -/
theorem indifferent_skipLine
    (unfed : (text.dropWhile fun c => isBlank c && c != '\n').headD '\x00' ≠ '\n') :
    Indifferent (passing .skip fun c => isBlank c && c != '\n') text := by
  obtain ⟨blanks, rest, rfl, inside, stops⟩ := exists_stops (fun c => isBlank c && c != '\n') text
  rw [stops.dropWhile_append inside] at unfed
  have insideReturns : ∀ c ∈ withReturns blanks, (isBlank c && c != '\n') = true := by
    intro c member
    obtain ⟨own, ownMember, rfl⟩ := List.mem_map.mp member
    have blank := (Bool.and_eq_true _ _ ▸ inside own ownMember).1
    have blankReturn : isBlank (asReturn own) = true := (apply_asReturn rfl own).trans blank
    rw [blankReturn, bne_iff_ne.mpr (asReturn_ne own), Bool.and_self]
  have stopsReturns : Stops (fun c => isBlank c && c != '\n') (withReturns rest) := by
    apply Stops.of_headD
    rw [headD_withReturns_of_ne unfed]
    exact stops.headD rfl
  rw [Indifferent, withReturns_append, passing_append insideReturns stopsReturns,
    passing_append inside stops, length_withReturns]
  rfl

/-- Only behind the arguments of a call a line feed is told from a carriage return. -/
theorem indifferent_setterStarts (kinds : KindSet)
    (other : ¬(kinds.has .setter = true ∧ ArgumentsAlone text)) :
    Indifferent (setterStarts kinds) text := by
  rw [setterStarts_eq]
  refine .ite (fun requested => .peek rfl (.ite (fun called => ?_) fun _ => .pure _))
    fun _ => .pure true
  have unfed := fun fed => other ⟨requested, ArgumentsAlone.of_next (eq_of_beq called) fed⟩
  exact .bind (BreakBlind.passing (Or.inr rfl) rfl).indifferent (.bind .skip
    (.bind (indifferent_skipLine unfed) (.peekOther unfed (.pure _))))

theorem setterStarts_value {kinds : KindSet} (requested : kinds.has .setter = true)
    (called : text.headD '\x00' = '(') :
    (setterStarts kinds text).value
      = (((text.dropWhile (· != ')')).tail.dropWhile fun c => isBlank c && c != '\n').headD '\x00'
          == '\n') := by
  have next : (text.headD '\x00' == '(') = true := beq_iff_eq.mpr called
  rw [setterStarts_eq, if_pos requested]
  change ((if (text.headD '\x00' == '(') = true then _ else _ : Scan Bool) text).value = _
  rw [if_pos next]
  rfl

/-- A call of `set` that stands alone on its line starts a statement, unless the line ends with a
carriage return. -/
theorem setterStarts_alone {kinds : KindSet} (requested : kinds.has .setter = true)
    (alone : ArgumentsAlone text) :
    (setterStarts kinds text).value = true ∧
      (setterStarts kinds (withReturns text)).value = false := by
  obtain ⟨arguments, blanks, rest, rfl, closed, blank⟩ := alone
  constructor
  · have inside : ∀ c ∈ arguments, (c != ')') = true := by
      intro c member
      exact bne_iff_ne.mpr fun closing => closed (closing ▸ member)
    have closes : Stops (· != ')') (')' :: (blanks ++ '\n' :: rest)) := .cons rfl
    have ends : Stops (fun c => isBlank c && c != '\n') ('\n' :: rest) := .cons rfl
    rw [setterStarts_value requested rfl, List.dropWhile_cons_of_pos (by decide),
      closes.dropWhile_append inside, List.tail_cons, ends.dropWhile_append blank]
    rfl
  · rw [setterStarts_value requested rfl, beq_eq_false_iff_ne]
    intro fed
    have listed := List.mem_of_mem_head? (head?_of_headD_beq (beq_iff_eq.mpr fed) (by decide))
    have within := ((List.dropWhile_suffix _).trans
      ((List.tail_suffix _).trans (List.dropWhile_suffix _))).mem listed
    obtain ⟨c, _, lineFeed⟩ := List.mem_map.mp within
    exact asReturn_ne c lineFeed

end LeadingWord

end ContextScan

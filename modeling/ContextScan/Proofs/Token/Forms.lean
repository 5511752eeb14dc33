import ContextScan.Proofs.Statement.Outcome
import ContextScan.Proofs.Token.Spelling

namespace ContextScan

/-! The forms that a token has.

Every request divides its text in one of four ways: the content of a raw string has no trivia; an
inserted terminator takes nothing; any other token has a gap as its trivia, and after a line break
that gap may be followed by annotations. -/

open Scan Continuation

/-- The run that goes on where another stopped. -/
def Run.andThen {α β : Type} (run : Run α) (next : α → Scan β) : Run β :=
  let after := next run.value run.rest
  ⟨after.value, run.moves ++ after.moves, run.events ++ after.events, after.rest⟩

theorem Run.precededBy_andThen {α β : Type} (run : Run α) (moves : List Move)
    (next : α → Scan β) : (run.precededBy moves).andThen next
      = (run.andThen next).precededBy moves := by
  simp [andThen, precededBy]

/-- In a raw string nothing is skipped. -/
theorem RawText.skip_notMem_content (text : Text) : .skip ∉ (content false text).moves := by
  intro member
  have stepwise : Stepwise (· ≠ .skip) (content false) text :=
    stepwise_content (by simp) (by simp) (by simp) false text
  exact stepwise.moves_allowed .skip member rfl

inductive Reading.Formed (kinds : KindSet) : Reading → Prop where
  | content (inside : kinds.has .stringContent = true) (lexeme : Text) :
      Formed kinds ⟨.stringContent, [], lexeme⟩
  | inserted {kind : TokenKind} (requested : kinds.terminator? = some kind) :
      Formed kinds (.nothing kind)
  | taken {kind : TokenKind} {gap lexeme : Text} (blank : IsGap gap)
      (spells : kind.Spells lexeme) : Formed kinds ⟨kind, gap, lexeme⟩
  | annotated {kind : TokenKind} {gap annotations lexeme : Text} (blank : IsGap gap)
      (broken : HasLineBreak gap) (passes : kinds.PassesAnnotations)
      (spells : kind.Spells lexeme) : Formed kinds ⟨kind, gap ++ '@' :: annotations, lexeme⟩

/-- The reading behind a gap.  What takes nothing is read before the gap. -/
def Reading.behind (gap : Text) (reading : Reading) : Reading :=
  if reading.lexeme = [] then reading else reading.after gap

theorem Reading.behind_of_ne_nil {reading : Reading} (gap : Text) (nonempty : reading.lexeme ≠ []) :
    reading.behind gap = reading.after gap := if_neg nonempty

namespace Request

variable {kinds : KindSet} {text : Text} {terminator kind : TokenKind}

/-- What a decision is followed by. -/
def follow (kinds : KindSet) (terminator : TokenKind) : Decision → Scan (Option TokenKind)
  | .insert => pure (some terminator)
  | .suppress => pure none
  | .comment => comment kinds
  | .safeNav => SoftOperator.safeNav
  | .notIs => if kinds.has .notIs then SoftOperator.notIs else pure none

theorem statementEnd_apply (kinds : KindSet) (terminator : TokenKind) (text : Text) :
    statementEnd kinds terminator text
      = (decision kinds text).andThen (follow kinds terminator) := rfl

theorem takes_comment (found : (comment kinds text).value = some kind) :
    (comment kinds text).Takes text kind := by
  rw [comment] at found ⊢
  split at found
  · cases found
  · rename_i requested
    rw [if_neg requested]
    exact Comment.takes_scan found

/-- An outcome is followed by a token that stands there, or by a terminator that takes nothing. -/
theorem takes_of_reached {run : Run Decision} (reached : Reached text run)
    (requested : kinds.terminator? = some terminator)
    (found : (run.andThen (follow kinds terminator)).value = some kind) :
    (run.andThen (follow kinds terminator)).Takes text kind ∨
      kind = terminator ∧ .markEnd ∉ (run.andThen (follow kinds terminator)).moves := by
  obtain ⟨decided, moves, events, rest⟩ := run
  cases reached with
  | settled value only =>
      rcases value with inserted | suppressed
      · cases inserted
        refine Or.inr ⟨(Option.some.inj found).symm, ?_⟩
        intro member
        have skip := only .markEnd (List.append_nil moves ▸ member)
        cases skip
      · cases suppressed
        cases found
  | @semicolon rest' here value taken =>
      cases value
      cases taken
      cases found
      refine Or.inl ⟨[';'], rest', here, ?_, rfl, rfl⟩
      rcases (KindSet.terminator?_eq_some requested).2.1 with rfl | rfl <;> rfl
  | left visible still whole =>
      cases still
      cases whole
      cases decided with
      | insert => exact Or.inr ⟨(Option.some.inj found).symm, List.not_mem_nil⟩
      | suppress => cases found
      | comment => exact Or.inl (takes_comment found)
      | safeNav => exact Or.inl (SoftOperator.takes_safeNav visible found)
      | notIs =>
          left
          simp only [Run.andThen, follow] at found ⊢
          split at found
          · rename_i asked
            rw [if_pos asked]
            exact SoftOperator.takes_notIs found
          · cases found

theorem takes_plainToken {gap rest : Text} (blank : IsGap gap) (stops : Stops isBlank rest)
    (found : (plainToken kinds (gap ++ rest)).value = some kind) :
    ∃ run : Run (Option TokenKind), run.Takes rest kind ∧
      plainToken kinds (gap ++ rest) = run.precededBy (List.replicate gap.length .skip) := by
  rw [plainToken, bind_silent (skipWhile_append blank stops)] at found ⊢
  refine ⟨_, ?_, rfl⟩
  change ((if _ then _ else _ : Scan (Option TokenKind)) rest).value = _ at found
  change ((if _ then _ else _ : Scan (Option TokenKind)) rest).Takes _ _
  revert found
  split
  · exact SoftOperator.takes_notIs
  split
  · exact SoftOperator.takes_membership
  split
  · exact SoftOperator.takes_safeNav stops
  · exact takes_comment

/-- A request for a terminator decides after the gap that the text starts with. -/
theorem token_afterGap {gap rest : Text} (outside : kinds.has .stringContent = false)
    (requested : kinds.terminator? = some terminator) (blank : IsGap gap)
    (stops : Stops isBlank rest) :
    token kinds (gap ++ rest)
      = ((afterGap kinds (gap.any isLineBreak) rest).andThen (follow kinds terminator)).precededBy
          (.markEnd :: List.replicate gap.length .skip) := by
  rw [token_eq_statementEnd outside requested, statementEnd_apply,
    decision_append kinds blank stops, Run.precededBy_andThen]

theorem afterGap_moves_ascii {rest : Text} (outside : kinds.has .stringContent = false)
    (requested : kinds.terminator? = some terminator) (stops : Stops isBlank rest)
    (sawLineBreak : Bool) :
    ∀ move ∈ ((afterGap kinds sawLineBreak rest).andThen (follow kinds terminator)).moves,
      move.SearchesAscii := by
  obtain ⟨gap, blank, rfl⟩ : ∃ gap, IsGap gap ∧ gap.any isLineBreak = sawLineBreak := by
    cases sawLineBreak with
    | false => exact ⟨[], by simp [IsGap], rfl⟩
    | true => exact ⟨['\n'], by simp [IsGap, isBlank], rfl⟩
  have ascii := token_moves_ascii kinds (gap ++ rest)
  rw [token_afterGap outside requested blank stops] at ascii
  exact fun move member => ascii move (List.mem_append_right _ member)

section AfterGap

variable {gap rest : Text} (outside : kinds.has .stringContent = false)
  (requested : kinds.terminator? = some terminator) (blank : IsGap gap)
  (stops : Stops isBlank rest) {run : Run (Option TokenKind)}
  (after : (afterGap kinds (gap.any isLineBreak) rest).andThen (follow kinds terminator) = run)

include outside requested blank stops after

theorem reading?_of_marked (marked : .markEnd ∈ run.moves) :
    reading? kinds (gap ++ rest) = (run.reading? rest).map (Reading.after gap) := by
  have ascii := afterGap_moves_ascii outside requested stops (gap.any isLineBreak)
  rw [after] at ascii
  rw [reading?, token_afterGap outside requested blank stops, after]
  exact Run.reading?_remarked gap marked ascii

theorem reading?_of_unmarked (unmarked : .markEnd ∉ run.moves) :
    reading? kinds (gap ++ rest) = run.value.map .nothing := by
  have ascii := afterGap_moves_ascii outside requested stops (gap.any isLineBreak)
  rw [after] at ascii
  rw [reading?, token_afterGap outside requested blank stops, after]
  exact Run.reading?_unmarked _ unmarked ascii

end AfterGap

/-- After a gap either a token is taken that stands there, behind annotations at most, or a
terminator is inserted and nothing is marked. -/
theorem taken_afterGap {rest : Text} (outside : kinds.has .stringContent = false)
    (requested : kinds.terminator? = some terminator) (stops : Stops isBlank rest)
    {sawLineBreak : Bool} {run : Run (Option TokenKind)}
    (after : (afterGap kinds sawLineBreak rest).andThen (follow kinds terminator) = run)
    (found : run.value = some kind) :
    (.markEnd ∈ run.moves ∧ ∃ passed lexeme, Passes kinds sawLineBreak passed ∧
        kind.Spells lexeme ∧ run.reading? rest = some ⟨kind, passed, lexeme⟩) ∨
      (kind = terminator ∧ .markEnd ∉ run.moves) := by
  have ascii := afterGap_moves_ascii outside requested stops sawLineBreak
  obtain ⟨passed, passes, later, decided, rfl, reached, same⟩ :=
    reached_afterGap kinds sawLineBreak stops
  rw [same, Run.precededBy_andThen] at after ascii
  subst after
  rcases takes_of_reached reached requested found with takes | ⟨rfl, unmarked⟩
  · left
    obtain ⟨lexeme, own, spells⟩ := takes.reading?
    refine ⟨List.mem_append_right _ takes.marked, passed, lexeme, passes, spells, ?_⟩
    rw [Run.reading?_precededBy_skips passed fun move member =>
      ascii move (List.mem_append_right _ member), own]
    simp [Reading.after]
  · right
    refine ⟨rfl, fun member => ?_⟩
    rcases List.mem_append.mp member with skip | own
    · cases List.eq_of_mem_replicate skip
    · exact unmarked own

/-- Of a gap only whether it has a line break matters to a request for a terminator. -/
theorem reading?_afterGap {rest : Text} (outside : kinds.has .stringContent = false)
    (requested : kinds.terminator? = some terminator) (stops : Stops isBlank rest)
    (sawLineBreak : Bool) :
    ∃ behind? : Option Reading,
      (∀ reading, behind? = some reading → reading = .nothing terminator ∨
        Passes kinds sawLineBreak reading.trivia ∧ reading.kind.Spells reading.lexeme) ∧
      ∀ gap, IsGap gap → gap.any isLineBreak = sawLineBreak →
        reading? kinds (gap ++ rest) = behind?.map (Reading.behind gap) := by
  let run := (afterGap kinds sawLineBreak rest).andThen (follow kinds terminator)
  by_cases marked : .markEnd ∈ run.moves
  · have taken : ∀ reading, run.reading? rest = some reading →
        Passes kinds sawLineBreak reading.trivia ∧ reading.kind.Spells reading.lexeme := by
      intro reading read
      obtain ⟨kind, found, _⟩ := Option.map_eq_some_iff.mp read
      rcases taken_afterGap outside requested stops rfl found with
        ⟨_, passed, lexeme, passes, spells, own⟩ | ⟨_, unmarked⟩
      · rw [own] at read
        cases read
        exact ⟨passes, spells⟩
      · exact absurd marked unmarked
    refine ⟨run.reading? rest, fun reading read => Or.inr (taken reading read), ?_⟩
    rintro gap blank rfl
    rw [reading?_of_marked outside requested blank stops rfl marked]
    apply Option.map_congr
    intro reading read
    have spells : reading.kind.Spells reading.lexeme := (taken reading read).2
    rw [Reading.behind_of_ne_nil gap spells.ne_nil]
  · refine ⟨run.value.map .nothing, ?_, ?_⟩
    · intro reading read
      obtain ⟨kind, found, rfl⟩ := Option.map_eq_some_iff.mp read
      rcases taken_afterGap outside requested stops rfl found with ⟨other, _⟩ | ⟨rfl, _⟩
      · exact absurd other marked
      · exact Or.inl rfl
    · rintro gap blank rfl
      rw [reading?_of_unmarked outside requested blank stops rfl marked, Option.map_map]
      rfl

/-- A terminator that is inserted takes nothing if nothing is marked after the start. -/
theorem reading?_of_insert {run : Run Decision} {skips : Nat}
    (outside : kinds.has .stringContent = false) (requested : kinds.terminator? = some terminator)
    (decides : decision kinds text = run.precededBy (.markEnd :: List.replicate skips .skip))
    (inserts : run.value = .insert) (unmarked : .markEnd ∉ run.moves) :
    reading? kinds text = some (.nothing terminator) := by
  have ascii := token_moves_ascii kinds text
  rw [reading?]
  rw [token_eq_statementEnd outside requested, statementEnd_apply, decides,
    Run.precededBy_andThen] at ascii ⊢
  have moves : (run.andThen (follow kinds terminator)).moves = run.moves := by
    simp [Run.andThen, inserts, follow]
  rw [Run.reading?_unmarked skips (by rwa [moves]) fun move own =>
    ascii move (List.mem_append_right _ own)]
  simp [Run.andThen, inserts, follow]

theorem reading?_of_suppress (outside : kinds.has .stringContent = false)
    (requested : kinds.terminator? = some terminator)
    (suppresses : (decision kinds text).value = .suppress) : reading? kinds text = none := by
  rw [reading?, token_eq_statementEnd outside requested, statementEnd_apply]
  simp [Run.reading?, Run.andThen, suppresses, follow]

/-- A token that stands after a gap is read with the gap as its trivia. -/
theorem reading?_of_taking {gap lexeme rest : Text} (outside : kinds.has .stringContent = false)
    (requested : kinds.terminator? = some terminator) (blank : IsGap gap)
    (stops : Stops isBlank (lexeme ++ rest)) {run : Run Decision}
    (after : afterGap kinds (gap.any isLineBreak) (lexeme ++ rest) = run)
    (value : (run.andThen (follow kinds terminator)).value = some kind)
    (moves : (run.andThen (follow kinds terminator)).moves = (Run.taking kind lexeme rest).moves) :
    reading? kinds (gap ++ (lexeme ++ rest)) = some ⟨kind, gap, lexeme⟩ := by
  have followed : (afterGap kinds (gap.any isLineBreak) (lexeme ++ rest)).andThen
      (follow kinds terminator) = run.andThen (follow kinds terminator) := by rw [after]
  have marked : .markEnd ∈ (run.andThen (follow kinds terminator)).moves := by
    simp [moves, Run.taking]
  rw [reading?_of_marked outside requested blank stops followed marked,
    Run.reading?_congr value moves, Run.reading?_taking]
  simp [Reading.after]

/-- The next `;` is the terminator. -/
theorem reading?_semicolon {gap : Text} (outside : kinds.has .stringContent = false)
    (requested : kinds.terminator? = some terminator) (blank : IsGap gap) (rest : Text) :
    reading? kinds (gap ++ ';' :: rest) = some ⟨terminator, gap, [';']⟩ := by
  have stops : Stops isBlank ([';'] ++ rest) := .cons rfl
  refine reading?_of_taking outside requested blank stops rfl ?_ ?_
  · cases gap.any isLineBreak <;> rfl
  · cases gap.any isLineBreak <;> rfl

theorem formed_of_statementEnd {reading : Reading} (outside : kinds.has .stringContent = false)
    (requested : kinds.terminator? = some terminator)
    (read : reading? kinds text = some reading) : reading.Formed kinds := by
  obtain ⟨gap, rest, rfl, blank, stops⟩ := exists_gap text
  obtain ⟨behind?, forms, same⟩ :=
    reading?_afterGap outside requested stops (gap.any isLineBreak)
  rw [same gap blank rfl] at read
  obtain ⟨own, found, rfl⟩ := Option.map_eq_some_iff.mp read
  rcases forms own found with rfl | ⟨passes, spells⟩
  · exact .inserted requested
  have taken : own.kind.Spells own.lexeme := spells
  rw [Reading.behind_of_ne_nil gap taken.ne_nil, Reading.after]
  rcases passes with nothing | ⟨broken, passes, others, annotated⟩
  · rw [nothing, List.append_nil]
    exact .taken blank spells
  · rw [annotated]
    exact .annotated blank broken passes spells

theorem formed_of_plainToken {reading : Reading} (outside : kinds.has .stringContent = false)
    (unrequested : kinds.terminator? = none)
    (read : reading? kinds text = some reading) : reading.Formed kinds := by
  obtain ⟨gap, rest, rfl, blank, stops⟩ := exists_gap text
  have ascii := token_moves_ascii kinds (gap ++ rest)
  obtain ⟨kind, found, _⟩ := Option.map_eq_some_iff.mp read
  rw [reading?] at read
  rw [token_eq_plainToken outside unrequested] at read ascii found
  obtain ⟨run, takes, same⟩ := takes_plainToken blank stops found
  rw [same] at read ascii
  have ownAscii : ∀ move ∈ run.moves, move.SearchesAscii := fun move member =>
    ascii move (List.mem_append_right _ member)
  obtain ⟨lexeme, own, spells⟩ := takes.reading?
  rw [Run.reading?_precededBy_skips gap ownAscii, own] at read
  cases read
  simp only [Reading.after, List.append_nil]
  exact .taken blank spells

theorem formed_of_content {reading : Reading} (inside : kinds.has .stringContent = true)
    (read : reading? kinds text = some reading) : reading.Formed kinds := by
  have unskipped : .skip ∉ (token kinds text).moves := by
    rw [token_eq_content inside]
    exact RawText.skip_notMem_content text
  obtain ⟨kind, found, rfl⟩ := Option.map_eq_some_iff.mp read
  have places := (Remainders.Of.ofText text).moveAll (token_moves_ascii kinds text)
  have trivia := Remainders.trivia_unskipped places
    (Remainders.tokenRest_moveAll unskipped _) kind
  have same := (grants_of_token found).1.contentOnly inside
  subst same
  have content := Reading.Formed.content inside ((Reader.moveAll (Remainders.ofText text)
    (token kinds text).moves).reading text .stringContent).lexeme
  rw [← trivia] at content
  exact content

/-- Every token has one of the forms. -/
theorem formed_of_reading? {reading : Reading} (read : reading? kinds text = some reading) :
    reading.Formed kinds := by
  cases inside : kinds.has .stringContent with
  | true => exact formed_of_content inside read
  | false =>
      cases requested : kinds.terminator? with
      | some terminator => exact formed_of_statementEnd inside requested read
      | none => exact formed_of_plainToken inside requested read

end Request

end ContextScan

import ContextScan.Proofs.Trace.Reports

namespace ContextScan

/-! What a call reports is what it does.

The events of a request have one of five forms.  Of a decision that was left open by the gap one
event tells, and before it may stand one that tells of the word that decided; a comment or a raw
string that is cut off is reported alone.  `Reported` gives the forms together with what the request
comes to in each. -/

open Scan Continuation

namespace Request

/-- Whether a decision is reported: a terminator is requested, the gap leaves the decision open, and
no `/` follows it. -/
def Decides (kinds : KindSet) (here : Text) : Prop :=
  kinds.has .stringContent = false ∧ kinds.terminator?.isSome = true ∧
    (here.dropWhile isBlank).head? ≠ some '/' ∧
    (HasLineBreak (here.takeWhile isBlank) ∨
      here.dropWhile isBlank ≠ [] ∧ (here.dropWhile isBlank).head? ≠ some ';')

/-- What a request may come to after a decision.  A decision for a comment is not reported. -/
def Fits (kinds : KindSet) (sawLineBreak : Bool) (produced : Option TokenKind) : Decision → Prop
  | .insert => produced = kinds.terminator?
  | .suppress => produced = none
  | .comment => False
  | .safeNav => produced = none ∨ produced = some .safeNav
  | .notIs => (produced = none ∨ produced = some .notIs) ∧ sawLineBreak = false

/-- The forms of what is reported of a request, with what the request comes to. -/
inductive Reported (kinds : KindSet) (here : Text) : List Event → Option TokenKind → Prop where
  | silent (undecided : ¬Decides kinds here) (produced : Option TokenKind) :
      Reported kinds here [] produced
  | cutString (inside : kinds.has .stringContent = true) :
      Reported kinds here [.unterminatedString] none
  | cutComment (undecided : ¬Decides kinds here) {event : Event} (cuts : event.CutsComment) :
      Reported kinds here [event] none
  | decided (decides : Decides kinds here) {decision : Decision} {sawLineBreak : Bool}
      {produced : Option TokenKind} (fits : Fits kinds sawLineBreak produced decision) :
      Reported kinds here [.terminatorDecision decision sawLineBreak] produced
  | word (decides : Decides kinds here) {event : Event} {inserts : Bool}
      {produced : Option TokenKind} (verdict : event.verdict? = some inserts)
      (fits : Fits kinds true produced (insertIf inserts)) :
      Reported kinds here [event, .terminatorDecision (insertIf inserts) true] produced

variable {kinds : KindSet} {here gap rest : Text} {terminator : TokenKind}

theorem Reported.of_cutOff {run : Run (Option TokenKind)} (undecided : ¬Decides kinds here)
    (cut : run.CutOffBy Event.CutsComment) : Reported kinds here run.events run.value := by
  rcases cut with silent | ⟨event, cuts, only, nothing⟩
  · rw [silent]
    exact .silent undecided run.value
  · rw [only, nothing]
    exact .cutComment undecided cuts

theorem decides_append_iff (outside : kinds.has .stringContent = false)
    (requested : kinds.terminator? = some terminator) (blank : IsGap gap)
    (stops : Stops isBlank rest) :
    Decides kinds (gap ++ rest) ↔ rest.head? ≠ some '/' ∧
      (HasLineBreak gap ∨ rest ≠ [] ∧ rest.head? ≠ some ';') := by
  rw [Decides, stops.takeWhile_append blank, stops.dropWhile_append blank]
  simp [outside, requested]

/-- What follows a decision reports nothing, unless it is a comment. -/
theorem silent_follow (kinds : KindSet) (terminator : TokenKind) {decision : Decision}
    (other : decision ≠ .comment) : Silent (follow kinds terminator decision) := by
  cases decision with
  | insert | suppress => exact .pure _
  | comment => exact absurd rfl other
  | safeNav => exact SoftOperator.silent_safeNav
  | notIs => exact .ite (SoftOperator.silent_wholeWord _ _) (.pure none)

theorem fits_follow (requested : kinds.terminator? = some terminator) {decision : Decision}
    (other : decision ≠ .comment) {sawLineBreak : Bool}
    (sameLine : decision = .notIs → sawLineBreak = false) (text : Text) :
    Fits kinds sawLineBreak (follow kinds terminator decision text).value decision := by
  cases decision with
  | insert => exact requested.symm
  | suppress => rfl
  | comment => exact absurd rfl other
  | safeNav =>
      cases found : (SoftOperator.safeNav text).value with
      | none => exact Or.inl found
      | some kind =>
          obtain ⟨rfl, _⟩ := SoftOperator.producesOnly_safeNav text kind found
          exact Or.inr found
  | notIs =>
      refine ⟨?_, sameLine rfl⟩
      by_cases asked : kinds.has .notIs = true
      · simp only [follow, asked, if_true]
        cases found : (SoftOperator.notIs text).value with
        | none => exact Or.inl rfl
        | some kind =>
            obtain ⟨rfl, _⟩ := SoftOperator.producesOnly_wholeWord _ _ text kind found
            exact Or.inr rfl
      · simp only [follow, asked]
        exact Or.inl rfl

section Reporting

variable (decides : Decides kinds here) (requested : kinds.terminator? = some terminator)
  {run : Run Decision}

theorem events_reporting (other : run.value ≠ .comment) (sawLineBreak : Bool) :
    ((reporting sawLineBreak run).andThen (follow kinds terminator)).events
      = run.events ++ [.terminatorDecision run.value sawLineBreak] := by
  change (run.events ++ _) ++ (follow kinds terminator run.value run.rest).events = _
  rw [silent_follow kinds terminator other, List.append_nil]

include decides requested

theorem reported_of_silent (silent : run.events = []) (other : run.value ≠ .comment)
    {sawLineBreak : Bool} (sameLine : run.value = .notIs → sawLineBreak = false) :
    Reported kinds here ((reporting sawLineBreak run).andThen (follow kinds terminator)).events
      ((reporting sawLineBreak run).andThen (follow kinds terminator)).value := by
  rw [events_reporting other, silent]
  exact .decided decides (fits_follow requested other sameLine run.rest)

theorem reported_of_tellsWord (tells : run.TellsWord) :
    Reported kinds here ((reporting true run).andThen (follow kinds terminator)).events
      ((reporting true run).andThen (follow kinds terminator)).value := by
  cases tells with
  | nothing silent value =>
      refine reported_of_silent decides requested silent ?_ ?_
      · rcases value with value | value | value <;> simp [value]
      · rcases value with value | value | value <;> simp [value]
  | @word event inserts verdict only value =>
      have other : run.value ≠ .comment := value ▸ insertIf_ne_comment inserts
      have sameLine : run.value = .notIs → true = false := by
        rw [value]
        cases inserts <;> simp [insertIf]
      have fits : Fits kinds true ((reporting true run).andThen (follow kinds terminator)).value
          (insertIf inserts) := by
        rw [← value]
        exact fits_follow requested other sameLine run.rest
      rw [events_reporting other, only, value]
      exact .word decides verdict fits

/-- Before something that is no `/` the decision is reported, and the word that it rests on. -/
theorem reported_beforeToken (sawLineBreak : Bool) (line : Text) :
    let run := (reporting sawLineBreak (beforeToken kinds sawLineBreak line)).andThen
      (follow kinds terminator)
    Reported kinds here run.events run.value := by
  cases sawLineBreak with
  | false =>
      exact reported_of_silent decides requested (silent_sameLine kinds line)
        (sameLine_ne_comment kinds line) fun _ => rfl
  | true => exact reported_of_tellsWord decides requested (tellsWord_newLine kinds line)

end Reporting

/-- After a gap that leaves the decision open either it is reported, or a comment follows. -/
theorem reported_beforeVisible (outside : kinds.has .stringContent = false)
    (requested : kinds.terminator? = some terminator) (blank : IsGap gap)
    (stops : Stops isBlank rest)
    (unsettled : HasLineBreak gap ∨ rest ≠ [] ∧ rest.head? ≠ some ';') (sawLineBreak : Bool) :
    let run := (beforeVisible kinds sawLineBreak rest).andThen (follow kinds terminator)
    Reported kinds (gap ++ rest) run.events run.value := by
  intro run
  have decides := decides_append_iff outside requested blank stops
  by_cases slash : rest.headD '\x00' = '/'
  · have comments : run = comment kinds rest := by
      have commented := beforeVisible_of_slash kinds sawLineBreak slash
      change Run.andThen _ _ = _
      rw [commented]
      rfl
    have head : rest.head? = some '/' := head?_of_headD_beq (beq_iff_eq.mpr slash) (by decide)
    rw [comments]
    exact .of_cutOff (fun decides' => (decides.mp decides').1 head) (cutOff_comment kinds rest)
  · have reports : run = (reporting sawLineBreak (beforeToken kinds sawLineBreak rest)).andThen
        (follow kinds terminator) :=
      congrArg (Run.andThen · _) (beforeVisible_of_ne kinds sawLineBreak slash)
    have head : rest.head? ≠ some '/' := by
      intro head
      rw [List.headD_eq_head?_getD, head] at slash
      exact slash rfl
    rw [reports]
    exact reported_beforeToken (decides.mpr ⟨head, unsettled⟩) requested sawLineBreak rest

theorem reported_afterGap (outside : kinds.has .stringContent = false)
    (requested : kinds.terminator? = some terminator) (blank : IsGap gap)
    (stops : Stops isBlank rest) :
    let run := (afterGap kinds (gap.any isLineBreak) rest).andThen (follow kinds terminator)
    Reported kinds (gap ++ rest) run.events run.value := by
  have decides := decides_append_iff outside requested blank stops
  cases broken : gap.any isLineBreak with
  | true => exact reported_beforeVisible outside requested blank stops (Or.inl broken) true
  | false =>
      have unbroken : ¬HasLineBreak gap := by simp [HasLineBreak, broken]
      cases rest with
      | nil =>
          have settled : ¬Decides kinds (gap ++ []) := by rw [decides]; simp [unbroken]
          exact .silent settled _
      | cons c rest =>
          by_cases semicolon : c = ';'
          · subst semicolon
            have settled : ¬Decides kinds (gap ++ ';' :: rest) := by rw [decides]; simp [unbroken]
            exact .silent settled _
          · rw [afterGap_cons kinds false rest semicolon]
            exact reported_beforeVisible outside requested blank stops
              (Or.inr ⟨by simp, by simpa using semicolon⟩) false

/-- What is reported of a request has one of the forms. -/
theorem reported_token (kinds : KindSet) (here : Text) :
    Reported kinds here (token kinds here).events (token kinds here).value := by
  cases inside : kinds.has .stringContent with
  | true =>
      have undecided : ¬Decides kinds here := by simp [Decides, inside]
      rw [token_eq_content inside]
      rcases RawText.cutOff_content false here with silent | ⟨_, rfl, only, nothing⟩
      · rw [silent]
        exact .silent undecided _
      · rw [only, nothing]
        exact .cutString inside
  | false =>
      cases requested : kinds.terminator? with
      | none =>
          rw [token_eq_plainToken inside requested]
          exact .of_cutOff (by simp [Decides, requested]) (cutOff_plainToken kinds here)
      | some terminator =>
          obtain ⟨gap, rest, rfl, blank, stops⟩ := exists_gap here
          rw [token_afterGap inside requested blank stops]
          exact reported_afterGap inside requested blank stops

/-- Whether every word is reported directly before the decision on a new line that it makes. -/
def WordsDecide (events : List Event) : Prop :=
  ∀ earlier event later inserts, events = earlier ++ event :: later →
    event.verdict? = some inserts → ∃ decision rest,
      later = .terminatorDecision decision true :: rest ∧ (inserts = true ↔ decision = .insert)

/-- Whether what is reported before the produced token is true of what the request comes to. -/
structure Truthful (kinds : KindSet) (here : Text) (produced : Option TokenKind)
    (before : List Event) : Prop where
  notScanned : ∀ requested other, .scanned requested other ∉ before
  decidesOnce : before.countP Event.isDecision ≤ 1
  decides_iff : (∃ decision sawLineBreak, .terminatorDecision decision sawLineBreak ∈ before) ↔
    Decides kinds here
  fits : ∀ decision sawLineBreak, .terminatorDecision decision sawLineBreak ∈ before →
    Fits kinds sawLineBreak produced decision
  tellsOnce : before.countP (·.verdict?.isSome) ≤ 1
  wordsDecide : WordsDecide before
  cutComment : ∀ depth, .unterminatedComment depth ∈ before → produced = none ∧ 1 ≤ depth
  cutString : .unterminatedString ∈ before → kinds.has .stringContent = true ∧ produced = none

theorem WordsDecide.singleton {event : Event} (other : event.verdict? = none) :
    WordsDecide [event] := by
  intro earlier told later inserts split verdict
  have member : told ∈ [event] := split ▸ by simp
  cases List.mem_singleton.mp member
  cases other.symm.trans verdict

theorem insertIf_eq_insert {inserts : Bool} : insertIf inserts = .insert ↔ inserts = true := by
  cases inserts <;> simp [insertIf]

theorem WordsDecide.pair {event : Event} {inserts : Bool}
    (verdict : event.verdict? = some inserts) :
    WordsDecide [event, .terminatorDecision (insertIf inserts) true] := by
  intro earlier told later toldInserts split toldVerdict
  cases earlier with
  | nil =>
      obtain ⟨rfl, rfl⟩ := List.cons.inj split
      cases verdict.symm.trans toldVerdict
      exact ⟨_, [], rfl, insertIf_eq_insert.symm⟩
  | cons _ earlier =>
      exact WordsDecide.singleton rfl _ _ _ _ (List.cons.inj split).2 toldVerdict

theorem Truthful.word {event : Event} {inserts : Bool} {produced : Option TokenKind}
    (decides : Decides kinds here) (verdict : event.verdict? = some inserts)
    (fits : Fits kinds true produced (insertIf inserts)) :
    Truthful kinds here produced [event, .terminatorDecision (insertIf inserts) true] := by
  -- Everything but the word itself is reported by the decision, if at all.
  have only {other : Event} (member : other ∈ [event, .terminatorDecision (insertIf inserts) true])
      (silent : other.verdict? = none) : other = .terminatorDecision (insertIf inserts) true := by
    rcases List.mem_cons.mp member with rfl | last
    · cases silent.symm.trans verdict
    · exact List.mem_singleton.mp last
  have undecided : event.isDecision = false := by cases event <;> first | rfl | cases verdict
  constructor
  case notScanned =>
    intro _ _ member
    cases only member rfl
  case decidesOnce =>
    rw [List.countP_cons_of_neg (by simp [undecided])]
    exact List.countP_le_length
  case decides_iff => exact iff_of_true ⟨insertIf inserts, true, by simp⟩ decides
  case fits =>
    intro _ _ member
    cases only member rfl
    exact fits
  case tellsOnce =>
    rw [List.countP_cons_of_pos (by simp [verdict])]
    exact Nat.le_refl 1
  case wordsDecide => exact .pair verdict
  case cutComment =>
    intro _ member
    cases only member rfl
  case cutString =>
    intro member
    cases only member rfl

/-- Each form of what is reported is truthful. -/
theorem Reported.truthful {events : List Event} {produced : Option TokenKind}
    (reported : Reported kinds here events produced) :
    Truthful kinds here produced events := by
  cases reported with
  | silent undecided => constructor <;> simp [WordsDecide, undecided]
  | cutString inside =>
      have undecided : ¬Decides kinds here := by simp [Decides, inside]
      constructor
      case wordsDecide => exact .singleton rfl
      all_goals simp [Event.isDecision, Event.verdict?, undecided, inside]
  | cutComment undecided cuts =>
      obtain ⟨depth, unclosed, rfl⟩ := cuts
      constructor
      case wordsDecide => exact .singleton rfl
      all_goals simp [Event.isDecision, Event.verdict?, undecided, unclosed]
  | decided decides fits =>
      constructor
      case wordsDecide => exact .singleton rfl
      case fits => simpa using fits
      all_goals simp [Event.isDecision, Event.verdict?, decides]
  | word decides verdict fits => exact .word decides verdict fits

end Request

namespace Token

variable {text : Text} {offset : Nat} {kinds : KindSet}

/-- A call at a place of a text reports what the request there reports, and then what it yields. -/
theorem trace_eq (boundary : isBoundary text offset = true) (kinds : KindSet) :
    let run := Request.token kinds (dropBytes text offset)
    (trace text offset kinds).token?.map kind = run.value ∧
      (trace text offset kinds).events = run.events ++ [.scanned kinds run.value] := by
  have accepted := TextReader.at?_eq_some_iff.mpr ⟨boundary, rfl⟩
  rw [trace, accepted]
  refine ⟨?_, rfl⟩
  change Option.map _ (Option.map _ (Request.token kinds (dropBytes text offset)).value) = _
  rw [Option.map_map]
  exact Option.map_id'

/-- The events of a call end with the one that tells what it yields, and those before it are true of
that. -/
theorem trace_truthful (boundary : isBoundary text offset = true) (kinds : KindSet) :
    let produced := (trace text offset kinds).token?.map kind
    ∃ before, (trace text offset kinds).events = before ++ [.scanned kinds produced] ∧
      Request.Truthful kinds (dropBytes text offset) produced before := by
  obtain ⟨value, events⟩ := trace_eq boundary kinds
  have truthful := (Request.reported_token kinds (dropBytes text offset)).truthful
  rw [← value] at events truthful
  exact ⟨_, events, truthful⟩

/-- A constructor that continues the class before it. -/
theorem trace_truthful_constructor :
    let text := "\nprivate constructor(".toList
    let kinds := KindSet.ofList [.semi]
    isBoundary text 0 = true ∧
      (trace text 0 kinds).events = [.contextWord .constructor false,
        .terminatorDecision .suppress true, .scanned kinds none] ∧
      ∃ before, (trace text 0 kinds).events = before ++ [.scanned kinds none] ∧
        Request.Truthful kinds text none before := by
  intro text kinds
  have events : (trace text 0 kinds).events = [.contextWord .constructor false,
      .terminatorDecision .suppress true, .scanned kinds none] := by decide +kernel
  have nothing : (trace text 0 kinds).token? = none := by decide +kernel
  have boundary : isBoundary text 0 = true := by decide
  have truthful := trace_truthful boundary kinds
  rw [nothing] at truthful
  exact ⟨boundary, events, truthful⟩

end Token

end ContextScan

import ContextScan.Proofs.LineEnds.Indifference

namespace ContextScan

/-! Tokens of a text with carriage returns for its line feeds.

A carriage return alone is a line break too, and nearly everywhere a request takes it for one.  The
exceptions are the line feeds in the arguments of an annotation and the one after a call of `set`
that stands alone on its line. -/

open Scan Continuation

/-- Whether a terminator is decided at a line. -/
def KindSet.DecidesAt (kinds : KindSet) (text line : Text) : Prop :=
  kinds.has .stringContent = false ∧ kinds.terminator?.isSome = true ∧ BreaksBefore text line

/-- Whether a line feed is met in the arguments of an annotation. -/
def KindSet.FeedsArguments (kinds : KindSet) (text : Text) : Prop :=
  ∃ line, kinds.DecidesAt text line ∧ kinds.PassesAnnotations ∧
    Annotations.feedsArguments .gap line = true

/-- Whether a line is met that calls `set` and has nothing after it, up to its line feed. -/
def KindSet.CallsSetterAlone (kinds : KindSet) (text : Text) : Prop :=
  ∃ line, kinds.DecidesAt text line ∧ kinds.has .setter = true ∧
    ∃ passed rest, kinds.unannotated line = passed ++ ("set".toList ++ rest) ∧
      ModifierRun passed ∧ ArgumentsAlone rest

theorem IsGap.withReturns {gap : Text} (blank : IsGap gap) : IsGap (withReturns gap) := by
  intro c member
  obtain ⟨own, ownMember, rfl⟩ := List.mem_map.mp member
  exact (apply_asReturn rfl own).trans (blank own ownMember)

theorem Stops.withReturns {accepts : Char → Bool} {text : Text} (stops : Stops accepts text)
    (nul : accepts '\x00' = false) (same : accepts '\r' = accepts '\n') :
    Stops accepts (withReturns text) :=
  .of_headD ((apply_headD_withReturns same).trans (stops.headD nul))

variable {kinds : KindSet} {text gap line : Text}

namespace Continuation

theorem afterGap_withReturns (stops : Stops isBlank line) (broken : Bool)
    (annotations : broken = true → kinds.PassesAnnotations →
      Annotations.feedsArguments .gap line = false)
    (setter : broken = true → SetterGiven @Indifferent kinds (kinds.unannotated line)) :
    afterGap kinds broken (withReturns line) = (afterGap kinds broken line).withReturns := by
  have visible : Indifferent (beforeVisible kinds broken) line :=
    (blind_beforeVisible stops broken
      (fun broken passes => Annotations.indifferent_skipAll (annotations broken passes))
      setter).indifferent
  cases broken with
  | true => exact visible
  | false =>
      cases line with
      | nil => rfl
      | cons c rest =>
          by_cases semicolon : c = ';'
          · subst semicolon
            rfl
          · have other : asReturn c ≠ ';' := by
              rw [asReturn]
              split
              · decide
              · exact semicolon
            rw [afterGap_cons kinds false rest semicolon]
            exact (afterGap_cons kinds false _ other).trans visible

/-- Of the gap nothing changes that matters to a decision. -/
theorem indifferent_decision (blank : IsGap gap) (stops : Stops isBlank line)
    (annotations : HasLineBreak gap → kinds.PassesAnnotations →
      Annotations.feedsArguments .gap line = false)
    (setter : HasLineBreak gap → SetterGiven @Indifferent kinds (kinds.unannotated line)) :
    Indifferent (decision kinds) (gap ++ line) := by
  have after := afterGap_withReturns stops (gap.any isLineBreak) annotations setter
  rw [Indifferent, withReturns_append, decision_append kinds blank stops,
    decision_append kinds blank.withReturns (stops.withReturns rfl rfl), any_withReturns rfl,
    length_withReturns, after]
  rfl

end Continuation

/-- A call of `set` is looked at only where it stands at the start of a line. -/
theorem setterGiven_of_not_calls (decides : kinds.DecidesAt text line)
    (other : ¬kinds.CallsSetterAlone text) :
    SetterGiven @Indifferent kinds (kinds.unannotated line) := by
  intro known
  refine LeadingWord.indifferent_setterStarts kinds fun alone => other ?_
  obtain ⟨passed, run, rest, split, _, _, modified, captured⟩ :=
    LeadingWord.exists_afterModifiers (kinds.unannotated line)
  rw [captured] at known alone
  have spelled : run = "set".toList := Word.contextWord?_ofRun_iff.mp known
  subst spelled
  exact ⟨line, decides, alone.1, passed, rest, split, modified (by decide), alone.2⟩

/-- A request makes the same run unless it meets a line feed where only that counts. -/
theorem Request.indifferent_token (unfed : ¬kinds.FeedsArguments text)
    (other : ¬kinds.CallsSetterAlone text) : Indifferent (token kinds) text := by
  have inside (text : Text) : Indifferent (Comment.body 0 .neither) text :=
    Comment.indifferent_body 0 .neither
  cases content : kinds.has .stringContent with
  | true =>
      rw [token, if_pos content]
      exact RawText.blind_scan.indifferent
  | false =>
      cases requested : kinds.terminator? with
      | none =>
          rw [token_eq_plainToken content requested]
          exact (blind_plainToken kinds inside).indifferent
      | some terminator =>
          obtain ⟨gap, line, rfl, blank, stops⟩ := exists_gap text
          have decides (broken : HasLineBreak gap) : kinds.DecidesAt (gap ++ line) line :=
            ⟨content, by rw [requested]; rfl, gap, rfl, blank, broken, stops⟩
          rw [token_eq_statementEnd content requested]
          refine .bind (indifferent_decision blank stops ?_ ?_)
            (blind_follow kinds inside terminator _).indifferent
          · intro broken passes
            rw [Bool.eq_false_iff]
            exact fun fed => unfed ⟨line, decides broken, passes, fed⟩
          · exact fun broken => setterGiven_of_not_calls (decides broken) other

/-- Whether a move does not search for a line break. -/
def Move.Overlooks : Move → Prop
  | .advanceUntil left right =>
      (isAscii left ∧ isAscii right) ∧
        ('\r' != left && '\r' != right) = ('\n' != left && '\n' != right)
  | _ => True

namespace TextReader

def withReturns (reader : TextReader) : TextReader :=
  { reader with rest := ContextScan.withReturns reader.rest }

theorem advance_withReturns (reader : TextReader) :
    reader.withReturns.advance = reader.advance.withReturns := by
  obtain ⟨rest, start, position, tokenStart, mark?⟩ := reader
  cases rest with
  | nil => rfl
  | cons c rest =>
      change TextReader.mk _ start (position + (asReturn c).utf8Size) tokenStart mark? = _
      rw [utf8Size_asReturn]
      rfl

theorem skip_withReturns (reader : TextReader) :
    reader.withReturns.skip = reader.skip.withReturns := by
  rw [skip, advance_withReturns]
  rfl

theorem repeat_advance_withReturns (steps : Nat) (reader : TextReader) :
    steps.repeat advance reader.withReturns = (steps.repeat advance reader).withReturns := by
  induction steps with
  | zero => rfl
  | succ steps ih => rw [Nat.repeat, ih, advance_withReturns, Nat.repeat]

theorem move_withReturns {move : Move} (overlooks : move.Overlooks) (reader : TextReader) :
    Reader.move reader.withReturns move = (Reader.move reader move).withReturns := by
  cases move with
  | advance => exact advance_withReturns reader
  | skip => exact skip_withReturns reader
  | markEnd => rfl
  | advanceUntil left right =>
      obtain ⟨⟨leftAscii, rightAscii⟩, same⟩ := overlooks
      have taken :
          (ContextScan.withReturns reader.rest).takeWhile (fun c => c != left && c != right)
            = ContextScan.withReturns (reader.rest.takeWhile fun c => c != left && c != right) :=
        takeWhile_withReturns same
      change (advanceUntil left right reader.withReturns).2
        = (advanceUntil left right reader).2.withReturns
      rw [advanceUntil_eq_stepwise leftAscii rightAscii,
        advanceUntil_eq_stepwise leftAscii rightAscii]
      change Nat.repeat advance (List.length _) _ = _
      rw [repeat_advance_withReturns]
      change (Nat.repeat advance (List.length ((ContextScan.withReturns reader.rest).takeWhile _))
        reader).withReturns = _
      rw [taken, length_withReturns]
      rfl

/-- The books of a reader are the same with carriage returns. -/
theorem moveAll_withReturns {moves : List Move} (overlook : ∀ move ∈ moves, move.Overlooks)
    (reader : TextReader) :
    Reader.moveAll reader.withReturns moves = (Reader.moveAll reader moves).withReturns := by
  induction moves generalizing reader with
  | nil => rfl
  | cons move moves ih =>
      obtain ⟨overlooks, others⟩ := List.forall_mem_cons.mp overlook
      have once := move_withReturns overlooks reader
      change Reader.moveAll (Reader.move reader.withReturns move) moves = _
      rw [once]
      exact ih others _

end TextReader

/-- A call whose request makes the same run gives the same token. -/
theorem Token.scan?_of_indifferent {offset : Nat}
    (same : Indifferent (Request.token kinds) (dropBytes text offset)) :
    Token.scan? (withReturns text) offset kinds = Token.scan? text offset kinds := by
  have whole : Indifferent (Request.scan kinds) (dropBytes text offset) :=
    .bind same (.bind rfl (.pure _))
  have overlook : ∀ move ∈ (Request.scan kinds (dropBytes text offset)).moves, move.Overlooks :=
    (Request.stepwise_scan trivial trivial trivial
      ⟨⟨by unfold isAscii; decide, by unfold isAscii; decide⟩, rfl⟩ kinds).moves_allowed
  let reader := TextReader.resume offset (dropBytes text offset)
  have moved := TextReader.moveAll_withReturns overlook reader
  have outcome : Reader.scan kinds reader.withReturns = ⟨(Reader.scan kinds reader).produced,
      (Reader.scan kinds reader).events, (Reader.scan kinds reader).reader.withReturns⟩ := by
    change Reader.Outcome.mk (Request.scan kinds (withReturns (dropBytes text offset))).value
      (Request.scan kinds (withReturns (dropBytes text offset))).events
      (Reader.moveAll reader.withReturns
        (Request.scan kinds (withReturns (dropBytes text offset))).moves) = _
    rw [whole]
    exact congrArg (Reader.Outcome.mk _ _) moved
  rw [scan?, scan?, trace, trace, TextReader.at?, TextReader.at?, isBoundary_withReturns,
    dropBytes_withReturns]
  by_cases boundary : isBoundary text offset = true
  · rw [if_pos boundary, if_pos boundary]
    change (ofReader reader.withReturns kinds).token? = (ofReader reader kinds).token?
    rw [ofReader, outcome]
    rfl
  · rw [if_neg boundary, if_neg boundary]

/-- What follows a call of `set` decides about its line. -/
theorem LeadingWord.value_starts_of_setter {line rest : Text} {moves : List Move}
    (captured : afterModifiers line = ⟨Word.ofRun "set".toList, moves, [], rest⟩) :
    (starts kinds line).value = (setterStarts kinds rest).value := by
  have known : (Word.ofRun "set".toList).contextWord? = some .setter :=
    Word.contextWord?_ofRun_iff.mpr rfl
  rw [starts_eq_judge kinds captured, judge, known]
  rfl

theorem KindSet.unannotated_withReturns
    (unfed : kinds.PassesAnnotations → Annotations.feedsArguments .gap line = false) :
    kinds.unannotated (withReturns line) = withReturns (kinds.unannotated line) := by
  rw [unannotated, unannotated]
  split
  · rename_i passes
    exact congrArg Run.rest (Annotations.indifferent_skipAll (unfed passes))
  · rfl

/-- Before a call of `set` that stands alone on its line a terminator is inserted, but not where a
carriage return ends the line. -/
theorem Request.reading?_setterAlone (unfed : ¬kinds.FeedsArguments text)
    (calls : kinds.CallsSetterAlone text) :
    ∃ terminator, kinds.terminator? = some terminator ∧
      reading? kinds text = some (.nothing terminator) ∧
      reading? kinds (withReturns text) = none := by
  obtain ⟨line, decides, setter, passed, rest, split, modified, alone⟩ := calls
  have unfedHere (passes : kinds.PassesAnnotations) :
      Annotations.feedsArguments .gap line = false := by
    rw [Bool.eq_false_iff]
    exact fun fed => unfed ⟨line, decides, passes, fed⟩
  obtain ⟨outside, requested, gap, rfl, blank, broken, stops⟩ := decides
  obtain ⟨terminator, chosen⟩ := Option.isSome_iff_exists.mp requested
  obtain ⟨starts, startsNot⟩ := LeadingWord.setterStarts_alone setter alone
  have opens : Stops isLetter rest := by
    obtain ⟨_, _, _, rfl, _⟩ := alone
    exact .cons rfl
  have letters : ∀ c ∈ "set".toList, isLetter c = true := List.all_eq_true.mp (by decide)
  have letter := modified.isLetter_headD (isLetter_headD_append letters (by decide) rest)
  obtain ⟨moves, captured⟩ :=
    LeadingWord.afterModifiers_append modified letters (by decide) opens (by decide)
  rw [← split] at letter captured
  refine ⟨terminator, chosen, ?_, ?_⟩
  · obtain ⟨run, skips, decides, value, unmarked⟩ := decision_of_letter blank broken stops letter
    rw [LeadingWord.value_starts_of_setter captured, starts] at value
    exact reading?_of_insert outside chosen decides value unmarked
  · have capturedReturns : LeadingWord.afterModifiers (withReturns (kinds.unannotated line))
        = ⟨Word.ofRun "set".toList, moves, [], withReturns rest⟩ := by
      have same : Indifferent LeadingWord.afterModifiers (kinds.unannotated line) :=
        LeadingWord.blind_afterModifiers.indifferent
      rw [same, captured]
      rfl
    have letterReturns : isLetter ((kinds.unannotated (withReturns line)).headD '\x00') = true := by
      rw [KindSet.unannotated_withReturns unfedHere]
      exact (apply_headD_withReturns rfl).trans letter
    have brokenReturns : HasLineBreak (withReturns gap) := (any_withReturns rfl).trans broken
    obtain ⟨run, skips, decides, value, _⟩ := decision_of_letter blank.withReturns brokenReturns
      (stops.withReturns rfl rfl) letterReturns
    rw [KindSet.unannotated_withReturns unfedHere,
      LeadingWord.value_starts_of_setter capturedReturns, startsNot] at value
    rw [withReturns_append]
    refine reading?_of_suppress outside chosen ?_
    rw [decides]
    exact value

/-- A carriage return is as good as a line feed, but where a line feed would be met in the arguments
of an annotation, and but after a call of `set` that stands alone on its line. -/
theorem Token.scan?_withReturns (text : Text) (offset : Nat) (kinds : KindSet)
    (unfed : ¬kinds.FeedsArguments (dropBytes text offset)) :
    (¬kinds.CallsSetterAlone (dropBytes text offset) →
      Token.scan? (withReturns text) offset kinds = Token.scan? text offset kinds) ∧
    (isBoundary text offset = true → kinds.CallsSetterAlone (dropBytes text offset) →
      ∃ terminator, kinds.terminator? = some terminator ∧
        Token.scan? text offset kinds = some ⟨terminator, ⟨⟨offset, offset⟩, ⟨offset, offset⟩⟩⟩ ∧
        Token.scan? (withReturns text) offset kinds = none) := by
  constructor
  · intro other
    exact scan?_of_indifferent (Request.indifferent_token unfed other)
  · intro boundary calls
    obtain ⟨terminator, chosen, inserted, lost⟩ := Request.reading?_setterAlone unfed calls
    refine ⟨terminator, chosen, ?_, ?_⟩
    · rw [scan?_eq, if_pos boundary, inserted]
      rfl
    · rw [scan?_eq, isBoundary_withReturns, dropBytes_withReturns, if_pos boundary, lost]
      rfl

/-- An annotated setter call, in a text where the lines end with a line feed and in one where they
end with a carriage return. -/
theorem Token.scan?_withReturns_annotated :
    let text := "é\n@A(x)\nprivate set(y) \nz".toList
    let kinds := KindSet.ofList [.semi, .setter]
    Token.scan? text 2 kinds = some ⟨.semi, ⟨⟨2, 2⟩, ⟨2, 2⟩⟩⟩ ∧
      Token.scan? (withReturns text) 2 kinds = none := by
  intro text kinds
  let line := "@A(x)\nprivate set(y) \nz".toList
  have here : dropBytes text 2 = '\n' :: line := by decide
  have blank : IsGap ['\n'] := by simp [IsGap, isBlank]
  have stops : Stops isBlank line := .cons rfl
  have unfed : ¬kinds.FeedsArguments (dropBytes text 2) := by
    rintro ⟨other, ⟨_, _, gap, split, otherBlank, _, otherStops⟩, _, fed⟩
    have same : ['\n'] ++ line = gap ++ other := here.symm.trans split
    obtain ⟨_, rfl⟩ := blank.append_inj otherBlank stops otherStops same
    revert fed
    decide
  have decides : kinds.DecidesAt (dropBytes text 2) line :=
    ⟨by decide, by decide, ['\n'], here, blank, rfl, stops⟩
  have alone : ArgumentsAlone "(y) \nz".toList :=
    ⟨['y'], [' '], ['z'], rfl, by simp, by simp [isBlank]⟩
  have modified : ModifierRun ("private".toList ++ ([' '] ++ [])) :=
    .cons (by decide) (by simp [IsGap, isBlank]) (by simp) .nil
  have calls : kinds.CallsSetterAlone (dropBytes text 2) :=
    ⟨line, decides, by decide +kernel, _, "(y) \nz".toList, by decide +kernel, modified, alone⟩
  obtain ⟨terminator, chosen, inserted, lost⟩ :=
    (Token.scan?_withReturns text 2 kinds unfed).2 (by decide) calls
  have semi : kinds.terminator? = some .semi := by decide
  rw [semi] at chosen
  cases chosen
  exact ⟨inserted, lost⟩

/-- Both exceptions make a difference. -/
theorem Token.scan?_withReturns_ne :
    let kinds := KindSet.ofList [.semi, .setter]
    let call := "\nset(x)\ny".toList
    let annotation := "\n@A(\n.b)c".toList
    ('\r' ∉ call ∧ Token.scan? (withReturns call) 0 kinds ≠ Token.scan? call 0 kinds) ∧
      '\r' ∉ annotation ∧
        Token.scan? (withReturns annotation) 0 kinds ≠ Token.scan? annotation 0 kinds := by
  decide +kernel

end ContextScan

import ContextScan.Proofs.SoftToken.Plain
import ContextScan.Proofs.Trace.Reports

namespace ContextScan

/-! Soft tokens where a terminator is requested.

Where a statement goes on after blanks on its line, a request for a terminator leaves what stands
there to the resolvers of the soft tokens, and reads what it would read without the terminator.  The
exception is an `i`: it is looked at for an `import` and then given up.  A comment is left to its
resolver after a line break too. -/

open Scan Continuation

namespace Request

variable {kinds : KindSet} {terminator kind : TokenKind} {gap text : Text} {reading : Reading}

theorem comment_of_ne (kinds : KindSet) (other : text.head? ≠ some '/') :
    comment kinds text = ⟨none, [], [], text⟩ := by
  have next : (text.headD '\x00' == '/') = false :=
    Bool.eq_false_iff.mpr fun same => other (head?_of_headD_beq same (by decide))
  rw [comment]
  split
  · rfl
  · simp only [Comment.scan, bind_apply, peek, next, Bool.false_eq_true, if_false, pure_apply,
      List.nil_append]

theorem softToken_slash (kinds : KindSet) (rest : Text) :
    softToken kinds ('/' :: rest) = comment kinds ('/' :: rest) := by
  simp [softToken, peek]

theorem marked_of_follow {decided : Decision}
    (found : (follow kinds terminator decided text).value = some kind)
    (left : decided ≠ .insert) : .markEnd ∈ (follow kinds terminator decided text).moves := by
  cases decided with
  | insert => exact absurd rfl left
  | suppress => cases found
  | comment => exact (comment_produces found).2.2.2
  | safeNav => exact (SoftOperator.producesOnly_safeNav _ _ found).2
  | notIs =>
      simp only [follow] at found ⊢
      split at found
      · rename_i requested
        rw [if_pos requested]
        exact (SoftOperator.producesOnly_wholeWord _ _ _ _ found).2
      · cases found

section Requested

variable (outside : kinds.has .stringContent = false) (requested : kinds.terminator? = some terminator)
  (blank : IsGap gap)

include outside requested blank

/-- What a decision leaves to another resolver is read behind the gap. -/
theorem reading?_of_left (stops : Stops isBlank text) {run : Run Decision}
    (after : afterGap kinds (gap.any isLineBreak) text = run) (left : run.value ≠ .insert) :
    reading? kinds (gap ++ text)
      = ((run.andThen (follow kinds terminator)).reading? text).map (Reading.after gap) := by
  have followed : (afterGap kinds (gap.any isLineBreak) text).andThen (follow kinds terminator)
      = run.andThen (follow kinds terminator) := by rw [after]
  by_cases marked : .markEnd ∈ (run.andThen (follow kinds terminator)).moves
  · exact reading?_of_marked outside requested blank stops followed marked
  · rw [reading?_of_unmarked outside requested blank stops followed marked]
    cases found : (run.andThen (follow kinds terminator)).value with
    | none => simp [Run.reading?, found]
    | some kind => exact absurd (List.mem_append_right _ (marked_of_follow found left)) marked

/-- A comment is read after a line break as on the line. -/
theorem reading?_slash (rest : Text) : reading? kinds (gap ++ '/' :: rest)
    = ((softToken kinds ('/' :: rest)).reading? ('/' :: rest)).map (Reading.after gap) := by
  have after : afterGap kinds (gap.any isLineBreak) ('/' :: rest)
      = ⟨.comment, [], [], '/' :: rest⟩ := by
    rw [afterGap_cons kinds _ rest (by decide), beforeVisible_of_slash kinds _ rfl]
  rw [reading?_of_left outside requested blank (.cons rfl) after (by simp), softToken_slash]
  rfl

end Requested

/-- On the line of a statement the resolver that a character is left to is the one that is asked
without a terminator, and where none is there is nothing to ask. -/
theorem follow_sameLine (kinds : KindSet) (terminator : TokenKind) {c : Char} {rest : Text}
    (slash : c ≠ '/') (word : c ≠ 'i') :
    ((sameLine kinds (c :: rest)).andThen (follow kinds terminator)).reading? (c :: rest)
      = (softToken kinds (c :: rest)).reading? (c :: rest) := by
  have nothing : comment kinds (c :: rest) = ⟨none, [], [], c :: rest⟩ :=
    comment_of_ne kinds (by simpa using slash)
  by_cases negation : c = '!'
  · subst negation
    have left : sameLine kinds ('!' :: rest) = ⟨.notIs, [], [], '!' :: rest⟩ := rfl
    rw [left]
    cases requested : kinds.has .notIs with
    | true => simp [Run.andThen, follow, softToken, peek, requested]
    | false => simp [Run.andThen, follow, softToken, peek, requested, nothing]
  by_cases question : c = '?'
  · subst question
    have left : sameLine kinds ('?' :: rest) = (if kinds.has .safeNav then pure .safeNav
        else pure .suppress : Scan Decision) ('?' :: rest) := rfl
    rw [left]
    cases requested : kinds.has .safeNav with
    | true => simp [Run.andThen, follow, softToken, peek, requested]
    | false => simp [Run.andThen, follow, softToken, peek, requested, nothing]
  · have left : sameLine kinds (c :: rest) = ⟨.suppress, [], [], c :: rest⟩ := by
      change ((if c == '!' then _ else if c == '?' && _ then _ else if c == 'i' then _ else _ :
        Scan Decision) (c :: rest)) = _
      rw [if_neg (by simpa using negation), if_neg (by simp [question]),
        if_neg (by simpa using word), pure_apply]
    simp [left, Run.andThen, follow, softToken, peek, negation, question, word, nothing]

section SameLine

variable (outside : kinds.has .stringContent = false) (requested : kinds.terminator? = some terminator)
  (blank : IsGap gap) (unbroken : ¬HasLineBreak gap) {c : Char} (visible : isBlank c = false)
  (semicolon : c ≠ ';')

include outside requested blank unbroken visible semicolon

theorem reading?_sameLine_soft (rest : Text) (word : c ≠ 'i') : reading? kinds (gap ++ c :: rest)
    = ((softToken kinds (c :: rest)).reading? (c :: rest)).map (Reading.after gap) := by
  by_cases slash : c = '/'
  · subst slash
    exact reading?_slash outside requested blank rest
  have after : afterGap kinds (gap.any isLineBreak) (c :: rest)
      = reporting false (sameLine kinds (c :: rest)) := by
    rw [not_hasLineBreak_iff.mp unbroken, afterGap_cons kinds false rest semicolon]
    exact beforeVisible_of_ne kinds false slash
  have left : (sameLine kinds (c :: rest)).value ≠ .insert := by
    intro inserts
    have imports := (sameLine_insert_iff kinds (c :: rest)).mp inserts
    exact word (List.cons_prefix_cons.mp imports).1.symm
  rw [reading?_of_left outside requested blank (.cons visible) after left,
    ← follow_sameLine kinds terminator slash word]
  rfl

end SameLine

/-- An `i` on the line of a statement is looked at for an `import` only. -/
theorem reading?_sameLine_word (outside : kinds.has .stringContent = false)
    (requested : kinds.terminator? = some terminator) (blank : IsGap gap)
    (unbroken : ¬HasLineBreak gap) (rest : Text) :
    reading? kinds (gap ++ 'i' :: rest)
      = if "import".toList <+: 'i' :: rest then some (.nothing terminator) else none := by
  split
  · rename_i imports
    exact (reading?_sameLine outside requested blank unbroken rfl (by decide) (by decide)).1 imports
  · rename_i other
    have stops : Stops isBlank ('i' :: rest) := .cons rfl
    have value : (decision kinds (gap ++ 'i' :: rest)).value = (sameLine kinds ('i' :: rest)).value := by
      rw [decision_append kinds blank stops, not_hasLineBreak_iff.mp unbroken]
      exact (afterGap_sameLine kinds rest (by decide) (by decide)).1
    have settled : (sameLine kinds ('i' :: rest)).value
        = insertIf (skipWord "import".toList ('i' :: rest)).value := rfl
    apply reading?_of_suppress outside requested
    rw [value]
    rcases insertIf_settled (skipWord "import".toList ('i' :: rest)).value with inserts | suppresses
    · exact absurd ((sameLine_insert_iff kinds _).mp (settled.trans inserts)) other
    · exact settled.trans suppresses

/-- Only a `/` leaves a decision to the resolver of comments. -/
theorem afterGap_ne_comment (kinds : KindSet) (sawLineBreak : Bool) (other : text.head? ≠ some '/') :
    (afterGap kinds sawLineBreak text).value ≠ .comment := by
  have next : text.headD '\x00' ≠ '/' := fun same =>
    other (head?_of_headD_beq (beq_iff_eq.mpr same) (by decide))
  have visible : (beforeVisible kinds sawLineBreak text).value ≠ .comment := by
    rw [beforeVisible_of_ne kinds sawLineBreak next]
    cases sawLineBreak with
    | false => exact sameLine_ne_comment kinds text
    | true =>
        change (newLine kinds text).value ≠ .comment
        cases tellsWord_newLine kinds text with
        | nothing _ value => rcases value with value | value | value <;> simp [value]
        | word _ _ value =>
            rw [value]
            exact insertIf_ne_comment _
  cases sawLineBreak with
  | true => exact visible
  | false =>
      cases text with
      | nil => simp [afterGap]
      | cons c rest =>
          by_cases semicolon : c = ';'
          · simp [afterGap, semicolon]
          · rw [afterGap_cons kinds false rest semicolon]
            exact visible

theorem comment_of_follow {decided : Decision} (requested : kinds.terminator? = some terminator)
    (found : (follow kinds terminator decided text).value = some .blockComment) :
    decided = .comment := by
  cases decided with
  | comment => rfl
  | insert =>
      have ends := (KindSet.terminator?_eq_some requested).2.1
      simp [Option.some.inj found] at ends
  | suppress => cases found
  | safeNav => cases (SoftOperator.producesOnly_safeNav _ _ found).1
  | notIs =>
      simp only [follow] at found
      split at found
      · cases (SoftOperator.producesOnly_wholeWord _ _ _ _ found).1
      · cases found

/-- Where a comment is read, a `/` stands after the gap. -/
theorem head?_of_comment (outside : kinds.has .stringContent = false)
    (requested : kinds.terminator? = some terminator) (blank : IsGap gap)
    (stops : Stops isBlank text) (read : reading? kinds (gap ++ text) = some reading)
    (comment : reading.kind = .blockComment) : text.head? = some '/' := by
  obtain ⟨kind, found, rfl⟩ := Option.map_eq_some_iff.mp read
  have same : kind = .blockComment := comment
  subst same
  rw [token_afterGap outside requested blank stops] at found
  apply Decidable.byContradiction
  intro other
  exact afterGap_ne_comment kinds _ other (comment_of_follow requested found)

section Extended

variable {extended : KindSet}
  (same : ∀ kind, kind ≠ .semi → kind ≠ .memberSemi → extended.has kind = kinds.has kind)

include same

theorem softToken_extended : softToken extended = softToken kinds := by
  simp only [softToken, comment, same .notIs (by decide) (by decide),
    same .membership (by decide) (by decide), same .safeNav (by decide) (by decide),
    same .dollar (by decide) (by decide), same .blockComment (by decide) (by decide)]

variable (outside : kinds.has .stringContent = false) (unrequested : kinds.terminator? = none)
  (requested : extended.terminator? = some terminator) (blank : IsGap gap)

include outside unrequested requested blank

theorem reading?_extended_comment (stops : Stops isBlank text)
    (comment : reading.kind = .blockComment) :
    reading? extended (gap ++ text) = some reading ↔ reading? kinds (gap ++ text) = some reading := by
  have extendedOutside := (same .stringContent (by decide) (by decide)).trans outside
  by_cases slash : text.head? = some '/'
  · obtain ⟨rest, rfl⟩ := List.head?_eq_some_iff.mp slash
    rw [reading?_slash extendedOutside requested blank, softToken_extended same,
      reading?_plain outside unrequested blank stops]
  · constructor
    · intro read
      exact absurd (head?_of_comment extendedOutside requested blank stops read comment) slash
    · intro read
      obtain ⟨_, soft⟩ := (reading?_plain_iff outside unrequested blank stops).mp read
      have initial := soft.head?
      rw [comment] at initial
      exact absurd initial slash

theorem reading?_extended_sameLine (unbroken : ¬HasLineBreak gap) {c : Char}
    (visible : isBlank c = false) (semicolon : c ≠ ';') (word : c ≠ 'i') (rest : Text) :
    reading? extended (gap ++ c :: rest) = reading? kinds (gap ++ c :: rest) := by
  have extendedOutside := (same .stringContent (by decide) (by decide)).trans outside
  rw [reading?_sameLine_soft extendedOutside requested blank unbroken visible semicolon rest word,
    softToken_extended same, reading?_plain outside unrequested blank (.cons visible)]

end Extended

end Request

/-- What a request for a terminator does to the soft tokens.  On the line of a statement they are
read as without it, except that an `i` only stands for the `import` before which the statement ends.
Comments are read as without it everywhere. -/
theorem Token.scan?_sameLine {kinds extended : KindSet} {terminator : TokenKind}
    (outside : kinds.has .stringContent = false) (unrequested : kinds.terminator? = none)
    (same : ∀ kind, kind ≠ .semi → kind ≠ .memberSemi → extended.has kind = kinds.has kind)
    (requested : extended.terminator? = some terminator) (text : Text) (offset : Nat) :
    let plain? := scan? text offset kinds
    let extended? := scan? text offset extended
    (∀ front gap c rest, text = front ++ (gap ++ c :: rest) → byteSize front = offset →
      IsGap gap → ¬HasLineBreak gap → isBlank c = false → c ≠ ';' →
      (c ≠ 'i' → extended? = plain?) ∧
      (c = 'i' → extended? = if "import".toList <+: c :: rest
        then some ⟨terminator, ⟨⟨offset, offset⟩, ⟨offset, offset⟩⟩⟩ else none)) ∧
    ∀ span, extended? = some ⟨.blockComment, span⟩ ↔ plain? = some ⟨.blockComment, span⟩ := by
  intro plain? extended?
  constructor
  · rintro front gap c rest rfl rfl blank unbroken visible semicolon
    have extendedRead : extended? = (Request.reading? extended (gap ++ c :: rest)).map
        (Reading.token (byteSize front)) := scan?_eq_reading? front _ extended
    have plainRead : plain? = (Request.reading? kinds (gap ++ c :: rest)).map
        (Reading.token (byteSize front)) := scan?_eq_reading? front _ kinds
    constructor
    · intro word
      rw [extendedRead, plainRead, Request.reading?_extended_sameLine same outside unrequested
        requested blank unbroken visible semicolon word]
    · rintro rfl
      have extendedOutside := (same .stringContent (by decide) (by decide)).trans outside
      rw [extendedRead,
        Request.reading?_sameLine_word extendedOutside requested blank unbroken rest]
      split
      · rfl
      · rfl
  · intro span
    have comments : ∀ token : Token, token.kind = .blockComment →
        (extended? = some token ↔ plain? = some token) := by
      intro token comment
      change scan? text offset extended = _ ↔ scan? text offset kinds = _
      rw [scan?_eq, scan?_eq]
      split
      · obtain ⟨gap, later, split, blank, stops⟩ := exists_gap (dropBytes text offset)
        rw [split, Option.map_eq_some_iff, Option.map_eq_some_iff]
        apply exists_congr
        intro reading
        apply and_congr_left
        rintro rfl
        exact Request.reading?_extended_comment same outside unrequested requested blank stops
          comment
      · exact Iff.rfl
    exact comments ⟨.blockComment, span⟩ rfl

/-- A negated type check and a comment beside the terminator between class members, and an `import`
that ends a header where `in` is requested as well. -/
theorem Token.scan?_sameLine_import :
    let kinds := KindSet.ofList [.notIs, .membership, .blockComment]
    let extended := kinds.insert .memberSemi
    scan? "é !is T".toList 2 extended = scan? "é !is T".toList 2 kinds ∧
      scan? "a.b import c".toList 3 extended = some ⟨.memberSemi, ⟨⟨3, 3⟩, ⟨3, 3⟩⟩⟩ ∧
      scan? "\n/**/;".toList 0 extended = some ⟨.blockComment, ⟨⟨0, 5⟩, ⟨1, 5⟩⟩⟩ := by
  intro kinds extended
  have same : ∀ kind, kind ≠ .semi → kind ≠ .memberSemi → extended.has kind = kinds.has kind := by
    intro kind
    cases kind <;> decide
  have laws := @scan?_sameLine kinds extended .memberSemi (by decide) (by decide) same (by decide)
  have space : IsGap [' '] := by simp [IsGap, isBlank]
  have unbroken : ¬HasLineBreak [' '] := by simp [HasLineBreak, isLineBreak]
  refine ⟨?_, ?_, ?_⟩
  · exact ((laws "é !is T".toList 2).1 ['é'] [' '] '!' "is T".toList rfl (by decide) space unbroken
      (by decide) (by decide)).1 (by decide)
  · exact ((laws "a.b import c".toList 3).1 "a.b".toList [' '] 'i' "mport c".toList rfl (by decide)
      space unbroken (by decide) (by decide)).2 rfl
  · exact ((laws "\n/**/;".toList 0).2 ⟨⟨0, 5⟩, ⟨1, 5⟩⟩).mpr (by decide +kernel)

end ContextScan

import ContextScan.Proofs.Requested.Laws
import ContextScan.Proofs.SoftToken.Recognition

namespace ContextScan

/-! Requests without a terminator.

Where no terminator is requested, a call passes the gap that it starts at and reads the soft token
that stands there, if its kind is requested.  No other requested kind plays a part in that, so the
answer to a request is put together from the answers for its kinds. -/

open Scan

/-- Whether the tokens of a requested kind may be read.  Inside a string, where an interpolation may
follow, comments are literal. -/
def KindSet.Admits (kinds : KindSet) (kind : TokenKind) : Prop :=
  kinds.has kind = true ∧ (kind = .blockComment → kinds.has .dollar = false)

instance (kinds : KindSet) (kind : TokenKind) : Decidable (kinds.Admits kind) :=
  inferInstanceAs (Decidable (_ ∧ _))

/-- Whether the soft token of a kind stands after the blanks at an offset, and nothing but these
blanks is consumed before it. -/
def Token.SoftAt (text : Text) (offset : Nat) (token : Token) : Prop :=
  ∃ front gap lexeme rest, text = front ++ (gap ++ (lexeme ++ rest)) ∧ byteSize front = offset ∧
    IsGap gap ∧ SoftToken token.kind lexeme rest ∧
    let start := offset + byteSize gap
    let stop := start + byteSize lexeme
    token.span = ⟨⟨offset, stop⟩, ⟨start, stop⟩⟩

namespace Request

/-- Reads the soft token that a text starts with. -/
def softToken (kinds : KindSet) : Scan (Option TokenKind) := do
  let next ← peek
  if kinds.has .notIs && next == '!' then
    SoftOperator.notIs
  else if kinds.has .membership && next == 'i' then
    SoftOperator.membership
  else if kinds.has .safeNav && next == '?' then
    SoftOperator.safeNav
  else
    comment kinds

variable {kinds : KindSet} {gap text : Text} {reading : Reading}

theorem plainToken_eq (kinds : KindSet) :
    plainToken kinds = (do skipWhile isBlank isBlank_nul; softToken kinds) := rfl

theorem softToken_apply (kinds : KindSet) (text : Text) : softToken kinds text =
    (if kinds.has .notIs && text.headD '\x00' == '!' then SoftOperator.notIs
      else if kinds.has .membership && text.headD '\x00' == 'i' then SoftOperator.membership
      else if kinds.has .safeNav && text.headD '\x00' == '?' then SoftOperator.safeNav
      else comment kinds : Scan (Option TokenKind)) text := rfl

theorem comment_iff : (comment kinds text).reading? text = some reading ↔
    reading.kind = .blockComment ∧ kinds.Admits .blockComment ∧ reading.SoftAfter [] text := by
  cases requested : kinds.has .blockComment with
  | false =>
      have refused : comment kinds = pure none := by simp [comment, requested]
      simp [refused, Run.reading?, KindSet.Admits, requested]
  | true =>
      cases inside : kinds.has .dollar with
      | true =>
          have refused : comment kinds = pure none := by simp [comment, inside]
          simp [refused, Run.reading?, KindSet.Admits, inside]
      | false =>
          have granted : comment kinds = Comment.scan := by simp [comment, requested, inside]
          rw [granted, Comment.recognizes_scan text reading]
          simp [KindSet.Admits, requested, inside]

section Asked

variable {kind : TokenKind} {c : Char} (initial : kind.softInitial? = some c)

include initial

/-- Where a kind is asked for, no token of another kind stands. -/
theorem asked_iff (asked : (kinds.has kind && text.headD '\x00' == c) = true) (present : c ≠ '\x00')
    (other : kind ≠ .blockComment) :
    reading.kind = kind ∧ reading.SoftAfter [] text ↔
      kinds.Admits reading.kind ∧ reading.SoftAfter [] text := by
  obtain ⟨requested, next⟩ := Bool.and_eq_true _ _ ▸ asked
  constructor
  · rintro ⟨rfl, soft⟩
    exact ⟨⟨requested, fun same => absurd same other⟩, soft⟩
  · rintro ⟨_, soft⟩
    exact ⟨soft.kind_eq (head?_of_headD_beq next present) initial, soft⟩

/-- A token of an admitted kind would have been asked for. -/
theorem kind_ne_of_not_asked (asked : ¬(kinds.has kind && text.headD '\x00' == c) = true)
    (admitted : kinds.Admits reading.kind) (soft : reading.SoftAfter [] text) :
    reading.kind ≠ kind := by
  rintro rfl
  have next : text.headD '\x00' = c := by
    rw [List.headD_eq_head?_getD, soft.head?, initial]
    rfl
  simp only [admitted.1, next, beq_self_eq_true, Bool.and_self, not_true_eq_false] at asked

end Asked

/-- A soft token is read exactly if one stands there and its kind is admitted. -/
theorem softToken_iff (stops : Stops isBlank text) :
    (softToken kinds text).reading? text = some reading ↔
      kinds.Admits reading.kind ∧ reading.SoftAfter [] text := by
  rw [softToken_apply]
  split
  · rw [SoftOperator.recognizes_notIs text reading]
    exact asked_iff rfl ‹_› (by decide) (by decide)
  rename_i notIs
  split
  · rw [SoftOperator.recognizes_membership text reading]
    exact asked_iff rfl ‹_› (by decide) (by decide)
  rename_i membership
  split
  · rw [SoftOperator.recognizes_safeNav stops reading]
    exact asked_iff rfl ‹_› (by decide) (by decide)
  rename_i safeNav
  rw [comment_iff]
  constructor
  · rintro ⟨comment, admitted, soft⟩
    exact ⟨comment ▸ admitted, soft⟩
  · rintro ⟨admitted, soft⟩
    obtain ⟨_, _, _, token⟩ := id soft
    have comment : reading.kind = .blockComment := by
      rcases token.kind_eq with same | same | same | same
      · exact absurd same (kind_ne_of_not_asked rfl notIs admitted soft)
      · exact absurd same (kind_ne_of_not_asked rfl membership admitted soft)
      · exact absurd same (kind_ne_of_not_asked rfl safeNav admitted soft)
      · exact same
    exact ⟨comment, comment ▸ admitted, soft⟩

/-- Behind a gap a soft token is read with the gap as its trivia. -/
theorem softToken_after_iff (stops : Stops isBlank text) :
    ((softToken kinds text).reading? text).map (Reading.after gap) = some reading ↔
      kinds.Admits reading.kind ∧ reading.SoftAfter gap text := by
  rw [Option.map_eq_some_iff, Reading.softAfter_iff]
  constructor
  · rintro ⟨bare, found, rfl⟩
    obtain ⟨admitted, soft⟩ := (softToken_iff stops).mp found
    exact ⟨admitted, bare, soft, rfl⟩
  · rintro ⟨admitted, bare, soft, rfl⟩
    exact ⟨bare, (softToken_iff stops).mpr ⟨admitted, soft⟩, rfl⟩

section Plain

variable (outside : kinds.has .stringContent = false) (unrequested : kinds.terminator? = none)
  (blank : IsGap gap) (stops : Stops isBlank text)

include outside unrequested blank stops

theorem reading?_plain :
    reading? kinds (gap ++ text) = ((softToken kinds text).reading? text).map (Reading.after gap) := by
  have ascii := token_moves_ascii kinds (gap ++ text)
  have same : token kinds (gap ++ text)
      = (softToken kinds text).precededBy (List.replicate gap.length .skip) := by
    rw [token_eq_plainToken outside unrequested, plainToken_eq,
      bind_silent (skipWhile_append blank stops)]
  rw [same] at ascii
  have ownAscii : ∀ move ∈ (softToken kinds text).moves, move.SearchesAscii := fun move member =>
    ascii move (List.mem_append_right _ member)
  rw [reading?, same, Run.reading?_precededBy_skips gap ownAscii]

theorem reading?_plain_iff : reading? kinds (gap ++ text) = some reading ↔
    kinds.Admits reading.kind ∧ reading.SoftAfter gap text := by
  rw [reading?_plain outside unrequested blank stops, softToken_after_iff stops]

end Plain

end Request

namespace Token

variable {kinds : KindSet} {text : Text} {offset : Nat} {token other : Token}

section Split

variable {front gap line : Text} (blank : IsGap gap) (stops : Stops isBlank line)

include blank stops

theorem softAt_iff : token.SoftAt (front ++ (gap ++ line)) (byteSize front) ↔
    ∃ reading : Reading, reading.SoftAfter gap line ∧ reading.token (byteSize front) = token := by
  constructor
  · rintro ⟨before, skipped, lexeme, rest, split, size, skippedBlank, soft, span⟩
    have here : gap ++ line = skipped ++ (lexeme ++ rest) := by
      rw [← dropBytes_byteSize_append front (gap ++ line), split, ← size,
        dropBytes_byteSize_append]
    obtain ⟨rfl, rfl⟩ := blank.append_inj skippedBlank stops soft.stops here
    exact ⟨⟨token.kind, gap, lexeme⟩, ⟨rfl, rest, rfl, soft⟩, by rw [Reading.token, ← span]⟩
  · rintro ⟨reading, ⟨rfl, rest, rfl, soft⟩, rfl⟩
    exact ⟨front, _, _, rest, rfl, rfl, blank, soft, rfl⟩

/-- A call that is left to the soft tokens finds the one that stands there, if it is admitted. -/
theorem scan?_iff_of_softToken (left : Request.reading? kinds (gap ++ line)
      = ((Request.softToken kinds line).reading? line).map (Reading.after gap)) :
    scan? (front ++ (gap ++ line)) (byteSize front) kinds = some token ↔
      kinds.Admits token.kind ∧ token.SoftAt (front ++ (gap ++ line)) (byteSize front) := by
  rw [scan?_eq_reading?, left, Option.map_eq_some_iff, softAt_iff blank stops]
  constructor
  · rintro ⟨reading, found, rfl⟩
    obtain ⟨admitted, soft⟩ := (Request.softToken_after_iff stops).mp found
    exact ⟨admitted, reading, soft, rfl⟩
  · rintro ⟨admitted, reading, soft, rfl⟩
    exact ⟨reading, (Request.softToken_after_iff stops).mpr ⟨admitted, soft⟩, rfl⟩

end Split

theorem scan?_iff_softAt (outside : kinds.has .stringContent = false)
    (unrequested : kinds.terminator? = none) :
    scan? text offset kinds = some token ↔
      kinds.Admits token.kind ∧ token.SoftAt text offset := by
  constructor
  · intro produced
    obtain ⟨front, here, rfl, rfl⟩ := isBoundary_iff.mp (boundary_of_scan? produced)
    obtain ⟨gap, line, rfl, blank, stops⟩ := exists_gap here
    exact (scan?_iff_of_softToken blank stops
      (Request.reading?_plain outside unrequested blank stops)).mp produced
  · intro standing
    obtain ⟨_, front, gap, lexeme, rest, rfl, rfl, blank, soft, _⟩ := id standing
    exact (scan?_iff_of_softToken blank soft.stops
      (Request.reading?_plain outside unrequested blank soft.stops)).mpr standing

/-- At most one soft token stands at an offset. -/
theorem SoftAt.unique (first : token.SoftAt text offset) (second : other.SoftAt text offset) :
    token = other := by
  let soft := KindSet.ofList [.notIs, .membership, .safeNav, .blockComment]
  have read {token : Token} (standing : token.SoftAt text offset) :
      scan? text offset soft = some token := by
    have admitted : soft.Admits token.kind := by
      obtain ⟨_, _, _, _, _, _, _, spelled, _⟩ := standing
      rcases spelled.kind_eq with same | same | same | same <;> rw [same] <;> decide
    exact (scan?_iff_softAt (by decide) (by decide)).mpr ⟨admitted, standing⟩
  exact Option.some.inj ((read first).symm.trans (read second))

section Parts

variable (outside : kinds.has .stringContent = false) (unrequested : kinds.terminator? = none)
  (outsideString : kinds.has .dollar = false)

include outside unrequested outsideString

theorem scan?_iff_has : scan? text offset kinds = some token ↔
    kinds.has token.kind = true ∧ token.SoftAt text offset := by
  rw [scan?_iff_softAt outside unrequested, KindSet.Admits, outsideString]
  simp only [implies_true, and_true]

theorem scan?_single_iff {kind : TokenKind} (requested : kinds.has kind = true) :
    scan? text offset (.ofList [kind]) = some token ↔
      token.kind = kind ∧ token.SoftAt text offset := by
  have absent {other : TokenKind} (unlisted : kinds.has other = false) :
      (KindSet.ofList [kind]).has other = false := by
    rw [← Bool.not_eq_true, KindSet.has_ofList, List.mem_singleton]
    rintro rfl
    rw [requested] at unlisted
    cases unlisted
  obtain ⟨semi, memberSemi⟩ := KindSet.not_has_of_terminator? unrequested
  have single : (KindSet.ofList [kind]).terminator? = none := by
    simp [KindSet.terminator?, absent semi, absent memberSemi]
  rw [scan?_iff_has (absent outside) single (absent outsideString), KindSet.has_ofList,
    List.mem_singleton]

theorem scan?_insert_context {kind : TokenKind}
    (context : kind ∈ [TokenKind.constructor, .getter, .setter]) :
    scan? text offset (kinds.insert kind) = scan? text offset kinds := by
  have same {other : TokenKind} (unlisted : other ∉ [TokenKind.constructor, .getter, .setter]) :
      (kinds.insert kind).has other = kinds.has other :=
    KindSet.has_insert_of_ne (ne_of_mem_of_not_mem context unlisted).symm kinds
  obtain ⟨semi, memberSemi⟩ := KindSet.not_has_of_terminator? unrequested
  have still : (kinds.insert kind).terminator? = none := by
    simp [KindSet.terminator?, @same .semi (by decide), @same .memberSemi (by decide), semi,
      memberSemi]
  apply Option.ext
  intro token
  rw [scan?_iff_has outside unrequested outsideString,
    scan?_iff_has ((same (by decide)).trans outside) still ((same (by decide)).trans outsideString)]
  apply and_congr_left
  intro standing
  obtain ⟨_, _, _, _, _, _, _, spelled, _⟩ := standing
  rcases spelled.kind_eq with kind | kind | kind | kind <;> rw [kind, same (by decide)]

end Parts

end Token

/-- Without a terminator, the token of a call is the soft token that stands after the blanks, if
its kind is requested.  At most one stands there, so the requested kinds do not interfere: what is
read for a set is what is read for one of its kinds.  The kinds that are only context have no
effect. -/
theorem Token.scan?_softToken {kinds : KindSet} (outside : kinds.has .stringContent = false)
    (unrequested : kinds.terminator? = none) (outsideString : kinds.has .dollar = false)
    (text : Text) (offset : Nat) :
    (∀ token, scan? text offset kinds = some token ↔
      kinds.has token.kind = true ∧ token.SoftAt text offset) ∧
    (∀ token other : Token, token.SoftAt text offset → other.SoftAt text offset → token = other) ∧
    (∀ token, scan? text offset kinds = some token ↔
      ∃ kind, kinds.has kind = true ∧ scan? text offset (.ofList [kind]) = some token) ∧
    (∀ kind other, kinds.has kind = true → kinds.has other = true →
      (scan? text offset (.ofList [kind])).isSome = true →
      (scan? text offset (.ofList [other])).isSome = true → kind = other) ∧
    ∀ kind ∈ [TokenKind.constructor, .getter, .setter],
      scan? text offset (kinds.insert kind) = scan? text offset kinds := by
  have single {kind : TokenKind} (requested : kinds.has kind = true) {token : Token} :
      scan? text offset (.ofList [kind]) = some token ↔
        token.kind = kind ∧ token.SoftAt text offset :=
    scan?_single_iff outside unrequested outsideString requested
  refine ⟨fun token => scan?_iff_has outside unrequested outsideString,
    fun token other => SoftAt.unique, ?_, ?_,
    fun kind context => scan?_insert_context outside unrequested outsideString context⟩
  · intro token
    rw [scan?_iff_has outside unrequested outsideString]
    constructor
    · intro ⟨requested, soft⟩
      exact ⟨token.kind, requested, (single requested).mpr ⟨rfl, soft⟩⟩
    · intro ⟨kind, requested, produced⟩
      obtain ⟨rfl, soft⟩ := (single requested).mp produced
      exact ⟨requested, soft⟩
  · intro kind other requested otherRequested produced otherProduced
    obtain ⟨token, found⟩ := Option.isSome_iff_exists.mp produced
    obtain ⟨second, otherFound⟩ := Option.isSome_iff_exists.mp otherProduced
    obtain ⟨rfl, soft⟩ := (single requested).mp found
    obtain ⟨rfl, otherSoft⟩ := (single otherRequested).mp otherFound
    rw [soft.unique otherSoft]

/-- Safe navigation over a line break, where a comment and a setter might follow as well. -/
theorem Token.scan?_softToken_safeNav :
    scan? "é ?\n.in".toList 2 (.ofList [.blockComment, .safeNav, .membership, .setter])
      = some ⟨.safeNav, ⟨⟨2, 6⟩, ⟨3, 6⟩⟩⟩ := by
  have space : IsGap [' '] := by simp [IsGap, isBlank]
  have lineFeed : IsGap ['\n'] := by simp [IsGap, isBlank]
  have soft : Token.SoftAt "é ?\n.in".toList 2 ⟨.safeNav, ⟨⟨2, 6⟩, ⟨3, 6⟩⟩⟩ :=
    ⟨['é'], [' '], _, "in".toList, rfl, by decide, space, .safeNav lineFeed _, by decide⟩
  exact ((scan?_softToken (by decide) (by decide) (by decide) _ 2).1 _).mpr ⟨by decide, soft⟩

end ContextScan

import ContextScan.Proofs.Replay.Tiling
import ContextScan.Proofs.Token.Trivia

namespace ContextScan

/-! The semicolons of a replay.

A call that starts at a `;` takes it, so no host ever does.  A call that starts before a `;` and
ends after it holds it in the text of its token, because a gap has no `;`; and the only tokens that
have one in their text are terminators and comments. -/

/-- Whether an offset lies in a range. -/
def ByteRange.Covers (range : ByteRange) (offset : Nat) : Prop :=
  range.start ≤ offset ∧ offset < range.stop

/-- Whether a `;` at an offset is in a comment, or is the terminator. -/
def Token.Holds (token : Token) (offset : Nat) : Prop :=
  token.kind = .blockComment ∧ token.span.token.Covers offset ∨
    (token.kind = .semi ∨ token.kind = .memberSemi) ∧ token.span.token = ⟨offset, offset + 1⟩

/-- Whether one segment has the `;` at an offset, and no other lies there. -/
def HeldOnce (all : List Segment) (offset : Nat) : Prop :=
  ∃ before token after, all = before ++ .ofToken token :: after ∧ token.Holds offset ∧
    ∀ other ∈ before ++ after, ¬other.span.token.Covers offset

namespace HeldOnce

variable {all : List Segment} {offset : Nat}

theorem cons (held : HeldOnce all offset) {first : Segment}
    (aside : ¬first.span.token.Covers offset) : HeldOnce (first :: all) offset := by
  obtain ⟨before, token, after, rfl, holds, others⟩ := held
  refine ⟨first :: before, token, after, rfl, holds, ?_⟩
  intro other member
  rcases List.mem_cons.mp member with rfl | member
  · exact aside
  · exact others other member

theorem first {token : Token} (holds : token.Holds offset)
    (others : ∀ other ∈ all, ¬other.span.token.Covers offset) :
    HeldOnce (.ofToken token :: all) offset :=
  ⟨[], token, all, rfl, holds, others⟩

end HeldOnce

/-- Where a character stands in one of two parts that follow each other. -/
theorem append_eq_append_cons {front back before after : Text} {c : Char}
    (same : front ++ back = before ++ c :: after) :
    (∃ between, front = before ++ c :: between) ∨
      ∃ between, before = front ++ between ∧ back = between ++ c :: after := by
  rcases List.append_eq_append_iff.mp same with ⟨between, rfl, rfl⟩ | ⟨between, rfl, split⟩
  · exact Or.inr ⟨between, rfl, rfl⟩
  · cases between with
    | nil => exact Or.inr ⟨[], by simp, split.symm⟩
    | cons d between =>
        cases (List.cons.inj split).1
        exact Or.inl ⟨between, rfl⟩

theorem IsGap.no_semicolon {gap before after : Text} (blank : IsGap gap) :
    gap ≠ before ++ ';' :: after := by
  rintro rfl
  exact absurd (blank ';' (by simp)) (by decide)

/-- The texts that have a `;` in them. -/
theorem TokenKind.Spells.semicolon {kind : TokenKind} {before after : Text}
    (spells : kind.Spells (before ++ ';' :: after)) :
    kind = .blockComment ∨ (kind = .semi ∨ kind = .memberSemi) ∧ before = [] ∧ after = [] := by
  have word {word : Text} (absent : ';' ∉ word) : before ++ ';' :: after ≠ word := by
    rintro rfl
    exact absent (by simp)
  cases kind with
  | semi | memberSemi =>
      have alone : before ++ ';' :: after = [';'] := spells
      have ends : before = [] ∧ after = [] := by
        cases before <;> simp_all
      exact Or.inr ⟨by simp, ends⟩
  | blockComment => exact Or.inl rfl
  | notIs | membership => exact (word (by decide) spells).elim
  | safeNav =>
      obtain ⟨gap, blank, split⟩ := spells
      refine (word ?_ split).elim
      intro member
      have inGap : ';' ∈ gap := by simpa using member
      exact absurd (blank ';' inGap) (by decide)
  | stringContent | constructor | getter | setter | dollar => exact spells.elim

section Call

variable {text rest : Text} {kinds : KindSet} {offset place : Nat} {token : Token}

/-- A `;` that a call starts at is the terminator. -/
theorem Token.scan?_semicolon (outside : kinds.has .stringContent = false) {terminator : TokenKind}
    (requested : kinds.terminator? = some terminator) (stands : StandsAt text offset ';' rest) :
    Token.scan? text offset kinds
      = some ⟨terminator, ⟨⟨offset, offset + 1⟩, ⟨offset, offset + 1⟩⟩⟩ := by
  obtain ⟨front, rfl, rfl⟩ := stands
  have still : IsGap [] := fun _ member => absurd member List.not_mem_nil
  have read := Request.reading?_semicolon outside requested still rest
  rw [List.nil_append] at read
  rw [Token.scan?_eq_reading?, read]
  rfl

/-- A call that goes past a `;` holds it. -/
theorem Token.holds_of_scan? (outside : kinds.has .stringContent = false)
    (unannotated : ¬kinds.PassesAnnotations) (produced : Token.scan? text offset kinds = some token)
    (stands : StandsAt text place ';' rest) (low : offset ≤ place)
    (high : place < token.span.consumed.stop) : token.Holds place := by
  obtain ⟨front, reading, later, rfl, rfl, rfl, read⟩ := Token.split_of_scan? produced
  obtain ⟨between, after, split, rfl⟩ := exists_between stands.boundary low
  have here := stands.dropBytes_eq
  rw [split, ← List.append_assoc, dropBytes_byteSize_append] at here
  subst here
  have formed := Request.formed_of_reading? read
  have bound : byteSize front + byteSize between
      < byteSize front + byteSize reading.trivia + byteSize reading.lexeme := by
    rw [byteSize_append] at high
    exact high
  cases formed with
  | content inside => rw [inside] at outside; cases outside
  | inserted =>
      have short : byteSize front + byteSize between < byteSize front + 0 + 0 := bound
      omega
  | annotated _ _ passes => exact absurd passes unannotated
  | @taken kind gap lexeme blank spells =>
      rcases append_eq_append_cons split with ⟨_, within⟩ | ⟨passed, rfl, follows⟩
      · exact absurd within blank.no_semicolon
      rcases append_eq_append_cons follows with ⟨left, rfl⟩ | ⟨_, rfl, _⟩
      · rcases spells.semicolon with rfl | ⟨terminates, rfl, rfl⟩
        · have positive : 0 < byteSize (';' :: left) := byteSize_pos_iff.mpr (List.cons_ne_nil _ _)
          refine Or.inl ⟨rfl, ?_, ?_⟩ <;> simp only [Reading.token, byteSize_append] <;> omega
        · refine Or.inr ⟨terminates, ?_⟩
          rw [List.append_nil, byteSize_append]
          rfl
      · simp only [byteSize_append] at bound
        omega

/-- A terminator that takes anything takes a `;` after a gap. -/
theorem Token.semicolon_of_scan? (unannotated : ¬kinds.PassesAnnotations)
    (produced : Token.scan? text offset kinds = some token)
    (terminates : token.kind = .semi ∨ token.kind = .memberSemi)
    (consumed : token.span.consumed.isEmpty = false) :
    ∃ place rest, StandsAt text place ';' rest ∧ token.span.token = ⟨place, place + 1⟩ ∧
      token.span.consumed.stop = place + 1 ∧ IsGap ((ByteRange.mk offset place).slice text) := by
  obtain ⟨front, reading, later, rfl, rfl, rfl, read⟩ := Token.split_of_scan? produced
  have formed := Request.formed_of_reading? read
  cases formed with
  | content => simp [Reading.token] at terminates
  | inserted => simp [Reading.token, Reading.nothing, ByteRange.isEmpty, byteSize] at consumed
  | annotated _ _ passes => exact absurd passes unannotated
  | @taken kind gap lexeme blank spells =>
      have alone : lexeme = [';'] := by
        rcases terminates with semi | memberSemi
        · cases semi
          exact spells
        · cases memberSemi
          exact spells
      subst alone
      refine ⟨byteSize front + byteSize gap, later, ⟨front ++ gap, ?_, ?_⟩, rfl, rfl, ?_⟩
      · simp
      · rw [byteSize_append]
      · dsimp only
        rw [slice_append]
        exact blank

theorem Token.start_of_scan? (produced : Token.scan? text offset kinds = some token) :
    offset ≤ token.span.token.start ∧ token.span.token.stop = token.span.consumed.stop := by
  obtain ⟨_, reading, _, _, _, rfl, _⟩ := Token.split_of_scan? produced
  exact ⟨Nat.le_add_right _ _, rfl⟩

end Call

namespace Replays

variable {text rest : Text} {kinds : KindSet} {offset place : Nat} {all : List Segment}

/-- No segment starts before the replay does. -/
theorem start_le (replays : Replays text kinds offset all) :
    ∀ segment ∈ all, offset ≤ segment.span.token.start := by
  induction replays with
  | ended => simp
  | lastToken produced still =>
      simpa [Segment.ofToken] using (Token.start_of_scan? produced).1
  | token produced progress others othersIH =>
      intro segment member
      rcases List.mem_cons.mp member with rfl | later
      · exact (Token.start_of_scan? produced).1
      · exact Nat.le_trans (Nat.le_of_lt progress) (othersIH segment later)
  | host stands nothing others othersIH =>
      intro segment member
      rcases List.mem_cons.mp member with rfl | later
      · exact Nat.le_refl _
      · exact Nat.le_trans (Nat.le_add_right _ _) (othersIH segment later)
  | pause stands produced still others othersIH =>
      intro segment member
      rcases List.mem_cons.mp member with rfl | later
      · exact (Token.start_of_scan? produced).1
      rcases List.mem_cons.mp later with rfl | later
      · exact Nat.le_refl _
      · exact Nat.le_trans (Nat.le_add_right _ _) (othersIH segment later)

theorem heldOnce (replays : Replays text kinds offset all)
    (outside : kinds.has .stringContent = false) {terminator : TokenKind}
    (requested : kinds.terminator? = some terminator) (unannotated : ¬kinds.PassesAnnotations)
    (stands : StandsAt text place ';' rest) (low : offset ≤ place) : HeldOnce all place := by
  have here := Token.scan?_semicolon outside requested stands
  have inside := stands.lt_byteSize
  have past {offset : Nat} {c : Char} {others : Text} (next : StandsAt text offset c others)
      (low : offset ≤ place) (other : offset ≠ place) : offset + c.utf8Size ≤ place :=
    next.next_le stands.boundary (Nat.lt_of_le_of_ne low other)
  induction replays with
  | ended => omega
  | lastToken => omega
  | @token offset token later produced progress others othersIH =>
      obtain ⟨start, stop⟩ := Token.start_of_scan? produced
      by_cases within : place < token.span.consumed.stop
      · refine .first (Token.holds_of_scan? outside unannotated produced stands low within) ?_
        intro other member covers
        have after := others.start_le other member
        have before := covers.1
        omega
      · refine (othersIH (Nat.not_lt.mp within)).cons ?_
        intro covers
        have before : place < token.span.token.stop := covers.2
        omega
  | @host offset c others later next nothing replays othersIH =>
      have other : offset ≠ place := by
        rintro rfl
        rw [here] at nothing
        cases nothing
      refine (othersIH (past next low other)).cons ?_
      intro covers
      have before : place < offset + c.utf8Size := covers.2
      have after := past next low other
      omega
  | @pause offset token c others later next produced still replays othersIH =>
      have other : offset ≠ place := by
        rintro rfl
        rw [here] at produced
        cases produced
        simp at still
      have after := past next low other
      obtain ⟨_, stop⟩ := Token.start_of_scan? produced
      refine ((othersIH after).cons ?_).cons ?_
      · intro covers
        have before : place < offset + c.utf8Size := covers.2
        omega
      · intro covers
        have before : place < token.span.token.stop := covers.2
        omega

end Replays

/-- Every `;` is found once where terminators are requested, outside raw strings and where no
accessor may follow.

It lies in a comment, or it is the one terminator there; and a terminator that is not inserted is
such a `;` after nothing but blanks. -/
theorem segments_semicolons {kinds : KindSet} (text : Text)
    (ends : kinds.has .semi = true ∨ kinds.has .memberSemi = true)
    (outside : kinds.has .stringContent = false) (noGetter : kinds.has .getter = false)
    (noSetter : kinds.has .setter = false) :
    let all := segments text kinds
    (∀ place rest, StandsAt text place ';' rest →
      ∃ before token after, all = before ++ .ofToken token :: after ∧
        (token.kind = .blockComment ∧ token.span.token.Covers place ∨
          (token.kind = .semi ∨ token.kind = .memberSemi) ∧
            token.span.token = ⟨place, place + 1⟩) ∧
        ∀ other ∈ before ++ after, ¬other.span.token.Covers place) ∧
    (∀ segment ∈ all, segment.kind? = some .semi ∨ segment.kind? = some .memberSemi →
      segment.span.consumed.isEmpty = false →
      ∃ place rest, StandsAt text place ';' rest ∧
        segment.span.token = ⟨place, place + 1⟩ ∧ segment.span.consumed.stop = place + 1 ∧
        ∀ c ∈ (ByteRange.mk segment.span.consumed.start place).slice text, isBlank c = true) := by
  intro all
  have replays : Replays text kinds 0 all := replays_segments text kinds
  have unannotated : ¬kinds.PassesAnnotations := by
    rintro ⟨_, getter | setter⟩
    · simp [noGetter] at getter
    · simp [noSetter] at setter
  obtain ⟨terminator, requested⟩ : ∃ terminator, kinds.terminator? = some terminator := by
    rw [← Option.isSome_iff_exists, KindSet.terminator?_isSome, Bool.or_eq_true]
    exact ends
  refine ⟨fun place rest stands => ?_, fun segment member terminates consumed => ?_⟩
  · exact replays.heldOnce outside requested unannotated stands (Nat.zero_le _)
  · obtain ⟨kind, found⟩ : ∃ kind, segment.kind? = some kind := by
      rcases terminates with semi | memberSemi
      · exact ⟨_, semi⟩
      · exact ⟨_, memberSemi⟩
    have produced := replays.produced_of_mem member found
    refine Token.semicolon_of_scan? unannotated produced ?_ consumed
    simpa [found] using terminates

/-- A `;` in a comment, one on the line of a statement and one on the next line. -/
theorem segments_semicolons_three :
    let text := "a; /*;*/\n;".toList
    let kinds := KindSet.ofList [.memberSemi, .blockComment, .constructor]
    (kinds.has .semi = true ∨ kinds.has .memberSemi = true) ∧ kinds.has .stringContent = false ∧
      kinds.has .getter = false ∧ kinds.has .setter = false ∧
      ∀ place rest, StandsAt text place ';' rest → HeldOnce (segments text kinds) place := by
  intro text kinds
  have ends : kinds.has .semi = true ∨ kinds.has .memberSemi = true := by decide
  have outside : kinds.has .stringContent = false := by decide
  have noGetter : kinds.has .getter = false := by decide
  have noSetter : kinds.has .setter = false := by decide
  exact ⟨ends, outside, noGetter, noSetter,
    (segments_semicolons text ends outside noGetter noSetter).1⟩

end ContextScan

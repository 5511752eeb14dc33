import Mathlib.Algebra.Group.Nat.Defs
import ContextScan.Proofs.Comment.Pieces
import ContextScan.Proofs.Stepwise.Resolvers

namespace ContextScan

/-! A comment read with a counter of 32 bits.

The loop counts the open levels and knows of the character before it only whether it was a `*`.  A
`/*` that is met is passed in one turn; a `*/` in two, since its `*` may be followed by anything.
The counter wraps, but it never comes to that: a level takes two characters, so there are fewer
levels than a counter can tell in a text of fewer than `2 ^ 33` bytes. -/

namespace Comment

/-- The head of the loop. -/
structure Head where
  depth : UInt32
  afterStar : Bool
  rest : Text
deriving DecidableEq, Repr

/-- What a turn of the loop comes to. -/
inductive Turn where
  | unterminated
  | closed (rest : Text)
  /-- The loop goes on after so many characters. -/
  | again (passed : Nat) (next : Head)
deriving DecidableEq, Repr

namespace Head

def turn (head : Head) : Turn :=
  match head.rest with
  | [] => .unterminated
  | c :: rest =>
      if c = '*' then .again 1 ⟨head.depth, true, rest⟩
      else if c = '/' then
        if head.afterStar then
          if head.depth - 1 = 0 then .closed rest else .again 1 ⟨head.depth - 1, false, rest⟩
        else if rest.headD '\x00' = '*' then .again 2 ⟨head.depth + 1, false, rest.tail⟩
        else .again 1 ⟨head.depth, false, rest⟩
      else .again 1 ⟨head.depth, false, rest⟩

/-- What there is to a turn of the loop. -/
inductive Turns : Head → Turn → Prop where
  | unterminated (depth : UInt32) (afterStar : Bool) : Turns ⟨depth, afterStar, []⟩ .unterminated
  | star (depth : UInt32) (afterStar : Bool) (rest : Text) :
      Turns ⟨depth, afterStar, '*' :: rest⟩ (.again 1 ⟨depth, true, rest⟩)
  | closed {depth : UInt32} (last : depth - 1 = 0) (rest : Text) :
      Turns ⟨depth, true, '/' :: rest⟩ (.closed rest)
  | closing {depth : UInt32} (more : depth - 1 ≠ 0) (rest : Text) :
      Turns ⟨depth, true, '/' :: rest⟩ (.again 1 ⟨depth - 1, false, rest⟩)
  | opening (depth : UInt32) (rest : Text) :
      Turns ⟨depth, false, '/' :: '*' :: rest⟩ (.again 2 ⟨depth + 1, false, rest⟩)
  | slash (depth : UInt32) {rest : Text} (alone : rest.head? ≠ some '*') :
      Turns ⟨depth, false, '/' :: rest⟩ (.again 1 ⟨depth, false, rest⟩)
  | other (depth : UInt32) (afterStar : Bool) {c : Char} (notStar : c ≠ '*') (notSlash : c ≠ '/')
      (rest : Text) : Turns ⟨depth, afterStar, c :: rest⟩ (.again 1 ⟨depth, false, rest⟩)

theorem turns_turn (head : Head) : Turns head head.turn := by
  obtain ⟨depth, afterStar, rest⟩ := head
  cases rest with
  | nil => exact .unterminated depth afterStar
  | cons c rest =>
      by_cases star : c = '*'
      · subst star
        exact .star depth afterStar rest
      · by_cases slash : c = '/'
        · subst slash
          cases afterStar with
          | true =>
              simp only [turn, star, if_true, if_false]
              split
              · exact .closed ‹_› rest
              · exact .closing ‹_› rest
          | false =>
              simp only [turn, star, Bool.false_eq_true, if_true, if_false]
              split
              · rename_i next
                obtain ⟨inner, rfl⟩ := List.head?_eq_some_iff.mp
                  (head?_of_headD_beq (beq_iff_eq.mpr next) (by decide))
                exact .opening depth inner
              · rename_i other
                refine .slash depth fun next => other ?_
                rw [List.headD_eq_head?_getD, next]
                rfl
        · simp only [turn, star, slash, if_false]
          exact .other depth afterStar star slash rest

theorem Turns.of_eq {head : Head} {turn : Turn} (turned : head.turn = turn) : Turns head turn :=
  turned ▸ head.turns_turn

variable {head next : Head} {passed : Nat}

theorem Turns.length_rest_lt (turns : Turns head (.again passed next)) :
    next.rest.length < head.rest.length := by
  cases turns with
  | opening => exact Nat.lt_succ_of_lt (Nat.lt_succ_self _)
  | star | closing | slash | other => exact Nat.lt_succ_self _

/-- The loop from a head on. -/
def run (head : Head) : Run (Option TokenKind) :=
  match _turned : head.turn with
  | .unterminated => ⟨none, [], [.unterminatedComment head.depth.toNat], []⟩
  | .closed rest => ⟨some .blockComment, [.advance, .markEnd], [], rest⟩
  | .again passed next => next.run.precededBy (List.replicate passed .advance)
termination_by head.rest.length
decreasing_by exact (Turns.of_eq _turned).length_rest_lt

/-- The head of the loop past the `/*` that starts a comment. -/
def opened (inside : Text) : Head := ⟨1, false, inside⟩

/-- The heads that the loop comes to inside a comment. -/
inductive Reached (inside : Text) : Head → Prop where
  | start : Reached inside (opened inside)
  | again {head next : Head} {passed : Nat} (earlier : Reached inside head)
      (turned : head.turn = .again passed next) : Reached inside next

/-- What is left from the start of the piece on in which the head is. -/
def unsplit (head : Head) : Text := if head.afterStar then '*' :: head.rest else head.rest

/-- Whether a level is open, and there is room for all that may still open. -/
structure Fits (head : Head) : Prop where
  positive : 0 < head.depth.toNat
  room : 2 * head.depth.toNat + byteSize head.rest < 2 ^ 33

theorem toNat_pred {depth : UInt32} (positive : 0 < depth.toNat) :
    (depth - 1).toNat = depth.toNat - 1 :=
  UInt32.toNat_sub_of_le depth 1 (UInt32.le_iff_toNat_le.mpr positive)

theorem toNat_succ {depth : UInt32} (room : depth.toNat + 1 < 2 ^ 32) :
    (depth + 1).toNat = depth.toNat + 1 := by
  rw [UInt32.toNat_add]
  exact Nat.mod_eq_of_lt room

theorem one_lt_of_more {depth : UInt32} (positive : 0 < depth.toNat) (more : depth - 1 ≠ 0) :
    1 < depth.toNat := by
  have left : (depth - 1).toNat ≠ 0 := fun zero => more (UInt32.toNat_inj.mp zero)
  rw [toNat_pred positive] at left
  omega

theorem fits_opened {inside : Text} (short : 2 + byteSize inside < 2 ^ 33) :
    (opened inside).Fits := ⟨Nat.one_pos, short⟩

/-- A level that opens is counted without overflow. -/
theorem Fits.room_to_open {depth : UInt32} {afterStar : Bool} {rest : Text}
    (fits : Fits ⟨depth, afterStar, '/' :: '*' :: rest⟩) : depth.toNat + 1 < 2 ^ 32 := by
  have room : 2 * depth.toNat + (1 + (1 + byteSize rest)) < 2 ^ 33 := fits.room
  omega

theorem Turns.fits (turns : Turns head (.again passed next)) (fits : head.Fits) : next.Fits := by
  obtain ⟨positive, room⟩ := fits
  have shorter (c : Char) (rest : Text) : byteSize rest ≤ byteSize (c :: rest) :=
    Nat.le_add_left _ _
  cases turns with
  | star depth afterStar rest =>
      have less := shorter '*' rest
      exact ⟨positive, by dsimp only at room ⊢; omega⟩
  | @closing depth more rest =>
      have less := shorter '/' rest
      have counted : (depth - 1).toNat = depth.toNat - 1 := toNat_pred positive
      have further : 1 < depth.toNat := one_lt_of_more positive more
      exact ⟨by dsimp only; omega, by dsimp only at room ⊢; omega⟩
  | opening depth rest =>
      have counted := toNat_succ (Fits.room_to_open ⟨positive, room⟩)
      have sized : 2 * depth.toNat + (1 + (1 + byteSize rest)) < 2 ^ 33 := room
      exact ⟨by dsimp only; omega, by dsimp only; omega⟩
  | @slash depth rest alone =>
      have less := shorter '/' rest
      exact ⟨positive, by dsimp only at room ⊢; omega⟩
  | @other depth afterStar c notStar notSlash rest =>
      have less := shorter c rest
      exact ⟨positive, by dsimp only at room ⊢; omega⟩

theorem Reached.fits {inside : Text} (reached : Reached inside head)
    (short : 2 + byteSize inside < 2 ^ 33) : head.Fits := by
  induction reached with
  | start => exact fits_opened short
  | again _ turned ih => exact (Turns.of_eq turned).fits ih

/-- A turn passes whole pieces, and counts what they change. -/
theorem Turns.pieces (turns : Turns head (.again passed next)) (fits : head.Fits) :
    ∃ own, pieces head.unsplit = own ++ pieces next.unsplit ∧
      (next.depth.toNat : Int) = head.depth.toNat + net own := by
  cases turns with
  | star depth afterStar rest =>
      cases afterStar with
      | false => exact ⟨[], rfl, (Int.add_zero _).symm⟩
      | true =>
          have alone : StandsAlone '*' ('*' :: rest) := by simp [StandsAlone]
          exact ⟨[.single '*'], pieces_standsAlone alone, (Int.add_zero _).symm⟩
  | @closing depth more rest =>
      have counted := toNat_pred fits.positive
      have positive := fits.positive
      refine ⟨[.closing], rfl, ?_⟩
      change ((depth - 1).toNat : Int) = depth.toNat + -1
      dsimp only at positive counted
      omega
  | opening depth rest =>
      have counted := toNat_succ fits.room_to_open
      refine ⟨[.opening], rfl, ?_⟩
      change ((depth + 1).toNat : Int) = depth.toNat + 1
      omega
  | @slash depth rest alone =>
      have stands : StandsAlone '/' rest := ⟨fun star => by simp at star, fun _ => alone⟩
      exact ⟨[.single '/'], pieces_standsAlone stands, (Int.add_zero _).symm⟩
  | @other depth afterStar c notStar notSlash rest =>
      have stands : StandsAlone c rest :=
        ⟨fun star => absurd star notStar, fun slash => absurd slash notSlash⟩
      cases afterStar with
      | false => exact ⟨[.single c], pieces_standsAlone stands, (Int.add_zero _).symm⟩
      | true =>
          -- Only now it shows that the `*` before was no half of a piece.
          have before : StandsAlone '*' (c :: rest) := by simp [StandsAlone, notSlash]
          refine ⟨[.single '*', .single c], ?_, (Int.add_zero _).symm⟩
          exact (pieces_standsAlone before).trans
            (congrArg (Piece.single '*' :: ·) (pieces_standsAlone stands))

/-- At every head the counter tells the depth after the pieces that are passed. -/
theorem Reached.depth {inside : Text} (reached : Reached inside head)
    (short : 2 + byteSize inside < 2 ^ 33) :
    ∃ passed, Comment.pieces inside = passed ++ Comment.pieces head.unsplit ∧
      (head.depth.toNat : Int) = depthAfter passed := by
  induction reached with
  | start => exact ⟨[], rfl, rfl⟩
  | @again head next _ earlier turned ih =>
      obtain ⟨passed, split, counted⟩ := ih
      obtain ⟨own, more, changed⟩ := (Turns.of_eq turned).pieces (earlier.fits short)
      refine ⟨passed ++ own, ?_, ?_⟩
      · rw [split, more, List.append_assoc]
      · rw [changed, counted, depthAfter, depthAfter, net_append]
        omega

/-- The same place in the comment, as the levels outside the innermost one and the half piece. -/
def body (head : Head) : Run (Option TokenKind) :=
  Comment.body (head.depth.toNat - 1) (if head.afterStar then .star else .neither) head.rest

theorem Turns.body_eq (turns : Turns head (.again passed next)) (fits : head.Fits) :
    head.body = next.body.precededBy (List.replicate passed .advance) := by
  cases turns with
  | star depth afterStar rest => cases afterStar <;> rfl
  | @closing depth more rest =>
      have further : 1 < depth.toNat := one_lt_of_more fits.positive more
      obtain ⟨outer, counted⟩ := Nat.exists_eq_add_of_le' further
      simp only [body, toNat_pred fits.positive, counted]
      rfl
  | opening depth rest =>
      have positive := fits.positive
      have counted := toNat_succ fits.room_to_open
      have level : depth.toNat - 1 + 1 = (depth + 1).toNat - 1 := by
        dsimp only at positive
        omega
      simp only [body, ← level]
      rfl
  | @slash depth rest alone =>
      have whole := body_slash (depth.toNat - 1) rest alone
      change (Comment.body (depth.toNat - 1) .slash rest).precededBy [.advance] = _
      rw [whole]
      rfl
  | @other depth afterStar c notStar notSlash rest =>
      simp only [body, Comment.body, notStar, notSlash, if_false]
      rfl

theorem run_eq (head : Head) : head.run = match head.turn with
    | .unterminated => ⟨none, [], [.unterminatedComment head.depth.toNat], []⟩
    | .closed rest => ⟨some .blockComment, [.advance, .markEnd], [], rest⟩
    | .again passed next => next.run.precededBy (List.replicate passed .advance) := by
  rw [run]
  cases head.turn <;> rfl

/-- The loop makes the run of the comment's body. -/
theorem run_eq_body (fits : head.Fits) : head.run = head.body := by
  induction head using run.induct with
  | case1 head turned =>
      have turns := Turns.of_eq turned
      rw [run_eq, turned]
      cases turns with
      | unterminated depth afterStar =>
          have level : depth.toNat - 1 + 1 = depth.toNat := Nat.sub_add_cancel fits.positive
          simp only [body, Comment.body, level]
  | case2 head rest turned =>
      have turns := Turns.of_eq turned
      rw [run_eq, turned]
      cases turns with
      | @closed depth last rest =>
          have level : depth.toNat - 1 = 0 := by
            rw [← toNat_pred fits.positive, last]
            rfl
          simp only [body, level]
          rfl
  | case3 head passed next turned ih =>
      have turns := Turns.of_eq turned
      rw [run_eq, turned, turns.body_eq fits]
      exact congrArg (Run.precededBy · _) (ih (turns.fits fits))

end Head

/-- Past a `/*` a scan is the loop. -/
theorem scan_eq_run {inside : Text} (short : 2 + byteSize inside < 2 ^ 33) :
    scan ('/' :: '*' :: inside) = (Head.opened inside).run.precededBy [.advance, .advance] := by
  rw [Head.run_eq_body (Head.fits_opened short)]
  rfl

/-- A comment that is taken ends where the pieces do that first come out of all levels. -/
theorem finish_of_firstNets {inside : Text} {count : Nat}
    (first : FirstNets (pieces inside) count (-1)) (offset : Nat) :
    let stop := offset + byteSize ('/' :: '*' :: joined ((pieces inside).take count))
    (Reader.moveAll (TextReader.resume offset ('/' :: '*' :: inside))
      (scan ('/' :: '*' :: inside)).moves).finish = ⟨⟨offset, stop⟩, ⟨offset, stop⟩⟩ := by
  obtain ⟨rest, split, taken⟩ := scan_of_firstNets first
  have ascii : ∀ move ∈ (scan ('/' :: '*' :: inside)).moves, move.SearchesAscii :=
    (stepwise_scan trivial trivial).moves_allowed
  have read := Run.reading?_taking .blockComment
    ('/' :: '*' :: joined ((pieces inside).take count)) rest
  rw [← taken, List.cons_append, List.cons_append, ← split] at read
  exact Run.finish_eq read ascii offset

/-- A scan for a comment that starts in a text of fewer than `2 ^ 33` bytes.

It finds one exactly where a `/*` is and the depth after it comes to zero, and then the token ends
with the `*/` after which it first does.  The loop that counts the levels in 32 bits makes the same
run; at its heads the counter is the depth, it is never zero, and no level overflows it. -/
theorem scan_by_depth {front text : Text} (short : byteSize (front ++ text) < 2 ^ 33) :
    let offset := byteSize front
    let reader := TextReader.resume offset text
    let produced? := (scan text).value
    let after := Reader.moveAll reader (scan text).moves
    TextReader.at? (front ++ text) offset = some reader ∧
    Reader.Drives scan reader produced? after ∧
    (produced? = none ∨ produced? = some .blockComment) ∧
    (produced? = some .blockComment ↔ ∃ inside, text = '/' :: '*' :: inside ∧
      ∃ count, depthAfter ((pieces inside).take count) = 0) ∧
    ∀ inside, text = '/' :: '*' :: inside →
      (∀ count, depthAfter ((pieces inside).take count) = 0 →
        (∀ fewer < count, depthAfter ((pieces inside).take fewer) ≠ 0) →
        let stop := offset + byteSize ('/' :: '*' :: joined ((pieces inside).take count))
        after.finish = ⟨⟨offset, stop⟩, ⟨offset, stop⟩⟩ ∧
          ∃ earlier, (pieces inside).take count = earlier ++ [.closing]) ∧
      scan text = (Head.opened inside).run.precededBy [.advance, .advance] ∧
      ∀ head, Head.Reached inside head →
        (∃ passed, pieces inside = passed ++ pieces head.unsplit ∧
          (head.depth.toNat : Int) = depthAfter passed) ∧
        1 ≤ head.depth.toNat ∧
        ("/*".toList <+: head.rest → head.depth.toNat + 1 < 2 ^ 32) := by
  intro offset reader produced? after
  have stepwise : Scan.Stepwise Move.SearchesAscii scan text := stepwise_scan trivial trivial
  refine ⟨TextReader.at?_append front text, Reader.drives_of_stepwise stepwise rfl, ?_,
    scan_value_iff text, ?_⟩
  · cases found : produced? with
    | none => exact Or.inl rfl
    | some kind =>
        rw [(producesOnly_scan text kind found).1]
        exact Or.inr rfl
  · rintro inside rfl
    have shortInside : 2 + byteSize inside < 2 ^ 33 := by
      rw [byteSize_append] at short
      change byteSize front + (1 + (1 + byteSize inside)) < 2 ^ 33 at short
      omega
    refine ⟨fun count reached first => ?_, ?_, fun head there => ?_⟩
    · have comesOut : FirstNets (pieces inside) count (-1) := by
        refine ⟨by rw [depthAfter] at reached; omega, fun fewer less same => first fewer less ?_⟩
        rw [depthAfter, same]
        rfl
      exact ⟨finish_of_firstNets comesOut offset, (closes_of_firstNets comesOut).2⟩
    · exact scan_eq_run shortInside
    · have fits := there.fits shortInside
      refine ⟨there.depth shortInside, fits.positive, ?_⟩
      rintro ⟨rest, opens⟩
      obtain ⟨depth, afterStar, _⟩ := head
      cases opens
      exact fits.room_to_open

/-- Comments in a comment, with a `/` and a `*` that two pieces might share. -/
theorem scan_by_depth_nested :
    let text := "/*/*/**/*/ */z".toList
    (scan text).value = some .blockComment ∧
      (Reader.moveAll (TextReader.resume 2 text) (scan text).moves).finish
        = ⟨⟨2, 15⟩, ⟨2, 15⟩⟩ := by
  intro text
  have short : byteSize (['é'] ++ text) < 2 ^ 33 := by decide
  obtain ⟨_, _, _, found, inside⟩ := scan_by_depth short
  have first := (inside _ rfl).1 6 (by decide) (by decide)
  exact ⟨found.mpr ⟨_, rfl, 6, by decide⟩, first.1⟩

/-- The `*` that opens a comment does not close it. -/
example : (scan "/*/".toList).value = none := by decide

end Comment

end ContextScan

import Mathlib.Algebra.Ring.Int.Defs
import ContextScan.Proofs.Comment.Nesting

namespace ContextScan

/-! Comments by greedy splitting.

The text inside a comment is split from left to right into `/*`, `*/` and single characters.  Each
`/*` goes one level deeper and each `*/` one level up.  A comment is the shortest text after which
the depth is zero. -/

namespace Comment

inductive Piece where
  | opening
  | closing
  | single (c : Char)
deriving DecidableEq, Repr

namespace Piece

def text : Piece → Text
  | opening => ['/', '*']
  | closing => ['*', '/']
  | single c => [c]

/-- How many levels deeper a text is after the piece. -/
def change : Piece → Int
  | opening => 1
  | closing => -1
  | single _ => 0

end Piece

def pieces : Text → List Piece
  | [] => []
  | '/' :: '*' :: rest => .opening :: pieces rest
  | '*' :: '/' :: rest => .closing :: pieces rest
  | c :: rest => .single c :: pieces rest

def joined (passed : List Piece) : Text := passed.flatMap Piece.text

def net (passed : List Piece) : Int := (passed.map Piece.change).sum

/-- How many levels are open after some pieces, the comment itself being one. -/
def depthAfter (passed : List Piece) : Int := 1 + net passed

theorem net_cons (piece : Piece) (passed : List Piece) :
    net (piece :: passed) = piece.change + net passed := List.sum_cons

theorem net_append (passed later : List Piece) : net (passed ++ later) = net passed + net later := by
  rw [net, List.map_append, List.sum_append]
  rfl

theorem joined_cons (piece : Piece) (passed : List Piece) :
    joined (piece :: passed) = piece.text ++ joined passed := List.flatMap_cons

theorem pieces_standsAlone {c : Char} {rest : Text} (alone : StandsAlone c rest) :
    pieces (c :: rest) = .single c :: pieces rest := by
  rw [pieces]
  · rintro later rfl rfl
    exact alone.2 rfl rfl
  · rintro later rfl rfl
    exact alone.1 rfl rfl

theorem StandsAlone.of_starts {c : Char} {passed rest : Text} (alone : StandsAlone c rest)
    (leads : passed <+: rest) : StandsAlone c passed := by
  have next {d : Char} (here : passed.head? = some d) : rest.head? = some d := by
    obtain ⟨more, rfl⟩ := List.head?_eq_some_iff.mp here
    obtain ⟨later, rfl⟩ := leads
    rfl
  exact ⟨fun star => mt next (alone.1 star), fun slash => mt next (alone.2 slash)⟩

/-- Splitting loses nothing. -/
theorem joined_pieces (text : Text) : joined (pieces text) = text := by
  fun_induction pieces text with
  | case1 => rfl
  | case2 rest ih | case3 rest ih | case4 c rest _ _ ih => rw [joined_cons, ih]; rfl

theorem joined_append (passed later : List Piece) :
    joined (passed ++ later) = joined passed ++ joined later := List.flatMap_append

/-- Some pieces of a text are what it starts with. -/
theorem joined_take_starts (count : Nat) (text : Text) :
    joined ((pieces text).take count) <+: text := by
  refine ⟨joined ((pieces text).drop count), ?_⟩
  rw [← joined_append, List.take_append_drop, joined_pieces]

/-- What closes some levels is a number of pieces, whatever follows. -/
theorem exists_pieces_of_closes {outer : Nat} {passed : Text} (closes : Closes outer passed)
    (rest : Text) :
    ∃ own, pieces (passed ++ rest) = own ++ pieces rest ∧ net own = -(outer + 1) := by
  induction closes with
  | last => exact ⟨[.closing], rfl, rfl⟩
  | @close outer text others ih =>
      obtain ⟨own, split, total⟩ := ih
      refine ⟨.closing :: own, congrArg (Piece.closing :: ·) split, ?_⟩
      rw [net_cons, total, Piece.change]
      omega
  | @opens outer text others ih =>
      obtain ⟨own, split, total⟩ := ih
      refine ⟨.opening :: own, congrArg (Piece.opening :: ·) split, ?_⟩
      rw [net_cons, total, Piece.change]
      omega
  | @other outer c text alone others ih =>
      obtain ⟨own, split, total⟩ := ih
      have here := pieces_standsAlone (alone.append others.ne_nil rest)
      refine ⟨.single c :: own, here.trans (congrArg (Piece.single c :: ·) split), ?_⟩
      rw [net_cons, total, Piece.change, Int.zero_add]

/-- Whether so many pieces, and no fewer, come to a change. -/
def FirstNets (later : List Piece) (count : Nat) (total : Int) : Prop :=
  net (later.take count) = total ∧ ∀ fewer < count, net (later.take fewer) ≠ total

/-- Past its first piece, a change is come to with what that piece leaves of it. -/
theorem FirstNets.tail {piece : Piece} {later : List Piece} {count : Nat} {total : Int}
    (first : FirstNets (piece :: later) (count + 1) (piece.change + total)) :
    FirstNets later count total := by
  obtain ⟨reached, earlier⟩ := first
  rw [List.take_succ_cons, net_cons] at reached
  refine ⟨by omega, fun fewer less same => earlier (fewer + 1) (Nat.succ_lt_succ less) ?_⟩
  rw [List.take_succ_cons, net_cons, same]

theorem FirstNets.positive {later : List Piece} {count : Nat} {total : Int}
    (first : FirstNets later count total) (nonzero : total ≠ 0) : ∃ fewer, count = fewer + 1 := by
  cases count with
  | zero => exact absurd first.1.symm nonzero
  | succ fewer => exact ⟨fewer, rfl⟩

/-- Where so many pieces first come out of all levels, they close them. -/
theorem closes_of_firstNets {outer count : Nat} {text : Text}
    (first : FirstNets (pieces text) count (-(outer + 1))) :
    Closes outer (joined ((pieces text).take count)) ∧
      ∃ earlier, (pieces text).take count = earlier ++ [.closing] := by
  have nonzero (outer : Nat) : -((outer : Int) + 1) ≠ 0 := by omega
  induction text using pieces.induct generalizing outer count with
  | case1 =>
      have none : net ((pieces []).take count) = 0 := by rw [pieces, List.take_nil]; rfl
      exact absurd (first.1.symm.trans none) (nonzero outer)
  | case2 rest ih =>
      obtain ⟨count, rfl⟩ := first.positive (nonzero outer)
      have deeper : -((outer : Int) + 1) = Piece.opening.change + -((outer + 1 : Nat) + 1) := by
        rw [Piece.change]
        omega
      rw [deeper] at first
      obtain ⟨closes, earlier, last⟩ := ih first.tail
      exact ⟨.opens closes, .opening :: earlier, congrArg (Piece.opening :: ·) last⟩
  | case3 rest ih =>
      obtain ⟨count, rfl⟩ := first.positive (nonzero outer)
      cases outer with
      | zero =>
          -- More pieces would not be the first to come out.
          have only : count = 0 :=
            Nat.eq_zero_of_not_pos fun more => first.2 1 (Nat.succ_lt_succ more) rfl
          subst only
          exact ⟨.last, [], rfl⟩
      | succ outer =>
          have up : -((outer + 1 : Nat) + 1 : Int) = Piece.closing.change + -(outer + 1) := by
            rw [Piece.change]
            omega
          rw [up] at first
          obtain ⟨closes, earlier, last⟩ := ih first.tail
          exact ⟨.close closes, .closing :: earlier, congrArg (Piece.closing :: ·) last⟩
  | case4 c rest notOpening notClosing ih =>
      obtain ⟨count, rfl⟩ := first.positive (nonzero outer)
      have alone : StandsAlone c rest := by
        constructor
        · rintro rfl slash
          obtain ⟨more, rfl⟩ := List.head?_eq_some_iff.mp slash
          exact notClosing more rfl rfl
        · rintro rfl star
          obtain ⟨more, rfl⟩ := List.head?_eq_some_iff.mp star
          exact notOpening more rfl rfl
      have split := pieces_standsAlone alone
      rw [split, ← Int.zero_add (-(outer + 1))] at first
      obtain ⟨closes, earlier, last⟩ := ih first.tail
      rw [split, List.take_succ_cons, joined_cons]
      exact ⟨.other (alone.of_starts (joined_take_starts count rest)) closes, .single c :: earlier,
        congrArg (Piece.single c :: ·) last⟩

/-- A change that is come to at all is come to a first time. -/
theorem FirstNets.exists {later : List Piece} {count : Nat} {total : Int}
    (reached : net (later.take count) = total) : ∃ first, FirstNets later first total := by
  induction count using Nat.strongRecOn with
  | ind count ih =>
      by_cases sooner : ∃ fewer, fewer < count ∧ net (later.take fewer) = total
      · obtain ⟨fewer, less, already⟩ := sooner
        exact ih fewer less already
      · exact ⟨count, reached, fun fewer less already => sooner ⟨fewer, less, already⟩⟩

/-- The pieces that first come out of all levels are the comment. -/
theorem scan_of_firstNets {inside : Text} {count : Nat}
    (first : FirstNets (pieces inside) count (-1)) :
    ∃ rest, inside = joined ((pieces inside).take count) ++ rest ∧ scan ('/' :: '*' :: inside)
      = Run.taking .blockComment ('/' :: '*' :: joined ((pieces inside).take count)) rest := by
  obtain ⟨rest, split⟩ := joined_take_starts count inside
  obtain ⟨closes, _⟩ := @closes_of_firstNets 0 _ _ first
  have taken := scan_append ⟨_, rfl, closes⟩ rest
  rw [List.cons_append, List.cons_append, split] at taken
  exact ⟨rest, split.symm, taken⟩

/-- A comment is found exactly where the depth comes to zero after a `/*`. -/
theorem scan_value_iff (text : Text) :
    (scan text).value = some .blockComment ↔ ∃ inside, text = '/' :: '*' :: inside ∧
      ∃ count, depthAfter ((pieces inside).take count) = 0 := by
  constructor
  · intro found
    obtain ⟨_, rest, rfl, own, rfl, closes⟩ := isComment_of_scan found
    obtain ⟨passed, split, total⟩ := exists_pieces_of_closes closes rest
    refine ⟨own ++ rest, rfl, passed.length, ?_⟩
    rw [split, List.take_left, depthAfter, total]
    rfl
  · rintro ⟨inside, rfl, count, reached⟩
    have out : net ((pieces inside).take count) = -1 := by
      rw [depthAfter] at reached
      omega
    obtain ⟨first, comesOut⟩ := FirstNets.exists out
    obtain ⟨rest, _, taken⟩ := scan_of_firstNets comesOut
    rw [taken]
    rfl

end Comment

end ContextScan

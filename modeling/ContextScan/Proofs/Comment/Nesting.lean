import ContextScan.Proofs.Token.Reading

namespace ContextScan

/-! What a block comment is.

`Comment.Closes` reads the text inside a comment from left to right in pieces: `/*` opens a level,
`*/` closes one, and any other character stands for itself.  A comment is `/*` and then a text that
closes the one level that is open, exactly at its end.  The scan produces exactly these. -/

namespace Comment

open Scan

/-- Whether a character is neither the first of a `/*` nor of a `*/` before what follows it. -/
def StandsAlone (c : Char) (rest : Text) : Prop :=
  (c = '*' → rest.head? ≠ some '/') ∧ (c = '/' → rest.head? ≠ some '*')

instance (c : Char) (rest : Text) : Decidable (StandsAlone c rest) :=
  inferInstanceAs (Decidable (_ ∧ _))

/-- Whether a text closes the innermost level and `outer` more, the last of them at its end. -/
inductive Closes : Nat → Text → Prop where
  | last : Closes 0 ['*', '/']
  | close {outer : Nat} {rest : Text} (others : Closes outer rest) :
      Closes (outer + 1) ('*' :: '/' :: rest)
  | opens {outer : Nat} {rest : Text} (others : Closes (outer + 1) rest) :
      Closes outer ('/' :: '*' :: rest)
  | other {outer : Nat} {c : Char} {rest : Text} (alone : StandsAlone c rest)
      (others : Closes outer rest) : Closes outer (c :: rest)

/-- Whether a text is one block comment. -/
def IsComment (text : Text) : Prop := ∃ inside, text = '/' :: '*' :: inside ∧ Closes 0 inside

variable {outer : Nat} {text : Text}

theorem Closes.ne_nil (closes : Closes outer text) : text ≠ [] := by
  cases closes <;> exact List.cons_ne_nil _ _

theorem StandsAlone.append {c : Char} (alone : StandsAlone c text) (nonempty : text ≠ [])
    (rest : Text) : StandsAlone c (text ++ rest) := by
  cases text with
  | nil => exact absurd rfl nonempty
  | cons head text => exact alone

/-- A `*` matters only before a `/`. -/
theorem body_star (outer : Nat) (text : Text) (next : text.head? ≠ some '/') :
    body outer .star text = body outer .neither text := by
  cases text with
  | nil => rfl
  | cons c rest =>
      have other : c ≠ '/' := fun same => next (congrArg some same)
      simp [body, other]

/-- A `/` matters only before a `*`. -/
theorem body_slash (outer : Nat) (text : Text) (next : text.head? ≠ some '*') :
    body outer .slash text = body outer .neither text := by
  cases text with
  | nil => rfl
  | cons c rest =>
      have other : c ≠ '*' := fun same => next (congrArg some same)
      simp [body, other]

theorem body_standsAlone {c : Char} {rest : Text} (alone : StandsAlone c rest) (outer : Nat) :
    body outer .neither (c :: rest) = (body outer .neither rest).precededBy [.advance] := by
  by_cases star : c = '*'
  · subst star
    rw [← body_star outer rest (alone.1 rfl)]
    simp [body]
  · by_cases slash : c = '/'
    · subst slash
      rw [← body_slash outer rest (alone.2 rfl)]
      simp [body]
    · simp [body, star, slash]

theorem body_of_closes (closes : Closes outer text) (rest : Text) :
    body outer .neither (text ++ rest) = Run.taking .blockComment text rest := by
  induction closes with
  | last => simp [body, Run.taking, Run.precededBy]
  | @close outer text others ih =>
      rw [Run.taking_cons, Run.taking_cons, ← ih]
      simp [body, Run.precededBy]
  | @opens outer text others ih =>
      rw [Run.taking_cons, Run.taking_cons, ← ih]
      simp [body, Run.precededBy]
  | @other outer c text alone others ih =>
      rw [Run.taking_cons, ← ih]
      exact body_standsAlone (alone.append others.ne_nil rest) outer

/-- What was read of a `/*` or `*/` that may be completed. -/
def Half.begun : Half → Text
  | .neither => []
  | .star => ['*']
  | .slash => ['/']

/-- A body that comes to its end has read a text that closes all levels. -/
theorem closes_of_body {half : Half} {kind : TokenKind}
    (found : (body outer half text).value = some kind) :
    ∃ passed rest, text = passed ++ rest ∧ Closes outer (half.begun ++ passed) := by
  fun_induction body outer half text with
  | case1 => cases found
  | case2 outer rest ih =>
      obtain ⟨passed, rest, rfl, closes⟩ := ih found
      exact ⟨'*' :: passed, rest, rfl, .opens closes⟩
  | case3 outer half rest notSlash ih =>
      obtain ⟨passed, rest, rfl, closes⟩ := ih found
      refine ⟨'*' :: passed, rest, rfl, ?_⟩
      cases half with
      | neither => exact closes
      | star => exact .other ⟨fun _ => by simp, fun slash => by simp at slash⟩ closes
      | slash => exact absurd rfl notSlash
  | case4 => exact ⟨['/'], _, rfl, .last⟩
  | case5 rest notStar outer ih =>
      obtain ⟨passed, rest, rfl, closes⟩ := ih found
      exact ⟨'/' :: passed, rest, rfl, .close closes⟩
  | case6 half rest outer unclosed unnested _ ih =>
      obtain ⟨passed, rest, rfl, closes⟩ := ih found
      refine ⟨'/' :: passed, rest, rfl, ?_⟩
      cases half with
      | neither => exact closes
      | slash => exact .other ⟨fun star => by simp at star, fun _ => by simp⟩ closes
      | star =>
          cases outer with
          | zero => exact (unclosed rfl rfl).elim
          | succ outer => exact (unnested outer rfl rfl).elim
  | case7 outer half c rest notStar notSlash ih =>
      obtain ⟨passed, rest, rfl, closes⟩ := ih found
      refine ⟨c :: passed, rest, rfl, ?_⟩
      have here : Closes outer (c :: passed) :=
        .other ⟨fun star => absurd star notStar, fun slash => absurd slash notSlash⟩ closes
      cases half with
      | neither => exact here
      | star => exact .other ⟨fun _ => by simpa using notSlash, fun slash => by simp at slash⟩ here
      | slash => exact .other ⟨fun star => by simp at star, fun _ => by simpa using notStar⟩ here

/-- A comment that a text starts with is taken. -/
theorem scan_append {comment : Text} (closed : IsComment comment) (rest : Text) :
    scan (comment ++ rest) = Run.taking .blockComment comment rest := by
  obtain ⟨inside, rfl, closes⟩ := closed
  rw [Run.taking_cons, Run.taking_cons, ← body_of_closes closes rest]
  rfl

/-- What a scan finds is a comment that the text starts with. -/
theorem isComment_of_scan {kind : TokenKind} (found : (scan text).value = some kind) :
    ∃ comment rest, text = comment ++ rest ∧ IsComment comment := by
  simp only [scan, bind_apply] at found
  split at found
  · rename_i slash
    simp only [bind_apply] at found
    split at found
    · rename_i star
      obtain ⟨inside, rest, split, closes⟩ := closes_of_body found
      have first : text.head? = some '/' := head?_of_headD_beq slash (by decide)
      have second : text.tail.head? = some '*' := head?_of_headD_beq star (by decide)
      obtain ⟨afterSlash, rfl⟩ := List.head?_eq_some_iff.mp first
      obtain ⟨afterStar, rfl⟩ := List.head?_eq_some_iff.mp second
      refine ⟨'/' :: '*' :: inside, rest, ?_, inside, rfl, closes⟩
      exact congrArg ('/' :: '*' :: ·) split
    · cases found
  · cases found

end Comment

end ContextScan

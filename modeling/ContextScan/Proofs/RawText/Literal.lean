import ContextScan.Proofs.Token.Forms

namespace ContextScan

/-! The literal run of a raw string.

The run goes up to the first place where an interpolation or three quotes start.  The scan marks
every `$` and every quote that it comes to, and passes two quotes, and all that is plain, at one go.
The last of its marks is that first place, because nothing that it passes at one go has such a place
in it. -/

namespace RawText

/-- Whether an interpolation or three quotes start here. -/
def EndsLiteral (text : Text) : Prop :=
  (∃ c rest, text = '$' :: c :: rest ∧ (isLetter c = true ∨ c = '{')) ∨ ['"', '"', '"'] <+: text

/-- Whether a literal run is the text up to the first place that ends one. -/
structure LiteralUpTo (literal rest text : Text) : Prop where
  split : text = literal ++ rest
  ends : EndsLiteral rest
  first : ∀ before after, text = before ++ after → EndsLiteral after → literal <+: before

/-- Whether no place ends a literal run. -/
def Unended (text : Text) : Prop := ∀ before after, text = before ++ after → ¬EndsLiteral after

/-- Whether no place in a text, up to where another follows, ends a literal run. -/
def Passes (passed later : Text) : Prop :=
  ∀ before after, passed = before ++ after → after ≠ [] → ¬EndsLiteral (after ++ later)

theorem LiteralUpTo.here {text : Text} (ends : EndsLiteral text) : LiteralUpTo [] text text :=
  ⟨rfl, ends, fun _ _ _ _ => List.nil_prefix⟩

/-- A place that ends a literal run does not stand in what is passed. -/
theorem Passes.exists_after {passed later before after : Text} (passes : Passes passed later)
    (split : passed ++ later = before ++ after) (ends : EndsLiteral after) :
    ∃ between, before = passed ++ between ∧ later = between ++ after := by
  rcases List.append_eq_append_iff.mp split with ⟨between, rfl, rfl⟩ | ⟨inside, rfl, rfl⟩
  · exact ⟨between, rfl, rfl⟩
  · by_cases nothing : inside = []
    · subst nothing
      exact ⟨[], by simp, rfl⟩
    · exact absurd ends (passes before inside rfl nothing)

theorem LiteralUpTo.after {literal rest later passed : Text} (passes : Passes passed later)
    (run : LiteralUpTo literal rest later) :
    LiteralUpTo (passed ++ literal) rest (passed ++ later) := by
  refine ⟨?_, run.ends, fun before after split ends => ?_⟩
  · rw [run.split, List.append_assoc]
  · obtain ⟨between, rfl, rfl⟩ := passes.exists_after split ends
    exact (List.prefix_append_right_inj passed).mpr (run.first between after rfl ends)

theorem Unended.after {later passed : Text} (passes : Passes passed later)
    (unended : Unended later) : Unended (passed ++ later) := by
  intro before after split ends
  obtain ⟨between, _, rfl⟩ := passes.exists_after split ends
  exact unended between after rfl ends

theorem Passes.nil (later : Text) : Passes [] later := fun _ _ split nonempty =>
  absurd (List.append_eq_nil_iff.mp split.symm).2 nonempty

theorem Passes.cons {c : Char} {passed later : Text} (passes : Passes passed later)
    (goesOn : ¬EndsLiteral (c :: (passed ++ later))) : Passes (c :: passed) later := by
  intro before after split nonempty
  cases before with
  | nil =>
      cases split
      exact goesOn
  | cons head before => exact passes before after (List.cons.inj split).2 nonempty

theorem endsLiteral_dollar_iff {rest : Text} :
    EndsLiteral ('$' :: rest) ↔ startsInterpolation rest = true := by
  constructor
  · rintro (⟨c, later, split, starts⟩ | ⟨later, split⟩)
    · cases split
      exact Bool.or_eq_true _ _ ▸ starts.imp_right beq_iff_eq.mpr
    · cases split
  · intro starts
    cases rest with
    | nil => cases starts
    | cons c rest =>
        exact Or.inl ⟨c, rest, rfl, (Bool.or_eq_true _ _ ▸ starts).imp_right beq_iff_eq.mp⟩

theorem not_endsLiteral_of_plain {c : Char} (plain : isPlain c = true) (rest : Text) :
    ¬EndsLiteral (c :: rest) := by
  have visible : c ≠ '$' ∧ c ≠ '"' := by simpa [isPlain] using plain
  rintro (⟨next, later, split, _⟩ | ⟨later, split⟩)
  · exact visible.1 (List.cons.inj split).1
  · exact visible.2 (List.cons.inj split).1.symm

theorem exists_of_endsLiteral_quote {rest : Text} (ends : EndsLiteral ('"' :: rest)) :
    ∃ later, rest = '"' :: '"' :: later := by
  rcases ends with ⟨_, _, split, _⟩ | ⟨later, split⟩
  · cases split
  · cases split
    exact ⟨later, rfl⟩

theorem not_endsLiteral_nil : ¬EndsLiteral [] := by
  rintro (⟨_, _, split, _⟩ | ⟨_, split⟩) <;> cases split

theorem passes_plain {passed : Text} (plain : ∀ c ∈ passed, isPlain c = true) (later : Text) :
    Passes passed later := by
  induction passed with
  | nil => exact .nil later
  | cons c passed ih =>
      have rest := ih fun other member => plain other (List.mem_cons_of_mem c member)
      exact rest.cons (not_endsLiteral_of_plain (plain c List.mem_cons_self) _)

instance (text : Text) : Decidable (EndsLiteral text) :=
  match text with
  | [] => isFalse not_endsLiteral_nil
  | c :: rest =>
      if plain : isPlain c = true then isFalse (not_endsLiteral_of_plain plain rest)
      else if dollar : c = '$' then
        decidable_of_iff (startsInterpolation rest = true) (dollar ▸ endsLiteral_dollar_iff.symm)
      else
        decidable_of_iff (['"', '"', '"'] <+: c :: rest)
          ⟨Or.inr, Or.rec (fun ⟨_, _, split, _⟩ => absurd (List.cons.inj split).1 dollar) id⟩

/-- Whether a run finds the literal run of a text, by its last mark. -/
def Finds (run : Run (Option TokenKind)) (hasContent : Bool) (text : Text) : Prop :=
  (∃ literal rest, LiteralUpTo literal rest text ∧
    run.value = produced (hasContent || !literal.isEmpty) ∧
    ∀ tokenRest mark?, (Reader.moveAll (Remainders.mk text tokenRest mark?) run.moves).markRest?
      = some rest) ∨
  Unended text ∧ run.value = none

/-- A run that stops where it marked its start. -/
theorem Finds.here {run : Run (Option TokenKind)} {hasContent : Bool} {text : Text}
    (ends : EndsLiteral text) (value : run.value = produced hasContent) {steps : Nat}
    (moves : run.moves = .markEnd :: List.replicate steps .advance) :
    Finds run hasContent text := by
  refine Or.inl ⟨[], text, .here ends, ?_, fun tokenRest mark? => ?_⟩
  · rw [value, List.isEmpty_nil, Bool.not_true, Bool.or_false]
  · have unmarked : Move.markEnd ∉ List.replicate steps .advance := by simp [List.mem_replicate]
    rw [moves]
    exact Remainders.markRest?_moveAll unmarked (Remainders.mk text tokenRest (some text))

/-- A run that goes on past something literal. -/
theorem Finds.after {run : Run (Option TokenKind)} {hasContent : Bool} {passed later : Text}
    {moves : List Move} (found : Finds run true later) (nonempty : passed ≠ [])
    (passes : Passes passed later)
    (leads : ∀ tokenRest mark?, ∃ marked?, Reader.moveAll
      (Remainders.mk (passed ++ later) tokenRest mark?) moves = ⟨later, tokenRest, marked?⟩) :
    Finds (run.precededBy moves) hasContent (passed ++ later) := by
  rcases found with ⟨literal, rest, upTo, value, marks⟩ | ⟨unended, value⟩
  · refine Or.inl ⟨passed ++ literal, rest, upTo.after passes, ?_, fun tokenRest mark? => ?_⟩
    · have some : (passed ++ literal).isEmpty = false := by simp [nonempty]
      rw [some, Bool.not_false, Bool.or_true]
      exact value
    · obtain ⟨marked?, led⟩ := leads tokenRest mark?
      rw [Run.precededBy, Remainders.moveAll_append, led]
      exact marks tokenRest marked?
  · exact Or.inr ⟨unended.after passes, value⟩

/-- The scan marks the first place that ends the literal run, and no place after it. -/
theorem content_finds (hasContent : Bool) (text : Text) :
    Finds (content hasContent text) hasContent text := by
  fun_induction content hasContent text with
  | case1 =>
      have ended : Unended [] := by
        intro before after split
        rw [(List.append_eq_nil_iff.mp split.symm).2]
        exact not_endsLiteral_nil
      exact Or.inr ⟨ended, rfl⟩
  | case2 hasContent rest starts =>
      have moves : [Move.markEnd, .advance] = .markEnd :: List.replicate 1 .advance := rfl
      exact .here (endsLiteral_dollar_iff.mpr starts) rfl moves
  | case3 hasContent rest literal ih =>
      have goesOn := mt endsLiteral_dollar_iff.mp literal
      exact ih.after (List.cons_ne_nil '$' []) (.cons (.nil rest) goesOn) fun _ _ => ⟨_, rfl⟩
  -- Three quotes, and a fourth that is passed along with them.
  | case4 hasContent rest =>
      have moves : [Move.markEnd, .advance, .advance, .advance, .advance]
          = .markEnd :: List.replicate 4 .advance := rfl
      exact .here (Or.inr ⟨'"' :: rest, rfl⟩) rfl moves
  | case5 hasContent rest =>
      have moves : [Move.markEnd, .advance, .advance, .advance]
          = .markEnd :: List.replicate 3 .advance := rfl
      exact .here (Or.inr ⟨rest, rfl⟩) rfl moves
  -- Two quotes are passed at one go, so neither may be the first of three.
  | case6 hasContent rest _ noThird ih =>
      have last : ¬EndsLiteral ('"' :: rest) := by
        intro ends
        obtain ⟨later, split⟩ := exists_of_endsLiteral_quote ends
        exact noThird _ split
      have first : ¬EndsLiteral ('"' :: '"' :: rest) := by
        intro ends
        obtain ⟨later, split⟩ := exists_of_endsLiteral_quote ends
        exact noThird _ (List.cons.inj split).2
      exact ih.after (List.cons_ne_nil '"' ['"']) (.cons (.cons (.nil rest) last) first)
        fun _ _ => ⟨_, rfl⟩
  | case7 hasContent rest _ _ noSecond ih =>
      have goesOn : ¬EndsLiteral ('"' :: rest) := by
        intro ends
        obtain ⟨later, split⟩ := exists_of_endsLiteral_quote ends
        exact noSecond _ split
      exact ih.after (List.cons_ne_nil '"' []) (.cons (.nil rest) goesOn) fun _ _ => ⟨_, rfl⟩
  | case8 hasContent c rest dollar _ _ _ quote ih =>
      have plainHere : isPlain c = true := by simpa [isPlain] using ⟨dollar, quote⟩
      obtain ⟨passed, later, rfl, inside, stops⟩ := exists_stops isPlain rest
      have plain : ∀ other ∈ c :: passed, isPlain other = true :=
        List.forall_mem_cons.mpr ⟨plainHere, inside⟩
      rw [stops.dropWhile_append inside] at ih ⊢
      refine ih.after (List.cons_ne_nil c passed) (passes_plain plain later)
        fun tokenRest mark? => ⟨mark?, ?_⟩
      have left : (c :: passed ++ later).dropWhile (fun c => c != '$' && c != '"') = later :=
        stops.dropWhile_append plain
      exact (Remainders.move_advanceUntil ..).trans (congrArg (Remainders.mk · _ _) left)

/-- Whether a literal run ends at a place of a text. -/
def EndsLiteralAt (text : Text) (place : Nat) : Prop :=
  isBoundary text place = true ∧ EndsLiteral (dropBytes text place)

instance (text : Text) (place : Nat) : Decidable (EndsLiteralAt text place) :=
  inferInstanceAs (Decidable (_ ∧ _))

theorem endsLiteralAt_iff {front here : Text} {place : Nat} (later : byteSize front ≤ place) :
    EndsLiteralAt (front ++ here) place ↔ ∃ before after, here = before ++ after ∧
      EndsLiteral after ∧ place = byteSize front + byteSize before := by
  constructor
  · rintro ⟨boundary, ends⟩
    obtain ⟨before, after, rfl, rfl⟩ := exists_between boundary later
    rw [← List.append_assoc, dropBytes_byteSize_append] at ends
    exact ⟨before, after, rfl, ends, byteSize_append front before⟩
  · rintro ⟨before, after, rfl, ends, rfl⟩
    rw [← byteSize_append, ← List.append_assoc]
    refine ⟨isBoundary_iff.mpr ⟨_, _, rfl, rfl⟩, ?_⟩
    rwa [dropBytes_byteSize_append]

end RawText

open RawText

/-- A request for the content of a raw string reads the literal run, if it is not empty and
something ends it. -/
theorem Request.reading?_literal {kinds : KindSet} (inside : kinds.has .stringContent = true)
    (text : Text) :
    (∃ literal rest, LiteralUpTo literal rest text ∧ reading? kinds text
      = if literal = [] then none else some ⟨.stringContent, [], literal⟩) ∨
    Unended text ∧ reading? kinds text = none := by
  rw [reading?, Run.reading?, token_eq_content inside]
  rcases content_finds false text with ⟨literal, rest, upTo, value, marks⟩ | ⟨unended, value⟩
  · refine Or.inl ⟨literal, rest, upTo, ?_⟩
    by_cases nothing : literal = []
    · rw [if_pos nothing, value, nothing]
      rfl
    · let left := Reader.moveAll (Remainders.ofText text) (content false text).moves
      have begun : left.tokenRest = text :=
        Remainders.tokenRest_moveAll (skip_notMem_content text) _
      have marked : left.markRest? = some rest := marks text none
      have places : left = ⟨left.rest, text, some rest⟩ := by rw [← begun, ← marked]
      have some : (false || !literal.isEmpty) = true := by simp [nothing]
      rw [if_neg nothing, value, some]
      change Option.some (left.reading text .stringContent) = _
      rw [places, upTo.split]
      exact congrArg Option.some (Remainders.reading_marked _ [] literal rest .stringContent)
  · refine Or.inr ⟨unended, ?_⟩
    rw [value]
    rfl

/-- The content of a raw string goes from where it is asked for up to the first place from there on
that ends it.  Where that is the same place, or none, there is no token. -/
theorem Token.scan?_literal {kinds : KindSet} (inside : kinds.has .stringContent = true)
    {text : Text} {offset : Nat} (boundary : isBoundary text offset = true) :
    let produced? := Token.scan? text offset kinds
    (∀ stop, offset ≤ stop → EndsLiteralAt text stop →
      (∀ place, offset ≤ place → EndsLiteralAt text place → stop ≤ place) →
      produced? = if offset < stop
        then some ⟨.stringContent, ⟨⟨offset, stop⟩, ⟨offset, stop⟩⟩⟩ else none) ∧
    ((∀ place, offset ≤ place → ¬EndsLiteralAt text place) → produced? = none) := by
  intro produced?
  obtain ⟨front, here, rfl, rfl⟩ := isBoundary_iff.mp boundary
  have read : produced? = (Request.reading? kinds here).map (Reading.token (byteSize front)) :=
    Token.scan?_eq_reading? front here kinds
  rcases Request.reading?_literal inside here with ⟨literal, rest, upTo, found⟩ | ⟨unended, found⟩
  · have stopsAt : EndsLiteralAt (front ++ here) (byteSize front + byteSize literal) :=
      (endsLiteralAt_iff (Nat.le_add_right ..)).mpr ⟨literal, rest, upTo.split, upTo.ends, rfl⟩
    constructor
    · intro stop later ends least
      have same : stop = byteSize front + byteSize literal := by
        refine Nat.le_antisymm (least _ (Nat.le_add_right ..) stopsAt) ?_
        obtain ⟨before, after, split, endsThere, rfl⟩ := (endsLiteralAt_iff later).mp ends
        obtain ⟨more, rfl⟩ := upTo.first before after split endsThere
        rw [byteSize_append]
        omega
      rw [read, found, same]
      by_cases nothing : literal = []
      · have still : ¬byteSize front < byteSize front + byteSize literal := by
          rw [byteSize_eq_zero_iff.mpr nothing]
          exact Nat.lt_irrefl _
        rw [if_pos nothing, if_neg still]
        rfl
      · have positive := byteSize_pos_iff.mpr nothing
        rw [if_neg nothing, if_pos (Nat.lt_add_of_pos_right positive)]
        rfl
    · exact fun none => absurd stopsAt (none _ (Nat.le_add_right ..))
  · constructor
    · intro stop later ends _
      obtain ⟨before, after, split, endsThere, _⟩ := (endsLiteralAt_iff later).mp ends
      exact absurd endsThere (unended before after split)
    · intro _
      rw [read, found]
      rfl

/-- A `$` before another one is literal, and so are two quotes. -/
theorem Token.scan?_literal_dollars :
    Token.scan? "é$1\"\" $$x".toList 2 (.ofList [.stringContent, .semi])
      = some ⟨.stringContent, ⟨⟨2, 8⟩, ⟨2, 8⟩⟩⟩ := by
  have earlier : ∀ place < 8, 2 ≤ place → ¬EndsLiteralAt "é$1\"\" $$x".toList place := by
    decide +kernel
  have least : ∀ place, 2 ≤ place → EndsLiteralAt "é$1\"\" $$x".toList place → 8 ≤ place :=
    fun place later ends => Nat.le_of_not_lt fun before => earlier place before later ends
  exact (Token.scan?_literal (by decide) (by decide)).1 8 (by decide) (by decide +kernel) least

end ContextScan

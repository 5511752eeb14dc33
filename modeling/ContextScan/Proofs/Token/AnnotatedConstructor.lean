import ContextScan.Proofs.Statement.Deferral
import ContextScan.Proofs.Token.Annotated

namespace ContextScan

/-! Annotations before a constructor.

Where a constructor may follow, an annotated one goes on with the statement before it.  The
annotation is passed over up to its first blank, and that is its end unless it has blanks in its
arguments.  If it has some, the rest of the arguments is read in place of what follows them, and the
constructor is cut off, unless it is `constructor` that stands behind the first blanks. -/

open Scan Continuation

/-- A blank of an annotation stands in its arguments, which are closed behind it. -/
theorem AnnotationParts.closes_behind {parts before after : Text} {c : Char}
    (formed : AnnotationParts parts) (split : parts = before ++ c :: after)
    (blank : isBlank c = true) : ')' ∈ after := by
  induction formed generalizing before with
  | nil => simp at split
  | name visible _ _ _ ih =>
      cases before with
      | nil =>
          cases split
          rw [visible] at blank
          cases blank
      | cons first before =>
          cases split
          exact ih rfl
  | @arguments inside rest _ _ _ ih =>
      cases before with
      | nil =>
          cases split
          cases blank
      | cons first before =>
          obtain ⟨_, split⟩ := List.cons.inj split
          obtain ⟨within, _, behind⟩ | ⟨within, _, behind⟩ := List.append_eq_append_iff.mp split
          · cases within with
            | nil =>
                cases behind
                cases blank
            | cons next within =>
                cases behind
                exact ih rfl
          · cases within with
            | nil =>
                cases behind
                cases blank
            | cons next within =>
                cases behind
                simp

/-- A word is found in front of a longer text only if it is found before a character that it does
not have. -/
theorem prefix_append_iff_of_mem {word front : Text} {c : Char} (member : c ∈ front)
    (other : c ∉ word) (back : Text) : word <+: front ++ back ↔ word <+: front := by
  constructor
  · intro found
    rcases List.prefix_or_prefix_of_prefix found (List.prefix_append front back) with within | short
    · exact within
    · exact absurd (short.subset member) other
  · exact fun found => found.trans (List.prefix_append front back)

/-- Whether `constructor` is found behind an annotation that is passed over to its first blank. -/
def LeadsToConstructor (parts : Text) : Prop :=
  (∀ c ∈ parts, isBlank c = false) ∨
    ∃ before gap after, parts = before ++ (gap ++ ("constructor".toList ++ after)) ∧
      (∀ c ∈ before, isBlank c = false) ∧ IsGap gap ∧ gap ≠ []

theorem stops_of_gap {gap : Text} (blank : IsGap gap) (parted : gap ≠ []) (later : Text) :
    Stops (fun c => !isBlank c) (gap ++ later) := by
  obtain ⟨c, gap, rfl⟩ := List.exists_cons_of_ne_nil parted
  exact .cons (by rw [blank c List.mem_cons_self]; rfl)

theorem all_visible_iff {name : Text} :
    (∀ c ∈ name, (!isBlank c) = true) ↔ ∀ c ∈ name, isBlank c = false := by
  simp only [Bool.not_eq_true']

/-- The first blanks of an annotation are the ones that the word has to stand behind. -/
theorem leadsToConstructor_iff {before gap later : Text}
    (visible : ∀ c ∈ before, isBlank c = false) (blank : IsGap gap) (parted : gap ≠ [])
    (stops : Stops isBlank later) :
    LeadsToConstructor (before ++ (gap ++ later)) ↔ "constructor".toList <+: later := by
  constructor
  · rintro (none | ⟨other, blanks, after, split, otherVisible, otherBlank, otherParted⟩)
    · obtain ⟨c, gap, rfl⟩ := List.exists_cons_of_ne_nil parted
      have refused := none c (by simp)
      rw [blank c List.mem_cons_self] at refused
      cases refused
    · obtain ⟨_, behind⟩ := (stops_of_gap blank parted later).append_inj
        (stops_of_gap otherBlank otherParted _) (all_visible_iff.mpr visible)
        (all_visible_iff.mpr otherVisible) split
      obtain ⟨_, rfl⟩ := blank.append_inj otherBlank stops (.cons rfl) behind
      exact List.prefix_append _ after
  · rintro ⟨after, rfl⟩
    exact Or.inr ⟨before, gap, after, rfl, visible, blank, parted⟩

namespace Annotations

theorem constructorFollows_iff {name gap later : Text} (visible : ∀ c ∈ name, isBlank c = false)
    (blank : IsGap gap) (parted : gap ≠ []) (stops : Stops isBlank later) :
    (constructorFollows (name ++ (gap ++ later))).value = true
      ↔ "constructor".toList <+: later := by
  have inside := all_visible_iff.mpr visible
  rw [constructorFollows, bind_silent (skipWithin_append inside (stops_of_gap blank parted later)),
    bind_silent (skipWhile_append blank stops)]
  exact skipWord_iff (by decide)

/-- Whether the constructor behind an annotation is reached depends on the annotation alone. -/
theorem constructorFollows_annotation {parts between : Text} (formed : AnnotationParts parts)
    (blank : IsGap between) (parted : between ≠ []) (rest : Text) :
    let line := '@' :: (parts ++ (between ++ ("constructor".toList ++ rest)))
    (constructorFollows line).value = true ↔ LeadsToConstructor parts := by
  intro line
  obtain ⟨before, others, rfl, within, ends⟩ := exists_stops (fun c => !isBlank c) parts
  have visible := all_visible_iff.mp within
  have named : ∀ c ∈ '@' :: before, isBlank c = false := List.forall_mem_cons.mpr ⟨rfl, visible⟩
  cases others with
  | nil =>
      have starts : Stops isBlank ("constructor".toList ++ rest) := .cons rfl
      have follows := (constructorFollows_iff named blank parted starts).mpr ⟨rest, rfl⟩
      simp only [line, List.append_nil]
      exact iff_of_true follows (Or.inl visible)
  | cons c others =>
      have first : isBlank c = true := by simpa using ends c rfl
      obtain ⟨gap, later, rfl, gapBlank, stops⟩ := exists_gap others
      have skips : IsGap (c :: gap) := List.forall_mem_cons.mpr ⟨first, gapBlank⟩
      have closes : ')' ∈ later := by
        have behind := formed.closes_behind rfl first
        rw [List.mem_append] at behind
        exact behind.resolve_left fun member => by cases gapBlank _ member
      let following := later ++ (between ++ ("constructor".toList ++ rest))
      have starts : Stops isBlank following := by
        obtain ⟨next, later, rfl⟩ := List.exists_cons_of_ne_nil (List.ne_nil_of_mem closes)
        exact .cons (stops next rfl)
      have shape : line = ('@' :: before) ++ ((c :: gap) ++ following) := by simp [line, following]
      calc (constructorFollows line).value = true
        _ ↔ "constructor".toList <+: following := by
          rw [shape]
          exact constructorFollows_iff named skips (by simp) starts
        -- The word has no parenthesis, so it ends before the arguments do.
        _ ↔ "constructor".toList <+: later := prefix_append_iff_of_mem closes (by decide) _
        _ ↔ LeadsToConstructor (before ++ ((c :: gap) ++ later)) :=
          (leadsToConstructor_iff visible skips (by simp) stops).symm

end Annotations

/-- A request for a terminator on a new line that starts with an annotation, where a constructor may
follow. -/
theorem Request.reading?_constructorFollows {kinds : KindSet} {terminator : TokenKind}
    (requested : kinds.terminator? = some terminator) (outside : kinds.has .stringContent = false)
    (constructs : kinds.has .constructor = true) {gap : Text} (blank : IsGap gap)
    (broken : HasLineBreak gap) (rest : Text) :
    reading? kinds (gap ++ '@' :: rest)
      = if (Annotations.constructorFollows ('@' :: rest)).value then none
        else some (.nothing terminator) := by
  have decides := decision_append kinds blank (.cons rfl : Stops isBlank ('@' :: rest))
  have line : newLine kinds ('@' :: rest) = _ := newLine_of_constructor rfl constructs
  rw [broken, afterGap_newLine kinds (by simp), line] at decides
  cases follows : (Annotations.constructorFollows ('@' :: rest)).value with
  | true =>
      apply reading?_of_suppress outside requested
      rw [decides]
      simp [Run.precededBy, reporting, follows, insertIf]
  | false =>
      have unmarked : .markEnd ∉ ((do
          return insertIf (!(← Annotations.constructorFollows))) ('@' :: rest)).moves :=
        unmarked_of_stepwise
          (.bind (Annotations.stepwise_constructorFollows Move.isSkip_skip) (.pure _))
      refine reading?_of_insert outside requested decides ?_ unmarked
      simp [reporting, follows, insertIf]

/-- Where a constructor may follow, an annotated one on a new line goes on with the statement before
it if the annotation has no blank in its arguments.  If it has one, a terminator that takes nothing
is inserted, unless `constructor` stands in the arguments behind the first blanks. -/
theorem Token.scan?_annotatedConstructor {kinds : KindSet} {terminator : TokenKind}
    (requested : kinds.terminator? = some terminator) (outside : kinds.has .stringContent = false)
    (constructs : kinds.has .constructor = true) (front : Text) {gap parts between : Text}
    (blank : IsGap gap) (broken : HasLineBreak gap) (formed : AnnotationParts parts)
    (betweenBlank : IsGap between) (parted : between ≠ []) (rest : Text) :
    let line := '@' :: (parts ++ (between ++ ("constructor(".toList ++ rest)))
    let offset := byteSize front
    let produced? := scan? (front ++ (gap ++ line)) offset kinds
    (LeadsToConstructor parts → produced? = none) ∧
    (¬LeadsToConstructor parts →
      produced? = some ⟨terminator, ⟨⟨offset, offset⟩, ⟨offset, offset⟩⟩⟩) := by
  intro line offset produced?
  have read := Request.reading?_constructorFollows requested outside constructs blank broken
    (parts ++ (between ++ ("constructor(".toList ++ rest)))
  have leads : (Annotations.constructorFollows line).value = true ↔ LeadsToConstructor parts :=
    Annotations.constructorFollows_annotation formed betweenBlank parted ('(' :: rest)
  constructor
  · intro found
    rw [if_pos (leads.mpr found)] at read
    exact scan?_of_none front read
  · intro lost
    rw [if_neg (mt leads.mp lost)] at read
    exact scan?_of_nothing front read

/-- The word itself may stand in the arguments, and a line break between the annotation and the
constructor. -/
theorem Token.scan?_annotatedConstructor_lineBreak :
    scan? "é\n@A(b constructor)\r\nconstructor(".toList 2 (.ofList [.memberSemi, .constructor])
      = none := by
  have blank : IsGap ['\n'] := by simp [IsGap, isBlank]
  have between : IsGap ['\r', '\n'] := by simp [IsGap, isBlank]
  have space : IsGap [' '] := by simp [IsGap, isBlank]
  have formed : AnnotationParts "A(b constructor)".toList :=
    .name rfl (by decide) (by decide)
      (@AnnotationParts.arguments "b constructor".toList [] (by decide) (by decide) .nil)
  have leads : LeadsToConstructor "A(b constructor)".toList :=
    Or.inr ⟨"A(b".toList, [' '], [')'], rfl, by simp [isBlank], space, by simp⟩
  have requested : (KindSet.ofList [.memberSemi, .constructor]).terminator? = some .memberSemi := by
    decide
  have continues := (scan?_annotatedConstructor requested (by decide) (by decide) ['é'] blank rfl
    formed between (by simp) []).1 leads
  have text : "é\n@A(b constructor)\r\nconstructor(".toList
      = ['é'] ++ (['\n'] ++ '@' :: ("A(b constructor)".toList
        ++ (['\r', '\n'] ++ ("constructor(".toList ++ [])))) := by decide
  rw [text]
  exact continues

/-- Blanks in the arguments of its annotation cut a constructor off. -/
theorem Token.scan?_annotatedConstructor_cutOff :
    AnnotationParts "A(b c)".toList ∧
      scan? "\n@A(b c) constructor()".toList 0 (.ofList [.semi, .constructor])
        = some ⟨.semi, ⟨⟨0, 0⟩, ⟨0, 0⟩⟩⟩ := by
  have formed : AnnotationParts "A(b c)".toList :=
    .name rfl (by decide) (by decide)
      (@AnnotationParts.arguments "b c".toList [] (by decide) (by decide) .nil)
  exact ⟨formed, by decide +kernel⟩

end ContextScan

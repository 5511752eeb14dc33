import ContextScan.Proofs.Statement.Line
import ContextScan.Proofs.Token.Forms

namespace ContextScan

/-! Scans that do not tell line breaks apart.

Where a text is changed in its line breaks alone, two runs of one scan are compared.  Most resolvers
never tell a carriage return from a line feed: they take any blank, or stop at any, or look at
something else.  `BreakBlind` says that a scan is put together in such ways from elementary scans,
and from some given scans about which that has to be known otherwise.  What a comparison says of
every elementary scan and of the given ones then holds of the whole request, by one induction. -/

namespace Scan

inductive BreakBlind (Given : (α : Type) → Scan α → Text → Prop) :
    {α : Type} → Scan α → Text → Prop where
  | given {α : Type} {text : Text} {scan : Scan α} (known : Given α scan text) :
      BreakBlind Given scan text
  | pure {α : Type} {text : Text} (value : α) : BreakBlind Given (pure value) text
  | note {text : Text} (event : Event) : BreakBlind Given (note event) text
  | atEnd {text : Text} : BreakBlind Given atEnd text
  | markEnd {text : Text} : BreakBlind Given markEnd text
  | peek {α : Type} {text : Text} {next : Char → Scan α} (same : next '\r' = next '\n')
      (after : BreakBlind Given (next (text.headD '\x00')) text) :
      BreakBlind Given (peek >>= next) text
  | advance {text : Text} (visible : isLineBreak (text.headD '\x00') = false) :
      BreakBlind Given advance text
  | skip {text : Text} (visible : isLineBreak (text.headD '\x00') = false) :
      BreakBlind Given skip text
  | passing {text : Text} {move : Move} {accepts : Char → Bool}
      (passes : move = .advance ∨ move = .skip) (same : accepts '\r' = accepts '\n') :
      BreakBlind Given (passing move accepts) text
  | advanceUntil {text : Text} {left right : Char}
      (visible : isLineBreak left = false ∧ isLineBreak right = false) :
      BreakBlind Given (ofMove (.advanceUntil left right)) text
  | bind {α β : Type} {text : Text} {first : Scan α} {next : α → Scan β}
      (before : BreakBlind Given first text)
      (after : BreakBlind Given (next (first text).value) (first text).rest) :
      BreakBlind Given (first >>= next) text

end Scan

open Scan

theorem visible_of_eq {text : Text} {c : Char} (next : text.headD '\x00' = c)
    (visible : isLineBreak c = false) : isLineBreak (text.headD '\x00') = false := by
  rw [next]
  exact visible

theorem visible_of_beq {text : Text} {c : Char} (next : (text.headD '\x00' == c) = true)
    (visible : isLineBreak c = false) : isLineBreak (text.headD '\x00') = false :=
  visible_of_eq (eq_of_beq next) visible

/-- A line break is no visible character. -/
theorem beq_false_of_break {c : Char} (visible : isLineBreak c = false) :
    ('\r' == c) = false ∧ ('\n' == c) = false := by
  constructor <;> rw [beq_eq_false_iff_ne] <;> rintro rfl <;> cases visible

variable {Given : (α : Type) → Scan α → Text → Prop} {text : Text}

namespace Scan

theorem BreakBlind.ite {α : Type} {condition : Prop} [Decidable condition]
    {positive negative : Scan α} (whenTrue : condition → BreakBlind Given positive text)
    (whenFalse : ¬condition → BreakBlind Given negative text) :
    BreakBlind Given (if condition then positive else negative) text := by
  split
  · exact whenTrue ‹_›
  · exact whenFalse ‹_›

section Classes

variable {accepts : Char → Bool} {nul : accepts '\x00' = false}
  (same : accepts '\r' = accepts '\n')

include same

theorem BreakBlind.skipWhile : BreakBlind Given (skipWhile accepts nul) text := by
  rw [skipWhile_eq_passing]
  exact .passing (Or.inr rfl) same

theorem BreakBlind.advanceWhile : BreakBlind Given (advanceWhile accepts nul) text := by
  rw [advanceWhile_eq_passing]
  exact .passing (Or.inl rfl) same

theorem BreakBlind.skipWithin : BreakBlind Given (skipWithin accepts) text := by
  rw [skipWithin_eq_passing]
  exact .passing (Or.inr rfl) same

end Classes

section Words

variable {word : Text} (visible : word.any isLineBreak = false)

include visible

theorem blind_skipWord : BreakBlind Given (skipWord word) text := by
  induction word generalizing text with
  | nil => exact .pure true
  | cons letter word ih =>
      obtain ⟨letterVisible, others⟩ := Bool.or_eq_false_iff.mp visible
      refine .peek ?_ (.ite (fun next => ?_) fun _ => .pure false)
      · simp [beq_false_of_break letterVisible]
      · exact .bind (.skip (visible_of_beq next letterVisible)) (ih others)

theorem blind_advanceWord : BreakBlind Given (advanceWord word) text := by
  induction word generalizing text with
  | nil => exact .pure true
  | cons letter word ih =>
      obtain ⟨letterVisible, others⟩ := Bool.or_eq_false_iff.mp visible
      refine .peek ?_ (.ite (fun next => ?_) fun _ => .pure false)
      · simp [beq_false_of_break letterVisible]
      · exact .bind (.advance (visible_of_beq next letterVisible)) (ih others)

end Words

end Scan

namespace RawText

theorem blind_content (hasContent : Bool) (text : Text) :
    BreakBlind Given (content hasContent) text := by
  have again : ∀ later : Text, later.length < text.length → BreakBlind Given (content true) later :=
    fun later _ => blind_content true later
  cases text with
  | nil => rw [content_eq]; exact .bind .atEnd (.bind (.note _) (.pure none))
  | cons c rest =>
      have shorter : rest.length < (c :: rest).length := Nat.lt_succ_self _
      have evenShorter : rest.tail.length < (c :: rest).length := by
        rw [List.length_tail]
        omega
      rw [content_eq]
      refine .bind .atEnd (.peek rfl
        (.ite (fun dollar => ?_) fun plain => .ite (fun quote => ?_) fun other => ?_))
      · exact .bind .markEnd (.bind (.advance (visible_of_eq dollar rfl)) (.peek rfl
          (.ite (fun _ => .pure _) fun _ => again rest shorter)))
      · exact .bind .markEnd (.bind (.advance (visible_of_eq quote rfl)) (.peek rfl (.ite
          (fun second => .bind (.advance (visible_of_eq second rfl)) (.peek rfl (.ite
            (fun third => .bind (.advance (visible_of_eq third rfl)) (.peek rfl (.ite
              (fun fourth => .bind (.advance (visible_of_eq fourth rfl)) (.pure _))
              fun _ => .pure _)))
            fun _ => again rest.tail evenShorter)))
          fun _ => again rest shorter)))
      · refine .bind (.advanceUntil ⟨rfl, rfl⟩) (again _ ?_)
        have notDollar : c ≠ '$' := plain
        have notQuote : c ≠ '"' := other
        change ((c :: rest).dropWhile fun c => c != '$' && c != '"').length < _
        rw [List.dropWhile_cons_of_pos (by simp [notDollar, notQuote])]
        exact Nat.lt_succ_of_le (List.dropWhile_suffix _).length_le
termination_by text.length

theorem blind_scan : BreakBlind Given scan text := blind_content false text

end RawText

namespace SoftOperator

theorem blind_wholeWord {word : String} (visible : word.toList.any isLineBreak = false)
    (kind : TokenKind) : BreakBlind Given (wholeWord word kind) text :=
  .bind (blind_advanceWord visible) (.ite (fun _ => .bind .markEnd (.peek rfl (.pure _)))
    fun _ => .pure none)

theorem blind_safeNav : BreakBlind Given safeNav text :=
  .bind (.skipWhile rfl) (.peek rfl (.ite
    (fun question => .bind (.advance (visible_of_beq question rfl))
      (.bind (.advanceWhile rfl) (.peek rfl (.ite
        (fun dot => .bind (.advance (visible_of_beq dot rfl)) (.bind .markEnd (.pure _)))
        fun _ => .pure none))))
    fun _ => .pure none))

end SoftOperator

namespace LeadingWord

theorem isLineBreak_of_isLetter {c : Char} (letter : isLetter c = true) :
    isLineBreak c = false := by
  cases lineBreak : isLineBreak c with
  | false => rfl
  | true =>
      have blank := isBlank_of_isLineBreak lineBreak
      rw [isBlank_of_isLetter letter] at blank
      cases blank

theorem blind_captureOnto (word : Word) : BreakBlind Given (captureOnto word) text := by
  induction word, text using captureOnto.induct with
  | case1 word text letter ih =>
      rw [captureOnto_eq]
      exact .peek rfl (.ite (fun _ => .bind (.skip (isLineBreak_of_isLetter letter)) ih)
        fun _ => .pure word)
  | case2 word text other =>
      rw [captureOnto_eq]
      exact .peek rfl (.ite (fun letter => absurd letter other) fun _ => .pure word)

theorem blind_capture : BreakBlind Given capture text := blind_captureOnto .empty

theorem blind_afterModifiers : BreakBlind Given afterModifiers text := by
  induction text using afterModifiers.induct with
  | case1 text word modifier gap ih =>
      rw [afterModifiers_eq]
      exact .bind blind_capture (.ite (fun _ => .bind (.skipWhile rfl) ih)
        fun _ => .pure word.value)
  | case2 text word ordinary =>
      rw [afterModifiers_eq]
      exact .bind blind_capture (.ite (fun modifier => absurd modifier ordinary)
        fun _ => .pure word.value)

/-- What is looked for behind `set`, with the two loops told by what they pass. -/
theorem setterStarts_eq (kinds : KindSet) : setterStarts kinds = (do
    if kinds.has .setter then
      let next ← peek
      if next == '(' then
        passing .skip (· != ')')
        skip
        passing .skip fun c => isBlank c && c != '\n'
        pure ((← peek) == '\n')
      else
        pure (next == '[' || next == '.')
    else
      pure true) := by
  simp only [setterStarts, pastParameter, skipWithin_eq_passing, skipWhile_eq_passing]

/-- Of the context words only `set` looks for a line feed. -/
theorem blind_contextWordStarts (kinds : KindSet) {word : ContextWord}
    (setter : word = .setter → Given Bool (setterStarts kinds) text) :
    BreakBlind Given (contextWordStarts kinds word) text := by
  cases word with
  | constructor => exact .bind (.skipWhile rfl) (.peek rfl (.pure _))
  | otherwise =>
      exact .bind (.skipWhile rfl) (.peek rfl (.ite
        (fun minus => .bind (.skip (visible_of_beq minus rfl)) (.peek rfl (.pure _)))
        fun _ => .pure false))
  | getter => exact .peek rfl (.pure _)
  | setter => exact .given (setter rfl)
  | membership => exact .pure _
  | instanceTest | delegation | cast | constraints => exact .pure false

end LeadingWord

/-- Whether the search after a call of `set` is given, where a line starts with one. -/
def SetterGiven (Given : (α : Type) → Scan α → Text → Prop) (kinds : KindSet) (line : Text) :
    Prop :=
  (LeadingWord.afterModifiers line).value.contextWord? = some .setter →
    Given Bool (LeadingWord.setterStarts kinds) (LeadingWord.afterModifiers line).rest

theorem LeadingWord.blind_starts {kinds : KindSet} (setter : SetterGiven Given kinds text) :
    BreakBlind Given (starts kinds) text := by
  refine .bind blind_afterModifiers ?_
  split
  · rename_i word known
    refine .bind (blind_contextWordStarts kinds fun same => setter (same ▸ known)) ?_
    exact .bind (.ite (fun _ => .pure ()) fun _ => .note _) (.pure _)
  · exact .bind (.note _) (.pure true)

theorem Annotations.blind_constructorFollows : BreakBlind Given constructorFollows text :=
  .bind (.skipWithin rfl) (.bind (.skipWhile rfl) (blind_skipWord (by decide)))

namespace Continuation

theorem blind_sign {first : Char} (signed : first = '+' ∨ first = '-')
    (visible : isLineBreak (text.headD '\x00') = false) : BreakBlind Given (sign first) text := by
  refine .bind (.skip visible) (.peek ?_ (.pure _))
  rcases signed with rfl | rfl <;> rfl

theorem blind_negation (kinds : KindSet) (visible : isLineBreak (text.headD '\x00') = false) :
    BreakBlind Given (negation kinds) text :=
  .bind (.skip visible) (.peek (by simp) (.ite
    (fun both => .bind (.skip (visible_of_beq (Bool.and_eq_true _ _ ▸ both).2 rfl))
      (.peek rfl (.ite
        (fun second => .bind (.skip (visible_of_beq second rfl)) (.pure _))
        fun _ => .peek rfl (.pure _))))
    fun _ => .peek rfl (.pure _)))

theorem blind_firstToken {kinds : KindSet} (setter : SetterGiven Given kinds text) :
    BreakBlind Given (firstToken kinds) text := by
  refine .peek rfl (.ite (fun _ => .pure _) fun _ => .ite (fun signed => ?_) fun _ =>
    .ite (fun negated => ?_) fun _ => .ite (fun _ => .pure _) fun _ =>
    .ite (fun semicolon => ?_) fun _ => .ite (fun _ => ?_) fun _ => .pure _)
  · have sign : text.headD '\x00' = '+' ∨ text.headD '\x00' = '-' := by simpa using signed
    refine blind_sign sign ?_
    rcases sign with plus | minus
    · exact visible_of_eq plus rfl
    · exact visible_of_eq minus rfl
  · exact blind_negation kinds (visible_of_beq negated rfl)
  · exact .bind (.bind (.advance (visible_of_beq semicolon rfl)) .markEnd) (.pure _)
  · exact .bind (LeadingWord.blind_starts setter) (.pure _)

/-- On a new line only the annotations and what follows a call of `set` are to be given. -/
theorem blind_newLine {kinds : KindSet} (stops : Stops isBlank text)
    (annotations : kinds.PassesAnnotations → Given Unit (Annotations.skipAll .gap) text)
    (setter : SetterGiven Given kinds (kinds.unannotated text)) :
    BreakBlind Given (newLine kinds) text := by
  refine .peek rfl (.ite (fun _ => ?_) fun plain => ?_)
  · refine .ite (fun _ => .bind Annotations.blind_constructorFollows (.pure _)) fun requested =>
      .ite (fun accessors => ?_) fun _ => .pure _
    have passes : kinds.PassesAnnotations :=
      ⟨Bool.not_eq_true _ ▸ requested, Bool.or_eq_true _ _ ▸ accessors⟩
    rw [KindSet.unannotated, if_pos passes] at setter
    exact .bind (.given (annotations passes)) (.peek rfl (.ite (fun _ => .pure _)
      fun _ => blind_firstToken setter))
  · rw [KindSet.unannotated_of_ne stops fun next => plain (beq_iff_eq.mpr next)] at setter
    exact blind_firstToken setter

theorem blind_sameLine (kinds : KindSet) : BreakBlind Given (sameLine kinds) text :=
  .peek rfl (.ite (fun _ => .pure _) fun _ => .ite (fun _ => .pure _) fun _ =>
    .ite (fun _ => .bind (blind_skipWord (by decide)) (.pure _)) fun _ => .pure _)

theorem blind_beforeVisible {kinds : KindSet} (stops : Stops isBlank text) (sawLineBreak : Bool)
    (annotations : sawLineBreak = true → kinds.PassesAnnotations →
      Given Unit (Annotations.skipAll .gap) text)
    (setter : sawLineBreak = true → SetterGiven Given kinds (kinds.unannotated text)) :
    BreakBlind Given (beforeVisible kinds sawLineBreak) text :=
  .peek rfl (.ite (fun _ => .pure _) fun _ => .bind
    (.ite (fun broken => blind_newLine stops (annotations broken) (setter broken))
      fun _ => blind_sameLine kinds)
    (.bind (.note _) (.pure _)))

end Continuation

namespace Request

variable (kinds : KindSet) (inside : ∀ text, Given _ (Comment.body 0 .neither) text)

include inside

theorem blind_comment : BreakBlind Given (comment kinds) text :=
  .ite (fun _ => .pure none) fun _ => .peek rfl (.ite
    (fun slash => .bind (.advance (visible_of_beq slash rfl)) (.peek rfl (.ite
      (fun star => .bind (.advance (visible_of_beq star rfl)) (.given (inside _)))
      fun _ => .pure none)))
    fun _ => .pure none)

theorem blind_follow (terminator : TokenKind) (decided : Decision) :
    BreakBlind Given (follow kinds terminator decided) text := by
  cases decided with
  | insert | suppress => exact .pure _
  | comment => exact blind_comment kinds inside
  | safeNav => exact SoftOperator.blind_safeNav
  | notIs =>
      exact .ite (fun _ => SoftOperator.blind_wholeWord (by decide) _) fun _ => .pure none

theorem blind_plainToken : BreakBlind Given (plainToken kinds) text := by
  refine .bind (.skipWhile rfl) (.peek (by simp) ?_)
  exact .ite (fun _ => SoftOperator.blind_wholeWord (by decide) _) fun _ =>
    .ite (fun _ => SoftOperator.blind_wholeWord (by decide) _) fun _ =>
    .ite (fun _ => SoftOperator.blind_safeNav) fun _ => blind_comment kinds inside

end Request

end ContextScan

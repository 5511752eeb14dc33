import ContextScan.Proofs.LineEnds.Indifference
import ContextScan.Proofs.Statement.Line
import ContextScan.Proofs.Token.Forms

namespace ContextScan

/-! What the first word of a line decides.

A line that starts with a word ends the statement before it, unless the word past the modifiers is a
context word that what follows, or what is requested, makes a part of that statement. -/

open Scan

/-- Whether a context word with what follows it starts a statement. -/
def ContextWord.StartsStatement (kinds : KindSet) (rest : Text) : ContextWord → Prop
  | .constructor => kinds.has .memberSemi = true ∨
      ∃ c, (rest.dropWhile isBlank).head? = some c ∧ (c = '.' ∨ c = '=')
  | .otherwise => "->".toList <+: rest.dropWhile isBlank
  | .getter => kinds.has .getter = false ∨ rest.head? = some '['
  | .setter => kinds.has .setter = false ∨ rest.head? = some '[' ∨ rest.head? = some '.' ∨
      ArgumentsAlone rest
  | .membership => kinds.has .membership = true
  | .instanceTest | .delegation | .cast | .constraints => False

/-- Whether a word with what follows it starts a statement. -/
def StartsStatement (kinds : KindSet) (word rest : Text) : Prop :=
  (∀ contextWord : ContextWord, word ≠ contextWord.spelling.toList) ∨
  ∃ contextWord : ContextWord, word = contextWord.spelling.toList ∧
    contextWord.StartsStatement kinds rest

/-- A word starts a statement unless it is a context word that does not. -/
theorem startsStatement_iff_forall {kinds : KindSet} {word rest : Text} :
    StartsStatement kinds word rest ↔ ∀ contextWord : ContextWord,
      word = contextWord.spelling.toList → contextWord.StartsStatement kinds rest := by
  constructor
  · rintro (other | ⟨known, rfl, starts⟩) contextWord spelled
    · exact absurd spelled (other contextWord)
    · rwa [← ContextWord.eq_of_spelling spelled]
  · intro each
    by_cases known : ∃ contextWord : ContextWord, word = contextWord.spelling.toList
    · obtain ⟨contextWord, spelled⟩ := known
      exact Or.inr ⟨contextWord, spelled, each contextWord spelled⟩
    · exact Or.inl (not_exists.mp known)

theorem startsStatement_spelling_iff {kinds : KindSet} {rest : Text} (word : ContextWord) :
    StartsStatement kinds word.spelling.toList rest ↔ word.StartsStatement kinds rest := by
  rw [startsStatement_iff_forall]
  constructor
  · intro each
    exact each word rfl
  · intro starts other spelled
    rwa [← ContextWord.eq_of_spelling spelled]

namespace LeadingWord

variable {kinds : KindSet} {rest : Text}

theorem constructorStarts_iff : (constructorStarts kinds rest).value = true ↔
    ContextWord.StartsStatement kinds rest .constructor := by
  rw [constructorStarts, skipWhile_eq_passing]
  change (kinds.has .memberSemi || (rest.dropWhile isBlank).headD '\x00' == '.'
    || (rest.dropWhile isBlank).headD '\x00' == '=') = true ↔ _
  rw [Bool.or_eq_true, Bool.or_eq_true, beq_headD_iff (by decide), beq_headD_iff (by decide)]
  simp only [ContextWord.StartsStatement]
  constructor
  · rintro ((members | dot) | equals)
    · exact Or.inl members
    · exact Or.inr ⟨'.', dot, Or.inl rfl⟩
    · exact Or.inr ⟨'=', equals, Or.inr rfl⟩
  · rintro (members | ⟨c, next, rfl | rfl⟩)
    · exact Or.inl (Or.inl members)
    · exact Or.inl (Or.inr next)
    · exact Or.inr next

theorem otherwiseStarts_iff : (otherwiseStarts rest).value = true ↔
    ContextWord.StartsStatement kinds rest .otherwise := by
  let later := rest.dropWhile isBlank
  have value : (otherwiseStarts rest).value
      = (later.headD '\x00' == '-' && later.tail.headD '\x00' == '>') := by
    rw [otherwiseStarts, skipWhile_eq_passing]
    change ((if (later.headD '\x00' == '-') = true then _ else _ : Scan Bool) later).value = _
    cases later.headD '\x00' == '-' <;> rfl
  rw [value, Bool.and_eq_true, beq_headD_iff (by decide), beq_headD_iff (by decide)]
  change _ ↔ "->".toList <+: later
  generalize later = later
  constructor
  · rintro ⟨minus, arrow⟩
    obtain ⟨more, rfl⟩ := List.head?_eq_some_iff.mp minus
    obtain ⟨after, rfl⟩ := List.head?_eq_some_iff.mp arrow
    exact ⟨after, rfl⟩
  · rintro ⟨after, rfl⟩
    exact ⟨rfl, rfl⟩

theorem getterStarts_iff : (getterStarts kinds rest).value = true ↔
    ContextWord.StartsStatement kinds rest .getter := by
  change (!kinds.has .getter || rest.headD '\x00' == '[') = true ↔ _
  rw [Bool.or_eq_true, beq_headD_iff (by decide), Bool.not_eq_true']
  rfl

theorem setterStarts_iff : (setterStarts kinds rest).value = true ↔
    ContextWord.StartsStatement kinds rest .setter := by
  simp only [ContextWord.StartsStatement]
  cases requested : kinds.has .setter with
  | false =>
      rw [setterStarts, requested]
      exact ⟨fun _ => Or.inl rfl, fun _ => rfl⟩
  | true =>
      by_cases called : rest.head? = some '('
      · have next : rest.headD '\x00' = '(' := eq_of_beq ((beq_headD_iff (by decide)).mpr called)
        rw [called]
        constructor
        · intro starts
          rw [setterStarts_value requested next] at starts
          exact Or.inr (Or.inr (Or.inr (.of_next next (eq_of_beq starts))))
        · rintro (unrequested | indexed | accessed | alone)
          · cases unrequested
          · cases indexed
          · cases accessed
          · exact (setterStarts_alone requested alone).1
      · have next : (rest.headD '\x00' == '(') = false :=
          Bool.eq_false_iff.mpr (mt (beq_headD_iff (by decide)).mp called)
        have value : (setterStarts kinds rest).value
            = (rest.headD '\x00' == '[' || rest.headD '\x00' == '.') := by
          rw [setterStarts, if_pos requested]
          change ((if (rest.headD '\x00' == '(') = true then _ else _ : Scan Bool) rest).value = _
          rw [next]
          rfl
        have notAlone : ¬ArgumentsAlone rest := by
          rintro ⟨arguments, blanks, more, rfl, _⟩
          exact called rfl
        rw [value, Bool.or_eq_true, beq_headD_iff (by decide), beq_headD_iff (by decide)]
        simp [notAlone]

theorem contextWordStarts_iff {word : ContextWord} :
    (contextWordStarts kinds word rest).value = true ↔ word.StartsStatement kinds rest := by
  cases word with
  | constructor => exact constructorStarts_iff
  | otherwise => exact otherwiseStarts_iff
  | getter => exact getterStarts_iff
  | setter => exact setterStarts_iff
  | membership => exact Iff.rfl
  | instanceTest | delegation | cast | constraints =>
      exact ⟨Bool.false_ne_true, False.elim⟩

/-- A line starts a statement if the word does to which it leads. -/
theorem starts_iff {word line : Text} (leads : LeadsTo word rest line) :
    (starts kinds line).value = true ↔ StartsStatement kinds word rest := by
  obtain ⟨_, _, _, captured⟩ := leads.afterModifiers_eq
  rw [starts_eq_judge kinds captured]
  change (judge kinds (Word.ofRun word) rest).value = true ↔ _
  cases known : (Word.ofRun word).contextWord? with
  | none =>
      have other : ∀ contextWord : ContextWord, word ≠ contextWord.spelling.toList := by
        intro contextWord spelled
        rw [Word.contextWord?_ofRun_iff.mpr spelled] at known
        cases known
      simp only [judge, known]
      exact ⟨fun _ => Or.inl other, fun _ => rfl⟩
  | some contextWord =>
      have spelled := Word.contextWord?_ofRun_iff.mp known
      have decided : (judge kinds (Word.ofRun word) rest).value
          = (contextWordStarts kinds contextWord rest).value := by
        simp only [judge, known]
        rfl
      rw [decided, contextWordStarts_iff]
      constructor
      · exact fun starts => Or.inr ⟨contextWord, spelled, starts⟩
      · rintro (other | ⟨same, again, starts⟩)
        · exact absurd spelled (other contextWord)
        · have found := Word.contextWord?_ofRun_iff.mpr again
          rw [known] at found
          cases found
          exact starts

end LeadingWord

/-- A request for a terminator on a new line that starts with a letter. -/
theorem Request.reading?_leadingWord {kinds : KindSet} {terminator : TokenKind}
    (requested : kinds.terminator? = some terminator)
    (outside : kinds.has .stringContent = false) {gap line word rest : Text}
    (blank : IsGap gap) (broken : HasLineBreak gap)
    (letter : isLetter (line.headD '\x00') = true)
    (leads : LeadingWord.LeadsTo word rest line) :
    (StartsStatement kinds word rest →
      reading? kinds (gap ++ line) = some (.nothing terminator)) ∧
    (¬StartsStatement kinds word rest → reading? kinds (gap ++ line) = none) := by
  have stops : Stops isBlank line := .of_headD (isBlank_of_isLetter letter)
  have other : line.headD '\x00' ≠ '@' := by
    intro annotated
    rw [annotated] at letter
    cases letter
  have whole : kinds.unannotated line = line := KindSet.unannotated_of_ne stops other
  rw [← whole] at letter
  obtain ⟨run, skips, decides, value, unmarked⟩ :=
    Continuation.decision_of_letter blank broken stops letter
  rw [whole] at value
  constructor
  · intro starts
    rw [(LeadingWord.starts_iff leads).mpr starts] at value
    exact reading?_of_insert outside requested decides value unmarked
  · intro continues
    have suppressed : (LeadingWord.starts kinds line).value = false :=
      Bool.eq_false_iff.mpr (mt (LeadingWord.starts_iff leads).mp continues)
    rw [suppressed] at value
    have suppresses : (Continuation.decision kinds (gap ++ line)).value = .suppress := by
      rw [decides]
      exact value
    exact reading?_of_suppress outside requested suppresses

/-- On a new line that starts with a letter, a terminator that takes nothing is inserted exactly if
the word past the modifiers starts a statement; otherwise there is no token. -/
theorem Token.scan?_leadingWord {kinds : KindSet} {terminator : TokenKind}
    (requested : kinds.terminator? = some terminator)
    (outside : kinds.has .stringContent = false) (front : Text) {gap line word rest : Text}
    (blank : IsGap gap) (broken : HasLineBreak gap)
    (letter : isLetter (line.headD '\x00') = true)
    (leads : LeadingWord.LeadsTo word rest line) :
    let offset := byteSize front
    let produced? := Token.scan? (front ++ (gap ++ line)) offset kinds
    (StartsStatement kinds word rest →
      produced? = some ⟨terminator, ⟨⟨offset, offset⟩, ⟨offset, offset⟩⟩⟩) ∧
    (¬StartsStatement kinds word rest → produced? = none) := by
  intro offset produced?
  have decided := Request.reading?_leadingWord requested outside blank broken letter leads
  constructor
  · intro starts
    exact Token.scan?_of_nothing front (decided.1 starts)
  · intro continues
    exact Token.scan?_of_none front (decided.2 continues)

/-- A call of `set` that is alone on its line starts a statement, modifiers or not. -/
theorem Token.scan?_leadingWord_setter :
    Token.scan? "é \r\n\tprivate open set(value) \nx".toList 2 (.ofList [.semi, .setter])
      = some ⟨.semi, ⟨⟨2, 2⟩, ⟨2, 2⟩⟩⟩ := by
  let rest := "(value) \nx".toList
  have alone : ArgumentsAlone rest :=
    ⟨"value".toList, [' '], ['x'], rfl, by decide, by simp [isBlank]⟩
  have word : LeadingWord.LeadsTo "set".toList rest ("set".toList ++ rest) :=
    .word (List.all_eq_true.mp (by decide)) (.cons (by decide)) (by decide)
  have space : IsGap [' '] := by simp [IsGap, isBlank]
  have restricts : "private" ∈ modifiers := by simp [modifiers]
  have opens : "open" ∈ modifiers := by simp [modifiers]
  have leads : LeadingWord.LeadsTo "set".toList rest
      ("private".toList ++ ([' '] ++ ("open".toList ++ ([' '] ++ ("set".toList ++ rest))))) :=
    .modifier restricts (.cons (by decide)) space (.cons (by decide))
      (.modifier opens (.cons (by decide)) space (.cons (by decide)) word)
  have blank : IsGap " \r\n\t".toList := by simp [IsGap, isBlank]
  exact (Token.scan?_leadingWord (by decide) (by decide) ['é'] blank rfl (by decide)
    leads).1 (Or.inr ⟨.setter, rfl, Or.inr (Or.inr (Or.inr alone))⟩)

end ContextScan

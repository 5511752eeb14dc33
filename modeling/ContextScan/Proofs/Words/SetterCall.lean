import ContextScan.Proofs.Words.Verdict

namespace ContextScan

/-! Calls of a function named `set`.

A line that starts with `set` and arguments is a call if nothing follows the arguments on the line,
and then it starts a statement.  The arguments are passed over up to the first closing parenthesis,
which ends them only if they have no parentheses inside.  After nested ones something follows on the
line, the closing parenthesis of the call, and so the call is taken for a setter. -/

/-- Whether the parentheses of a text pair up. -/
inductive Balanced : Text → Prop where
  | nil : Balanced []
  | plain {c : Char} {rest : Text} (opens : c ≠ '(') (closes : c ≠ ')') (more : Balanced rest) :
      Balanced (c :: rest)
  | group {inside rest : Text} (within : Balanced inside) (more : Balanced rest) :
      Balanced ('(' :: (inside ++ ')' :: rest))

theorem Balanced.opens_iff_closes {text : Text} (balanced : Balanced text) :
    '(' ∈ text ↔ ')' ∈ text := by
  induction balanced with
  | nil => simp
  | plain opens closes _ ih => simp [opens.symm, closes.symm, ih]
  | group => simp

/-- Behind the first closing parenthesis another one stands on the same line. -/
theorem not_argumentsAlone_of_closes {arguments : Text} (closes : ')' ∈ arguments)
    (line : '\n' ∉ arguments) (after : Text) :
    ¬ArgumentsAlone ('(' :: (arguments ++ ')' :: after)) := by
  rintro ⟨passed, blanks, rest, split, unclosed, inside⟩
  have passes : ∀ c ∈ passed, (c != ')') = true :=
    fun c member => bne_iff_ne.mpr (ne_of_mem_of_not_mem member unclosed)
  obtain ⟨first, later, rfl, before, ends⟩ := exists_stops (· != ')') arguments
  cases later with
  | nil =>
      rw [List.append_nil] at closes
      cases before ')' closes
  | cons closing later =>
      have closed : closing = ')' := by simpa using ends closing rfl
      subst closed
      have same : first ++ ')' :: (later ++ ')' :: after)
          = passed ++ ')' :: (blanks ++ '\n' :: rest) := by simpa using split
      obtain ⟨rfl, behind⟩ := Stops.append_inj (.cons rfl) (.cons rfl) before passes same
      obtain ⟨skipped, others, rfl, skips, stops⟩ :=
        exists_stops (fun c => isBlank c && c != '\n') later
      have visible : Stops (fun c => isBlank c && c != '\n') (others ++ ')' :: after) := by
        cases others with
        | nil => exact .cons rfl
        | cons c others => exact .cons (stops c rfl)
      have onward : skipped ++ (others ++ ')' :: after) = blanks ++ '\n' :: rest := by
        simpa using behind
      obtain ⟨_, next⟩ := visible.append_inj (.cons rfl) skips inside onward
      cases others with
      | nil => cases next
      | cons c others =>
          cases next
          exact line (by simp)

/-- Arguments stand alone on their line if they have no closing parenthesis inside. -/
theorem argumentsAlone_iff {arguments gap : Text} (line : '\n' ∉ arguments) (blank : IsGap gap)
    (inline : '\n' ∉ gap) (rest : Text) :
    ArgumentsAlone ('(' :: (arguments ++ ')' :: (gap ++ '\n' :: rest))) ↔ ')' ∉ arguments := by
  constructor
  · intro alone closes
    exact not_argumentsAlone_of_closes closes line _ alone
  · intro unclosed
    have blanks : ∀ c ∈ gap, (isBlank c && c != '\n') = true := by
      intro c member
      rw [blank c member, Bool.true_and, bne_iff_ne]
      exact ne_of_mem_of_not_mem member inline
    exact ⟨arguments, gap, rest, rfl, unclosed, blanks⟩

/-- Where a setter may follow, `set` before arguments starts a statement if they stand alone. -/
theorem startsStatement_setter_iff {kinds : KindSet} (setter : kinds.has .setter = true)
    (rest : Text) :
    StartsStatement kinds "set".toList ('(' :: rest) ↔ ArgumentsAlone ('(' :: rest) := by
  rw [show "set" = ContextWord.setter.spelling from rfl, startsStatement_spelling_iff]
  simp [ContextWord.StartsStatement, setter]

/-- Where a setter may follow, a call of `set` that ends its line starts a statement if there are no
parentheses in its arguments.  If there are, the call goes on with the statement before it. -/
theorem Token.scan?_setterCall {kinds : KindSet} {terminator : TokenKind}
    (requested : kinds.terminator? = some terminator) (setter : kinds.has .setter = true)
    (outside : kinds.has .stringContent = false) (front : Text) {before arguments after : Text}
    (blank : IsGap before) (broken : HasLineBreak before) (balanced : Balanced arguments)
    (line : '\n' ∉ arguments) (afterBlank : IsGap after) (inline : '\n' ∉ after) (rest : Text) :
    let call := "set(".toList ++ (arguments ++ ')' :: (after ++ '\n' :: rest))
    let offset := byteSize front
    let produced? := scan? (front ++ (before ++ call)) offset kinds
    ('(' ∉ arguments → produced? = some ⟨terminator, ⟨⟨offset, offset⟩, ⟨offset, offset⟩⟩⟩) ∧
    ('(' ∈ arguments → produced? = none) := by
  intro call offset produced?
  let passed := '(' :: (arguments ++ ')' :: (after ++ '\n' :: rest))
  have leads : LeadingWord.LeadsTo "set".toList passed ("set".toList ++ passed) :=
    .word (List.all_eq_true.mp (by decide)) (.cons (by decide)) (by decide)
  have starts : StartsStatement kinds "set".toList passed ↔ '(' ∉ arguments := by
    rw [startsStatement_setter_iff setter, argumentsAlone_iff line afterBlank inline,
      balanced.opens_iff_closes]
  have letter : isLetter (call.headD '\x00') = true := isLetter_of_isAlpha rfl
  have decided := Request.reading?_leadingWord requested outside blank broken letter leads
  constructor
  · intro flat
    exact scan?_of_nothing front (decided.1 (starts.mpr flat))
  · intro nested
    exact scan?_of_none front (decided.2 (mt starts.mp (not_not_intro nested)))

/-- After its arguments a call may have blanks and a carriage return before the line feed. -/
theorem Token.scan?_setterCall_return :
    scan? "é\r\n\tset(a, b) \r\nc".toList 2 (.ofList [.memberSemi, .setter])
      = some ⟨.memberSemi, ⟨⟨2, 2⟩, ⟨2, 2⟩⟩⟩ := by
  have blank : IsGap ['\r', '\n', '\t'] := by simp [IsGap, isBlank]
  have after : IsGap [' ', '\r'] := by simp [IsGap, isBlank]
  have balanced : Balanced "a, b".toList :=
    .plain (by decide) (by decide) (.plain (by decide) (by decide)
      (.plain (by decide) (by decide) (.plain (by decide) (by decide) .nil)))
  exact (scan?_setterCall (by decide) (by decide) (by decide) ['é'] blank rfl balanced (by decide)
    after (by decide) ['c']).1 (by decide)

/-- A call whose arguments hold a call is taken for a setter, although it is alone on its line. -/
theorem Token.scan?_setterCall_nested :
    Balanced "f(x)".toList ∧
      scan? "\nset(f(x))\ny".toList 0 (.ofList [.semi, .setter]) = none := by
  have inner : Balanced ['x'] := .plain (by decide) (by decide) .nil
  exact ⟨.plain (by decide) (by decide) (.group inner .nil), by decide +kernel⟩

end ContextScan

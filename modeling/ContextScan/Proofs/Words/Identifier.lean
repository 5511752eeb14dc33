import ContextScan.Proofs.Words.Verdict
import ContextScan.Text.Number

namespace ContextScan

/-! Identifiers that begin with a word of the vocabulary.

The word that decides about a line is a run of letters, but an identifier may go on with numbers and
underscores.  An identifier that begins with a modifier starts a statement, for what is left of it
is no word.  One that begins with a context word is taken for that word, and starts a statement only
where the word does so whatever follows. -/

open Scan

/-- Whether a character goes on with an identifier. -/
def continuesIdentifier (c : Char) : Bool := isAlphanumeric c || c == '_'

structure IsIdentifier (text : Text) : Prop where
  starts : isLetter (text.headD '\x00') = true
  continues : ∀ c ∈ text, continuesIdentifier c = true

theorem isBlank_of_continuesIdentifier {c : Char} (continues : continuesIdentifier c = true) :
    isBlank c = false := by
  cases blank : isBlank c with
  | false => rfl
  | true =>
      have none : ∀ code ∈ blankCodes, continuesIdentifier (Char.ofNat code) = false := by
        decide +kernel
      have refused := none c.toNat (mem_blankCodes blank)
      rw [Char.ofNat_toNat, continues] at refused
      cases refused

namespace ContextWord

/-- Whether a context word starts a statement whatever follows it. -/
def StartsAnyway (kinds : KindSet) : ContextWord → Prop
  | .constructor => kinds.has .memberSemi = true
  | .getter => kinds.has .getter = false
  | .setter => kinds.has .setter = false
  | .membership => kinds.has .membership = true
  | .otherwise | .instanceTest | .delegation | .cast | .constraints => False

/-- What follows a context word inside an identifier does not make it start a statement. -/
theorem startsStatement_iff_anyway {kinds : KindSet} {word : ContextWord} {c : Char}
    (continues : continuesIdentifier c = true) (rest : Text) :
    word.StartsStatement kinds (c :: rest) ↔ word.StartsAnyway kinds := by
  have differs {other : Char} (ends : continuesIdentifier other = false) : c ≠ other := by
    rintro rfl
    rw [continues] at ends
    cases ends
  have whole : (c :: rest).dropWhile isBlank = c :: rest :=
    List.dropWhile_cons_of_neg (by simp [isBlank_of_continuesIdentifier continues])
  cases word with
  | constructor =>
      refine or_iff_left ?_
      rw [whole]
      rintro ⟨next, head, rfl | rfl⟩
      · exact differs (by decide) (Option.some.inj head)
      · exact differs (by decide) (Option.some.inj head)
  | otherwise =>
      refine iff_of_false ?_ id
      change ¬"->".toList <+: (c :: rest).dropWhile isBlank
      rw [whole]
      rintro ⟨after, same⟩
      exact differs (by decide) (List.cons.inj same).1.symm
  | getter => exact or_iff_left fun indexed => differs (by decide) (Option.some.inj indexed)
  | setter =>
      refine or_iff_left ?_
      rintro (indexed | accessed | ⟨arguments, blanks, after, called, _⟩)
      · exact differs (by decide) (Option.some.inj indexed)
      · exact differs (by decide) (Option.some.inj accessed)
      · exact differs (by decide) (List.cons.inj called).1
  | membership => exact Iff.rfl
  | instanceTest | delegation | cast | constraints => exact Iff.rfl

end ContextWord

/-- A modifier that something visible follows is passed over, and no word is captured after it. -/
theorem LeadingWord.LeadsTo.of_cutModifier {run : Text} {c : Char}
    (known : String.ofList run ∈ modifiers) (visible : isBlank c = false)
    (ends : isLetter c = false) (rest : Text) : LeadsTo [] (c :: rest) (run ++ c :: rest) := by
  have nothing : LeadsTo [] (c :: rest) (c :: rest) := .word (by simp) (.cons ends) (by decide)
  have unparted : IsGap [] := by simp [IsGap]
  have leads := LeadsTo.modifier known (by exact .cons ends) unparted (.cons visible) nothing
  rwa [String.toList_ofList, List.nil_append] at leads

section Identifier

variable {kinds : KindSet} {identifier rest : Text}

theorem IsIdentifier.isLetter_headD (named : IsIdentifier identifier) (rest : Text) :
    isLetter ((identifier ++ rest).headD '\x00') = true := by
  obtain ⟨starts, _⟩ := named
  cases identifier with
  | nil => cases starts
  | cons c more => exact starts

/-- Whether an identifier that begins with these letters starts a statement. -/
def StartsIdentifier (kinds : KindSet) (letters : Text) : Prop :=
  ∀ word : ContextWord, letters = word.spelling.toList → word.StartsAnyway kinds

/-- An identifier outside the vocabulary leads to the letters that it begins with, or past them if
they are a modifier. -/
theorem IsIdentifier.exists_leadsTo (named : IsIdentifier identifier)
    (ends : Stops continuesIdentifier rest)
    (ordinary : String.ofList identifier ∉ modifiers ++ contextWords) (kinds : KindSet) :
    ∃ word later, LeadingWord.LeadsTo word later (identifier ++ rest) ∧
      (StartsStatement kinds word later ↔
        StartsIdentifier kinds (identifier.takeWhile isLetter)) := by
  obtain ⟨run, others, rfl, letters, stops⟩ := exists_stops isLetter identifier
  have taken : (run ++ others).takeWhile isLetter = run := stops.takeWhile_append letters
  have whole : Stops isLetter (others ++ rest) := by
    cases others with
    | nil =>
        refine ends.mono fun c letter => ?_
        rw [continuesIdentifier, isAlphanumeric_of_isLetter letter, Bool.true_or]
    | cons c others => exact .cons (stops c rfl)
  -- The letters are not the whole identifier where they are a word of the vocabulary.
  have longer (known : String.ofList run ∈ modifiers ++ contextWords) :
      ∃ c more, others = c :: more ∧ continuesIdentifier c = true := by
    cases others with
    | nil =>
        rw [List.append_nil] at ordinary
        exact absurd known ordinary
    | cons c more => exact ⟨c, more, rfl, named.continues c (by simp)⟩
  rw [List.append_assoc, taken]
  by_cases modifier : String.ofList run ∈ modifiers
  · obtain ⟨c, more, rfl, continues⟩ := longer (List.mem_append_left _ modifier)
    have visible := isBlank_of_continuesIdentifier continues
    refine ⟨[], _, .of_cutModifier modifier visible (stops c rfl) (more ++ rest),
      iff_of_true (Or.inl ?_) ?_⟩
    · intro word
      cases word <;> decide
    · rintro word rfl
      rw [String.ofList_toList] at modifier
      exact absurd word.spelling_mem (disjoint_modifiers_contextWords modifier)
  · refine ⟨run, _, .word letters whole modifier, ?_⟩
    rw [startsStatement_iff_forall]
    refine forall_congr' fun word => forall_congr' fun spelled => ?_
    have known : String.ofList run ∈ modifiers ++ contextWords := by
      rw [spelled, String.ofList_toList]
      exact List.mem_append_right _ word.spelling_mem
    obtain ⟨c, more, rfl, continues⟩ := longer known
    exact ContextWord.startsStatement_iff_anyway continues (more ++ rest)

/-- On a new line an identifier outside the vocabulary starts a statement, past modifiers or not, if
the letters that it begins with are no context word.  If they are, it does so where that word starts
a statement whatever follows. -/
theorem Token.scan?_identifier {terminator : TokenKind}
    (requested : kinds.terminator? = some terminator) (outside : kinds.has .stringContent = false)
    (front : Text) {gap passed : Text} (blank : IsGap gap) (broken : HasLineBreak gap)
    (modified : ModifierRun passed) (named : IsIdentifier identifier)
    (ends : Stops continuesIdentifier rest)
    (ordinary : String.ofList identifier ∉ modifiers ++ contextWords) :
    let offset := byteSize front
    let produced? := scan? (front ++ (gap ++ (passed ++ (identifier ++ rest)))) offset kinds
    let letters := identifier.takeWhile isLetter
    (StartsIdentifier kinds letters →
      produced? = some ⟨terminator, ⟨⟨offset, offset⟩, ⟨offset, offset⟩⟩⟩) ∧
    (¬StartsIdentifier kinds letters → produced? = none) := by
  intro offset produced? letters
  obtain ⟨word, later, leads, starts⟩ := named.exists_leadsTo ends ordinary kinds
  have letter := named.isLetter_headD rest
  have decided := Request.reading?_leadingWord requested outside blank broken
    (modified.isLetter_headD letter) (.after_modifierRun modified letter leads)
  rw [starts] at decided
  constructor
  · intro startsHere
    exact scan?_of_nothing front (decided.1 startsHere)
  · intro continues
    exact scan?_of_none front (decided.2 continues)

end Identifier

/-- Past a modifier a variable starts a statement whose name begins with a context word that does,
too. -/
theorem Token.scan?_identifier_underscore :
    scan? "é\n private in_use".toList 2 (.ofList [.semi, .membership])
      = some ⟨.semi, ⟨⟨2, 2⟩, ⟨2, 2⟩⟩⟩ := by
  have blank : IsGap ['\n', ' '] := by simp [IsGap, isBlank]
  have space : IsGap [' '] := by simp [IsGap, isBlank]
  have modified : ModifierRun ("private".toList ++ ([' '] ++ [])) :=
    .cons (by simp [modifiers]) space (by simp) .nil
  have named : IsIdentifier "in_use".toList :=
    ⟨by decide, List.all_eq_true.mp (by decide)⟩
  have checked : (KindSet.ofList [.semi, .membership]).has .membership = true := by decide
  have starts : StartsIdentifier (.ofList [.semi, .membership])
      ("in_use".toList.takeWhile isLetter) := by
    intro word spelled
    cases word with
    | membership => exact checked
    | _ => exact absurd spelled (by decide)
  exact (scan?_identifier (by decide) (by decide) ['é'] blank rfl modified named (.of_headD rfl)
    (by decide)).1 starts

/-- A variable `in2` is taken for the operator `in`, and the end of the statement before it is
lost. -/
theorem Token.scan?_identifier_numbered :
    IsIdentifier "in2".toList ∧ "in2" ∉ modifiers ++ contextWords ∧
      scan? "\nin2 = 1".toList 0 (.ofList [.semi]) = none :=
  ⟨⟨by decide, List.all_eq_true.mp (by decide)⟩, by decide, by decide +kernel⟩

end ContextScan

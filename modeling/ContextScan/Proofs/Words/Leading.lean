import ContextScan.Proofs.Statement.Gap
import ContextScan.Proofs.Words.Vocabulary

namespace ContextScan

/-! The word that decides about a line.

Modifiers with blanks after them are passed over, and what is captured then is the longest run of
letters.  Where that run is not empty, each modifier before it was a whole word: one that something
else than a blank follows is part of a longer name, and no word is captured after it. -/

open Scan

/-- The code points of the blanks. -/
def blankCodes : List Nat :=
  List.range' 9 5 ++ List.range' 0x2000 11
    ++ [0x20, 0x85, 0xa0, 0x1680, 0x2028, 0x2029, 0x202f, 0x205f, 0x3000]

theorem mem_blankCodes {c : Char} (blank : isBlank c = true) : c.toNat ∈ blankCodes := by
  simp only [isBlank, Bool.or_eq_true, Bool.and_eq_true, decide_eq_true_eq, beq_iff_eq] at blank
  simp only [blankCodes, List.mem_append, List.mem_range'_1, List.mem_cons, List.not_mem_nil]
  omega

/-- No blank is a letter. -/
theorem isLetter_of_isBlank {c : Char} (blank : isBlank c = true) : isLetter c = false := by
  have none : ∀ code ∈ blankCodes, isLetter (Char.ofNat code) = false := by decide +kernel
  rw [← Char.ofNat_toNat c]
  exact none c.toNat (mem_blankCodes blank)

theorem isBlank_of_isLetter {c : Char} (letter : isLetter c = true) : isBlank c = false := by
  cases blank : isBlank c with
  | false => rfl
  | true => rw [isLetter_of_isBlank blank] at letter; cases letter

theorem isLetter_of_mem_modifier {word : String} (known : word ∈ modifiers) :
    ∀ c ∈ word.toList, isLetter c = true := by
  have each : (modifiers.all fun word => word.toList.all isLetter) = true := by decide +kernel
  exact List.all_eq_true.mp (List.all_eq_true.mp each word known)

/-- Whether a text is made of modifiers, each with blanks after it. -/
inductive ModifierRun : Text → Prop where
  | nil : ModifierRun []
  | cons {word : String} {gap others : Text} (known : word ∈ modifiers) (blank : IsGap gap)
      (parted : gap ≠ []) (more : ModifierRun others) :
      ModifierRun (word.toList ++ (gap ++ others))

/-- A line starts with a letter if it does so past the modifiers. -/
theorem ModifierRun.isLetter_headD {passed line : Text} (modified : ModifierRun passed)
    (letter : isLetter (line.headD '\x00') = true) :
    isLetter ((passed ++ line).headD '\x00') = true := by
  cases modified with
  | nil => exact letter
  | @cons word gap others known =>
      have nonempty : ∀ word ∈ modifiers, word.toList ≠ [] := by decide +kernel
      obtain ⟨c, more, spelled⟩ := List.exists_cons_of_ne_nil (nonempty word known)
      rw [spelled]
      exact isLetter_of_mem_modifier known c (by simp [spelled])

theorem isLetter_headD_append {run : Text} (letters : ∀ c ∈ run, isLetter c = true)
    (nonempty : run ≠ []) (rest : Text) : isLetter ((run ++ rest).headD '\x00') = true := by
  obtain ⟨c, run, rfl⟩ := List.exists_cons_of_ne_nil nonempty
  exact letters c List.mem_cons_self

namespace LeadingWord

/-- Whether a line leads over modifiers, and whatever blanks are after each, to a word that is none.
The word is the whole run of letters that stands there, which may be empty. -/
inductive LeadsTo (word rest : Text) : Text → Prop where
  | word (letters : ∀ c ∈ word, isLetter c = true) (ends : Stops isLetter rest)
      (ordinary : String.ofList word ∉ modifiers) : LeadsTo word rest (word ++ rest)
  | modifier {spelling : String} {gap line : Text} (known : spelling ∈ modifiers)
      (ends : Stops isLetter (gap ++ line)) (blank : IsGap gap) (starts : Stops isBlank line)
      (more : LeadsTo word rest line) : LeadsTo word rest (spelling.toList ++ (gap ++ line))

theorem captureOnto_append (word : Word) {run rest : Text}
    (letters : ∀ c ∈ run, isLetter c = true) (stops : Stops isLetter rest) :
    captureOnto word (run ++ rest)
      = ⟨run.foldl Word.push word, List.replicate run.length .skip, [], rest⟩ := by
  induction run generalizing word with
  | nil =>
      have other : isLetter (rest.headD '\x00') = false := stops.headD isLetter_nul
      rw [List.nil_append, captureOnto, other]
      rfl
  | cons c run ih =>
      obtain ⟨letter, others⟩ := List.forall_mem_cons.mp letters
      rw [captureOnto, List.cons_append, List.headD_cons, List.tail_cons, if_pos letter,
        ih (word.push c) others]
      rfl

theorem capture_append {run rest : Text} (letters : ∀ c ∈ run, isLetter c = true)
    (stops : Stops isLetter rest) :
    capture (run ++ rest) = ⟨Word.ofRun run, List.replicate run.length .skip, [], rest⟩ :=
  captureOnto_append .empty letters stops

/-- Every line leads to a word. -/
theorem exists_leadsTo (line : Text) : ∃ word rest, LeadsTo word rest line := by
  induction line using afterModifiers.induct with
  | case2 line captured ordinary =>
      obtain ⟨run, rest, rfl, letters, stops⟩ := exists_stops isLetter line
      have kept : captured.value = Word.ofRun run :=
        congrArg Run.value (capture_append letters stops)
      rw [kept] at ordinary
      exact ⟨run, rest, .word letters stops (mt Word.isModifier_ofRun_iff.mpr ordinary)⟩
  | case1 line captured modifier skipped ih =>
      obtain ⟨run, others, rfl, letters, ends⟩ := exists_stops isLetter line
      obtain ⟨gap, later, rfl, blank, starts⟩ := exists_gap others
      have taken : captured = ⟨Word.ofRun run, List.replicate run.length .skip, [], gap ++ later⟩ :=
        capture_append letters ends
      have left : skipped.rest = later := by
        change (skipWhile isBlank isBlank_nul captured.rest).rest = later
        rw [taken]
        exact congrArg Run.rest (skipWhile_append blank starts)
      rw [taken] at modifier
      rw [left] at ih
      obtain ⟨word, rest, more⟩ := ih
      have known : String.ofList run ∈ modifiers := Word.isModifier_ofRun_iff.mp modifier
      have leads := LeadsTo.modifier known ends blank starts more
      rw [String.toList_ofList] at leads
      exact ⟨word, rest, leads⟩

/-- The word is a whole run of letters. -/
theorem LeadsTo.whole {word rest line : Text} (leads : LeadsTo word rest line) :
    (∀ c ∈ word, isLetter c = true) ∧ Stops isLetter rest := by
  induction leads with
  | word letters ends _ => exact ⟨letters, ends⟩
  | modifier _ _ _ _ _ ih => exact ih

/-- What a line leads to is captured past the modifiers. -/
theorem LeadsTo.afterModifiers_eq {word rest line : Text} (leads : LeadsTo word rest line) :
    ∃ passed, line = passed ++ (word ++ rest) ∧ (word ≠ [] → ModifierRun passed) ∧
      afterModifiers line
        = ⟨Word.ofRun word, List.replicate (passed ++ word).length .skip, [], rest⟩ := by
  induction leads with
  | word letters ends ordinary =>
      have captured := capture_append letters ends
      have none : ¬(capture (word ++ rest)).value.isModifier = true := by
        rw [captured]
        exact mt Word.isModifier_ofRun_iff.mp ordinary
      refine ⟨[], rfl, fun _ => .nil, ?_⟩
      rw [afterModifiers, if_neg none]
      exact captured
  | @modifier spelling gap line known ends blank starts more ih =>
      obtain ⟨passed, rfl, modified, onward⟩ := ih
      have captured := capture_append (isLetter_of_mem_modifier known) ends
      have modifier : (Word.ofRun spelling.toList).isModifier = true := by
        rw [Word.isModifier_ofRun_iff, String.ofList_toList]
        exact known
      have skipped : skipWhile isBlank isBlank_nul (gap ++ (passed ++ (word ++ rest)))
          = ⟨(), List.replicate gap.length .skip, [], passed ++ (word ++ rest)⟩ :=
        skipWhile_append blank starts
      refine ⟨spelling.toList ++ (gap ++ passed), by simp, fun captures => ?_, ?_⟩
      · -- Without a blank the modifier would go on with the letters that follow it.
        have parted : gap ≠ [] := by
          rintro rfl
          have letter := (modified captures).isLetter_headD
            (isLetter_headD_append more.whole.1 captures rest)
          have refused : isLetter ((passed ++ (word ++ rest)).headD '\x00') = false :=
            ends.headD isLetter_nul
          rw [letter] at refused
          cases refused
        exact .cons known blank parted (modified captures)
      · have moves : List.replicate (spelling.toList ++ (gap ++ passed) ++ word).length Move.skip
            = List.replicate spelling.toList.length .skip ++ List.replicate gap.length .skip
              ++ List.replicate (passed ++ word).length .skip := by
          simp [Nat.add_assoc]
        rw [afterModifiers, moves]
        simp only [captured, modifier, if_true, skipped, onward]
        rfl

/-- What is passed over before a word, and the word itself. -/
theorem exists_afterModifiers (text : Text) :
    ∃ passed run rest, text = passed ++ (run ++ rest) ∧ (∀ c ∈ run, isLetter c = true) ∧
      Stops isLetter rest ∧ (run ≠ [] → ModifierRun passed) ∧
      afterModifiers text
        = ⟨Word.ofRun run, List.replicate (passed ++ run).length .skip, [], rest⟩ := by
  obtain ⟨word, rest, leads⟩ := exists_leadsTo text
  obtain ⟨passed, split, modified, captured⟩ := leads.afterModifiers_eq
  exact ⟨passed, word, rest, split, leads.whole.1, leads.whole.2, modified, captured⟩

/-- Past modifiers a line leads to what it leads to without them. -/
theorem LeadsTo.after_modifierRun {passed line word rest : Text} (modified : ModifierRun passed)
    (letter : isLetter (line.headD '\x00') = true) (leads : LeadsTo word rest line) :
    LeadsTo word rest (passed ++ line) := by
  induction modified with
  | nil => exact leads
  | @cons word gap others known blank parted more ih =>
      have ends : Stops isLetter (gap ++ (others ++ line)) := by
        obtain ⟨c, gap, rfl⟩ := List.exists_cons_of_ne_nil parted
        exact .cons (isLetter_of_isBlank (blank c List.mem_cons_self))
      have starts : Stops isBlank (others ++ line) :=
        .of_headD (isBlank_of_isLetter (more.isLetter_headD letter))
      rw [List.append_assoc, List.append_assoc]
      exact .modifier known ends blank starts ih

/-- Past modifiers the word that stands there is captured, if it is no modifier itself. -/
theorem afterModifiers_append {passed run rest : Text} (modified : ModifierRun passed)
    (letters : ∀ c ∈ run, isLetter c = true) (nonempty : run ≠ []) (stops : Stops isLetter rest)
    (ordinary : String.ofList run ∉ modifiers) :
    ∃ moves, afterModifiers (passed ++ (run ++ rest)) = ⟨Word.ofRun run, moves, [], rest⟩ := by
  have letter := isLetter_headD_append letters nonempty rest
  have leads := LeadsTo.after_modifierRun modified letter (.word letters stops ordinary)
  obtain ⟨_, _, _, captured⟩ := leads.afterModifiers_eq
  exact ⟨_, captured⟩

/-- What is asked about a captured word. -/
def judge (kinds : KindSet) (word : Word) : Scan Bool :=
  match word.contextWord? with
  | some contextWord => do
      let inserts ← contextWordStarts kinds contextWord
      report contextWord inserts
      pure inserts
  | none => do
      note (.noContextWord word.isEmpty)
      pure true

theorem starts_eq_judge (kinds : KindSet) {line rest : Text} {word : Word} {moves : List Move}
    (captured : afterModifiers line = ⟨word, moves, [], rest⟩) :
    starts kinds line = (judge kinds word rest).precededBy moves :=
  bind_silent captured

end LeadingWord

namespace Continuation

/-- The characters other than letters that decide about a line. -/
def signs : Text := continuing ++ ['+', '-', '!', '?', ';']

/-- A line that starts with no sign is judged by its first word, if it has one. -/
theorem firstToken_of_notMem (kinds : KindSet) {line : Text} (other : line.headD '\x00' ∉ signs) :
    firstToken kinds line = (if isLetter (line.headD '\x00') then
      (do return insertIf (← LeadingWord.starts kinds)) else pure .insert : Scan Decision) line := by
  have differs {c : Char} (sign : c ∈ signs) : (line.headD '\x00' == c) = false := by
    rw [beq_eq_false_iff_ne]
    rintro rfl
    exact other sign
  have continues : continuing.contains (line.headD '\x00') = false := by
    rw [List.contains_eq_any_beq, List.any_eq_false]
    intro c listed
    rw [differs (List.mem_append_left _ listed)]
    exact Bool.false_ne_true
  simp only [firstToken, bind_apply, peek, continues, differs (c := '+') (by decide),
    differs (c := '-') (by decide), differs (c := '!') (by decide), differs (c := '?') (by decide),
    differs (c := ';') (by decide), Bool.or_self, Bool.false_eq_true, if_false, List.nil_append]
  rfl

theorem firstToken_of_letter (kinds : KindSet) {line : Text}
    (letter : isLetter (line.headD '\x00') = true) :
    firstToken kinds line = (do return insertIf (← LeadingWord.starts kinds)) line := by
  have none : signs.any isLetter = false := by decide +kernel
  have other : line.headD '\x00' ∉ signs := fun sign => List.any_eq_false.mp none _ sign letter
  rw [firstToken_of_notMem kinds other, if_pos letter]

end Continuation

end ContextScan

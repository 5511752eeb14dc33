import ContextScan.Vocabulary

namespace ContextScan

/-! Words of the vocabulary, told from a run of letters.

Only a part of a long run is kept, but what is kept can only match when it is the whole run.  So a
run is a modifier, or a context word, exactly if it is spelled like one. -/

theorem ContextWord.spelling_mem (word : ContextWord) : word.spelling ∈ contextWords := by
  cases word <;> decide

theorem ContextWord.eq_of_spelling {left right : ContextWord}
    (same : left.spelling.toList = right.spelling.toList) : left = right := by
  have read := left.ofText?_spelling
  rw [same, right.ofText?_spelling] at read
  exact (Option.some.inj read).symm

namespace Word

/-- A run that may match is kept whole. -/
theorem letters_of_foldl_push {run : Text} {word : Word}
    (kept : (run.foldl push word).matchable = true) :
    word.matchable = true ∧ (run.foldl push word).letters = word.letters ++ run := by
  induction run generalizing word with
  | nil => exact ⟨kept, (List.append_nil _).symm⟩
  | cons letter run ih =>
      obtain ⟨keptHere, letters⟩ := ih kept
      rw [List.foldl_cons, letters]
      rw [push] at keptHere ⊢
      split at keptHere
      · rename_i fits
        rw [if_pos fits]
        simp only [Bool.and_eq_true] at fits
        exact ⟨fits.1.1, by simp⟩
      · cases keptHere

theorem eq_of_text?_ofRun {run text : Text} (kept : (ofRun run).text? = some text) :
    text = run := by
  rw [text?] at kept
  split at kept
  · rename_i matchable
    cases kept
    exact (letters_of_foldl_push matchable).2
  · cases kept

theorem contextWord?_ofRun_iff {run : Text} {word : ContextWord} :
    (ofRun run).contextWord? = some word ↔ run = word.spelling.toList := by
  constructor
  · intro found
    obtain ⟨text, kept, matched⟩ := Option.bind_eq_some_iff.mp found
    have spelled : word.spelling = String.ofList text := by
      rw [ContextWord.ofText?] at matched
      have named := List.find?_some matched
      exact eq_of_beq named
    rw [spelled, String.toList_ofList]
    exact (eq_of_text?_ofRun kept).symm
  · rintro rfl
    cases word <;> decide +kernel

theorem isModifier_ofRun_iff {run : Text} :
    (ofRun run).isModifier = true ↔ String.ofList run ∈ modifiers := by
  constructor
  · intro matched
    obtain ⟨text, kept, known⟩ := (Option.any_eq_true ..).mp matched
    rw [← eq_of_text?_ofRun kept]
    exact List.contains_iff_mem.mp known
  · have each : ∀ word ∈ modifiers, (ofRun word.toList).isModifier = true := by decide +kernel
    intro known
    have matched := each _ known
    rwa [String.toList_ofList] at matched

end Word

end ContextScan

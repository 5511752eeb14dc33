import ContextScan.Proofs.Comment.Nesting
import ContextScan.Proofs.Statement.Gap

namespace ContextScan

/-! The texts of the tokens.

Outside raw strings the text of a token is given by its kind: a comment is a whole comment, safe
navigation may have a gap in it, and each other kind is one word or sign.  A resolver that comes to
a token has taken such a text, from where it started, and marked its end. -/

open Scan

/-- Whether a text is that of a token of a kind.  The content of a raw string is not told by its
text, and the kinds that are only requested have none. -/
def TokenKind.Spells : TokenKind → Text → Prop
  | .semi, text | .memberSemi, text => text = [';']
  | .blockComment, text => Comment.IsComment text
  | .notIs, text => text = "!is".toList
  | .membership, text => text = "in".toList
  | .safeNav, text => ∃ gap, IsGap gap ∧ text = '?' :: (gap ++ ['.'])
  | .stringContent, _ | .constructor, _ | .getter, _ | .setter, _ | .dollar, _ => False

/-- The characters that a token can start with. -/
def TokenKind.initials : Text := [';', '/', '!', 'i', '?']

theorem TokenKind.Spells.exists_initial {kind : TokenKind} {lexeme : Text}
    (spells : kind.Spells lexeme) : ∃ c rest, lexeme = c :: rest ∧ c ∈ initials := by
  cases kind with
  | semi | memberSemi => exact ⟨';', [], spells, by decide⟩
  | blockComment =>
      obtain ⟨inside, rfl, _⟩ := spells
      exact ⟨'/', '*' :: inside, rfl, by decide⟩
  | notIs => exact ⟨'!', "is".toList, spells, by decide⟩
  | membership => exact ⟨'i', "n".toList, spells, by decide⟩
  | safeNav =>
      obtain ⟨gap, _, rfl⟩ := spells
      exact ⟨'?', gap ++ ['.'], rfl, by decide⟩
  | stringContent | constructor | getter | setter | dollar => exact spells.elim

theorem TokenKind.Spells.ne_nil {kind : TokenKind} {lexeme : Text}
    (spells : kind.Spells lexeme) : lexeme ≠ [] := by
  obtain ⟨c, rest, rfl, _⟩ := spells.exists_initial
  exact List.cons_ne_nil c rest

theorem TokenKind.isBlank_initial {c : Char} (initial : c ∈ initials) : isBlank c = false := by
  simp only [initials, List.mem_cons, List.not_mem_nil, or_false] at initial
  rcases initial with rfl | rfl | rfl | rfl | rfl <;> rfl

/-- Whether a run takes a token that the text starts with. -/
def Run.Takes (run : Run (Option TokenKind)) (text : Text) (kind : TokenKind) : Prop :=
  ∃ lexeme rest, text = lexeme ++ rest ∧ kind.Spells lexeme ∧ run.value = some kind ∧
    run.moves = (taking kind lexeme rest).moves

namespace Run.Takes

variable {run : Run (Option TokenKind)} {text : Text} {kind : TokenKind}

theorem marked (takes : run.Takes text kind) : .markEnd ∈ run.moves := by
  obtain ⟨lexeme, rest, _, _, _, moves⟩ := takes
  simp [moves, taking]

/-- What is taken is the whole reading. -/
theorem reading? (takes : run.Takes text kind) :
    ∃ lexeme, run.reading? text = some ⟨kind, [], lexeme⟩ ∧ kind.Spells lexeme := by
  obtain ⟨lexeme, rest, rfl, spells, value, moves⟩ := takes
  refine ⟨lexeme, ?_, spells⟩
  rw [reading?_congr value moves]
  exact reading?_taking kind lexeme rest

end Run.Takes

theorem Scan.advanceWord_append (word rest : Text) :
    advanceWord word (word ++ rest)
      = ⟨true, List.replicate word.length .advance, [], rest⟩ := by
  induction word with
  | nil => rfl
  | cons letter word ih =>
      have next : peek (letter :: (word ++ rest))
          = ⟨letter, [], [], letter :: (word ++ rest)⟩ := rfl
      rw [advanceWord, List.cons_append, bind_silent next]
      simp [advance, ih, List.replicate_succ, Run.precededBy]

/-- A word that was read is there.  The end of the text reads like a NUL, so a word may have
none. -/
theorem Scan.prefix_of_advanceWord {word text : Text} (visible : '\x00' ∉ word)
    (read : (advanceWord word text).value = true) : word <+: text := by
  induction word generalizing text with
  | nil => exact List.nil_prefix
  | cons letter word ih =>
      rw [List.mem_cons, not_or] at visible
      simp only [advanceWord, bind_apply] at read
      split at read
      · rename_i same
        have head := head?_of_headD_beq same (Ne.symm visible.1)
        obtain ⟨rest, rfl⟩ := List.head?_eq_some_iff.mp head
        exact List.cons_prefix_cons.mpr ⟨rfl, ih visible.2 read⟩
      · cases read

namespace SoftOperator

/-- A word that stands there is taken, but it is a token only if it does not go on. -/
theorem wholeWord_append (word : String) (kind : TokenKind) (rest : Text) :
    wholeWord word kind (word.toList ++ rest)
      = ⟨if isAlphanumeric (rest.headD '\x00') then none else some kind,
          List.replicate word.toList.length .advance ++ [.markEnd], [], rest⟩ := by
  rw [wholeWord, bind_silent (advanceWord_append word.toList rest)]
  rfl

theorem prefix_of_wholeWord {word : String} {kind produced : TokenKind} {text : Text}
    (visible : '\x00' ∉ word.toList) (found : (wholeWord word kind text).value = some produced) :
    word.toList <+: text := by
  apply prefix_of_advanceWord visible
  cases read : (advanceWord word.toList text).value with
  | true => rfl
  | false => simp [wholeWord, read] at found

theorem takes_wholeWord {word : String} {kind produced : TokenKind} {text : Text}
    (visible : '\x00' ∉ word.toList) (spells : kind.Spells word.toList)
    (found : (wholeWord word kind text).value = some produced) :
    (wholeWord word kind text).Takes text produced := by
  obtain ⟨rest, rfl⟩ := prefix_of_wholeWord visible found
  have same := (producesOnly_wholeWord word kind _ produced found).1
  subst same
  refine ⟨word.toList, rest, rfl, spells, found, ?_⟩
  rw [wholeWord_append]
  rfl

theorem takes_notIs {text : Text} {kind : TokenKind} (found : (notIs text).value = some kind) :
    (notIs text).Takes text kind :=
  takes_wholeWord (by decide) rfl found

theorem takes_membership {text : Text} {kind : TokenKind}
    (found : (membership text).value = some kind) : (membership text).Takes text kind :=
  takes_wholeWord (by decide) rfl found

theorem safeNav_append {gap : Text} (blank : IsGap gap) (rest : Text) :
    safeNav ('?' :: (gap ++ '.' :: rest))
      = Run.taking .safeNav ('?' :: (gap ++ ['.'])) rest := by
  have start : Stops isBlank ('?' :: (gap ++ '.' :: rest)) := .cons rfl
  have dot : Stops isBlank ('.' :: rest) := .cons rfl
  have taken : List.replicate (gap.length + 1 + 1) Move.advance
      = .advance :: (List.replicate gap.length .advance ++ [.advance]) := by
    rw [List.replicate_succ, List.replicate_succ']
  rw [safeNav, bind_silent (skipWhile_of_stops start)]
  simp [peek, advance, markEnd, advanceWhile_append blank dot, Run.taking, Run.precededBy,
    taken]

theorem takes_safeNav {text : Text} {kind : TokenKind} (stops : Stops isBlank text)
    (found : (safeNav text).value = some kind) : (safeNav text).Takes text kind := by
  have same := (producesOnly_safeNav text kind found).1
  subst same
  have start : skipWhile isBlank isBlank_nul text = ⟨(), [], [], text⟩ := skipWhile_of_stops stops
  cases text with
  | nil =>
      rw [safeNav, bind_silent start] at found
      cases found
  | cons c text =>
      by_cases question : c = '?'
      · subst question
        obtain ⟨gap, rest, rfl, blank, ends⟩ := exists_gap text
        by_cases dot : rest.head? = some '.'
        · obtain ⟨later, rfl⟩ := List.head?_eq_some_iff.mp dot
          rw [safeNav_append blank]
          exact ⟨'?' :: (gap ++ ['.']), later, by simp, ⟨gap, blank, rfl⟩, rfl, rfl⟩
        · have other : rest.headD '\x00' ≠ '.' := fun same =>
            dot (head?_of_headD_beq (beq_iff_eq.mpr same) (by decide))
          rw [safeNav, bind_silent start] at found
          simp [peek, advance, advanceWhile_append blank ends, other, Run.precededBy,
            -List.headD_eq_head?_getD] at found
      · rw [safeNav, bind_silent start] at found
        simp [peek, question, Run.precededBy] at found

end SoftOperator

theorem Comment.takes_scan {text : Text} {kind : TokenKind}
    (found : (scan text).value = some kind) : (scan text).Takes text kind := by
  obtain ⟨comment, rest, rfl, closed⟩ := isComment_of_scan found
  rw [scan_append closed] at found ⊢
  cases found
  exact ⟨comment, rest, rfl, closed, rfl, rfl⟩

end ContextScan

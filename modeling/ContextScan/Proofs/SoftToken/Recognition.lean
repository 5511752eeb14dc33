import ContextScan.Proofs.Token.Forms

namespace ContextScan

/-! Soft tokens and the resolvers that find them.

A soft token is one that is neither a terminator nor the content of a raw string: `!is`, `in`, `?.`
or a comment.  The resolver of each kind finds the token exactly where one stands.  The tokens of
different kinds start with different characters, so a text starts with at most one. -/

open Scan

/-- Whether a text is the token of a kind where a rest follows it.  Only the two words depend on
the rest: they must not go on in it. -/
inductive SoftToken : TokenKind → Text → Text → Prop where
  | notIs {rest : Text} (ends : Stops isAlphanumeric rest) : SoftToken .notIs "!is".toList rest
  | membership {rest : Text} (ends : Stops isAlphanumeric rest) :
      SoftToken .membership "in".toList rest
  | safeNav {gap : Text} (blank : IsGap gap) (rest : Text) :
      SoftToken .safeNav ('?' :: (gap ++ ['.'])) rest
  | blockComment {comment : Text} (closed : Comment.IsComment comment) (rest : Text) :
      SoftToken .blockComment comment rest

/-- The character that the soft tokens of a kind start with. -/
def TokenKind.softInitial? : TokenKind → Option Char
  | notIs => some '!'
  | membership => some 'i'
  | safeNav => some '?'
  | blockComment => some '/'
  | semi | memberSemi | stringContent | constructor | getter | setter | dollar => none

theorem TokenKind.softInitial?_inj {left right : TokenKind} {c : Char}
    (first : left.softInitial? = some c) (second : right.softInitial? = some c) : left = right := by
  cases left <;> cases right <;>
    first | rfl | cases first <;> exact absurd second (by decide)

namespace SoftToken

variable {kind : TokenKind} {lexeme rest : Text}

theorem spells (token : SoftToken kind lexeme rest) : kind.Spells lexeme := by
  cases token with
  | notIs | membership => rfl
  | safeNav blank => exact ⟨_, blank, rfl⟩
  | blockComment closed => exact closed

theorem exists_initial (token : SoftToken kind lexeme rest) :
    ∃ c more, lexeme = c :: more ∧ kind.softInitial? = some c := by
  cases token with
  | notIs => exact ⟨'!', "is".toList, rfl, rfl⟩
  | membership => exact ⟨'i', "n".toList, rfl, rfl⟩
  | @safeNav gap => exact ⟨'?', gap ++ ['.'], rfl, rfl⟩
  | blockComment closed =>
      obtain ⟨inside, rfl, _⟩ := closed
      exact ⟨'/', '*' :: inside, rfl, rfl⟩

theorem kind_eq (token : SoftToken kind lexeme rest) :
    kind = .notIs ∨ kind = .membership ∨ kind = .safeNav ∨ kind = .blockComment := by
  cases token <;> simp

theorem stops (token : SoftToken kind lexeme rest) : Stops isBlank (lexeme ++ rest) := by
  obtain ⟨c, more, rfl, initial⟩ := token.spells.exists_initial
  exact .cons (TokenKind.isBlank_initial initial)

end SoftToken

/-- Whether a reading takes a gap as trivia and then the soft token that a text starts with. -/
def Reading.SoftAfter (gap text : Text) (reading : Reading) : Prop :=
  reading.trivia = gap ∧
    ∃ rest, text = reading.lexeme ++ rest ∧ SoftToken reading.kind reading.lexeme rest

/-- A text that a soft token starts has the character of its kind next. -/
theorem Reading.SoftAfter.head? {gap text : Text} {reading : Reading}
    (soft : reading.SoftAfter gap text) : text.head? = reading.kind.softInitial? := by
  obtain ⟨_, rest, rfl, token⟩ := soft
  obtain ⟨c, more, spelled, initial⟩ := token.exists_initial
  rw [spelled, initial]
  rfl

theorem Reading.SoftAfter.kind_eq {gap text : Text} {reading : Reading} {kind : TokenKind}
    {c : Char} (soft : reading.SoftAfter gap text) (next : text.head? = some c)
    (initial : kind.softInitial? = some c) : reading.kind = kind :=
  TokenKind.softInitial?_inj (soft.head?.symm.trans next) initial

theorem Reading.softAfter_iff {gap text : Text} {reading : Reading} :
    reading.SoftAfter gap text ↔
      ∃ bare : Reading, bare.SoftAfter [] text ∧ bare.after gap = reading := by
  constructor
  · rintro ⟨rfl, standing⟩
    refine ⟨{ reading with trivia := [] }, ⟨rfl, standing⟩, ?_⟩
    simp only [after, List.append_nil]
  · rintro ⟨bare, ⟨nothing, standing⟩, rfl⟩
    refine ⟨?_, standing⟩
    simp only [after, nothing, List.append_nil]

/-- Whether a resolver reads the soft token of a kind that a text starts with, and nothing else. -/
def Scan.Recognizes (resolver : Scan (Option TokenKind)) (kind : TokenKind) (text : Text) : Prop :=
  ∀ reading, (resolver text).reading? text = some reading ↔
    reading.kind = kind ∧ reading.SoftAfter [] text

/-- A resolver that takes the tokens that stand there, and finds no others. -/
theorem Scan.Recognizes.of_takes {resolver : Scan (Option TokenKind)} {kind : TokenKind}
    {text : Text}
    (complete : ∀ lexeme rest, text = lexeme ++ rest → SoftToken kind lexeme rest →
      (resolver text).value = some kind ∧
        (resolver text).moves = (Run.taking kind lexeme rest).moves)
    (sound : ∀ found, (resolver text).value = some found →
      ∃ lexeme rest, text = lexeme ++ rest ∧ SoftToken kind lexeme rest) :
    resolver.Recognizes kind text := by
  have read {lexeme rest : Text} (split : text = lexeme ++ rest)
      (token : SoftToken kind lexeme rest) :
      (resolver text).reading? text = some ⟨kind, [], lexeme⟩ := by
    obtain ⟨value, moves⟩ := complete lexeme rest split token
    rw [Run.reading?_congr value moves, split, Run.reading?_taking]
  intro reading
  constructor
  · intro found
    obtain ⟨produced, value, _⟩ := Option.map_eq_some_iff.mp found
    obtain ⟨lexeme, rest, split, token⟩ := sound produced value
    rw [read split token] at found
    cases found
    exact ⟨rfl, rfl, rest, split, token⟩
  · rintro ⟨rfl, nothing, rest, split, token⟩
    rw [read split token, ← nothing]

namespace SoftOperator

theorem recognizes_wholeWord {word : String} {kind : TokenKind} (visible : '\x00' ∉ word.toList)
    (token_iff : ∀ lexeme rest, SoftToken kind lexeme rest ↔
      lexeme = word.toList ∧ Stops isAlphanumeric rest) (text : Text) :
    (wholeWord word kind).Recognizes kind text := by
  apply Recognizes.of_takes
  · intro lexeme rest split token
    obtain ⟨rfl, ends⟩ := (token_iff lexeme rest).mp token
    have next : isAlphanumeric (rest.headD '\x00') = false := ends.headD isAlphanumeric_nul
    rw [split, wholeWord_append, next]
    exact ⟨rfl, rfl⟩
  · intro found value
    obtain ⟨rest, rfl⟩ := prefix_of_wholeWord visible value
    have ends : Stops isAlphanumeric rest := by
      apply Stops.of_headD
      cases next : isAlphanumeric (rest.headD '\x00') with
      | false => rfl
      | true =>
          rw [wholeWord_append, next] at value
          cases value
    exact ⟨word.toList, rest, rfl, (token_iff _ _).mpr ⟨rfl, ends⟩⟩

theorem recognizes_notIs (text : Text) : notIs.Recognizes .notIs text := by
  apply recognizes_wholeWord (by decide)
  intro lexeme rest
  constructor
  · intro token
    cases token with
    | notIs ends => exact ⟨rfl, ends⟩
  · rintro ⟨rfl, ends⟩
    exact .notIs ends

theorem recognizes_membership (text : Text) : membership.Recognizes .membership text := by
  apply recognizes_wholeWord (by decide)
  intro lexeme rest
  constructor
  · intro token
    cases token with
    | membership ends => exact ⟨rfl, ends⟩
  · rintro ⟨rfl, ends⟩
    exact .membership ends

theorem recognizes_safeNav {text : Text} (stops : Stops isBlank text) :
    safeNav.Recognizes .safeNav text := by
  apply Recognizes.of_takes
  · intro lexeme rest split token
    cases token with
    | @safeNav gap blank =>
        have taken := safeNav_append blank rest
        rw [split, List.cons_append, List.append_assoc, List.singleton_append, taken]
        exact ⟨rfl, rfl⟩
  · intro found value
    have only := (producesOnly_safeNav text found value).1
    obtain ⟨lexeme, rest, split, spells, _⟩ := takes_safeNav stops value
    subst only
    obtain ⟨gap, blank, rfl⟩ := spells
    exact ⟨_, rest, split, .safeNav blank rest⟩

end SoftOperator

theorem Comment.recognizes_scan (text : Text) : Comment.scan.Recognizes .blockComment text := by
  apply Recognizes.of_takes
  · intro lexeme rest split token
    cases token with
    | blockComment closed =>
        rw [split, scan_append closed]
        exact ⟨rfl, rfl⟩
  · intro found value
    obtain ⟨comment, rest, split, closed⟩ := isComment_of_scan value
    exact ⟨comment, rest, split, .blockComment closed rest⟩

end ContextScan

import ContextScan.Proofs.LineEnds.Resolvers
import ContextScan.Proofs.Token.Reading

namespace ContextScan

/-! Tokens of a text with and without its carriage returns.

Alike runs divide the two texts in the same way, so the token of the one text is the token of the
other, at the places that are left of its ranges. -/

def Reading.withoutReturns (reading : Reading) : Reading :=
  ⟨reading.kind, ContextScan.withoutReturns reading.trivia,
    ContextScan.withoutReturns reading.lexeme⟩

namespace Remainders

variable {text : Text} {left : Remainders}

theorem Of.withoutReturns (places : left.Of text) :
    left.withoutReturns.Of (ContextScan.withoutReturns text) := by
  refine ⟨places.rest.filter _, places.tokenRest.filter _, ?_⟩
  intro rest marked
  obtain ⟨whole, mark, rfl⟩ := Option.map_eq_some_iff.mp marked
  exact (places.markRest whole mark).filter _

theorem stopRest_withoutReturns (left : Remainders) :
    left.withoutReturns.stopRest = ContextScan.withoutReturns left.stopRest := by
  rw [stopRest, stopRest, withoutReturns]
  cases left.markRest? <;> rfl

/-- Where only carriage returns stand between the two places, both rules give one start. -/
theorem Of.startRest_withoutReturns (places : left.Of text) :
    left.withoutReturns.startRest = ContextScan.withoutReturns left.startRest := by
  have stop := stopRest_withoutReturns left
  have token : left.withoutReturns.tokenRest = ContextScan.withoutReturns left.tokenRest := rfl
  rw [startRest, startRest, stop, token]
  by_cases late : left.tokenRest.length < left.stopRest.length
  · obtain ⟨between, split⟩ := List.suffix_of_suffix_length_le places.tokenRest
      places.stopRest_suffix (Nat.le_of_lt late)
    rw [if_pos late, ← split, withoutReturns_append]
    split
    · rfl
    · rename_i empty
      have nothing : ContextScan.withoutReturns between = [] := by
        apply List.eq_nil_of_length_eq_zero
        rw [List.length_append] at empty
        omega
      simp [nothing]
  · have shorter := (List.suffix_of_suffix_length_le places.stopRest_suffix places.tokenRest
      (Nat.not_lt.mp late)).filter (· != '\r')
    have early := Nat.not_lt.mpr shorter.length_le
    rw [if_neg late]
    apply if_neg
    exact early

theorem Of.reading_withoutReturns (places : left.Of text) (kind : TokenKind) :
    left.withoutReturns.reading (ContextScan.withoutReturns text) kind
      = (left.reading text kind).withoutReturns := by
  have plain := places.withoutReturns
  have start := places.startRest_withoutReturns
  have stop := stopRest_withoutReturns left
  have trivia : (left.withoutReturns.reading (ContextScan.withoutReturns text) kind).trivia
      = ContextScan.withoutReturns (left.reading text kind).trivia := by
    have whole := congrArg ContextScan.withoutReturns (places.trivia_append kind)
    rw [withoutReturns_append, ← plain.trivia_append kind, start] at whole
    exact (List.append_cancel_right whole).symm
  have lexeme : (left.withoutReturns.reading (ContextScan.withoutReturns text) kind).lexeme
      = ContextScan.withoutReturns (left.reading text kind).lexeme := by
    have own := congrArg ContextScan.withoutReturns (places.lexeme_append kind)
    rw [withoutReturns_append, ← start, ← plain.lexeme_append kind, stop] at own
    exact (List.append_cancel_right own).symm
  rw [Reading.withoutReturns, ← trivia, ← lexeme]
  rfl

end Remainders

variable {text : Text} {kinds : KindSet}

theorem Request.reading?_withoutReturns (kinds : KindSet) (paired : Paired text) :
    reading? kinds (withoutReturns text) = (reading? kinds text).map Reading.withoutReturns := by
  have alike := alike_token kinds paired
  have places := (Remainders.Of.ofText text).moveAll (token_moves_ascii kinds text)
  have moved := alike.places (Remainders.ofText text) rfl
  rw [reading?, Run.reading?, reading?, Run.reading?, alike.value, Option.map_map]
  refine congrArg (Option.map · (token kinds text).value) (funext fun kind => ?_)
  refine (congrArg (Remainders.reading (withoutReturns text) · kind) moved).trans ?_
  exact places.reading_withoutReturns kind

/-- The token that is left of a token when the carriage returns of its text are taken out. -/
def Token.withoutReturns (text : Text) (token : Token) : Token :=
  let place := placeWithoutReturns text
  ⟨token.kind, ⟨⟨place token.span.consumed.start, place token.span.consumed.stop⟩,
    ⟨place token.span.token.start, place token.span.token.stop⟩⟩⟩

/-- The places of a token are the sizes of the texts before them, in either text. -/
theorem token_withoutReturns (front rest : Text) (reading : Reading) :
    reading.withoutReturns.token (byteSize (withoutReturns front))
      = (reading.token (byteSize front)).withoutReturns
          (front ++ (reading.trivia ++ (reading.lexeme ++ rest))) := by
  have begins := placeWithoutReturns_byteSize front (reading.trivia ++ (reading.lexeme ++ rest))
  have starts := placeWithoutReturns_byteSize (front ++ reading.trivia) (reading.lexeme ++ rest)
  have stops := placeWithoutReturns_byteSize (front ++ reading.trivia ++ reading.lexeme) rest
  simp only [List.append_assoc, byteSize_append, withoutReturns_append, ← Nat.add_assoc]
    at starts stops
  simp [Reading.token, Token.withoutReturns, Reading.withoutReturns, begins, starts, stops]

/-- A text whose carriage returns are all paired scans like the text without them. -/
theorem scan?_withoutReturns {text : Text} (pairs : PairsReturns text) {offset : Nat}
    (boundary : isBoundary text offset = true) (kinds : KindSet) :
    Token.scan? (withoutReturns text) (placeWithoutReturns text offset) kinds
      = (Token.scan? text offset kinds).map (Token.withoutReturns text) := by
  obtain ⟨front, here, rfl, rfl⟩ := isBoundary_iff.mp boundary
  have paired : Paired here := pairs.paired.of_append
  rw [placeWithoutReturns_byteSize, withoutReturns_append, Token.scan?_eq_reading?,
    Token.scan?_eq_reading?, Request.reading?_withoutReturns kinds paired, Option.map_map,
    Option.map_map]
  cases read : Request.reading? kinds here with
  | none => rfl
  | some reading =>
      obtain ⟨rest, rfl⟩ := Request.split_of_reading? read
      exact congrArg some (token_withoutReturns front rest reading)

/-- A `;` on the next line, with a carriage return and without it. -/
theorem scan?_withoutReturns_semicolon :
    let text := "é\r\n ;".toList
    let kinds := KindSet.ofList [.semi, .setter]
    PairsReturns text ∧ isBoundary text 2 = true ∧
      Token.scan? text 2 kinds = some ⟨.semi, ⟨⟨2, 6⟩, ⟨5, 6⟩⟩⟩ ∧
      Token.scan? "é\n ;".toList 2 kinds = some ⟨.semi, ⟨⟨2, 5⟩, ⟨4, 5⟩⟩⟩ := by
  intro text kinds
  have pairs : PairsReturns text :=
    (Paired.other (by decide) (.pair (.other (by decide) (.other (by decide) .nil)))).pairsReturns
  have boundary : isBoundary text 2 = true := by decide
  have produced : Token.scan? text 2 kinds = some ⟨.semi, ⟨⟨2, 6⟩, ⟨5, 6⟩⟩⟩ := by decide +kernel
  have plain := scan?_withoutReturns pairs boundary kinds
  rw [produced] at plain
  exact ⟨pairs, boundary, produced, plain⟩

end ContextScan

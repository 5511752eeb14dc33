import ContextScan.Proofs.Requested.Decision
import ContextScan.Proofs.Statement.Deferral

namespace ContextScan

/-! What a call owes to the requested kinds.

The content of a raw string keeps every other kind out, and an interpolation keeps comments out.
The kinds of the two terminators give a terminator its name; what is read is the same for both, but
that more lines end a statement where class members may follow. -/

open Scan Continuation

/-- The kind with the terminators taken for one. -/
def TokenKind.asSemi : TokenKind → TokenKind
  | .memberSemi => .semi
  | kind => kind

theorem TokenKind.asSemi_of_ne {kind : TokenKind} (other : kind ≠ .memberSemi) :
    kind.asSemi = kind := by
  cases kind with
  | memberSemi => exact absurd rfl other
  | _ => rfl

theorem TokenKind.asSemi_inj {left right : TokenKind} (leftOther : left ≠ .semi)
    (rightOther : right ≠ .semi) (same : left.asSemi = right.asSemi) : left = right := by
  cases left <;> cases right <;> simp_all [asSemi]

def Reading.asSemi (reading : Reading) : Reading := { reading with kind := reading.kind.asSemi }

def Token.asSemi (token : Token) : Token := { token with kind := token.kind.asSemi }

theorem Token.asSemi_inj {left right : Token} (leftOther : left.kind ≠ .semi)
    (rightOther : right.kind ≠ .semi) (same : left.asSemi = right.asSemi) : left = right := by
  obtain ⟨leftKind, leftSpan⟩ := left
  obtain ⟨rightKind, rightSpan⟩ := right
  obtain ⟨kinds, spans⟩ := Token.mk.inj same
  cases TokenKind.asSemi_inj leftOther rightOther kinds
  cases spans
  rfl

namespace KindSet

variable {left right : KindSet}

theorem has_insert_of_ne {kind inserted : TokenKind} (other : kind ≠ inserted) (kinds : KindSet) :
    (kinds.insert inserted).has kind = kinds.has kind := by
  rw [has_insert, beq_eq_false_iff_ne.mpr other, Bool.or_false]

theorem has_erase_of_ne {kind erased : TokenKind} (other : kind ≠ erased) (kinds : KindSet) :
    (kinds.erase erased).has kind = kinds.has kind := by
  rw [has_erase, bne_iff_ne.mpr other, Bool.and_true]

theorem agreeOn_insert {listed : List TokenKind} {inserted : TokenKind}
    (unlisted : inserted ∉ listed) (kinds : KindSet) :
    kinds.AgreeOn listed (kinds.insert inserted) :=
  fun _ member => (has_insert_of_ne (ne_of_mem_of_not_mem member unlisted) kinds).symm

theorem insert_comm (kinds : KindSet) (first second : TokenKind) :
    (kinds.insert first).insert second = (kinds.insert second).insert first :=
  ext_has fun kind => by rw [has_insert, has_insert, has_insert, has_insert, Bool.or_right_comm]

/-- Only the terminators themselves choose the kind of a terminator. -/
theorem terminator?_congr (agree : left.AgreeOn [.semi, .memberSemi] right) :
    left.terminator? = right.terminator? := by
  rw [terminator?, terminator?, agree .semi (by decide), agree .memberSemi (by decide)]

theorem not_has_of_terminator? {kinds : KindSet} (unrequested : kinds.terminator? = none) :
    kinds.has .semi = false ∧ kinds.has .memberSemi = false := by
  have chosen : kinds.terminator?.isSome = (kinds.has .semi || kinds.has .memberSemi) :=
    terminator?_isSome
  rw [unrequested] at chosen
  exact Bool.or_eq_false_iff.mp chosen.symm

end KindSet

namespace Request

variable {left right : KindSet} {text : Text}

theorem comment_congr (agree : left.AgreeOn [.dollar, .blockComment] right) :
    comment left = comment right := by
  rw [comment, comment, agree .dollar (by decide), agree .blockComment (by decide)]

theorem follow_congr (agree : left.AgreeOn KindSet.decisive right)
    (comments : comment left = comment right) (terminator : TokenKind) :
    follow left terminator = follow right terminator := by
  funext decided
  cases decided with
  | insert | suppress | safeNav => rfl
  | comment => exact comments
  | notIs => simp only [follow, agree .notIs (by decide)]

/-- Sets that agree on all that a request asks for are answered alike. -/
theorem token_congr (content : left.AgreeOn [.stringContent] right)
    (terminators : left.AgreeOn [.semi, .memberSemi] right)
    (agree : left.AgreeOn KindSet.decisive right) (comments : comment left = comment right) :
    token left = token right := by
  have decisions := decision_congr agree (terminators .memberSemi (by decide))
  simp only [token, statementEnd, plainToken, content .stringContent (by decide),
    KindSet.terminator?_congr terminators, decisions, comments, agree .notIs (by decide),
    agree .membership (by decide), agree .safeNav (by decide)]

/-- Inside a string, where an interpolation may follow, no comment is read. -/
theorem token_insert_dollar (kinds : KindSet) :
    token (kinds.insert .dollar) = token ((kinds.erase .blockComment).erase .dollar) := by
  have agree {others : List TokenKind} (noDollar : .dollar ∉ others)
      (noComment : .blockComment ∉ others) :
      (kinds.insert .dollar).AgreeOn others ((kinds.erase .blockComment).erase .dollar) := by
    intro kind member
    have notDollar : kind ≠ .dollar := ne_of_mem_of_not_mem member noDollar
    have notComment : kind ≠ .blockComment := ne_of_mem_of_not_mem member noComment
    rw [KindSet.has_insert_of_ne notDollar, KindSet.has_erase_of_ne notDollar,
      KindSet.has_erase_of_ne notComment]
  have comments : comment (kinds.insert .dollar)
      = comment ((kinds.erase .blockComment).erase .dollar) := by simp [comment]
  exact token_congr (agree (by decide) (by decide)) (agree (by decide) (by decide))
    (agree (by decide) (by decide)) comments

section Terminators

variable {kinds : KindSet} (outside : kinds.has .stringContent = false)

/-- What a decision is followed by differs only in the name of a terminator. -/
theorem follow_asSemi (kinds : KindSet) (decided : Decision) (text : Text) :
    (follow kinds .semi decided text).value
        = (follow kinds .memberSemi decided text).value.map TokenKind.asSemi ∧
      (follow kinds .semi decided text).moves = (follow kinds .memberSemi decided text).moves := by
  by_cases inserts : decided = .insert
  · subst inserts
    exact ⟨rfl, rfl⟩
  · have unnamed : follow kinds .semi decided = follow kinds .memberSemi decided := by
      cases decided with
      | insert => exact absurd rfl inserts
      | suppress | comment | safeNav | notIs => rfl
    rw [unnamed]
    refine ⟨?_, rfl⟩
    cases found : (follow kinds .memberSemi decided text).value with
    | none => rfl
    | some kind =>
        have other : kind ≠ .memberSemi := fun member =>
          inserts (insert_of_follow found (Or.inr member))
        exact congrArg some (TokenKind.asSemi_of_ne other).symm

theorem follow_insert {inserted : TokenKind} (unlisted : inserted ∉ KindSet.decisive)
    (noComment : inserted ∉ [.dollar, .blockComment]) (kinds : KindSet) (terminator : TokenKind) :
    follow (kinds.insert inserted) terminator = follow kinds terminator :=
  (follow_congr (KindSet.agreeOn_insert unlisted kinds)
    (comment_congr (KindSet.agreeOn_insert noComment kinds)) terminator).symm

include outside

/-- The terminator between class members is read like the other, which has a name of its own. -/
theorem reading?_insert_semi (member : kinds.terminator? = some .memberSemi) (text : Text) :
    reading? (kinds.insert .semi) text = (reading? kinds text).map Reading.asSemi := by
  have semi : (kinds.insert .semi).terminator? = some .semi := by simp [KindSet.terminator?]
  have semiOutside : (kinds.insert .semi).has .stringContent = false :=
    (KindSet.has_insert_of_ne (by decide) kinds).trans outside
  have decisions : decision (kinds.insert .semi) = decision kinds :=
    (decision_congr (KindSet.agreeOn_insert (by decide) kinds)
      (KindSet.has_insert_of_ne (by decide) kinds).symm).symm
  have follows : follow (kinds.insert .semi) .semi = follow kinds .semi :=
    follow_insert (by decide) (by decide) kinds .semi
  obtain ⟨value, moves⟩ :=
    follow_asSemi kinds (decision kinds text).value (decision kinds text).rest
  rw [reading?, reading?, token_eq_statementEnd outside member,
    token_eq_statementEnd semiOutside semi, statementEnd_apply, statementEnd_apply, decisions,
    follows, Run.reading?, Run.reading?, Option.map_map]
  simp only [Run.andThen, value, moves, Option.map_map]
  rfl

/-- Where class members may follow, a terminator is added at most before a `constructor`. -/
theorem reading?_insert_memberSemi (semi : kinds.terminator? = some .semi)
    (alone : kinds.has .memberSemi = false) (text : Text) :
    reading? kinds text = reading? (kinds.insert .memberSemi) text ∨
      reading? kinds text = none ∧
        reading? (kinds.insert .memberSemi) text = some (.nothing .semi) ∧
        ∃ line, BreaksBefore text line ∧
          FirstWord "constructor".toList (kinds.unannotated line) := by
  have agree : kinds.AgreeOn KindSet.decisive (kinds.insert .memberSemi) :=
    KindSet.agreeOn_insert (by decide) kinds
  have member : (kinds.insert .memberSemi).has .memberSemi = true := by simp
  have bothSemi : (kinds.insert .memberSemi).terminator? = some .semi := by
    have has : kinds.has .semi = true := (KindSet.terminator?_eq_some semi).1
    simp [KindSet.terminator?, has]
  have bothOutside : (kinds.insert .memberSemi).has .stringContent = false :=
    (KindSet.has_insert_of_ne (by decide) kinds).trans outside
  rcases decision_member agree alone member text with
    same | ⟨suppressed, inserted, line, breaks, first⟩
  · left
    rw [reading?, reading?, token_eq_statementEnd bothOutside bothSemi,
      token_eq_statementEnd outside semi, statementEnd_apply, statementEnd_apply, same,
      follow_insert (by decide) (by decide)]
  · obtain ⟨run, skips, decides, inserts, unmarked⟩ := inserted
    rw [← KindSet.unannotated_congr agree] at first
    exact Or.inr ⟨reading?_of_suppress outside semi suppressed,
      reading?_of_insert bothOutside bothSemi decides inserts unmarked, line, breaks, first⟩

end Terminators

end Request

namespace Token

variable {text : Text} {offset : Nat} {kinds left right : KindSet} {token : Token}

theorem scan?_congr (same : Request.token left = Request.token right) :
    scan? text offset left = scan? text offset right := by
  rw [scan?_eq, scan?_eq, Request.reading?, Request.reading?, same]

/-- A terminator has the kind that the requested kinds choose for it. -/
theorem eq_of_scan? {chosen : TokenKind} (requested : kinds.terminator? = some chosen)
    (produced : scan? text offset kinds = some token)
    (ends : token.kind = .semi ∨ token.kind = .memberSemi) : token.kind = chosen := by
  obtain ⟨_, reading, _, _, _, rfl, read⟩ := split_of_scan? produced
  obtain ⟨kind, found, same⟩ := Option.map_eq_some_iff.mp read
  have named : kind = reading.kind := congrArg Reading.kind same
  rw [named] at found
  have grants := (Request.grants_of_token found).1.decided ends
  exact Option.some.inj (grants.1.symm.trans requested)

theorem scan?_insert_semi (outside : kinds.has .stringContent = false)
    (member : kinds.terminator? = some .memberSemi) :
    scan? text offset (kinds.insert .semi) = (scan? text offset kinds).map asSemi := by
  rw [scan?_eq, scan?_eq, Request.reading?_insert_semi outside member]
  split
  · rw [Option.map_map, Option.map_map]
    rfl
  · rfl

theorem scan?_insert_memberSemi (outside : kinds.has .stringContent = false)
    (semi : kinds.terminator? = some .semi) (alone : kinds.has .memberSemi = false) :
    scan? text offset kinds = scan? text offset (kinds.insert .memberSemi) ∨
      scan? text offset kinds = none ∧
        scan? text offset (kinds.insert .memberSemi)
          = some ⟨.semi, ⟨⟨offset, offset⟩, ⟨offset, offset⟩⟩⟩ ∧
        ∃ line, BreaksBefore (dropBytes text offset) line ∧
          FirstWord "constructor".toList (kinds.unannotated line) := by
  rw [scan?_eq, scan?_eq]
  split
  · rcases Request.reading?_insert_memberSemi outside semi alone (dropBytes text offset) with
      same | ⟨nothing, added, line⟩
    · left
      rw [same]
    · right
      rw [nothing, added]
      exact ⟨rfl, rfl, line⟩
  · exact Or.inl rfl

section Both

variable (outside : kinds.has .stringContent = false) (unrequested : kinds.terminator? = none)

include unrequested

theorem terminator?_insert_memberSemi :
    (kinds.insert .memberSemi).terminator? = some .memberSemi := by
  have absent := (KindSet.not_has_of_terminator? unrequested).1
  simp [KindSet.terminator?, absent]

include outside

/-- Where both terminators are requested, a token is read exactly if it is read where only the one
for class members is. -/
theorem scan?_both_iff (other : token.kind ≠ .semi) :
    scan? text offset (kinds.insert .memberSemi) = some token ↔
      scan? text offset ((kinds.insert .semi).insert .memberSemi) = some token.asSemi := by
  have member := terminator?_insert_memberSemi unrequested
  have memberOutside : (kinds.insert .memberSemi).has .stringContent = false :=
    (KindSet.has_insert_of_ne (by decide) kinds).trans outside
  rw [KindSet.insert_comm, scan?_insert_semi memberOutside member]
  constructor
  · intro produced
    rw [produced]
    rfl
  · intro produced
    obtain ⟨own, found, same⟩ := Option.map_eq_some_iff.mp produced
    have ownOther : own.kind ≠ .semi := by
      intro semi
      have named := eq_of_scan? member found (Or.inl semi)
      rw [semi] at named
      cases named
    rw [found, asSemi_inj ownOther other same]

theorem scan?_semi_or :
    scan? text offset (kinds.insert .semi)
        = scan? text offset ((kinds.insert .semi).insert .memberSemi) ∨
      scan? text offset (kinds.insert .semi) = none ∧
        scan? text offset ((kinds.insert .semi).insert .memberSemi)
          = some ⟨.semi, ⟨⟨offset, offset⟩, ⟨offset, offset⟩⟩⟩ ∧
        ∃ line, BreaksBefore (dropBytes text offset) line ∧
          FirstWord "constructor".toList (kinds.unannotated line) := by
  have absent := (KindSet.not_has_of_terminator? unrequested).2
  have agree : kinds.AgreeOn KindSet.decisive (kinds.insert .semi) :=
    KindSet.agreeOn_insert (by decide) kinds
  have semi : (kinds.insert .semi).terminator? = some .semi := by simp [KindSet.terminator?]
  simp only [KindSet.unannotated_congr agree]
  exact scan?_insert_memberSemi ((KindSet.has_insert_of_ne (by decide) kinds).trans outside) semi
    ((KindSet.has_insert_of_ne (by decide) kinds).trans absent)

end Both

end Token

/-- What the requested kinds do to a token.  The content of a raw string keeps the other kinds out;
an interpolation keeps comments out; and of the terminators one gives a token its name, while the
other adds only the ends before a `constructor`. -/
theorem Token.scan?_requested (text : Text) (offset : Nat) (kinds : KindSet) :
    (kinds.has .stringContent = true →
      scan? text offset kinds = scan? text offset (.ofList [.stringContent])) ∧
    scan? text offset (kinds.insert .dollar)
      = scan? text offset ((kinds.erase .blockComment).erase .dollar) ∧
    (kinds.has .stringContent = false → kinds.terminator? = none →
      let semi? := scan? text offset (kinds.insert .semi)
      let member? := scan? text offset (kinds.insert .memberSemi)
      let both? := scan? text offset ((kinds.insert .semi).insert .memberSemi)
      (∀ token : Token, token.kind ≠ .semi → token.kind ≠ .memberSemi →
        (semi? = some token ↔ both? = some token) ∧ (member? = some token ↔ both? = some token)) ∧
      (∀ span, semi? ≠ some ⟨.memberSemi, span⟩ ∧ both? ≠ some ⟨.memberSemi, span⟩ ∧
        member? ≠ some ⟨.semi, span⟩) ∧
      (∀ span, semi? = some ⟨.semi, span⟩ →
        member? = some ⟨.memberSemi, span⟩ ∧ both? = some ⟨.semi, span⟩) ∧
      (∀ span, member? = some ⟨.memberSemi, span⟩ ↔ both? = some ⟨.semi, span⟩) ∧
      (∀ span, member? = some ⟨.memberSemi, span⟩ → semi? ≠ some ⟨.semi, span⟩ →
        semi? = none ∧ span = ⟨⟨offset, offset⟩, ⟨offset, offset⟩⟩ ∧
          ∃ line, BreaksBefore (dropBytes text offset) line ∧
            FirstWord "constructor".toList (kinds.unannotated line))) := by
  refine ⟨?_, ?_, ?_⟩
  · intro inside
    refine scan?_congr ?_
    have only : (KindSet.ofList [.stringContent]).has .stringContent = true := by decide
    rw [Request.token, Request.token, if_pos inside, if_pos only]
  · exact scan?_congr (Request.token_insert_dollar kinds)
  · intro outside unrequested semi? member? both?
    have semi : (kinds.insert .semi).terminator? = some .semi := by simp [KindSet.terminator?]
    have both : ((kinds.insert .semi).insert .memberSemi).terminator? = some .semi := by
      simp [KindSet.terminator?]
    have member := terminator?_insert_memberSemi unrequested
    have memberIff {token : Token} (other : token.kind ≠ .semi) :
        member? = some token ↔ both? = some token.asSemi := scan?_both_iff outside unrequested other
    have extended : semi? = both? ∨ semi? = none ∧ both? = _ ∧ _ :=
      scan?_semi_or outside unrequested
    have included {token : Token} (produced : semi? = some token) : both? = some token := by
      rcases extended with same | ⟨nothing, _⟩
      · exact same.symm.trans produced
      · cases nothing.symm.trans produced
    refine ⟨?_, ?_, ?_, ?_, ?_⟩
    · intro token notSemi notMember
      have still : token.asSemi = token :=
        congrArg (Token.mk · token.span) (TokenKind.asSemi_of_ne notMember)
      refine ⟨⟨included, fun produced => ?_⟩, by rw [memberIff notSemi, still]⟩
      rcases extended with same | ⟨_, added, _⟩
      · exact same.trans produced
      · cases added.symm.trans produced
        exact absurd rfl notSemi
    · intro span
      refine ⟨fun produced => ?_, fun produced => ?_, fun produced => ?_⟩
      · cases eq_of_scan? semi produced (Or.inr rfl)
      · cases eq_of_scan? both produced (Or.inr rfl)
      · cases eq_of_scan? member produced (Or.inl rfl)
    · intro span produced
      exact ⟨(memberIff (by simp)).mpr (included produced), included produced⟩
    · intro span
      exact memberIff (by simp)
    · intro span produced new
      have bothProduced : both? = some ⟨.semi, span⟩ := (memberIff (by simp)).mp produced
      rcases extended with same | ⟨nothing, added, line⟩
      · exact absurd (same.trans bothProduced) new
      · cases added.symm.trans bothProduced
        exact ⟨nothing, rfl, line⟩

/-- A constructor with an annotation and a modifier, where a setter may follow too. -/
theorem Token.scan?_requested_constructor :
    let text := "\n@A private constructor(".toList
    let kinds := KindSet.ofList [.setter]
    scan? text 0 (kinds.insert .semi) = none ∧
      scan? text 0 (kinds.insert .memberSemi) = some ⟨.memberSemi, ⟨⟨0, 0⟩, ⟨0, 0⟩⟩⟩ ∧
      ∃ line, BreaksBefore text line ∧
        FirstWord "constructor".toList (kinds.unannotated line) := by
  intro text kinds
  have nothing : scan? text 0 (kinds.insert .semi) = none := by decide +kernel
  have added : scan? text 0 (kinds.insert .memberSemi)
      = some ⟨.memberSemi, ⟨⟨0, 0⟩, ⟨0, 0⟩⟩⟩ := by decide +kernel
  have new : scan? text 0 (kinds.insert .semi) ≠ some ⟨.semi, ⟨⟨0, 0⟩, ⟨0, 0⟩⟩⟩ := by simp [nothing]
  obtain ⟨_, _, _, _, additions⟩ := (scan?_requested text 0 kinds).2.2 (by decide) (by decide)
  obtain ⟨_, _, line⟩ := additions _ added new
  exact ⟨nothing, added, line⟩

end ContextScan

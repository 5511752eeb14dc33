import ContextScan.Proofs.Text.Places
import ContextScan.Proofs.Token.Soundness
import ContextScan.Replay

namespace ContextScan

/-! A replay tiles its text.

`Replays` gives the steps that a replay is made of, each by what the request at its place comes to
on the whole text.  A replay makes such steps from the start of the text to its end, and what it
covers is then read off its steps, by induction on them. -/

/-- The steps of a replay from an offset on. -/
inductive Replays (text : Text) (kinds : KindSet) : Nat → List Segment → Prop where
  | ended (nothing : Token.scan? text (byteSize text) kinds = none) :
      Replays text kinds (byteSize text) []
  | lastToken {token : Token} (produced : Token.scan? text (byteSize text) kinds = some token)
      (still : token.span.consumed.stop = byteSize text) :
      Replays text kinds (byteSize text) [.ofToken token]
  | token {offset : Nat} {token : Token} {later : List Segment}
      (produced : Token.scan? text offset kinds = some token)
      (progress : offset < token.span.consumed.stop)
      (others : Replays text kinds token.span.consumed.stop later) :
      Replays text kinds offset (.ofToken token :: later)
  | host {offset : Nat} {c : Char} {rest : Text} {later : List Segment}
      (stands : StandsAt text offset c rest) (nothing : Token.scan? text offset kinds = none)
      (others : Replays text kinds (offset + c.utf8Size) later) :
      Replays text kinds offset (.ofHost offset c :: later)
  | pause {offset : Nat} {token : Token} {c : Char} {rest : Text} {later : List Segment}
      (stands : StandsAt text offset c rest)
      (produced : Token.scan? text offset kinds = some token)
      (still : token.span.consumed.stop = offset)
      (others : Replays text kinds (offset + c.utf8Size) later) :
      Replays text kinds offset (.ofToken token :: .ofHost offset c :: later)

theorem Token.ofReader_resume (front rest : Text) (kinds : KindSet) :
    (Token.ofReader (TextReader.resume (byteSize front) rest) kinds).token?
      = Token.scan? (front ++ rest) (byteSize front) kinds := by
  rw [scan?, trace, TextReader.at?_append]

section Equations

variable {kinds : KindSet} {offset : Nat} {c : Char} {rest : Text}

theorem segmentsFrom_host
    (nothing : (Token.ofReader (TextReader.resume offset (c :: rest)) kinds).token? = none) :
    segmentsFrom kinds offset (c :: rest)
      = .ofHost offset c :: segmentsFrom kinds (offset + c.utf8Size) rest := by
  rw [segmentsFrom, nothing]
  exact if_neg (Nat.lt_irrefl offset)

theorem segmentsFrom_token {token : Token}
    (produced : (Token.ofReader (TextReader.resume offset (c :: rest)) kinds).token? = some token)
    (progress : offset < token.span.consumed.stop) :
    segmentsFrom kinds offset (c :: rest)
      = .ofToken token :: segmentsFrom kinds token.span.consumed.stop
          (dropBytes (c :: rest) (token.span.consumed.stop - offset)) := by
  rw [segmentsFrom, produced]
  exact if_pos progress

theorem segmentsFrom_pause {token : Token}
    (produced : (Token.ofReader (TextReader.resume offset (c :: rest)) kinds).token? = some token)
    (still : ¬offset < token.span.consumed.stop) :
    segmentsFrom kinds offset (c :: rest)
      = .ofToken token :: .ofHost offset c :: segmentsFrom kinds (offset + c.utf8Size) rest := by
  rw [segmentsFrom, produced]
  exact if_neg still

end Equations

theorem replays_segmentsFrom (kinds : KindSet) (front rest : Text) :
    Replays (front ++ rest) kinds (byteSize front) (segmentsFrom kinds (byteSize front) rest) := by
  have scanned := Token.ofReader_resume front rest kinds
  cases rest with
  | nil =>
      rw [segmentsFrom, scanned, List.append_nil]
      cases produced : Token.scan? front (byteSize front) kinds with
      | none => exact .ended produced
      | some token =>
          obtain ⟨_, low, high, _⟩ := Token.consumed_of_scan? produced
          exact .lastToken produced (Nat.le_antisymm high low)
  | cons c rest =>
      have stands : StandsAt (front ++ c :: rest) (byteSize front) c rest := ⟨front, rfl, rfl⟩
      have onward : Replays (front ++ c :: rest) kinds (byteSize front + c.utf8Size)
          (segmentsFrom kinds (byteSize front + c.utf8Size) rest) := by
        have next := replays_segmentsFrom kinds (front ++ [c]) rest
        rw [List.append_assoc, byteSize_append] at next
        exact next
      cases produced : Token.scan? (front ++ c :: rest) (byteSize front) kinds with
      | none =>
          rw [segmentsFrom_host (scanned.trans produced)]
          exact .host stands produced onward
      | some token =>
          obtain ⟨_, low, _, boundary⟩ := Token.consumed_of_scan? produced
          by_cases progress : byteSize front < token.span.consumed.stop
          · obtain ⟨between, after, split, size⟩ := exists_between boundary low
            have distance : token.span.consumed.stop - byteSize front = byteSize between := by
              rw [← size, byteSize_append]
              omega
            have shorter : after.length < (c :: rest).length := by
              have nonempty : between ≠ [] := by
                rw [← byteSize_pos_iff]
                omega
              have positive := List.length_pos_iff.mpr nonempty
              rw [split, List.length_append]
              omega
            have left : dropBytes (c :: rest) (byteSize between) = after := by
              rw [split]
              exact dropBytes_byteSize_append between after
            have later := replays_segmentsFrom kinds (front ++ between) after
            rw [List.append_assoc, ← split, size] at later
            rw [segmentsFrom_token (scanned.trans produced) progress, distance, left]
            exact .token produced progress later
          · have still := Nat.le_antisymm (Nat.not_lt.mp progress) low
            rw [segmentsFrom_pause (scanned.trans produced) progress]
            exact .pause stands produced still onward
termination_by rest.length
decreasing_by
  · exact Nat.lt_succ_self _
  · exact shorter

theorem replays_segments (text : Text) (kinds : KindSet) :
    Replays text kinds 0 (segments text kinds) :=
  replays_segmentsFrom kinds [] text

/-- Whether ranges follow each other without a gap up to an offset. -/
def Contiguous (stop : Nat) : Nat → List ByteRange → Prop
  | start, [] => start = stop
  | start, range :: ranges =>
      range.start = start ∧ range.start ≤ range.stop ∧ Contiguous stop range.stop ranges

/-- Whether a segment is one character that the host took for lack of a token there, or right after
one that consumed nothing there. -/
def HostTakes (text : Text) (kinds : KindSet) (before : List Segment) (segment : Segment) : Prop :=
  ∃ offset c rest, StandsAt text offset c rest ∧ segment = .ofHost offset c ∧
    (Token.scan? text offset kinds = none ∨
      ∃ earlier token, before = earlier ++ [.ofToken token] ∧
        token.span.consumed = ⟨offset, offset⟩)

theorem HostTakes.cons {text : Text} {kinds : KindSet} {before : List Segment} {segment : Segment}
    (takes : HostTakes text kinds before segment) (first : Segment) :
    HostTakes text kinds (first :: before) segment := by
  obtain ⟨offset, c, rest, stands, same, reason⟩ := takes
  refine ⟨offset, c, rest, stands, same, ?_⟩
  rcases reason with nothing | ⟨earlier, token, rfl, still⟩
  · exact Or.inl nothing
  · exact Or.inr ⟨first :: earlier, token, rfl, still⟩

/-- Whether the host goes on with the character at an offset, or the text ends there. -/
def HostGoesOn (text : Text) (offset : Nat) (after : List Segment) : Prop :=
  (after = [] ∧ offset = byteSize text) ∨
    ∃ c rest later, StandsAt text offset c rest ∧ after = .ofHost offset c :: later

/-- A token that takes nothing at the end of a text. -/
def Token.atEnd (text : Text) (kind : TokenKind) : Token :=
  let nowhere : ByteRange := ⟨byteSize text, byteSize text⟩
  ⟨kind, ⟨nowhere, nowhere⟩⟩

theorem Token.scan?_byteSize (text : Text) {kinds : KindSet} {terminator : TokenKind}
    (outside : kinds.has .stringContent = false) (requested : kinds.terminator? = some terminator) :
    Token.scan? text (byteSize text) kinds = some (.atEnd text terminator) := by
  have accepted := TextReader.at?_append text []
  rw [List.append_nil] at accepted
  have run : Request.token kinds [] = ⟨some terminator, [.markEnd], [], []⟩ := by
    rw [Request.token_eq_statementEnd outside requested]
    rfl
  refine Token.scan?_eq_some_iff.mpr ⟨_, accepted, ?_, ?_⟩
  · change (Request.token kinds []).value = some terminator
    rw [run]
  · have moves : (Request.scan kinds []).moves = [.markEnd] := by rw [Request.moves_scan, run]
    change (Reader.moveAll (TextReader.resume (byteSize text) [])
      (Request.scan kinds []).moves).finish = _
    rw [moves]
    change Span.mk ⟨byteSize text, byteSize text⟩
      ⟨min (byteSize text) (byteSize text), byteSize text⟩ = _
    rw [Nat.min_self]
    rfl

namespace Replays

variable {text : Text} {kinds : KindSet} {offset : Nat} {all : List Segment}

theorem contiguous (replays : Replays text kinds offset all) :
    Contiguous (byteSize text) offset (all.map (·.span.consumed)) := by
  induction replays with
  | ended => rfl
  | lastToken produced still =>
      obtain ⟨start, low, _⟩ := Token.consumed_of_scan? produced
      exact ⟨start, Nat.le_trans (Nat.le_of_eq start) low, still⟩
  | token produced progress others othersIH =>
      obtain ⟨start, low, _⟩ := Token.consumed_of_scan? produced
      exact ⟨start, Nat.le_trans (Nat.le_of_eq start) low, othersIH⟩
  | host stands nothing others othersIH => exact ⟨rfl, Nat.le_add_right _ _, othersIH⟩
  | pause stands produced still others othersIH =>
      obtain ⟨start, low, _⟩ := Token.consumed_of_scan? produced
      exact ⟨start, Nat.le_trans (Nat.le_of_eq start) low, still.symm, Nat.le_add_right _ _,
        othersIH⟩

/-- The parts that the steps consume are the text, in order. -/
theorem covers (replays : Replays text kinds offset all) :
    (all.flatMap fun segment => segment.span.consumed.slice text) = dropBytes text offset := by
  have tokenSlice {offset : Nat} {token : Token}
      (produced : Token.scan? text offset kinds = some token) :
      token.span.consumed.slice text ++ dropBytes text token.span.consumed.stop
        = dropBytes text offset := by
    obtain ⟨start, low, _, boundary⟩ := Token.consumed_of_scan? produced
    subst start
    exact slice_append_dropBytes (Token.boundary_of_scan? produced) boundary low
  have hostSlice {offset : Nat} {c : Char} {rest : Text} (stands : StandsAt text offset c rest) :
      (ByteRange.mk offset (offset + c.utf8Size)).slice text
          ++ dropBytes text (offset + c.utf8Size)
        = dropBytes text offset :=
    slice_append_dropBytes stands.boundary stands.nextBoundary (Nat.le_add_right _ _)
  induction replays with
  | ended => exact (dropBytes_byteSize text).symm
  | lastToken produced still =>
      have last := tokenSlice produced
      rw [still, dropBytes_byteSize] at last
      rw [List.flatMap_singleton, dropBytes_byteSize, ← last, List.append_nil]
      rfl
  | token produced progress others othersIH =>
      rw [List.flatMap_cons, othersIH]
      exact tokenSlice produced
  | host stands nothing others othersIH =>
      rw [List.flatMap_cons, othersIH]
      exact hostSlice stands
  | pause stands produced still others othersIH =>
      have paused := tokenSlice produced
      rw [still] at paused
      rw [List.flatMap_cons, List.flatMap_cons, othersIH]
      change _ ++ ((ByteRange.mk _ _).slice text ++ _) = _
      rw [hostSlice stands]
      exact paused

theorem produced_of_mem (replays : Replays text kinds offset all) {segment : Segment}
    (member : segment ∈ all) {kind : TokenKind} (found : segment.kind? = some kind) :
    Token.scan? text segment.span.consumed.start kinds = some ⟨kind, segment.span⟩ := by
  have here {offset : Nat} {token : Token} (produced : Token.scan? text offset kinds = some token)
      (same : segment = .ofToken token) :
      Token.scan? text segment.span.consumed.start kinds = some ⟨kind, segment.span⟩ := by
    subst same
    obtain ⟨start, _⟩ := Token.consumed_of_scan? produced
    cases found
    change Token.scan? text token.span.consumed.start kinds = some token
    rw [start]
    exact produced
  induction replays with
  | ended => cases member
  | lastToken produced still => exact here produced (List.mem_singleton.mp member)
  | token produced progress others othersIH =>
      rcases List.mem_cons.mp member with first | later
      · exact here produced first
      · exact othersIH later
  | host stands nothing others othersIH =>
      rcases List.mem_cons.mp member with rfl | later
      · cases found
      · exact othersIH later
  | pause stands produced still others othersIH =>
      rcases List.mem_cons.mp member with first | later
      · exact here produced first
      rcases List.mem_cons.mp later with rfl | later
      · cases found
      · exact othersIH later

theorem hostTakes (replays : Replays text kinds offset all) {before after : List Segment}
    {segment : Segment} (split : all = before ++ segment :: after) (host : segment.kind? = none) :
    HostTakes text kinds before segment := by
  have notToken {token : Token} (same : segment = .ofToken token) : False := by
    subst same
    cases host
  induction replays generalizing before with
  | ended => cases before <;> cases split
  | lastToken produced still =>
      cases before with
      | nil => exact (notToken (List.cons.inj split).1.symm).elim
      | cons first before => cases before <;> cases (List.cons.inj split).2
  | token produced progress others othersIH =>
      cases before with
      | nil => exact (notToken (List.cons.inj split).1.symm).elim
      | cons first before => exact (othersIH (List.cons.inj split).2).cons first
  | host stands nothing others othersIH =>
      cases before with
      | nil => exact ⟨_, _, _, stands, (List.cons.inj split).1.symm, Or.inl nothing⟩
      | cons first before => exact (othersIH (List.cons.inj split).2).cons first
  | @pause offset token c rest later stands produced still others othersIH =>
      -- The one step with a host segment that has its token right before it.
      have nowhere : token.span.consumed = ⟨offset, offset⟩ := by
        obtain ⟨start, _⟩ := Token.consumed_of_scan? produced
        calc token.span.consumed
            = ⟨token.span.consumed.start, token.span.consumed.stop⟩ := rfl
          _ = ⟨offset, offset⟩ := by rw [start, still]
      cases before with
      | nil => exact (notToken (List.cons.inj split).1.symm).elim
      | cons first before =>
          obtain ⟨sameFirst, splitLater⟩ := List.cons.inj split
          cases before with
          | nil =>
              subst sameFirst
              exact ⟨_, _, _, stands, (List.cons.inj splitLater).1.symm,
                Or.inr ⟨[], token, rfl, nowhere⟩⟩
          | cons second before =>
              exact ((othersIH (List.cons.inj splitLater).2).cons second).cons first

theorem hostGoesOn (replays : Replays text kinds offset all) {before after : List Segment}
    {segment : Segment} (split : all = before ++ segment :: after)
    (still : segment.span.consumed.start = segment.span.consumed.stop) :
    HostGoesOn text segment.span.consumed.stop after := by
  have notHost {offset : Nat} {c : Char} (same : segment = .ofHost offset c) : False := by
    subst same
    have positive := c.utf8Size_pos
    change offset = offset + c.utf8Size at still
    omega
  induction replays generalizing before with
  | ended => cases before <;> cases split
  | lastToken produced ends =>
      cases before with
      | nil =>
          obtain ⟨rfl, rfl⟩ := List.cons.inj split
          exact Or.inl ⟨rfl, ends⟩
      | cons first before => cases before <;> cases (List.cons.inj split).2
  | token produced progress others othersIH =>
      cases before with
      | nil =>
          obtain ⟨rfl, rfl⟩ := List.cons.inj split
          obtain ⟨start, _⟩ := Token.consumed_of_scan? produced
          rw [← start] at progress
          exact absurd still (Nat.ne_of_lt progress)
      | cons first before => exact othersIH (List.cons.inj split).2
  | host stands nothing others othersIH =>
      cases before with
      | nil => exact (notHost (List.cons.inj split).1.symm).elim
      | cons first before => exact othersIH (List.cons.inj split).2
  | @pause offset token c rest later stands produced ends others othersIH =>
      cases before with
      | nil =>
          obtain ⟨rfl, rfl⟩ := List.cons.inj split
          change HostGoesOn text token.span.consumed.stop _
          rw [ends]
          exact Or.inr ⟨c, rest, later, stands, rfl⟩
      | cons first before =>
          have splitLater := (List.cons.inj split).2
          cases before with
          | nil => exact (notHost (List.cons.inj splitLater).1.symm).elim
          | cons second before => exact othersIH (List.cons.inj splitLater).2

/-- A step leaves fewer characters, and makes two segments at most. -/
theorem length_le (replays : Replays text kinds offset all) :
    all.length ≤ 2 * (dropBytes text offset).length + 1 := by
  induction replays with
  | ended => exact Nat.zero_le _
  | lastToken => exact Nat.le_add_left 1 _
  | @token offset token later produced progress others othersIH =>
      obtain ⟨_, low, high, boundary⟩ := Token.consumed_of_scan? produced
      have shorter : (dropBytes text token.span.consumed.stop).length
          < (dropBytes text offset).length := by
        rw [← dropBytes_dropBytes (Token.boundary_of_scan? produced) boundary low]
        refine length_dropBytes_lt (fun ended => ?_) (Nat.sub_pos_of_lt progress)
        have size := byteSize_dropBytes (Token.boundary_of_scan? produced)
        rw [ended, byteSize] at size
        omega
      rw [List.length_cons]
      omega
  | host stands nothing others othersIH =>
      rw [stands.dropBytes_next] at othersIH
      rw [stands.dropBytes_eq, List.length_cons, List.length_cons]
      omega
  | pause stands produced still others othersIH =>
      rw [stands.dropBytes_next] at othersIH
      rw [stands.dropBytes_eq, List.length_cons, List.length_cons, List.length_cons]
      omega

/-- Where terminators are requested, the end of the text is one. -/
theorem endsWithTerminator (replays : Replays text kinds offset all) {terminator : TokenKind}
    (outside : kinds.has .stringContent = false) (requested : kinds.terminator? = some terminator) :
    ∃ earlier, all = earlier ++ [.ofToken (.atEnd text terminator)] := by
  have last := Token.scan?_byteSize text outside requested
  induction replays with
  | ended nothing =>
      rw [last] at nothing
      cases nothing
  | lastToken produced still =>
      rw [last] at produced
      cases produced
      exact ⟨[], rfl⟩
  | token produced progress others othersIH =>
      obtain ⟨earlier, rfl⟩ := othersIH
      exact ⟨_ :: earlier, rfl⟩
  | host stands nothing others othersIH =>
      obtain ⟨earlier, rfl⟩ := othersIH
      exact ⟨_ :: earlier, rfl⟩
  | pause stands produced still others othersIH =>
      obtain ⟨earlier, rfl⟩ := othersIH
      exact ⟨_ :: _ :: earlier, rfl⟩

end Replays

/-- A replay of a text tiles it.

It is made of steps from the start of the text to its end.  Every segment with a kind is the token
that the request at its place comes to; every other is a character of the host, taken where there
was no token or where it consumed nothing; and after a token that consumed nothing the host goes on
unless the text ends. -/
theorem segments_tile (text : Text) (kinds : KindSet) :
    let all := segments text kinds
    Replays text kinds 0 all ∧
    Contiguous (byteSize text) 0 (all.map (·.span.consumed)) ∧
    (all = [] → text = []) ∧
    (all.flatMap fun segment => segment.span.consumed.slice text) = text ∧
    (∀ segment ∈ all, ∀ kind, segment.kind? = some kind →
      Token.scan? text segment.span.consumed.start kinds = some ⟨kind, segment.span⟩) ∧
    (∀ before segment after, all = before ++ segment :: after →
      (segment.kind? = none → HostTakes text kinds before segment) ∧
      (segment.span.consumed.start = segment.span.consumed.stop →
        HostGoesOn text segment.span.consumed.stop after)) ∧
    all.length ≤ 2 * text.length + 1 ∧
    (kinds.has .semi = true ∨ kinds.has .memberSemi = true → kinds.has .stringContent = false →
      ∃ earlier terminator, (terminator = .semi ∨ terminator = .memberSemi) ∧
        all = earlier ++ [.ofToken (.atEnd text terminator)]) := by
  intro all
  have replays : Replays text kinds 0 all := replays_segments text kinds
  have start : dropBytes text 0 = text := dropBytes_byteSize_append [] text
  have covers := replays.covers
  have length := replays.length_le
  rw [start] at covers length
  refine ⟨replays, replays.contiguous, ?_, covers, fun _ member _ => replays.produced_of_mem member,
    fun _ _ _ split => ⟨replays.hostTakes split, replays.hostGoesOn split⟩, length, ?_⟩
  · intro empty
    rw [empty] at covers
    exact covers.symm
  · intro ends outside
    have chosen : kinds.terminator?.isSome = true := by
      rw [KindSet.terminator?_isSome, Bool.or_eq_true]
      exact ends
    obtain ⟨terminator, requested⟩ := Option.isSome_iff_exists.mp chosen
    obtain ⟨earlier, split⟩ := replays.endsWithTerminator outside requested
    exact ⟨earlier, terminator, (KindSet.terminator?_eq_some requested).2.1, split⟩

/-- A replay that asks for class member terminators and comments ends with a terminator. -/
theorem segments_tile_members :
    let text := "a /*b*/".toList
    let kinds := KindSet.ofList [.memberSemi, .blockComment]
    (kinds.has .semi = true ∨ kinds.has .memberSemi = true) ∧ kinds.has .stringContent = false ∧
      ∃ earlier terminator, (terminator = .semi ∨ terminator = .memberSemi) ∧
        segments text kinds = earlier ++ [.ofToken (.atEnd text terminator)] := by
  intro text kinds
  have ends : kinds.has .semi = true ∨ kinds.has .memberSemi = true := by decide
  have outside : kinds.has .stringContent = false := by decide
  obtain ⟨_, _, _, _, _, _, _, terminated⟩ := segments_tile text kinds
  exact ⟨ends, outside, terminated ends outside⟩

end ContextScan

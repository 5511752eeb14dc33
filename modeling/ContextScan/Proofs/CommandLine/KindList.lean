import ContextScan.CommandLine.KindList
import ContextScan.Proofs.Statement.Gap

namespace ContextScan

/-! How lists of kinds are written, and what they mean.

Every text is a list in one way only: between its commas stand pieces with blanks around them, or
nothing but blanks.  A list of names of kinds means the set of those kinds, however it is spelled;
`all` and `none` are words only if nothing else is written. -/

/-- Whether a text is another one with blanks around it. -/
def Padded (piece text : Text) : Prop :=
  ∃ before after, IsGap before ∧ IsGap after ∧ text = before ++ (piece ++ after)

/-- Whether a text has visible ends. -/
def Trimmed (text : Text) : Prop := Stops isBlank text ∧ Stops isBlank text.reverse

section Trimming

variable {text piece : Text}

theorem IsGap.reverse {gap : Text} (blank : IsGap gap) : IsGap gap.reverse :=
  fun c member => blank c (List.mem_reverse.mp member)

theorem IsGap.append {gap other : Text} (blank : IsGap gap) (otherBlank : IsGap other) :
    IsGap (gap ++ other) :=
  fun c member => (List.mem_append.mp member).elim (blank c) (otherBlank c)

theorem padded_nil_iff : Padded [] text ↔ IsGap text := by
  constructor
  · rintro ⟨before, after, beforeBlank, afterBlank, rfl⟩
    exact beforeBlank.append afterBlank
  · exact fun blank => ⟨text, [], blank, fun _ member => absurd member List.not_mem_nil, by simp⟩

theorem trim_gap (blank : IsGap text) : trim text = [] := by
  have ended : Stops isBlank [] := .of_headD rfl
  have dropped : text.dropWhile isBlank = [] := by simpa using ended.dropWhile_append blank
  rw [trim, dropped]
  rfl

theorem trim_padded (padded : Padded piece text) (trimmed : Trimmed piece) : trim text = piece := by
  cases piece with
  | nil => exact trim_gap (padded_nil_iff.mp padded)
  | cons c piece =>
      obtain ⟨before, after, beforeBlank, afterBlank, rfl⟩ := padded
      have front : Stops isBlank (c :: piece ++ after) := .cons (trimmed.1 c rfl)
      rw [trim, front.dropWhile_append beforeBlank, List.reverse_append,
        trimmed.2.dropWhile_append afterBlank.reverse, List.reverse_reverse]

theorem trimmed_trim (text : Text) : Padded (trim text) text ∧ Trimmed (trim text) := by
  obtain ⟨before, rest, rfl, beforeBlank, front⟩ := exists_gap text
  obtain ⟨after, piece, split, afterBlank, back⟩ := exists_gap rest.reverse
  have shape : rest = piece.reverse ++ after.reverse := by
    rw [← List.reverse_append, ← split, List.reverse_reverse]
  have kept : trim (before ++ rest) = piece.reverse := by
    rw [trim, front.dropWhile_append beforeBlank, split, back.dropWhile_append afterBlank]
  have starts : Stops isBlank piece.reverse := by
    intro c next
    apply front c
    obtain ⟨others, same⟩ := List.head?_eq_some_iff.mp next
    rw [shape, same]
    rfl
  rw [kept]
  exact ⟨⟨before, after.reverse, beforeBlank, afterBlank.reverse, by rw [shape]⟩, starts,
    by rwa [List.reverse_reverse]⟩

theorem trim_eq_iff (trimmed : Trimmed piece) : trim text = piece ↔ Padded piece text := by
  constructor
  · rintro rfl
    exact (trimmed_trim text).1
  · exact fun padded => trim_padded padded trimmed

end Trimming

namespace KindList

/-- What a part of a list can name: a text without commas and with visible ends. -/
structure IsPiece (piece : Text) : Prop where
  nonempty : piece ≠ []
  apart : ',' ∉ piece
  trimmed : Trimmed piece

/-- What a part of a list, between two commas, holds. -/
inductive Holds : Option Text → Text → Prop where
  | nothing {gap : Text} (blank : IsGap gap) : Holds none gap
  | piece {piece part : Text} (formed : IsPiece piece) (padded : Padded piece part) :
      Holds (some piece) part

/-- Whether a text is written as a list of certain pieces. -/
inductive Lists : List Text → Text → Prop where
  | last {piece? : Option Text} {part : Text} (holds : Holds piece? part) :
      Lists piece?.toList part
  | comma {piece? : Option Text} {part rest : Text} {pieces : List Text}
      (holds : Holds piece? part) (more : Lists pieces rest) :
      Lists (piece?.toList ++ pieces) (part ++ ',' :: rest)

theorem Holds.apart {piece? : Option Text} {part : Text} (holds : Holds piece? part) :
    ',' ∉ part := by
  have visible {gap : Text} (blank : IsGap gap) : ',' ∉ gap := fun member => by
    cases blank _ member
  cases holds with
  | nothing blank => exact visible blank
  | piece formed padded =>
      obtain ⟨before, after, beforeBlank, afterBlank, rfl⟩ := padded
      simp only [List.mem_append, not_or]
      exact ⟨visible beforeBlank, formed.apart, visible afterBlank⟩

theorem exists_holds {part : Text} (apart : ',' ∉ part) : ∃ piece?, Holds piece? part := by
  obtain ⟨padded, trimmed⟩ := trimmed_trim part
  by_cases empty : trim part = []
  · rw [empty] at padded
    exact ⟨none, .nothing (padded_nil_iff.mp padded)⟩
  · have inside : ',' ∉ trim part := by
      obtain ⟨before, after, _, _, split⟩ := padded
      intro member
      rw [split] at apart
      exact apart (by simp [member])
    exact ⟨some (trim part), .piece ⟨empty, inside, trimmed⟩ padded⟩

/-- Every text is written as a list. -/
theorem exists_lists (text : Text) : ∃ pieces, Lists pieces text := by
  obtain ⟨part, rest, rfl, inside, stops⟩ := exists_stops (· != ',') text
  have apart : ',' ∉ part := fun member => by cases inside _ member
  obtain ⟨piece?, holds⟩ := exists_holds apart
  cases rest with
  | nil => exact ⟨piece?.toList, by simpa using Lists.last holds⟩
  | cons c rest =>
      have comma : c = ',' := by simpa using stops c rfl
      subst comma
      obtain ⟨pieces, more⟩ := exists_lists rest
      exact ⟨piece?.toList ++ pieces, .comma holds more⟩
termination_by text.length

theorem names_comma {part : Text} (apart : ',' ∉ part) (rest : Text) :
    names (part ++ ',' :: rest) = names part ++ names rest := by
  rw [names, names, names, split_append ',' part rest apart, split_of_notMem ',' part apart]
  simp only [List.map_cons, List.map_nil, List.filter_cons, List.filter_nil]
  split <;> rfl

theorem Holds.names_eq {piece? : Option Text} {part : Text} (holds : Holds piece? part) :
    names part = piece?.toList := by
  rw [names, split_of_notMem ',' part holds.apart]
  cases holds with
  | nothing blank => simp [trim_gap blank]
  | piece formed padded => simp [trim_padded padded formed.trimmed, formed.nonempty]

/-- The pieces of a list are what is read of it. -/
theorem Lists.names_eq {pieces : List Text} {text : Text} (lists : Lists pieces text) :
    names text = pieces := by
  induction lists with
  | last holds => exact holds.names_eq
  | comma holds _ ih => rw [names_comma holds.apart, holds.names_eq, ih]

def nameOf (kind : TokenKind) : Text := kind.name.toList

theorem isPiece_nameOf (kind : TokenKind) : IsPiece (nameOf kind) := by
  have apart : ',' ∉ nameOf kind := by cases kind <;> decide
  have front : isBlank ((nameOf kind).headD '\x00') = false := by cases kind <;> decide
  have back : isBlank ((nameOf kind).reverse.headD '\x00') = false := by cases kind <;> decide
  have nonempty : nameOf kind ≠ [] := by cases kind <;> decide
  exact ⟨nonempty, apart, .of_headD front, .of_headD back⟩

def IsUnknown (name : Text) : Prop := ∀ kind, nameOf kind ≠ name

theorem parseName_nameOf (kind : TokenKind) : parseName (nameOf kind) = .ok kind := by
  rw [parseName, nameOf, String.ofList_toList, TokenKind.ofName?_name]

theorem parseName_unknown {name : Text} (unknown : IsUnknown name) :
    parseName name = .error (.unknownKind (String.ofList name)) := by
  rw [parseName]
  cases found : TokenKind.ofName? (String.ofList name) with
  | none => rfl
  | some kind =>
      have named := TokenKind.ofName?_eq_some_iff.mp found
      exact absurd (by rw [nameOf, named, String.toList_ofList]) (unknown kind)

theorem mapM_nameOf (kinds : List TokenKind) : (kinds.map nameOf).mapM parseName = .ok kinds := by
  induction kinds with
  | nil => rfl
  | cons kind kinds ih =>
      rw [List.map_cons, List.mapM_cons, parseName_nameOf, ih]
      rfl

theorem mapM_unknown (kinds : List TokenKind) {name : Text} (unknown : IsUnknown name)
    (later : List Text) : (kinds.map nameOf ++ name :: later).mapM parseName
      = .error (.unknownKind (String.ofList name)) := by
  rw [List.mapM_append, mapM_nameOf, List.mapM_cons, parseName_unknown unknown]
  rfl

/-- Pieces are names of kinds, up to the first that is none. -/
theorem exists_kinds (pieces : List Text) : ∃ kinds : List TokenKind,
    pieces = kinds.map nameOf ∨
      ∃ name later, pieces = kinds.map nameOf ++ name :: later ∧ IsUnknown name := by
  induction pieces with
  | nil => exact ⟨[], Or.inl rfl⟩
  | cons piece pieces ih =>
      by_cases unknown : IsUnknown piece
      · exact ⟨[], Or.inr ⟨piece, pieces, rfl, unknown⟩⟩
      · obtain ⟨kind, named⟩ := Classical.not_forall.mp unknown
        obtain rfl := Classical.not_not.mp named
        obtain ⟨kinds, rfl | ⟨name, later, rfl, other⟩⟩ := ih
        · exact ⟨kind :: kinds, Or.inl rfl⟩
        · exact ⟨kind :: kinds, Or.inr ⟨name, later, rfl, other⟩⟩

/-- What a list means: every kind, no kind, the kinds that it names, or that a name is unknown. -/
inductive Means (text : Text) : Except Failure KindSet → Prop where
  | all (spelled : Padded "all".toList text) : Means text (.ok .full)
  | none (spelled : Padded "none".toList text) : Means text (.ok .empty)
  | blank (blank : IsGap text) : Means text (.ok .empty)
  | names {kinds : List TokenKind} {set : KindSet} (lists : Lists (kinds.map nameOf) text)
      (members : ∀ kind, set.has kind = true ↔ kind ∈ kinds) : Means text (.ok set)
  | unknown {kinds : List TokenKind} {name : Text} {later : List Text}
      (notAll : ¬Padded "all".toList text) (notNone : ¬Padded "none".toList text)
      (lists : Lists (kinds.map nameOf ++ name :: later) text) (unknown : IsUnknown name) :
      Means text (.error (.unknownKind (String.ofList name)))

section Parsing

variable {list : String}

theorem trimmed_all : Trimmed "all".toList := ⟨.cons rfl, .cons rfl⟩

theorem trimmed_none : Trimmed "none".toList := ⟨.cons rfl, .cons rfl⟩

theorem ofList_trim_eq_iff {word : String} (trimmed : Trimmed word.toList) :
    String.ofList (trim list.toList) = word ↔ Padded word.toList list.toList := by
  rw [← trim_eq_iff trimmed, ← String.toList_inj, String.toList_ofList]

theorem trimmed_empty : Trimmed "".toList := ⟨.of_headD rfl, .of_headD rfl⟩

theorem parse_all (spelled : Padded "all".toList list.toList) : parse list = .ok .full := by
  rw [parse, if_pos ((ofList_trim_eq_iff trimmed_all).mpr spelled)]

theorem parse_none (spelled : Padded "none".toList list.toList) : parse list = .ok .empty := by
  have word := (ofList_trim_eq_iff trimmed_none).mpr spelled
  simp [parse, word]

theorem parse_blank (blank : IsGap list.toList) : parse list = .ok .empty := by
  have empty := (ofList_trim_eq_iff trimmed_empty).mpr (padded_nil_iff.mpr blank)
  simp [parse, empty]

/-- A list that is no single word is read piece by piece. -/
theorem parse_pieces {pieces : List Text} (notAll : ¬Padded "all".toList list.toList)
    (notNone : ¬Padded "none".toList list.toList) (visible : ¬IsGap list.toList)
    (lists : Lists pieces list.toList) :
    parse list = (pieces.mapM parseName).map KindSet.ofList := by
  have other := mt (ofList_trim_eq_iff trimmed_all).mp notAll
  have noWord := mt (ofList_trim_eq_iff trimmed_none).mp notNone
  have nonempty := mt (ofList_trim_eq_iff trimmed_empty).mp (mt padded_nil_iff.mp visible)
  simp [parse, other, noWord, nonempty, lists.names_eq]

end Parsing

theorem Lists.unique {pieces others : List Text} {text : Text} (lists : Lists pieces text)
    (otherLists : Lists others text) : pieces = others :=
  lists.names_eq.symm.trans otherLists.names_eq

/-- A word that is written alone is the only piece, so a list of names is no such word. -/
theorem Lists.not_padded {kinds : List TokenKind} {word text : Text}
    (lists : Lists (kinds.map nameOf) text) (formed : IsPiece word) (unknown : IsUnknown word) :
    ¬Padded word text := by
  intro padded
  have alone : Lists [word] text := .last (.piece formed padded)
  have member : word ∈ kinds.map nameOf := by
    rw [lists.unique alone]
    exact List.mem_singleton_self word
  obtain ⟨kind, _, named⟩ := List.mem_map.mp member
  exact unknown kind named

theorem isUnknown_all : IsUnknown "all".toList := fun kind => by cases kind <;> decide

theorem isUnknown_none : IsUnknown "none".toList := fun kind => by cases kind <;> decide

theorem isPiece_all : IsPiece "all".toList := ⟨by decide, by decide, trimmed_all⟩

theorem isPiece_none : IsPiece "none".toList := ⟨by decide, by decide, trimmed_none⟩

theorem lists_of_gap {gap : Text} (blank : IsGap gap) : Lists [] gap := .last (.nothing blank)

theorem ofList_eq {kinds : List TokenKind} {set : KindSet}
    (members : ∀ kind, set.has kind = true ↔ kind ∈ kinds) : KindSet.ofList kinds = set :=
  KindSet.ext_has fun kind => by
    rw [Bool.eq_iff_iff, KindSet.has_ofList, members]

/-- Names of kinds mean their set, in whatever order and however often they stand there. -/
theorem parse_names {list : String} {kinds : List TokenKind} {set : KindSet}
    (lists : Lists (kinds.map nameOf) list.toList)
    (members : ∀ kind, set.has kind = true ↔ kind ∈ kinds) : parse list = .ok set := by
  rw [← ofList_eq members]
  by_cases blank : IsGap list.toList
  · have none : kinds = [] := List.map_eq_nil_iff.mp (lists.unique (lists_of_gap blank))
    rw [parse_blank blank, none]
    rfl
  · rw [parse_pieces (lists.not_padded isPiece_all isUnknown_all)
      (lists.not_padded isPiece_none isUnknown_none) blank lists, mapM_nameOf]
    rfl

theorem Means.parse_eq {list : String} {result : Except Failure KindSet}
    (means : Means list.toList result) : parse list = result := by
  cases means with
  | all spelled => exact parse_all spelled
  | none spelled => exact parse_none spelled
  | blank blank => exact parse_blank blank
  | names lists members => exact parse_names lists members
  | unknown notAll notNone lists unknown =>
      have visible : ¬IsGap list.toList := fun blank => by
        simpa using lists.unique (lists_of_gap blank)
      rw [parse_pieces notAll notNone visible lists, mapM_unknown _ unknown]
      rfl

theorem exists_means (text : Text) : ∃ result, Means text result := by
  by_cases all : Padded "all".toList text
  · exact ⟨_, .all all⟩
  · by_cases none : Padded "none".toList text
    · exact ⟨_, .none none⟩
    · obtain ⟨pieces, lists⟩ := exists_lists text
      obtain ⟨kinds, rfl | ⟨name, later, rfl, unknown⟩⟩ := exists_kinds pieces
      · exact ⟨_, .names lists fun _ => KindSet.has_ofList⟩
      · exact ⟨_, .unknown all none lists unknown⟩

/-- A list is read as what it means.  Its pieces are fixed by how it is written, and if they are the
names of the kinds of a set, in any order, repeated or not, the list is read as that set. -/
theorem parse_means (list : String) :
    (∀ result, parse list = result ↔ Means list.toList result) ∧
    (∃ pieces, ∀ others, Lists others list.toList ↔ others = pieces) ∧
    (∀ (kinds : List TokenKind) (set : KindSet), Lists (kinds.map nameOf) list.toList →
      (∀ kind, set.has kind = true ↔ kind ∈ kinds) → parse list = .ok set) := by
  refine ⟨fun result => ⟨?_, Means.parse_eq⟩, ?_, fun kinds set lists members => ?_⟩
  · rintro rfl
    obtain ⟨result, means⟩ := exists_means list.toList
    rw [means.parse_eq]
    exact means
  · obtain ⟨pieces, lists⟩ := exists_lists list.toList
    refine ⟨pieces, fun others => ⟨fun otherLists => otherLists.unique lists, ?_⟩⟩
    rintro rfl
    exact lists
  · exact parse_names lists members

/-- Two kinds are written with a repetition, blanks and an empty part, and `all` among others. -/
theorem parse_means_setter :
    parse "set,\tsemi ,, set" = .ok (.ofList [.semi, .setter]) ∧
      parse "in, all" = .error (.unknownKind "all") := by
  have still : IsGap [] := by simp [IsGap]
  have space : IsGap [' '] := by simp [IsGap, isBlank]
  have tab : IsGap ['\t'] := by simp [IsGap, isBlank]
  have setter : Holds (some (nameOf .setter)) "set".toList :=
    .piece (isPiece_nameOf .setter) ⟨[], [], still, still, rfl⟩
  have semi : Holds (some (nameOf .semi)) "\tsemi ".toList :=
    .piece (isPiece_nameOf .semi) ⟨['\t'], [' '], tab, space, rfl⟩
  have again : Holds (some (nameOf .setter)) " set".toList :=
    .piece (isPiece_nameOf .setter) ⟨[' '], [], space, still, rfl⟩
  have membership : Holds (some (nameOf .membership)) "in".toList :=
    .piece (isPiece_nameOf .membership) ⟨[], [], still, still, rfl⟩
  have unknown : Holds (some "all".toList) " all".toList :=
    .piece isPiece_all ⟨[' '], [], space, still, rfl⟩
  have kinds : Lists ([.setter, .semi, .setter].map nameOf) "set,\tsemi ,, set".toList :=
    .comma setter (.comma semi (.comma (.nothing still) (.last again)))
  have mixed : Lists ([.membership].map nameOf ++ ["all".toList]) "in, all".toList :=
    .comma membership (.last unknown)
  have notAll : ¬Padded "all".toList "in, all".toList := by
    rw [← trim_eq_iff trimmed_all]
    decide
  have notNone : ¬Padded "none".toList "in, all".toList := by
    rw [← trim_eq_iff trimmed_none]
    decide
  have members : ∀ kind, (KindSet.ofList [.semi, .setter]).has kind = true
      ↔ kind ∈ [TokenKind.setter, .semi, .setter] := fun kind => by cases kind <;> decide
  exact ⟨(parse_means _).2.2 _ _ kinds members,
    ((parse_means _).1 _).mpr (.unknown notAll notNone mixed isUnknown_all)⟩

end KindList

end ContextScan

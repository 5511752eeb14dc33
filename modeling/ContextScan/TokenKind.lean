namespace ContextScan

/-! The kinds of token that depend on context.

A host parser numbers these kinds in the order in which its grammar lists them; the number of a
kind is its symbol.  Four of the kinds are only ever requested: they tell the scanner what the
grammar would accept, and no token of theirs is produced. -/

inductive TokenKind where
  /-- A statement terminator: an explicit `;`, or one inserted at a line break. -/
  | semi
  /-- A terminator between the members of a class. -/
  | memberSemi
  | blockComment
  /-- The negated type check `!is`. -/
  | notIs
  /-- The membership test `in`. -/
  | membership
  /-- Safe navigation `?.`, with blanks allowed between its two characters. -/
  | safeNav
  | stringContent
  | constructor
  | getter
  | setter
  /-- An interpolation may follow, so the position is inside a string.  Only requested. -/
  | dollar
deriving DecidableEq, Repr

namespace TokenKind

/-- All kinds in the order of their symbols. -/
def all : List TokenKind :=
  [semi, memberSemi, blockComment, notIs, membership, safeNav, stringContent, constructor, getter,
    setter, dollar]

abbrev count : Nat := 11

/-- The number by which a host parser knows a kind. -/
def symbol : TokenKind → Nat
  | semi => 0
  | memberSemi => 1
  | blockComment => 2
  | notIs => 3
  | membership => 4
  | safeNav => 5
  | stringContent => 6
  | constructor => 7
  | getter => 8
  | setter => 9
  | dollar => 10

def ofSymbol? (symbol : Nat) : Option TokenKind := all[symbol]?

/-- The name of a kind in a grammar and on the command line. -/
def name : TokenKind → String
  | semi => "semi"
  | memberSemi => "class_member_semi"
  | blockComment => "block_comment"
  | notIs => "not_is"
  | membership => "in"
  | safeNav => "q_dot"
  | stringContent => "multiline_string_content"
  | constructor => "constructor"
  | getter => "get"
  | setter => "set"
  | dollar => "dollar"

def ofName? (name : String) : Option TokenKind := all.find? fun kind => kind.name == name

/-- The word for a kind where a trace reports a produced token. -/
def label : TokenKind → String
  | semi => "Semi"
  | memberSemi => "MemberSemi"
  | blockComment => "BlockComment"
  | notIs => "NotIs"
  | membership => "In"
  | safeNav => "SafeNav"
  | stringContent => "StringContent"
  | constructor => "Constructor"
  | getter => "Get"
  | setter => "Set"
  | dollar => "Dollar"

/-- The word for a kind where a trace reports the requested kinds. -/
def flag : TokenKind → String
  | semi => "SEMI"
  | memberSemi => "MEMBER_SEMI"
  | blockComment => "BLOCK_COMMENT"
  | notIs => "NOT_IS"
  | membership => "IN"
  | safeNav => "SAFE_NAV"
  | stringContent => "STRING_CONTENT"
  | constructor => "CONSTRUCTOR"
  | getter => "GET"
  | setter => "SET"
  | dollar => "DOLLAR"

@[simp] theorem mem_all (kind : TokenKind) : kind ∈ all := by cases kind <;> decide

theorem symbol_lt_count (kind : TokenKind) : kind.symbol < count := by cases kind <;> decide

theorem symbol_inj {left right : TokenKind} : left.symbol = right.symbol ↔ left = right := by
  cases left <;> cases right <;> decide

theorem exists_symbol_eq {symbol : Nat} (bounded : symbol < count) :
    ∃ kind : TokenKind, kind.symbol = symbol := by
  have listed : ∀ place : Fin all.length, (all.get place).symbol = place := by decide
  exact ⟨_, listed ⟨symbol, bounded⟩⟩

theorem ofSymbol?_symbol (kind : TokenKind) : ofSymbol? kind.symbol = some kind := by
  cases kind <;> rfl

theorem ofName?_name (kind : TokenKind) : ofName? kind.name = some kind := by
  cases kind <;> decide

theorem ofName?_eq_some_iff {name : String} {kind : TokenKind} :
    ofName? name = some kind ↔ kind.name = name := by
  constructor
  · intro found
    rw [ofName?] at found
    have named := List.find?_some found
    exact eq_of_beq named
  · rintro rfl
    exact ofName?_name kind

end TokenKind

end ContextScan

import ContextScan.TokenKind

namespace ContextScan

/-! Sets of requested kinds.

The host parser tells with every call which kinds it could accept.  A set has one bit for each
kind, at the place of the kind's symbol; `KindSet.ext_has` says that nothing but membership tells
two sets apart. -/

structure KindSet where
  bits : BitVec TokenKind.count
deriving DecidableEq, Repr

namespace KindSet

def empty : KindSet := ⟨BitVec.zero TokenKind.count⟩

def full : KindSet := ⟨BitVec.allOnes TokenKind.count⟩

def has (kinds : KindSet) (kind : TokenKind) : Bool := kinds.bits.getLsbD kind.symbol

def insert (kinds : KindSet) (kind : TokenKind) : KindSet :=
  ⟨kinds.bits ||| BitVec.twoPow TokenKind.count kind.symbol⟩

def erase (kinds : KindSet) (kind : TokenKind) : KindSet :=
  ⟨kinds.bits &&& ~~~BitVec.twoPow TokenKind.count kind.symbol⟩

/-- The set with the given bits; bits that stand for no kind are dropped. -/
def ofBits (bits : Nat) : KindSet := ⟨BitVec.ofNat TokenKind.count bits⟩

def toBits (kinds : KindSet) : Nat := kinds.bits.toNat

def ofList (kinds : List TokenKind) : KindSet := kinds.foldl insert empty

/-- The set of a host's flags, one for each symbol.  Flags past the last kind are ignored, and a
kind without a flag is not requested. -/
def ofFlags (flags : List Bool) : KindSet :=
  ofList (((flags.zip TokenKind.all).filter (·.1)).map (·.2))

def toList (kinds : KindSet) : List TokenKind := TokenKind.all.filter kinds.has

/-- The kind of an inserted terminator: `semi` wins over `memberSemi`. -/
def terminator? (kinds : KindSet) : Option TokenKind :=
  if kinds.has .semi then some .semi
  else if kinds.has .memberSemi then some .memberSemi
  else none

def display (kinds : KindSet) : String :=
  let flags := if kinds = empty then "0x0" else " | ".intercalate (kinds.toList.map (·.flag))
  "KindSet(" ++ flags ++ ")"

@[simp] theorem has_empty (kind : TokenKind) : empty.has kind = false := by
  simp [has, empty]

@[simp] theorem has_full (kind : TokenKind) : full.has kind = true := by
  cases kind <;> decide

@[simp] theorem has_insert (kinds : KindSet) (inserted kind : TokenKind) :
    (kinds.insert inserted).has kind = (kinds.has kind || kind == inserted) := by
  have bounded := kind.symbol_lt_count
  have same : (kind == inserted) = decide (kind.symbol = inserted.symbol) := by
    rw [Bool.eq_iff_iff, beq_iff_eq, decide_eq_true_eq, TokenKind.symbol_inj]
  simp [has, insert, bounded, same]

@[simp] theorem has_erase (kinds : KindSet) (erased kind : TokenKind) :
    (kinds.erase erased).has kind = (kinds.has kind && kind != erased) := by
  have bounded := kind.symbol_lt_count
  have same : (kind == erased) = decide (kind.symbol = erased.symbol) := by
    rw [Bool.eq_iff_iff, beq_iff_eq, decide_eq_true_eq, TokenKind.symbol_inj]
  simp [has, erase, bounded, same, bne]

theorem ext_has {left right : KindSet} (same : ∀ kind, left.has kind = right.has kind) :
    left = right := by
  obtain ⟨leftBits⟩ := left
  obtain ⟨rightBits⟩ := right
  congr
  apply BitVec.eq_of_getLsbD_eq
  intro place bounded
  obtain ⟨kind, rfl⟩ := TokenKind.exists_symbol_eq bounded
  exact same kind

theorem has_ofList {kinds : List TokenKind} {kind : TokenKind} :
    (ofList kinds).has kind = true ↔ kind ∈ kinds := by
  have grown : ∀ (rest : List TokenKind) (start : KindSet),
      (rest.foldl insert start).has kind = true ↔ start.has kind = true ∨ kind ∈ rest := by
    intro rest
    induction rest with
    | nil => simp
    | cons head rest ih => intro start; simp [ih, or_assoc]
  simpa [ofList] using grown kinds empty

theorem mem_toList {kinds : KindSet} {kind : TokenKind} :
    kind ∈ kinds.toList ↔ kinds.has kind = true := by
  simp [toList]

theorem ofList_toList (kinds : KindSet) : ofList kinds.toList = kinds :=
  ext_has fun kind => by
    rw [Bool.eq_iff_iff, has_ofList, mem_toList]

theorem terminator?_isSome {kinds : KindSet} :
    kinds.terminator?.isSome = (kinds.has .semi || kinds.has .memberSemi) := by
  unfold terminator?
  cases kinds.has .semi <;> cases kinds.has .memberSemi <;> rfl

end KindSet

end ContextScan

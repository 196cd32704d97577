import LuaFold.Kind

/-!
# Sets of kinds

A set of kinds is one number: the bit at a kind's index says whether the kind is a member.
Union is the bitwise union of the two numbers.
-/

namespace LuaFold

/-- A set of kinds, packed into the bits of one number. -/
structure KindSet where
  bits : Nat
deriving DecidableEq, Repr

namespace KindSet

/-- The set without members. -/
def empty : KindSet :=
  ⟨0⟩

/-- The set with one member. -/
def singleton (kind : Kind) : KindSet :=
  ⟨1 <<< kind.index⟩

/-- The kinds that belong to one of two sets. -/
def union (left right : KindSet) : KindSet :=
  ⟨left.bits ||| right.bits⟩

/-- The set of the listed kinds. -/
def ofList (kinds : List Kind) : KindSet :=
  kinds.foldl (fun collected kind => collected.union (singleton kind)) empty

/-- Whether a kind is a member. -/
def contains (set : KindSet) (kind : Kind) : Bool :=
  set.bits.testBit kind.index

/-- The members in the order of the kinds. -/
def members (set : KindSet) : List Kind :=
  Kind.all.filter set.contains

/-- The written form of a set: its bits as one decimal number. -/
def render (set : KindSet) : String :=
  "SyntaxSet(" ++ toString set.bits ++ ")"

@[simp]
theorem contains_empty (kind : Kind) : empty.contains kind = false := by
  simp [empty, contains]

end KindSet

end LuaFold

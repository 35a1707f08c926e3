import Conform.Fields
import Conform.Number.Double

/-! JSON documents with two sorts of numbers: integers of 64 bits, signed or unsigned,
and finite floats. A float stays a float even when it is whole. -/

namespace Conform

structure JsonInteger where
  toInt : Int
  minimum_le : -Int.pow 2 63 ≤ toInt
  lt_limit : toInt < Int.pow 2 64
deriving DecidableEq

namespace JsonInteger

def ofInt? (i : Int) : Option JsonInteger :=
  if h : -Int.pow 2 63 ≤ i ∧ i < Int.pow 2 64 then some ⟨i, h.1, h.2⟩ else none

theorem ofInt?_eq_some_iff {i : Int} {n : JsonInteger} : ofInt? i = some n ↔ n.toInt = i := by
  obtain ⟨j, minimum_le, lt_limit⟩ := n
  unfold ofInt?
  split
  · simp [eq_comm]
  · next outside =>
    simp only [reduceCtorEq, false_iff]
    rintro rfl
    exact outside ⟨minimum_le, lt_limit⟩

def ofInt64 (i : Int64) : JsonInteger :=
  ⟨i.toInt, Int64.le_toInt i, Int.lt_trans (Int64.toInt_lt i) (by decide)⟩

end JsonInteger

abbrev FiniteDouble := { x : Double // x.isFinite = true }

inductive Document where
  | null
  | bool (b : Bool)
  | integer (i : JsonInteger)
  | float (x : FiniteDouble)
  | string (s : String)
  | array (items : List Document)
  | object (fields : List (String × Document))
deriving Inhabited

namespace Document

def bool? : Document → Option Bool
  | bool b => some b
  | _ => none

def string? : Document → Option String
  | string s => some s
  | _ => none

def items? : Document → Option (List Document)
  | array items => some items
  | _ => none

/-- The numeric value, rounded for integers beyond the precision of a double. -/
def number? : Document → Option Double
  | integer i => some (.ofInt i.toInt)
  | float x => some x.val
  | _ => none

/-- An integer that counts something; a float is none, even a whole one. -/
def count? : Document → Option Nat
  | integer i => if 0 ≤ i.toInt then some i.toInt.toNat else none
  | _ => none

end Document

end Conform

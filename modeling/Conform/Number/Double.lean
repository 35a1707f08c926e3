/-! Double precision numbers as 64-bit words. A finite word stands for a signed whole
number of units of `2 ^ -1074`, so comparison and rounding are exact arithmetic on
natural numbers. -/

namespace Conform

structure Double where
  bits : UInt64
deriving DecidableEq, Inhabited

namespace Double

def infinityWord : Nat := 2047 * Nat.pow 2 52

def isNegative (x : Double) : Bool := decide (Nat.pow 2 63 ≤ x.bits.toNat)

def word (x : Double) : Nat := x.bits.toNat % Nat.pow 2 63

def isNaN (x : Double) : Bool := decide (infinityWord < x.word)

def isInfinite (x : Double) : Bool := x.word == infinityWord

def isFinite (x : Double) : Bool := decide (x.word < infinityWord)

def exponentField (x : Double) : Nat := x.word / Nat.pow 2 52

def significand (x : Double) : Nat :=
  if x.exponentField = 0 then x.word % Nat.pow 2 52 else Nat.pow 2 52 + x.word % Nat.pow 2 52

/-- The magnitude of a finite number, counted in units of `2 ^ -1074`. -/
def units (x : Double) : Nat := x.significand * Nat.pow 2 (x.exponentField - 1)

/-- The place of a number in the order of all numbers; both zeros share one place. -/
def rank (x : Double) : Int := if x.isNegative then -(x.word : Int) else x.word

def lt (x y : Double) : Bool := !x.isNaN && !y.isNaN && decide (x.rank < y.rank)

/-- Numeric equality: the two zeros are equal, and a word that is not a number differs
from every word, itself included. -/
instance : BEq Double where
  beq x y := !x.isNaN && !y.isNaN && x.rank == y.rank

def isWhole (x : Double) : Bool := x.isFinite && x.units % Nat.pow 2 1074 == 0

def roundHalfEven (num den : Nat) : Nat :=
  let q := num / den
  let twice := 2 * (num % den)
  if twice < den then q else if den < twice then q + 1 else q + q % 2

def binaryExponent (num den : Nat) : Int :=
  let e : Int := (num.log2 : Int) - den.log2
  if num * Nat.pow 2 (-e).toNat < den * Nat.pow 2 e.toNat then e - 1 else e

/-- The word of the number nearest to `num / den`, a tie going to the even word. -/
def wordOfRatio (num den : Nat) : Nat :=
  if num = 0 then 0 else
    let e := max (binaryExponent num den) (-1022)
    let rounded := roundHalfEven (num * Nat.pow 2 (52 - e).toNat) (den * Nat.pow 2 (e - 52).toNat)
    min infinityWord ((e + 1022).toNat * Nat.pow 2 52 + rounded)

def ofWord (negative : Bool) (word : Nat) : Double :=
  ⟨UInt64.ofNat (word + if negative then Nat.pow 2 63 else 0)⟩

def ofNat (n : Nat) : Double := ofWord false (wordOfRatio n 1)

def ofInt (i : Int) : Double := ofWord (decide (i < 0)) (wordOfRatio i.natAbs 1)

/-- The whole part of a number as a length of 64 bits. The largest length stands for all
that are greater, and numbers below one, infinities and words that are not numbers have
none. -/
def wholePart (x : Double) : Nat :=
  if x.isFinite && !x.isNegative then min (Nat.pow 2 64 - 1) (x.units / Nat.pow 2 1074) else 0

end Double

end Conform

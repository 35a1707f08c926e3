import Conform.Number.Double

/-! The shortest decimal of a finite number: the fewest digits that read back as that
number, and among those the nearest. Grids of decimal places are tried from coarse to
fine, and on each one only the two neighbours of the number can read back. -/

namespace Conform

structure Decimal where
  digits : Nat
  place : Int
deriving DecidableEq, Inhabited

namespace Decimal

def word (d : Decimal) : Nat :=
  Double.wordOfRatio (d.digits * Nat.pow 10 d.place.toNat) (Nat.pow 10 (-d.place).toNat)

/-- Of the two neighbours of a number on the grid of `place`, the nearer one that reads
back, the upper one in a tie. -/
def onGrid? (x : Double) (place : Int) : Option Decimal :=
  let num := x.units * Nat.pow 10 (-place).toNat
  let den := Nat.pow 2 1074 * Nat.pow 10 place.toNat
  let lower : Decimal := ⟨num / den, place⟩
  let upper : Decimal := ⟨num / den + 1, place⟩
  let readsBack (d : Decimal) : Bool := d.digits != 0 && d.word == x.word
  if readsBack lower && (decide (2 * (num % den) < den) || !readsBack upper) then some lower
  else if readsBack upper then some upper
  else none

/-- A grid too coarse for any number of this binary exponent to need a coarser one. -/
def coarsestPlace (x : Double) : Int :=
  ((x.units.log2 : Int) - 1074) * 30103 / 100000 + 2

def shortest (x : Double) : Decimal :=
  if x.units = 0 then ⟨0, 0⟩
  else ((List.range 24).findSome? fun (i : Nat) => onGrid? x (coarsestPlace x - i)).getD ⟨0, 0⟩

end Decimal

end Conform

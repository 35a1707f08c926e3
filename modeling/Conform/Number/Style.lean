import Conform.Number.Decimal

/-! The written form of a number: which words stand for the values without digits, and
where plain digits give way to an exponent. -/

namespace Conform

structure NumberStyle where
  infinity : String
  pointAlways : Bool
  /-- Numbers below `10 ^ -4` and from `10 ^ 16` on are written with an exponent. -/
  scientific : Bool

namespace NumberStyle

def limit : NumberStyle := ⟨"inf", false, false⟩

def literal : NumberStyle := ⟨"Infinity", false, false⟩

/-- Structural text keeps floats apart from integers by the point or the exponent. -/
def structural : NumberStyle := ⟨"inf", true, true⟩

end NumberStyle

namespace Decimal

def plain (d : Decimal) : String :=
  let digits := Nat.toDigits 10 d.digits
  if 0 ≤ d.place then String.ofList (digits ++ List.replicate d.place.toNat '0')
  else
    let places := (-d.place).toNat
    let padded := List.replicate (places + 1 - digits.length) '0' ++ digits
    let whole := padded.length - places
    String.ofList (padded.take whole ++ '.' :: padded.drop whole)

def scientific (d : Decimal) : String :=
  let digits := Nat.toDigits 10 d.digits
  let exponent := d.place + (digits.length - 1 : Nat)
  let fraction := match digits.drop 1 with
    | [] => []
    | rest => '.' :: rest
  String.ofList (digits.take 1 ++ fraction) ++ "e" ++ toString exponent

def inPlainRange (d : Decimal) : Bool :=
  let exponent := d.place + ((Nat.toDigits 10 d.digits).length - 1 : Nat)
  d.digits == 0 || (decide (-4 ≤ exponent) && decide (exponent < 16))

end Decimal

def Double.text (style : NumberStyle) (x : Double) : String :=
  if x.isNaN then "NaN" else
    let sign := if x.isNegative then "-" else ""
    if x.isInfinite then sign ++ style.infinity else
      let d := Decimal.shortest x
      if style.scientific && !d.inPlainRange then sign ++ d.scientific
      else if style.pointAlways && decide (0 ≤ d.place) then sign ++ d.plain ++ ".0"
      else sign ++ d.plain

end Conform

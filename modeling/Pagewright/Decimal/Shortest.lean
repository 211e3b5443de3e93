import Pagewright.Decimal.Binary64

/-!
# Shortest decimal digits

The numbers that round to a given double fill an interval around it, whose
ends belong to it when the significand is even. `shortest` is the decimal with
the fewest digits in that interval and, of those, the nearest to the double.
For a given number of digits only the two neighbours on that decimal grid can
qualify, and seventeen digits always suffice.
-/

set_option autoImplicit false

namespace Pagewright

structure Decimal where
  digits : Nat
  exponent : Int
  deriving DecidableEq, Repr

namespace Decimal

def length (n : Nat) : Nat := (Nat.toDigits 10 n).length

def stripZeros : Nat → Decimal → Decimal
  | 0, d => d
  | fuel + 1, d =>
    if d.digits ≠ 0 && d.digits % 10 = 0 then stripZeros fuel ⟨d.digits / 10, d.exponent + 1⟩ else d

def normal (d : Decimal) : Decimal := stripZeros (length d.digits) d

def scaled (num den : Nat) (exponent : Int) : Nat × Nat :=
  if 0 ≤ exponent then (num, den * Nat.pow 10 exponent.toNat)
  else (num * Nat.pow 10 (-exponent).toNat, den)

def leadingExponent (num den : Nat) : Int :=
  let guess : Int := (length num : Int) - (length den : Int)
  let (n, d) := scaled num den guess
  if n < d then guess - 1 else guess

end Decimal

namespace Binary64

/-- Four times the double and the ends of its rounding interval, as numerators over one
denominator. The interval below a power of two is half as wide. -/
def interval (significand : Nat) (exponent : Int) : Nat × Nat × Nat × Nat :=
  let below := if significand = 0x10000000000000 && leastExponent < exponent then 1 else 2
  let (unit, den) := magnitude 1 exponent
  ((4 * significand - below) * unit, 4 * significand * unit, (4 * significand + 2) * unit, 4 * den)

def onGrid (significand : Nat) (exponent grid : Int) : Option Nat :=
  let (low, mid, high, den) := interval significand exponent
  let (m, d) := Decimal.scaled mid den grid
  let (l, _) := Decimal.scaled low den grid
  let (h, _) := Decimal.scaled high den grid
  let inside (k : Nat) : Bool :=
    if significand % 2 = 0 then l ≤ k * d && k * d ≤ h else l < k * d && k * d < h
  let lower := m / d
  let upper := lower + 1
  match inside lower && lower != 0, inside upper with
  | true, true => some (if m - lower * d ≤ upper * d - m then lower else upper)
  | true, false => some lower
  | false, true => some upper
  | false, false => none

def search (significand : Nat) (exponent leading : Int) : Nat → Nat → Option Decimal
  | 0, _ => none
  | fuel + 1, count =>
    let grid := leading - (count : Int) + 1
    match onGrid significand exponent grid with
    | some digits => some (Decimal.normal ⟨digits, grid⟩)
    | none => search significand exponent leading fuel (count + 1)

def shortest (significand : Nat) (exponent : Int) : Decimal :=
  if significand = 0 then ⟨0, 0⟩
  else
    let (n, d) := magnitude significand exponent
    (search significand exponent (Decimal.leadingExponent n d) 17 1).getD ⟨0, 0⟩

end Binary64

end Pagewright

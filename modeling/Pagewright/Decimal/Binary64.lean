/-!
# Double-precision numbers

A finite number is a signed significand times a power of two, kept in the one
form the 64-bit format admits: the significand has 53 bits, or fewer at the
smallest exponent. `ofRatio` rounds a quotient of naturals to the nearest such
number, a tie going to the even significand.
-/

set_option autoImplicit false

namespace Pagewright

inductive Binary64 where
  | finite (negative : Bool) (significand : Nat) (exponent : Int)
  | infinite (negative : Bool)
  | nan
  deriving DecidableEq, Repr

/-- The quotient rounded to the nearest natural, a tie going to the even one. -/
def roundDiv (num den : Nat) : Nat :=
  let q := num / den
  let r := num % den
  if 2 * r > den || (2 * r == den && q % 2 == 1) then q + 1 else q

namespace Binary64

def leastExponent : Int := -1074

def greatestExponent : Int := 971

def zero (negative : Bool) : Binary64 := .finite negative 0 leastExponent

def scaled (num den : Nat) (exponent : Int) : Nat × Nat :=
  if 0 ≤ exponent then (num, den * Nat.pow 2 exponent.toNat)
  else (num * Nat.pow 2 (-exponent).toNat, den)

def exponentOf (num den : Nat) : Int :=
  let guess : Int := (num.log2 : Int) - (den.log2 : Int) - 53
  let (n, d) := scaled num den guess
  max leastExponent (if n / d < 0x20000000000000 then guess else guess + 1)

def ofRatio (negative : Bool) (num den : Nat) : Binary64 :=
  if num = 0 then zero negative
  else
    let e := exponentOf num den
    let (n, d) := scaled num den e
    let m := roundDiv n d
    let (m, e) := if m = 0x20000000000000 then (0x10000000000000, e + 1) else (m, e)
    if greatestExponent < e then .infinite negative else .finite negative m e

def ofInt (n : Int) : Binary64 := ofRatio (n < 0) n.natAbs 1

def magnitude (significand : Nat) (exponent : Int) : Nat × Nat :=
  if 0 ≤ exponent then (significand * Nat.pow 2 exponent.toNat, 1)
  else (significand, Nat.pow 2 (-exponent).toNat)

def isNegative : Binary64 → Bool
  | .finite negative m _ => negative && m != 0
  | .infinite negative => negative
  | .nan => false

def isFinite : Binary64 → Bool
  | .finite .. => true
  | _ => false

def abs : Binary64 → Binary64
  | .finite _ m e => .finite false m e
  | .infinite _ => .infinite false
  | .nan => .nan

def whole? : Binary64 → Option Int
  | .finite negative m e =>
    let (n, d) := magnitude m e
    if n % d = 0 then some (if negative then -((n / d : Nat) : Int) else ((n / d : Nat) : Int))
    else none
  | _ => none

def inUnitInterval : Binary64 → Bool
  | .finite negative m e =>
    let (n, d) := magnitude m e
    m == 0 || (!negative && n ≤ d)
  | _ => false

def percentage : Binary64 → Nat
  | .finite _ m e =>
    let (n, d) := magnitude m e
    match ofRatio false (n * 100) d with
    | .finite _ m' e' =>
      let (n', d') := magnitude m' e'
      (2 * n' + d') / (2 * d')
    | _ => 0
  | _ => 0

end Binary64

end Pagewright

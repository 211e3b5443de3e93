import Pagewright.Decimal.Shortest

/-!
# Written numbers

The digits of a number are chosen once, by `Binary64.shortest`; the ways they
are written differ in where positional notation ends and in the look of the
exponent. `Layout` holds those choices.
-/

set_option autoImplicit false

namespace Pagewright

structure Layout where
  /-- Exponents of the leading digit that are written positionally. -/
  positional : Int → Bool
  /-- What follows the digits of a whole number. -/
  wholeEnding : String
  /-- What stands before the digits of a positive exponent. -/
  exponentSign : String

namespace Decimal

def digitText (n : Nat) : String := String.ofList (Nat.toDigits 10 n)

def zeros (n : Nat) : String := String.ofList (List.replicate n '0')

def leading (d : Decimal) : Int := d.exponent + (length d.digits : Int) - 1

def positional (d : Decimal) (wholeEnding : String) : String :=
  let text := digitText d.digits
  if 0 ≤ d.exponent then text ++ zeros d.exponent.toNat ++ wholeEnding
  else
    let places := (-d.exponent).toNat
    if places < text.length then
      let cut := text.length - places
      String.ofList (text.toList.take cut) ++ "." ++ String.ofList (text.toList.drop cut)
    else "0." ++ zeros (places - text.length) ++ text

def scientific (d : Decimal) (exponentSign : String) : String :=
  let significand :=
    match Nat.toDigits 10 d.digits with
    | [] => ""
    | [c] => String.ofList [c]
    | c :: rest => String.ofList (c :: '.' :: rest)
  let e := d.leading
  let sign := if e < 0 then "-" else exponentSign
  significand ++ "e" ++ sign ++ digitText e.natAbs

def text (layout : Layout) (d : Decimal) : String :=
  if d.digits = 0 then "0" ++ layout.wholeEnding
  else if layout.positional d.leading then d.positional layout.wholeEnding
  else d.scientific layout.exponentSign

end Decimal

def Binary64.text (layout : Layout) : Binary64 → String
  | .finite negative m e =>
    (if negative then "-" else "") ++ (Binary64.shortest m e).text layout
  | .infinite negative => if negative then "-inf" else "inf"
  | .nan => "NaN"

end Pagewright

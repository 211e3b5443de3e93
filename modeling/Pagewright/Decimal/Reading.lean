import Pagewright.Decimal.Binary64

/-!
# Reading decimal numbers

A number is an optional sign, digits with at most one point among or beside
them, and an optional exponent; at least one digit stands before the exponent.
The words `inf`, `infinity` and `nan` are read in any case. The result is the
nearest double, infinite beyond the largest.
-/

set_option autoImplicit false

namespace Pagewright.Decimal

def isDigit (c : Char) : Bool := '0' ≤ c && c ≤ '9'

def valueOfDigits (cs : List Char) : Nat :=
  cs.foldl (fun n c => n * 10 + (c.toNat - '0'.toNat)) 0

/-- The nearest double to `digits * 10 ^ exponent`. Far outside the range of doubles the answer
is known from the number of digits alone. -/
def toBinary64 (negative : Bool) (digits : Nat) (exponent : Int) : Binary64 :=
  if digits = 0 then Binary64.zero negative
  else
    let leading := exponent + ((Nat.toDigits 10 digits).length : Int)
    if 400 < leading then .infinite negative
    else if leading < -400 then Binary64.zero negative
    else if 0 ≤ exponent then Binary64.ofRatio negative (digits * Nat.pow 10 exponent.toNat) 1
    else Binary64.ofRatio negative digits (Nat.pow 10 (-exponent).toNat)

def signed (negative : Bool) (n : Nat) : Int := if negative then -(n : Int) else n

def takeSign : List Char → Bool × List Char
  | '-' :: rest => (true, rest)
  | '+' :: rest => (false, rest)
  | cs => (false, cs)

def exponentPart : List Char → Option Int
  | [] => some 0
  | c :: rest =>
    if c == 'e' || c == 'E' then
      let (negative, ds) := takeSign rest
      if ds.isEmpty || !ds.all isDigit then none else some (signed negative (valueOfDigits ds))
    else none

def readUnsigned (negative : Bool) (cs : List Char) : Option Binary64 :=
  let whole := cs.takeWhile isDigit
  let rest := cs.dropWhile isDigit
  let (fraction, tail) :=
    match rest with
    | '.' :: more => (more.takeWhile isDigit, more.dropWhile isDigit)
    | _ => ([], rest)
  if whole.isEmpty && fraction.isEmpty then none
  else
    (exponentPart tail).map fun e =>
      toBinary64 negative (valueOfDigits (whole ++ fraction)) (e - (fraction.length : Int))

def read (s : String) : Option Binary64 :=
  let (negative, cs) := takeSign s.toList
  let word := String.ofList (cs.map Char.toLower)
  if word == "inf" || word == "infinity" then some (.infinite negative)
  else if word == "nan" then some .nan
  else readUnsigned negative cs

end Pagewright.Decimal

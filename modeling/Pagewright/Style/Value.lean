import Pagewright.Decimal.Reading
import Pagewright.Json.Value
import Pagewright.Text.Blank

/-!
# Style values

A style value is a number or a text, as the editor stores it. Numbers are
written positionally at every size, and whole ones without a fraction or sign
of zero.
-/

set_option autoImplicit false

namespace Pagewright

inductive StyleValue where
  | number (value : Binary64)
  | text (value : String)
  deriving DecidableEq, Repr

namespace StyleValue

def plainLayout : Layout := ⟨fun _ => true, "", ""⟩

def numberText (x : Binary64) : String :=
  match x.whole? with
  | some n => if n.natAbs < 1000000000000000 then Json.wholeText n else x.text plainLayout
  | none => x.text plainLayout

def written : StyleValue → String
  | .number x => numberText x
  | .text s => s

def number? : StyleValue → Option Binary64
  | .number x => some x
  | .text s => Decimal.read (Text.trim s)

def keyword? : StyleValue → Option String
  | .number _ => none
  | .text s => some (Text.trim s)

def readPixels (cs : List Char) : Option Binary64 :=
  let (negative, unsigned) := match cs with
    | '-' :: rest => (true, rest)
    | _ => (false, cs)
  let whole := unsigned.takeWhile Decimal.isDigit
  let rest := unsigned.dropWhile Decimal.isDigit
  let (fraction, tail) := match rest with
    | '.' :: d :: more =>
      if Decimal.isDigit d then
        ((d :: more).takeWhile Decimal.isDigit, (d :: more).dropWhile Decimal.isDigit)
      else ([], rest)
    | _ => ([], rest)
  if whole.isEmpty then none
  else if tail.isEmpty || tail == ['p', 'x'] then
    some (Decimal.toBinary64 negative (Decimal.valueOfDigits (whole ++ fraction))
      (-(fraction.length : Int)))
  else none

def pixels? : StyleValue → Option Binary64
  | .number x => if x.isFinite then some x else none
  | .text s => readPixels (Text.trim s).toList

def wholePixels? (v : StyleValue) : Option Nat :=
  match v.pixels?.bind Binary64.whole? with
  | some (.ofNat n) => some n
  | _ => none

end StyleValue

end Pagewright

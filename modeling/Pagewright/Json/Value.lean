import Pagewright.Decimal.Layout
import Pagewright.Ordered.Map
import Pagewright.Text.Lines
import Pagewright.Text.Quoted

/-!
# JSON values

Property values of components are JSON. Whole numbers of 64 bits stay whole,
every other number is a double, and the fields of an object keep their order.
`compact` writes a value on one line without spaces.
-/

set_option autoImplicit false

namespace Pagewright

inductive Json where
  | null
  | bool (value : Bool)
  | whole (value : Int)
  | real (value : Binary64)
  | text (value : String)
  | list (items : List Json)
  | object (fields : List (String × Json))
  deriving Repr, Inhabited

namespace Json

/-- Doubles are positional from 1e-5 to below 1e16 and then have a fraction; an exponent always
carries its sign. -/
def numberLayout : Layout := ⟨fun e => -5 ≤ e && e < 16, ".0", "+"⟩

def wholeText (n : Int) : String :=
  if n < 0 then "-" ++ Decimal.digitText n.natAbs else Decimal.digitText n.natAbs

mutual

def compact : Json → String
  | .null => "null"
  | .bool true => "true"
  | .bool false => "false"
  | .whole n => wholeText n
  | .real x => x.text numberLayout
  | .text s => Text.quoted s
  | .list items => "[" ++ Text.join "," (compactItems items) ++ "]"
  | .object fields => "\x7b" ++ Text.join "," (compactFields fields) ++ "\x7d"

def compactItems : List Json → List String
  | [] => []
  | item :: rest => compact item :: compactItems rest

def compactFields : List (String × Json) → List String
  | [] => []
  | (key, value) :: rest => (Text.quoted key ++ ":" ++ compact value) :: compactFields rest

end

def number? : Json → Option Binary64
  | .whole n => some (Binary64.ofInt n)
  | .real x => some x
  | _ => none

def isScalar : Json → Bool
  | .list _ => false
  | .object _ => false
  | _ => true

def text? : Json → Option String
  | .text s => some s
  | _ => none

def ofFields (fields : List (String × Json)) : Json :=
  .object (fields.foldl (fun acc field => put field.1 field.2 acc) [])

end Json

end Pagewright

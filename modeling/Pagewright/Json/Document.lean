import Pagewright.Json.Value
import Pagewright.Decimal.Reading

/-!
# JSON text

`Document` is JSON as it is written: repeated keys are kept, numbers are kept as
numerals and a text with an unpaired surrogate escape is kept as unreadable.
These three only matter where a value is asked for, and a part of a document that
nobody asks for may hold them. `Document.read` accepts the strict grammar.
-/

set_option autoImplicit false

namespace Pagewright

structure Numeral where
  negative : Bool
  integer : List Char
  fraction : List Char
  exponent : Option Int
  deriving Repr

inductive Document where
  | null
  | bool (value : Bool)
  | number (value : Numeral)
  | text (value : Option String)
  | list (items : List Document)
  | object (fields : List (Option String × Document))
  deriving Repr, Inhabited

namespace Numeral

def isWhole (n : Numeral) : Bool := n.fraction.isEmpty && n.exponent.isNone

/-- The number, unless it is too large for a double. Negative zero is not whole. -/
def value? (n : Numeral) : Option Json :=
  let digits := Decimal.valueOfDigits n.integer
  if n.isWhole && !n.negative && digits ≤ 0xffffffffffffffff then some (.whole digits)
  else if n.isWhole && n.negative && digits ≠ 0 && digits ≤ 0x8000000000000000 then
    some (.whole (-(digits : Int)))
  else
    let all := Decimal.valueOfDigits (n.integer ++ n.fraction)
    let x := Decimal.toBinary64 n.negative all (n.exponent.getD 0 - (n.fraction.length : Int))
    if x.isFinite then some (.real x) else none

end Numeral

namespace Document

def isSpace (c : Char) : Bool := c == ' ' || c == '\t' || c == '\n' || c == '\r'

def skipSpace (cs : List Char) : List Char := cs.dropWhile isSpace

inductive Piece where
  | char (c : Char)
  | unit (code : Nat)

def simpleEscape? : Char → Option Char
  | '"' => some '"'
  | '\\' => some '\\'
  | '/' => some '/'
  | 'b' => some (Char.ofNat 0x8)
  | 'f' => some (Char.ofNat 0xc)
  | 'n' => some '\n'
  | 'r' => some '\r'
  | 't' => some '\t'
  | _ => none

def unitOf? (a b c d : Char) : Option Nat := do
  let a ← Text.hexValue? a
  let b ← Text.hexValue? b
  let c ← Text.hexValue? c
  let d ← Text.hexValue? d
  some (a * 4096 + b * 256 + c * 16 + d)

def pieces : List Char → Option (List Piece × List Char)
  | [] => none
  | '"' :: rest => some ([], rest)
  | '\\' :: 'u' :: a :: b :: c :: d :: rest => do
    let code ← unitOf? a b c d
    let (ps, tail) ← pieces rest
    some (.unit code :: ps, tail)
  | '\\' :: e :: rest => do
    let c ← simpleEscape? e
    let (ps, tail) ← pieces rest
    some (.char c :: ps, tail)
  | c :: rest =>
    if c.toNat < 0x20 || c == '\\' then none
    else do
      let (ps, tail) ← pieces rest
      some (.char c :: ps, tail)

def isLeading (code : Nat) : Bool := 0xd800 ≤ code && code < 0xdc00

def isTrailing (code : Nat) : Bool := 0xdc00 ≤ code && code < 0xe000

def assemble : List Piece → Option (List Char)
  | [] => some []
  | .char c :: rest => (assemble rest).map (c :: ·)
  | .unit hi :: .unit lo :: rest =>
    if isLeading hi && isTrailing lo then
      (assemble rest).map (Char.ofNat (0x10000 + (hi - 0xd800) * 0x400 + (lo - 0xdc00)) :: ·)
    else if isLeading hi || isTrailing hi then none
    else (assemble (.unit lo :: rest)).map (Char.ofNat hi :: ·)
  | .unit code :: rest =>
    if isLeading code || isTrailing code then none else (assemble rest).map (Char.ofNat code :: ·)

def readText (cs : List Char) : Option (Option String × List Char) := do
  let (ps, rest) ← pieces cs
  some ((assemble ps).map String.ofList, rest)

def readInteger : List Char → Option (List Char × List Char)
  | '0' :: rest => some (['0'], rest)
  | cs =>
    let ds := cs.takeWhile Decimal.isDigit
    if ds.isEmpty then none else some (ds, cs.dropWhile Decimal.isDigit)

def readFraction : List Char → Option (List Char × List Char)
  | '.' :: rest =>
    let ds := rest.takeWhile Decimal.isDigit
    if ds.isEmpty then none else some (ds, rest.dropWhile Decimal.isDigit)
  | cs => some ([], cs)

def readExponent : List Char → Option (Option Int × List Char)
  | [] => some (none, [])
  | c :: rest =>
    if c == 'e' || c == 'E' then
      let (negative, more) := Decimal.takeSign rest
      let ds := more.takeWhile Decimal.isDigit
      if ds.isEmpty then none
      else
        some (some (Decimal.signed negative (Decimal.valueOfDigits ds)),
          more.dropWhile Decimal.isDigit)
    else some (none, c :: rest)

def readNumeral (cs : List Char) : Option (Numeral × List Char) := do
  let (negative, unsigned) := match cs with
    | '-' :: rest => (true, rest)
    | _ => (false, cs)
  let (integer, rest) ← readInteger unsigned
  let (fraction, rest) ← readFraction rest
  let (exponent, rest) ← readExponent rest
  some (⟨negative, integer, fraction, exponent⟩, rest)

mutual

/-- One value at the start of the characters, after space. Every call uses up a character, so the
length of the text is enough fuel. -/
def readValue : Nat → List Char → Option (Document × List Char)
  | 0, _ => none
  | fuel + 1, cs =>
    match skipSpace cs with
    | 'n' :: 'u' :: 'l' :: 'l' :: rest => some (.null, rest)
    | 't' :: 'r' :: 'u' :: 'e' :: rest => some (.bool true, rest)
    | 'f' :: 'a' :: 'l' :: 's' :: 'e' :: rest => some (.bool false, rest)
    | '"' :: rest => (readText rest).map fun (s, tail) => (.text s, tail)
    | '[' :: rest =>
      match skipSpace rest with
      | ']' :: tail => some (.list [], tail)
      | _ => (readItems fuel rest).map fun (items, tail) => (.list items, tail)
    | '\x7b' :: rest =>
      match skipSpace rest with
      | '\x7d' :: tail => some (.object [], tail)
      | _ => (readFields fuel rest).map fun (fields, tail) => (.object fields, tail)
    | other => (readNumeral other).map fun (n, tail) => (.number n, tail)

def readItems : Nat → List Char → Option (List Document × List Char)
  | 0, _ => none
  | fuel + 1, cs => do
    let (item, rest) ← readValue fuel cs
    match skipSpace rest with
    | ']' :: tail => some ([item], tail)
    | ',' :: more => do
      let (items, tail) ← readItems fuel more
      some (item :: items, tail)
    | _ => none

def readFields : Nat → List Char → Option (List (Option String × Document) × List Char)
  | 0, _ => none
  | fuel + 1, cs =>
    match skipSpace cs with
    | '"' :: rest => do
      let (key, rest) ← readText rest
      match skipSpace rest with
      | ':' :: rest => do
        let (value, rest) ← readValue fuel rest
        match skipSpace rest with
        | '\x7d' :: tail => some ([(key, value)], tail)
        | ',' :: more => do
          let (fields, tail) ← readFields fuel more
          some ((key, value) :: fields, tail)
        | _ => none
      | _ => none
    | _ => none

end

def read (s : String) : Option Document :=
  let cs := s.toList
  match readValue (cs.length + 1) cs with
  | some (doc, rest) => if (skipSpace rest).isEmpty then some doc else none
  | none => none

def nestingLimit : Nat := 127

mutual

def value? (levels : Nat) : Document → Option Json
  | .null => some .null
  | .bool b => some (.bool b)
  | .number n => n.value?
  | .text s => s.map .text
  | .list items =>
    match levels with
    | 0 => none
    | levels + 1 => (itemValues? levels items).map .list
  | .object fields =>
    match levels with
    | 0 => none
    | levels + 1 => (fieldValues? levels fields).map Json.ofFields

def itemValues? (levels : Nat) : List Document → Option (List Json)
  | [] => some []
  | item :: rest => do
    let value ← value? levels item
    let values ← itemValues? levels rest
    some (value :: values)

def fieldValues? (levels : Nat) : List (Option String × Document) → Option (List (String × Json))
  | [] => some []
  | (key, item) :: rest => do
    let key ← key
    let value ← value? levels item
    let values ← fieldValues? levels rest
    some ((key, value) :: values)

end

mutual

def collapse : Document → Document
  | .list items => .list (collapseItems items)
  | .object fields => .object (collapseFields fields [])
  | doc => doc

def collapseItems : List Document → List Document
  | [] => []
  | item :: rest => collapse item :: collapseItems rest

def collapseFields : List (Option String × Document) → List (Option String × Document) →
    List (Option String × Document)
  | [], done => done
  | (key, item) :: rest, done =>
    let item := collapse item
    let done :=
      if done.any (fun field => field.1 == key) then
        done.map (fun field => if field.1 == key then (key, item) else field)
      else done ++ [(key, item)]
    collapseFields rest done

end

end Document

end Pagewright

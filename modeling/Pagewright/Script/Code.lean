import Pagewright.Decimal.Layout
import Pagewright.Script.Grammar.Module

/-!
# Printed literals and module names

Numbers are printed as short as possible, strings in double quotes, and the parts of
an import or an export on one line.
-/

set_option autoImplicit false

namespace Pagewright.Script

/-! ## Numbers -/

def scriptLayout : Layout := ⟨fun e => -7 ≤ e && e < 21, "", "+"⟩

def shorter (candidate best : String) : String :=
  if candidate.length < best.length then candidate else best

def hexText (n : Nat) : String := String.ofList (Nat.toDigits 16 n)

def smallNumber (s : String) : String :=
  match s.toList with
  | '.' :: '0' :: rest =>
    let digits := (rest.dropWhile (· == '0'))
    shorter (String.ofList digits ++ "e-" ++ Decimal.digitText (s.length - 1)) s
  | _ => s

def roundNumber (s : String) : String :=
  let zeros := (s.toList.reverse.takeWhile (· == '0')).length
  if zeros = 0 then s
  else
    shorter (String.ofList (s.toList.take (s.length - zeros)) ++ "e" ++ Decimal.digitText zeros) s

def pointless (s : String) : String :=
  let whole := s.toList.takeWhile (· != '.')
  let fraction := (s.toList.drop (whole.length + 1)).takeWhile (· != 'e')
  let exponent := s.toList.drop (whole.length + 1 + fraction.length + 1)
  if exponent.isEmpty then s
  else
    let (negative, digits) := Decimal.takeSign exponent
    let moved := Decimal.signed negative (Decimal.valueOfDigits digits) - (fraction.length : Int)
    let sign := if moved < 0 then "-" else ""
    shorter (String.ofList (whole ++ fraction) ++ "e" ++ sign ++ Decimal.digitText moved.natAbs) s

def compressed (whole : Option Int) (s : String) : String :=
  match whole with
  | some n =>
    let hex := "0x" ++ hexText (min n.toNat (0xffffffffffffffffffffffffffffffff))
    if hex.length < s.length then hex else pointless (roundNumber s)
  | none => pointless (roundNumber (smallNumber s))

def dropFirst (start : String) (s : String) : String :=
  if Text.startsWith s start then String.ofList (s.toList.drop start.length) else s

def numberCode (x : Binary64) : String :=
  match x with
  | .infinite _ => "Infinity"
  | _ =>
    let plain := x.text scriptLayout
    match x.whole? with
    | some n => if n < 1000 then plain else compressed (some n) (plain.replace "e+" "e")
    | none =>
      let unzeroed := if Text.startsWith plain "0." then dropFirst "0" plain else plain
      compressed none (unzeroed.replace "e+" "e")

/-! ## Strings -/

def hexPair (n : Nat) : List Char :=
  [Text.hexDigit (n / 16), Text.hexDigit (n % 16)].map Char.toUpper

def charCode (c : Char) (next : Option TextUnit) : List Char :=
  if c == '"' || c == '\\' then ['\\', c]
  else if c == '\n' then ['\\', 'n']
  else if c == '\r' then ['\\', 'r']
  else if c == '\x08' then ['\\', 'b']
  else if c == '\x0b' then ['\\', 'v']
  else if c == '\x0c' then ['\\', 'f']
  else if c == '\x00' then
    match next with
    | some (.char d) => if d.isDigit then "\\x00".toList else ['\\', '0']
    | _ => ['\\', '0']
  else if c == '\x07' || c == '\x1b' || c == '\xa0' then '\\' :: 'x' :: hexPair c.toNat
  else if c == '\u2028' then "\\u2028".toList
  else if c == '\u2029' then "\\u2029".toList
  else [c]

def startsScriptEnd (units : List TextUnit) : Bool :=
  (units.take 7).map (fun
    | .char c => c.toLower
    | .surrogate _ => ' ') == "/script".toList

def unitsCode : List TextUnit → List Char
  | [] => []
  | .char '<' :: rest =>
    -- the end of a script element must not appear inside one
    (if startsScriptEnd rest then ['<', '\\'] else ['<']) ++ unitsCode rest
  | .char c :: rest => charCode c rest.head? ++ unitsCode rest
  | .surrogate code :: rest =>
    '\\' :: 'u' :: (Nat.toDigits 16 code) ++ unitsCode rest

def textCode (literal : TextLiteral) : String :=
  "\"" ++ String.ofList (unitsCode literal.units) ++ "\""

def needsSingleQuotes : List Char → Bool
  | '\\' :: _ :: rest => needsSingleQuotes rest
  | '"' :: _ => true
  | '\'' :: _ => false
  | _ :: rest => needsSingleQuotes rest
  | [] => false

def directiveCode (source : String) : String :=
  let quote := if needsSingleQuotes source.toList then "'" else "\""
  quote ++ source ++ quote

/-! ## Module names -/

def commaList (items : List String) : String := Text.join ", " items

def braced (items : List String) : String :=
  if items.isEmpty then "\x7b\x7d" else "\x7b " ++ commaList items ++ " \x7d"

def worded (words : List String) (code : String) : String := Text.join " " (words ++ [code])

def typeWord (typeOnly : Bool) : List String := if typeOnly then ["type"] else []

def ModuleName.code : ModuleName → String
  | .word w => w
  | .quoted literal => textCode literal

def renamed (source exported : ModuleName) : String :=
  if source.plain == exported.plain then source.code else source.code ++ " as " ++ exported.code

def ImportSpecifier.code (s : ImportSpecifier) : String :=
  worded (typeWord s.typeOnly) (renamed s.imported (.word s.binding))

def ExportSpecifier.code (s : ExportSpecifier) : String :=
  worded (typeWord s.typeOnly) (renamed s.source s.exported)

def ImportAttributes.code (a : ImportAttributes) : String :=
  let entries := a.entries.map fun entry => entry.key.code ++ ": " ++ textCode entry.value
  " " ++ a.word ++ " " ++ braced entries

def sourceCode (source : TextLiteral) (attributes : Option ImportAttributes) : String :=
  textCode source ++ (attributes.map ImportAttributes.code).getD ""

def ImportDeclaration.code (d : ImportDeclaration) : String :=
  let first := d.defaultName.toList ++ (d.namespaceName.map ("* as " ++ ·)).toList
  let specifiers := (d.named.getD []).map ImportSpecifier.code
  -- empty braces are only printed if nothing else is imported
  let names := first ++
    if specifiers.isEmpty && (d.named.isNone || !first.isEmpty) then [] else [braced specifiers]
  let clause := if names.isEmpty then [] else d.words ++ [commaList names, "from"]
  worded ("import" :: clause) (sourceCode d.source d.attributes)

def exportNamesCode (typeOnly : Bool) (names : List ExportSpecifier) (source : Option TextLiteral)
    (attributes : Option ImportAttributes) : String :=
  worded ("export" :: typeWord typeOnly) (braced (names.map ExportSpecifier.code)) ++
    (source.map fun s => " from " ++ sourceCode s attributes).getD ""

def exportAllCode (typeOnly : Bool) (exported : Option ModuleName) (source : TextLiteral)
    (attributes : Option ImportAttributes) : String :=
  let under := (exported.map fun w => ["as", w.code]).getD []
  worded ("export" :: typeWord typeOnly ++ "*" :: under ++ ["from"]) (sourceCode source attributes)

def VariableKind.words : VariableKind → String
  | .hoisted => "var"
  | .mutable => "let"
  | .constant => "const"
  | .resource => "using"
  | .asyncResource => "await using"

end Pagewright.Script

import Pagewright.Decimal.Reading
import Pagewright.Script.Tree
import Pagewright.Text.Blank
import Pagewright.Text.Identifier
import Pagewright.Text.Lines
import Pagewright.Text.Quoted

/-!
# Tokens of a script

The token at the head of a text, and what is left after it. Whether a slash divides
or opens a regular expression, and where a template goes on, only the reader of the
grammar knows; it asks for those tokens itself. A closing angle bracket is always a
token of its own, since it may end a list of types.
-/

set_option autoImplicit false

namespace Pagewright.Script

inductive Token where
  | word (name : String)
  /-- A keyword spelled with escapes, which can only name a property. -/
  | escaped (name : String)
  | secret (name : String)
  | mark (text : String)
  | number (value : Binary64) (source : String)
  | wholeNumber (value : Nat)
  | text (literal : TextLiteral)
  | finish
  | invalid
  deriving DecidableEq, Repr

/-! ## Blanks and comments -/

def isLineEnd (c : Char) : Bool := c == '\n' || c == '\r' || c == '\u2028' || c == '\u2029'

def isBlank (c : Char) : Bool := Text.isBlankChar c || c == '\ufeff'

def Comment.content (c : Comment) : List Char :=
  let inside := c.text.toList.drop 2
  if c.isBlock then inside.take (inside.length - 2) else inside

def Comment.notes (c : Comment) (note : String) : Bool :=
  match c.content.dropWhile Char.isWhitespace with
  | mark :: rest => (mark == '@' || mark == '#') && note.toList.isPrefixOf rest
  | [] => false

def Comment.marksPure (c : Comment) : Bool := c.notes "__PURE__"

def Comment.marksInert (c : Comment) : Bool := c.notes "__NO_SIDE_EFFECTS__"

def Comment.isLegal (c : Comment) : Bool :=
  c.content.head? == some '!' || Text.occursIn "@license".toList c.content ||
    Text.occursIn "@preserve".toList c.content

structure Gap where
  /-- The first token opens a value, so that even a comment on its line leads that value. -/
  opensValue : Bool := false
  /-- A line ended in the gap. -/
  lineEnded : Bool := false
  /-- A line ended outside comments, or the gap opens the text. -/
  onNewLine : Bool := false
  /-- The comments that lead the second token. -/
  comments : List Comment := []
  /-- A comment says that the call after it has no side effects. -/
  marksPure : Bool := false
  /-- A comment says that the function after it has no side effects. -/
  marksInert : Bool := false

namespace Gap

def start : Gap := { lineEnded := true, onNewLine := true }

def endLine (g : Gap) : Gap :=
  let comments := match g.comments with
    | last :: earlier => if g.onNewLine then { last with endsLine := true } :: earlier else []
    | [] => []
  { g with lineEnded := true, onNewLine := true, comments }

def noted (g : Gap) (c : Comment) : Gap :=
  { g with
    marksPure := g.marksPure || c.marksPure
    marksInert := g.marksInert || c.marksInert }

def addLine (g : Gap) (text : List Char) : Gap :=
  let c : Comment := ⟨String.ofList ('/' :: '/' :: text.reverse), false, g.onNewLine, true⟩
  let comments := if g.onNewLine || g.opensValue then c :: g.comments else []
  { g.noted c with lineEnded := true, onNewLine := true, comments }

def addBlock (g : Gap) (text : List Char) : Gap :=
  let c : Comment := ⟨"/*" ++ String.ofList text.reverse ++ "*/", true, g.onNewLine, false⟩
  { g.noted c with
    lineEnded := g.lineEnded || text.any isLineEnd
    comments := c :: g.comments }

/-- The finished gap. Notes for the reader are not comments to be kept. -/
def closed (g : Gap) : Gap :=
  { g with comments := g.comments.reverse.filter fun c => !(c.marksPure || c.marksInert) }

end Gap

inductive GapPart where
  | blank
  | line (text : List Char)
  | block (text : List Char)

def skipGap : Gap → GapPart → List Char → Option (Gap × List Char)
  | g, .blank, [] => some (g.closed, [])
  | g, .blank, '/' :: '/' :: rest => skipGap g (.line []) rest
  | g, .blank, '/' :: '*' :: rest => skipGap g (.block []) rest
  | g, .blank, c :: rest =>
    if isLineEnd c then skipGap g.endLine .blank rest
    else if isBlank c then skipGap g .blank rest
    else some (g.closed, c :: rest)
  | g, .line text, [] => some ((g.addLine text).closed, [])
  | g, .line text, c :: rest =>
    if isLineEnd c then skipGap (g.addLine text) .blank rest else skipGap g (.line (c :: text)) rest
  | _, .block _, [] => none
  | g, .block text, '*' :: '/' :: rest => skipGap (g.addBlock text) .blank rest
  | g, .block text, c :: rest => skipGap g (.block (c :: text)) rest

/-! ## Numbers -/

def digitsOf (isDigit : Char → Bool) (cs : List Char) : Option (List Char) :=
  if cs.all (fun c => isDigit c || c == '_') && cs.getLast? != some '_' && cs.head? != some '_'
      && !Text.occursIn ['_', '_'] cs then
    some (cs.filter (· != '_'))
  else none

def valueInBase (base : Nat) (cs : List Char) : Nat :=
  cs.foldl (fun n c => n * base + (Text.hexValue? c).getD 0) 0

def isDigitIn (base : Nat) (c : Char) : Bool :=
  match Text.hexValue? c with
  | some d => d < base
  | none => false

def textBetween (cs after : List Char) : String :=
  String.ofList (cs.take (cs.length - after.length))

def basedNumber (base : Nat) (start : List Char) (rest : List Char) : Token × List Char :=
  let source := rest.takeWhile fun c => c.isAlphanum || c == '_'
  let after := rest.dropWhile fun c => c.isAlphanum || c == '_'
  let (digits, isWhole) :=
    if source.getLast? == some 'n' then (source.dropLast, true) else (source, false)
  match digitsOf (isDigitIn base) digits with
  | some (d :: ds) =>
    let value := valueInBase base (d :: ds)
    if isWhole then (if start == ['0'] then .invalid else .wholeNumber value, after)
    else (.number (Binary64.ofRatio false value 1) (String.ofList (start ++ source)), after)
  | _ => (.invalid, after)

/-- The exponent at the head of a text, if there is one; none inside if it has no digits. -/
def exponentAt : List Char → Option (Int × List Char)
  | c :: rest =>
    if c == 'e' || c == 'E' then
      let (negative, cs) := Decimal.takeSign rest
      let source := cs.takeWhile fun c => c.isDigit || c == '_'
      match digitsOf Char.isDigit source with
      | some (d :: ds) =>
        some (Decimal.signed negative (Decimal.valueOfDigits (d :: ds)), cs.drop source.length)
      | _ => none
    else some (0, c :: rest)
  | [] => some (0, [])

def decimalNumber (cs : List Char) : Token × List Char :=
  let isPart := fun (c : Char) => c.isDigit || c == '_'
  let whole := cs.takeWhile isPart
  let afterWhole := cs.dropWhile isPart
  match afterWhole with
  | 'n' :: rest =>
    match digitsOf Char.isDigit whole with
    | some digits =>
      let isPlain := digits.head? != some '0' || digits.length == 1
      (if isPlain then .wholeNumber (Decimal.valueOfDigits digits) else .invalid, rest)
    | none => (.invalid, rest)
  | _ =>
    let (fraction, tail) :=
      match afterWhole with
      | '.' :: rest => (rest.takeWhile isPart, rest.dropWhile isPart)
      | rest => ([], rest)
    match digitsOf Char.isDigit whole, digitsOf Char.isDigit fraction, exponentAt tail with
    | some w, some f, some (e, rest) =>
      let value := Decimal.toBinary64 false (Decimal.valueOfDigits (w ++ f)) (e - (f.length : Int))
      (.number value (textBetween cs rest), rest)
    | _, _, _ => (.invalid, tail)

def endedNumber : Token × List Char → Token × List Char
  | (token, c :: rest) => (if Text.isIdentifierPart c then .invalid else token, c :: rest)
  | other => other

def numberToken (cs : List Char) : Token × List Char :=
  endedNumber <|
    match cs with
    | '0' :: c :: rest =>
      if c == 'x' || c == 'X' then basedNumber 16 ['0', c] rest
      else if c == 'o' || c == 'O' then basedNumber 8 ['0', c] rest
      else if c == 'b' || c == 'B' then basedNumber 2 ['0', c] rest
      else if c.isDigit && ((c :: rest).takeWhile Char.isDigit).all (isDigitIn 8) then
        basedNumber 8 ['0'] (c :: rest)
      else if c == '_' then (.invalid, rest)
      else decimalNumber cs
    | _ => decimalNumber cs

/-! ## String literals -/

def quotedSource (quote : Char) : List Char → Option (List Char × List Char)
  | [] => none
  | '\\' :: '\r' :: '\n' :: rest =>
    (quotedSource quote rest).map fun (s, r) => ('\\' :: '\r' :: '\n' :: s, r)
  | '\\' :: c :: rest => (quotedSource quote rest).map fun (s, r) => ('\\' :: c :: s, r)
  | c :: rest =>
    if c == quote then some ([], rest)
    else if c == '\n' || c == '\r' then none
    else (quotedSource quote rest).map fun (s, r) => (c :: s, r)

def hexDigits? (cs : List Char) : Option Nat :=
  if !cs.isEmpty && cs.all (isDigitIn 16) then some (valueInBase 16 cs) else none

def isSurrogate (code : Nat) : Bool := 0xd800 ≤ code && code < 0xe000

def unitOf (code : Nat) : TextUnit :=
  if isSurrogate code then .surrogate code else .char (Char.ofNat code)

/-- The unit of an escape, without its backslash, and the rest; a continued line gives none. -/
def escapeUnit : List Char → Option (Option TextUnit × List Char)
  | '\r' :: '\n' :: rest => some (none, rest)
  | 'n' :: rest => some (some (.char '\n'), rest)
  | 't' :: rest => some (some (.char '\t'), rest)
  | 'r' :: rest => some (some (.char '\r'), rest)
  | 'b' :: rest => some (some (.char '\x08'), rest)
  | 'v' :: rest => some (some (.char '\x0b'), rest)
  | 'f' :: rest => some (some (.char '\x0c'), rest)
  | 'x' :: a :: b :: rest => (hexDigits? [a, b]).map fun code => (some (unitOf code), rest)
  | 'u' :: '\x7b' :: rest =>
    let digits := rest.takeWhile (· != '\x7d')
    (hexDigits? digits).bind fun code =>
      if code < 0x110000 then some (some (unitOf code), rest.drop (digits.length + 1)) else none
  | 'u' :: a :: b :: c :: d :: rest =>
    (hexDigits? [a, b, c, d]).map fun code => (some (unitOf code), rest)
  | 'x' :: _ => none
  | 'u' :: _ => none
  | c :: rest =>
    if isLineEnd c then some (none, rest)
    else if isDigitIn 8 c then
      let most := if c ≤ '3' then 2 else 1
      let more := (rest.take most).takeWhile (isDigitIn 8)
      some (some (unitOf (valueInBase 8 (c :: more))), rest.drop more.length)
    else some (some (.char c), rest)
  | [] => none

def unitsOf : Nat → List Char → Option (List TextUnit)
  | _, [] => some []
  | 0, _ => none
  | n + 1, '\\' :: rest =>
    (escapeUnit rest).bind fun (unit, more) => (unitsOf n more).map (unit.toList ++ ·)
  | n + 1, c :: rest => (unitsOf n rest).map (.char c :: ·)

def joinSurrogates : List TextUnit → List TextUnit
  | .surrogate high :: .surrogate low :: rest =>
    if high < 0xdc00 && 0xdc00 ≤ low then
      .char (Char.ofNat (0x10000 + (high - 0xd800) * 0x400 + (low - 0xdc00))) :: joinSurrogates rest
    else .surrogate high :: joinSurrogates (.surrogate low :: rest)
  | unit :: rest => unit :: joinSurrogates rest
  | [] => []

def textLiteral? (source : List Char) : Option TextLiteral :=
  (unitsOf source.length source).map fun units => ⟨String.ofList source, joinSurrogates units⟩

/-! ## Regular expressions and templates -/

def regexSource (inClass : Bool) : List Char → Option (List Char × List Char)
  | [] => none
  | '\\' :: c :: rest =>
    if isLineEnd c then none else (regexSource inClass rest).map fun (s, r) => ('\\' :: c :: s, r)
  | c :: rest =>
    if isLineEnd c then none
    else if c == '/' && !inClass then some ([], rest)
    else
      let inside := if c == '[' then true else if c == ']' then false else inClass
      (regexSource inside rest).map fun (s, r) => (c :: s, r)

def regexFlags : List Char := "dgimsuvy".toList

def areFlags (cs : List Char) : Bool :=
  cs.all (regexFlags.contains ·) && decide cs.Nodup && !(cs.contains 'u' && cs.contains 'v')

/-- The text of a template up to an expression or to its end, which the flag tells. Every line
in it ends in the same way. -/
def templateSource : List Char → Option (List Char × Bool × List Char)
  | [] => none
  | '\x60' :: rest => some ([], true, rest)
  | '$' :: '\x7b' :: rest => some ([], false, rest)
  | '\\' :: '\r' :: '\n' :: rest =>
    (templateSource rest).map fun (s, last, r) => ('\\' :: '\n' :: s, last, r)
  | '\\' :: c :: rest =>
    (templateSource rest).map fun (s, last, r) =>
      ('\\' :: (if c == '\r' then '\n' else c) :: s, last, r)
  | '\r' :: '\n' :: rest => (templateSource rest).map fun (s, last, r) => ('\n' :: s, last, r)
  | c :: rest =>
    (templateSource rest).map fun (s, last, r) => ((if c == '\r' then '\n' else c) :: s, last, r)

def hasValidEscapes : List Char → Bool
  | '\\' :: '\\' :: rest => hasValidEscapes rest
  | '\\' :: c :: rest =>
    let isValid :=
      if c == '0' then !((rest.head?.map Char.isDigit).getD false)
      else !c.isDigit && (!(c == 'x' || c == 'u') || (escapeUnit (c :: rest)).isSome)
    isValid && hasValidEscapes rest
  | _ :: rest => hasValidEscapes rest
  | [] => true

/-! ## Marks -/

def longMarks : List String := [
  "...", "===", "!==", "**=", "<<=", "&&=", "||=", "??=", "=>", "==", "!=",
  "<=", "++", "--", "**", "<<", "&&", "||", "??", "?.", "+=", "-=", "*=", "/=", "%=",
  "&=", "|=", "^="]

def shortMarks : List Char := "\x7b\x7d()[];,<>+-*/%&|^!~?:=.@\x60".toList

def markAt (cs : List Char) : Option (String × List Char) :=
  match longMarks.find? fun m => m.toList.isPrefixOf cs with
  | some m =>
    let rest := cs.drop m.length
    -- an optional access is not meant where a fraction follows the question mark
    if m == "?." && (rest.head?.map Char.isDigit).getD false then some ("?", cs.drop 1)
    else some (m, rest)
  | none =>
    match cs with
    | c :: rest => if shortMarks.contains c then some (String.ofList [c], rest) else none
    | [] => none

def nameEscape? (cs : List Char) : Option (Char × List Char) :=
  match cs with
  | 'u' :: _ =>
    match escapeUnit cs with
    | some (some (.char c), rest) => some (c, rest)
    | _ => none
  | _ => none

/-- The characters of a name, whether escapes stand for some of them, and the rest; the count
bounds the characters. -/
def nameChars : Nat → List Char → List Char × Bool × List Char
  | 0, cs => ([], false, cs)
  | n + 1, '\\' :: cs =>
    match nameEscape? cs with
    | some (c, rest) =>
      if Text.isIdentifierPart c then
        let (more, _, after) := nameChars n rest
        (c :: more, true, after)
      else ([], false, '\\' :: cs)
    | none => ([], false, '\\' :: cs)
  | n + 1, c :: cs =>
    if Text.isIdentifierPart c then
      let (more, escaped, after) := nameChars n cs
      (c :: more, escaped, after)
    else ([], false, c :: cs)
  | _ + 1, [] => ([], false, [])

def nameAt (cs : List Char) : Option (String × Bool × List Char) :=
  let (chars, escaped, rest) := nameChars cs.length cs
  match chars with
  | c :: _ =>
    if Text.isIdentifierStart c then some (String.ofList chars, escaped, rest) else none
  | [] => none

def keywords : List String := [
  "break", "case", "catch", "class", "const", "continue", "debugger", "default", "delete", "do",
  "else", "enum", "export", "extends", "false", "finally", "for", "function", "if", "import", "in",
  "instanceof", "new", "null", "return", "super", "switch", "this", "throw", "true", "try",
  "typeof", "var", "void", "while", "with"]

def wordToken (cs : List Char) : Token × List Char :=
  match nameAt cs with
  | some (name, escaped, rest) =>
    (if escaped && keywords.contains name then .escaped name else .word name, rest)
  | none => (.invalid, cs)

def quotedToken (quote : Char) (rest : List Char) : Token × List Char :=
  match quotedSource quote rest with
  | some (source, after) =>
    match textLiteral? source with
    | some literal => (.text literal, after)
    | none => (.invalid, after)
  | none => (.invalid, rest)

def tokenAt : List Char → Token × List Char
  | [] => (.finish, [])
  | c :: rest =>
    if Text.isIdentifierStart c || c == '\\' then wordToken (c :: rest)
    else if c.isDigit || (c == '.' && (rest.head?.map Char.isDigit).getD false) then
      numberToken (c :: rest)
    else if c == '"' || c == '\'' then quotedToken c rest
    else if c == '#' then
      match nameAt rest with
      | some (name, _, after) => (.secret name, after)
      | none => (.invalid, rest)
    else
      match markAt (c :: rest) with
      | some (m, after) => (.mark m, after)
      | none => (.invalid, rest)

end Pagewright.Script

import Pagewright.Ordered.Map
import Pagewright.Style.Scale
import Pagewright.Style.Value
import Pagewright.Text.Lines

/-!
# From styles to utility classes

Each style property has at most one rule, and a rule gives a value at most one
class. Keywords are looked up first, for every property. `Style.token` is the
class of a property and value, if there is one; all else stays an inline style.
-/

set_option autoImplicit false

namespace Pagewright.Style

inductive Rule where
  | fontWeight
  | fontSize
  | cursor
  | opacity
  | layer
  | spacing (stem : String) (margin : Bool)
  | extent (stem : String)
  | minHeight
  | color (stem : String)
  | borderWidth
  | radius
  deriving DecidableEq, Repr

def rules : List (String × Rule) := [
  ("fontWeight", .fontWeight), ("fontSize", .fontSize), ("cursor", .cursor),
  ("opacity", .opacity), ("zIndex", .layer),
  ("margin", .spacing "m" true), ("marginTop", .spacing "mt" true),
  ("marginRight", .spacing "mr" true), ("marginBottom", .spacing "mb" true),
  ("marginLeft", .spacing "ml" true),
  ("padding", .spacing "p" false), ("paddingTop", .spacing "pt" false),
  ("paddingRight", .spacing "pr" false), ("paddingBottom", .spacing "pb" false),
  ("paddingLeft", .spacing "pl" false),
  ("gap", .spacing "gap" false), ("rowGap", .spacing "gap-y" false),
  ("columnGap", .spacing "gap-x" false),
  ("width", .extent "w"), ("height", .extent "h"), ("minHeight", .minHeight),
  ("color", .color "text"), ("backgroundColor", .color "bg"), ("background", .color "bg"),
  ("borderColor", .color "border"), ("borderWidth", .borderWidth), ("borderRadius", .radius)]

def isLowerLetter (c : Char) : Bool := 'a' ≤ c && c ≤ 'z'

def isCursorName : List Char → Bool
  | [] => false
  | c :: rest => isLowerLetter c && rest.all (fun c => isLowerLetter c || c == '-')

def hexDigits? (text : String) : Option String :=
  match text.toList with
  | '#' :: digits =>
    if digits.all (fun c => (Text.hexValue? c).isSome) then
      let lower := digits.map Char.toLower
      if lower.length = 3 then some (String.ofList (lower.flatMap (fun c => [c, c])))
      else if lower.length = 6 then some (String.ofList lower)
      else none
    else none
  | _ => none

def colorName? (text : String) : Option String :=
  match lookup text namedColors with
  | some name => some name
  | none => (hexDigits? text).bind (fun digits => lookup digits hexColors)

def spacingToken (stem : String) (margin : Bool) (v : StyleValue) : Option String :=
  if v.keyword? = some "auto" then
    if margin then some (stem ++ "-auto") else none
  else do
    let px ← v.pixels?
    let whole ← px.abs.whole?
    let unit ← lookup whole.natAbs spacingScale
    if px.isNegative then
      if margin then some ("-" ++ stem ++ "-" ++ unit) else none
    else some (stem ++ "-" ++ unit)

def extentToken (stem : String) (v : StyleValue) : Option String :=
  match v.keyword?.bind (fun keyword => lookup keyword extentKeywords) with
  | some name => some (stem ++ "-" ++ name)
  | none => (v.wholePixels?.bind (lookup · spacingScale)).map (fun unit => stem ++ "-" ++ unit)

def opacityToken (v : StyleValue) : Option String := do
  let x ← v.number?
  if x.inUnitInterval then some ("opacity-" ++ Decimal.digitText x.percentage) else none

def radiusToken (v : StyleValue) : String :=
  if v.keyword? = some "50%" then "rounded-full"
  else
    match v.wholePixels?.bind (lookup · radiusScale) with
    | some "" => "rounded"
    | some name => "rounded-" ++ name
    | none => "rounded"

def Rule.token (v : StyleValue) : Rule → Option String
  | .fontWeight => lookup (Text.trim v.written) fontWeights
  | .fontSize => v.wholePixels?.bind (lookup · fontSizes)
  | .cursor =>
    let name := Text.trim v.written
    if isCursorName name.toList then some ("cursor-" ++ name) else none
  | .opacity => opacityToken v
  | .layer => lookup (Text.trim v.written) layers
  | .spacing stem margin => spacingToken stem margin v
  | .extent stem => extentToken stem v
  | .minHeight => lookup (Text.trim v.written) minHeights
  | .color stem => (colorName? (Text.trim v.written)).map (fun name => stem ++ "-" ++ name)
  | .borderWidth => v.wholePixels?.bind (lookup · borderWidths)
  | .radius => some (radiusToken v)

def keywordToken (property : String) (v : StyleValue) : Option String :=
  (lookup property keywordClasses).bind (lookup (Text.trim v.written))

def token (property : String) (v : StyleValue) : Option String :=
  match keywordToken property v with
  | some name => some name
  | none => (lookup property rules).bind (Rule.token v)

end Pagewright.Style

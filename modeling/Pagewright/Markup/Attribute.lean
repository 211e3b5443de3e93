import Pagewright.Component.Primitive
import Pagewright.Options
import Pagewright.Placement.Handler
import Pagewright.Style.Sheet

/-!
# Attributes

The attributes of an element in their fixed order: the component id, the class
list, inline styles, attributes implied by the primitive, declared properties, and
event handlers last. `Attribute.render` is the only place where one becomes text.
-/

set_option autoImplicit false

namespace Pagewright

inductive AttributeValue where
  /-- The bare name, which means true. -/
  | flag
  | text (value : String)
  | json (value : Json)
  | styles (value : OrderedMap StyleValue)
  | reference (name : String)
  | statement (code : String)
  deriving Repr

structure Attribute where
  name : String
  value : AttributeValue
  deriving Repr

namespace Attribute

def braced (code : String) : String := "\x7b" ++ code ++ "\x7d"

def textCode (value : String) : String :=
  if Text.contains value '"' || Text.contains value '\n' then braced (Text.quoted value)
  else "\"" ++ value ++ "\""

def styleEntry (entry : String × StyleValue) : String :=
  let value := match entry.2 with
    | .number x => StyleValue.numberText x
    | .text s => Text.quoted s
  Name.objectKey entry.1 ++ ": " ++ value

def stylesCode (styles : OrderedMap StyleValue) : String :=
  braced (" " ++ Text.join ", " (styles.entries.map styleEntry) ++ " ")

/-- A statement in an arrow function, closed by a semicolon unless it ends a block. -/
def statementCode (code : String) : String :=
  let closed := if Text.endsWith code ";" || Text.endsWith code "\x7d" then code else code ++ ";"
  "() => " ++ braced (" " ++ closed ++ " ")

def render (a : Attribute) : String :=
  match a.value with
  | .flag => a.name
  | .text s => a.name ++ "=" ++ textCode s
  | .json v => a.name ++ "=" ++ braced v.compact
  | .styles m => a.name ++ "=" ++ braced (stylesCode m)
  | .reference name => a.name ++ "=" ++ braced name
  | .statement code => a.name ++ "=" ++ braced (statementCode code)

def isNamePart (c : Char) : Bool := Name.isPart c || c == '-'

def isNameSegment : List Char → Bool
  | [] => false
  | c :: rest => Name.isStart c && rest.all isNamePart

def isName (name : String) : Bool :=
  match Text.splitChars ':' name.toList with
  | [a] => isNameSegment a
  | [a, b] => isNameSegment a && isNameSegment b
  | _ => false

def ofProperty (name : String) : Json → Option Attribute
  | .null => none
  | .bool false => none
  | .bool true => some ⟨name, .flag⟩
  | .text s => some ⟨name, .text s⟩
  | other => some ⟨name, .json other⟩

def ofHandler (handler : String × HandlerBinding) : Attribute :=
  match handler.2 with
  | .statement code => ⟨handler.1, .statement code⟩
  | .reference name => ⟨handler.1, .reference name⟩

end Attribute

namespace Component

def styleProperty (c : Component) : List (String × StyleValue) :=
  match c.properties.find? "style" with
  | some (.object fields) => fields.filterMap fun (property, value) =>
      match value with
      | .text s => some (property, .text s)
      | other => other.number?.map fun x => (property, .number x)
  | _ => []

def sheet (options : Options) (c : Component) : StyleSheet :=
  if options.utilityClasses then StyleSheet.ofStyles c.styles else StyleSheet.empty

/-- The styles that stay inline; the `style` property overrides the others. -/
def inlineStyles (options : Options) (c : Component) : OrderedMap StyleValue :=
  let camel := fun (entry : String × StyleValue) => (StyleProperty.camelCase entry.1, entry.2)
  let base :=
    if options.utilityClasses then (c.sheet options).inline
    else OrderedMap.ofList (c.styles.entries.map camel)
  base.insertAll (c.styleProperty.map camel)

def declaredClasses (c : Component) : List String :=
  ["className", "class"].flatMap fun key =>
    match c.properties.find? key with
    | some (.text s) => Text.words s
    | _ => []

def classes (options : Options) (c : Component) : List String :=
  FirstSeen.addAll (c.sheet options).classes c.declaredClasses

def implicitAttributes (c : Component) : List Attribute :=
  (Primitive.ofKind c.kind).implicit.filterMap fun (name, value) =>
    if c.properties.contains name then none else some ⟨name, .text value⟩

/-- The name under which a property is declared on the element, if it is. Handlers, classes and
styles are rendered apart, and so is text unless the element cannot hold any. -/
def attributeName? (c : Component) (key : String) : Option String :=
  if HandlerBinding.isKey key || ["className", "class", "style"].contains key then none
  else if textKeys.contains key && (!(Primitive.ofKind c.kind).void || key == "children") then none
  else
    let name := if key = "for" then "htmlFor" else key
    if Attribute.isName name then some name else none

def declaredAttributes (c : Component) : List Attribute :=
  c.properties.entries.filterMap fun (key, value) =>
    (c.attributeName? key).bind fun name => Attribute.ofProperty name value

def idAttribute : String := "data-component-id"

def attributes (options : Options) (c : Component) : List Attribute :=
  let classes := c.classes options
  let inline := c.inlineStyles options
  (if options.componentIds then [⟨idAttribute, .text c.id⟩] else []) ++
    (if classes.isEmpty then [] else [⟨"className", .text (Text.join " " classes)⟩]) ++
    (if inline.isEmpty then [] else [⟨"style", .styles inline⟩]) ++
    c.implicitAttributes ++ c.declaredAttributes ++ c.handlers.map Attribute.ofHandler

end Component

end Pagewright

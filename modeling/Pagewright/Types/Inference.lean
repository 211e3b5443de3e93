import Pagewright.Component.Basic
import Pagewright.Ordered.Sorted
import Pagewright.Placement.Handler

/-!
# Inferred property types

The declared types of component properties are read off the values observed. Each
component kind gets one declaration, in order of kind; a property is optional when
some component of the kind lacks it, and its type is the union of what was seen.
-/

set_option autoImplicit false

namespace Pagewright

def unionType (types : List String) : String := Text.join " | " (Sorted.ofList types)

def listType (types : List String) : String :=
  match FirstSeen.ofList types with
  | [] => "unknown[]"
  | [one] => one ++ "[]"
  | several => "(" ++ unionType several ++ ")[]"

namespace Json

mutual

def typeText : Json → String
  | .null => "null"
  | .bool _ => "boolean"
  | .whole _ => "number"
  | .real _ => "number"
  | .text _ => "string"
  | .list items => listType (itemTypes items)
  | .object [] => "Record<string, unknown>"
  | .object fields => "\x7b " ++ Text.join "; " (fieldTypes fields) ++ " \x7d"

def itemTypes : List Json → List String
  | [] => []
  | item :: rest => typeText item :: itemTypes rest

def fieldTypes : List (String × Json) → List String
  | [] => []
  | (key, value) :: rest => (Name.objectKey key ++ ": " ++ typeText value) :: fieldTypes rest

end

end Json

structure PropertyDeclaration where
  name : String
  type : String
  optional : Bool
  deriving DecidableEq, Repr

structure TypeDeclaration where
  kind : String
  interfaceName : String
  properties : List PropertyDeclaration
  deriving DecidableEq, Repr

def propertyType (name : String) (value : Json) : String :=
  if HandlerBinding.isKey name then "() => void" else value.typeText

def declareProperty (instances : List Component) (name : String) : PropertyDeclaration :=
  let values := instances.filterMap fun c => c.properties.find? name
  ⟨name, unionType (values.map (propertyType name)),
    instances.any fun c => !c.properties.contains name⟩

def declareKind (components : List Component) (kind : String) : TypeDeclaration :=
  let instances := components.filter (·.kind == kind)
  let names := FirstSeen.ofList (instances.flatMap fun c => c.properties.keys)
  ⟨kind, Name.pascalCase kind ++ "Props", names.map (declareProperty instances)⟩

def inferTypes (components : List Component) : List TypeDeclaration :=
  (Sorted.ofList (components.map Component.kind)).map (declareKind components)

def PropertyDeclaration.render (p : PropertyDeclaration) : String :=
  Text.indent 1 ++ Name.objectKey p.name ++ (if p.optional then "?" else "") ++ ": " ++
    p.type ++ ";"

def TypeDeclaration.render (d : TypeDeclaration) : String :=
  if d.properties.isEmpty then "export type " ++ d.interfaceName ++ " = Record<string, never>;"
  else
    Text.unlines (("export interface " ++ d.interfaceName ++ " \x7b") ::
      d.properties.map PropertyDeclaration.render ++ ["\x7d"])

def renderTypes (declarations : List TypeDeclaration) : String :=
  Text.join "\n\n" (declarations.map TypeDeclaration.render) ++ "\n"

end Pagewright

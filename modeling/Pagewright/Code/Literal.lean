import Pagewright.Code.Name
import Pagewright.Json.Value

/-!
# Literals

A JSON value as an object literal of a script: keys are bare where they can be,
objects and lists of composite values take one line per entry, each with a comma,
and lists of scalars stay on one line.
-/

set_option autoImplicit false

namespace Pagewright.Literal

mutual

def render (depth : Nat) : Json → String
  | .object [] => "\x7b\x7d"
  | .object fields =>
    "\x7b\n" ++ Text.unlines (renderFields (depth + 1) fields) ++ "\n" ++
      Text.indent depth ++ "\x7d"
  | .list items =>
    if items.all Json.isScalar then "[" ++ Text.join ", " (renderItems depth items) ++ "]"
    else
      "[\n" ++
        Text.unlines ((renderItems (depth + 1) items).map fun item =>
          Text.indent (depth + 1) ++ item ++ ",") ++
        "\n" ++ Text.indent depth ++ "]"
  | .null => "null"
  | .bool b => (Json.bool b).compact
  | .whole n => (Json.whole n).compact
  | .real x => (Json.real x).compact
  | .text s => Text.quoted s

def renderItems (depth : Nat) : List Json → List String
  | [] => []
  | item :: rest => render depth item :: renderItems depth rest

def renderFields (depth : Nat) : List (String × Json) → List String
  | [] => []
  | (key, value) :: rest =>
    (Text.indent depth ++ Name.objectKey key ++ ": " ++ render depth value ++ ",") ::
      renderFields depth rest

end

end Pagewright.Literal

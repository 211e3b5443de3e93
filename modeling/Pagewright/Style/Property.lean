import Pagewright.Text.Blank
import Pagewright.Text.Lines
import Pagewright.Text.UpperCase

/-!
# Style property names

A property has one name in camel case, whichever way the editor spells it.
Custom properties, which start with two hyphens, keep their spelling.
-/

set_option autoImplicit false

namespace Pagewright.StyleProperty

def joinHyphens (started raise : Bool) : List Char → List Char
  | [] => []
  | c :: rest =>
    if c = '-' then joinHyphens started started rest
    else if raise then Text.upperCase c ++ joinHyphens true false rest
    else c :: joinHyphens true false rest

def camelCase (property : String) : String :=
  let name := Text.trim property
  if Text.startsWith name "--" || !Text.contains name '-' then name
  else String.ofList (joinHyphens false false name.toList)

end Pagewright.StyleProperty

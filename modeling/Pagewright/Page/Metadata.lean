import Pagewright.Code.Literal
import Pagewright.Page.Request

/-!
# Page metadata

The metadata object of a page. Title and description fall back to those of the
page, an empty description and an empty keyword list are left out.
-/

set_option autoImplicit false

namespace Pagewright

def optionalField (key : String) (value : Option String) : List (String × Json) :=
  value.toList.map fun s => (key, .text s)

def OpenGraph.value (og : OpenGraph) : Json :=
  .object (optionalField "title" og.title ++ optionalField "description" og.description ++
    optionalField "url" og.url ++ optionalField "type" og.type ++
    og.image.toList.map fun image => ("images", .list [.text image]))

namespace Metadata

def value (m : Metadata) (title description : String) : Json :=
  let description := m.description.getD description
  .object ([("title", .text (m.title.getD title))] ++
    (if description.isEmpty then [] else [("description", .text description)]) ++
    (if m.keywords.isEmpty then [] else [("keywords", .list (m.keywords.map .text))]) ++
    (m.openGraph.toList.map fun og => ("openGraph", og.value)) ++
    optionalField "robots" m.robots ++
    (m.canonical.toList.map fun url => ("alternates", .object [("canonical", .text url)])))

def staticCode (value : Json) (typeScript : Bool) : String :=
  "export const metadata" ++ (if typeScript then ": Metadata" else "") ++ " = " ++
    Literal.render 0 value ++ ";"

def dynamicCode (value : Json) (typeScript : Bool) : String :=
  "export async function generateMetadata()" ++
    (if typeScript then ": Promise<Metadata>" else "") ++ " \x7b\n" ++
    Text.indent 1 ++ "return " ++ Literal.render 1 value ++ ";\n\x7d"

end Metadata

def PageRequest.metadataValue (page : PageRequest) : Json :=
  (page.metadata.getD {}).value page.title page.description

end Pagewright

import Pagewright.Generator.Decode

/-!
# Generation from text

Requests as JSON text, answered with JSON text. Options may be absent or blank.
-/

set_option autoImplicit false

namespace Pagewright

def OutputFile.json (file : OutputFile) : Json :=
  .object [("type", .text file.kind.name), ("path", .text file.path),
    ("content", .text file.content), ("language", .text file.language),
    ("fingerprint", .text file.fingerprint)]

def natJson (n : Nat) : Json := .whole n

def Suggestion.json (s : Suggestion) : Json :=
  .object ([("kind", .text s.kind), ("message", .text s.message)] ++
    optionalField "componentId" s.componentId?)

def PageStatistics.json (s : PageStatistics) : Json :=
  .object [("total", natJson s.total), ("client", natJson s.client), ("server", natJson s.server),
    ("components", .object (s.components.map fun entry => (entry.1, natJson entry.2)))]

def Generation.json (g : Generation) : Json :=
  .object [("files", .list (g.files.map OutputFile.json)), ("stats", g.statistics.json),
    ("suggestions", .list (g.suggestions.map Suggestion.json)),
    ("warnings", .list (g.warnings.map .text))]

def decodeText {α : Type} (d : Decoder α) (s : String) : Except Failure α :=
  match (Document.read s).bind (d Document.nestingLimit) with
  | some value => .ok value
  | none => .error .malformedInput

def optionsFromText : Option String → Except Failure Options
  | some s => if Text.isBlank s then .ok {} else decodeText Decoder.options s
  | none => .ok {}

structure Tools where
  formatter : Formatter
  checker : Checker

def Tools.withOptions (tools : Tools) (options : Options) : Toolchain :=
  ⟨options, tools.formatter, tools.checker⟩

def Tools.pageFromText (tools : Tools) (config : String) (options : Option String) :
    Except Failure String := do
  let page ← decodeText Decoder.page config
  let options ← optionsFromText options
  let generation ← (tools.withOptions options).generatePage page
  return generation.json.compact

def Tools.projectFromText (tools : Tools) (config : String) (options : Option String) :
    Except Failure String := do
  let project ← decodeText Decoder.project config
  let options ← optionsFromText options
  let generation ← (tools.withOptions options).generateProject project
  return generation.json.compact

end Pagewright

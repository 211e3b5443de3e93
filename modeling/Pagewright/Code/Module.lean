import Pagewright.Markup.Emitter
import Pagewright.Import.Collection
import Pagewright.Page.Metadata
import Pagewright.Page.Route
import Pagewright.Placement.Classification

/-!
# Page modules

A module is a directive, imports and top-level blocks. Component functions are
kept in parts: what they take, what they bind before they return, and what they
return. `render` turns the parts into text.
-/

set_option autoImplicit false

namespace Pagewright

def assembleModule (directive : Option String) (imports blocks : List String) : String :=
  let importBlock := if imports.isEmpty then [] else [Text.unlines imports]
  Text.join "\n\n" (directive.toList ++ importBlock ++ blocks) ++ "\n"

inductive Setup where
  /-- A placeholder for a handler function. -/
  | stub (name : String)
  /-- The data that the page fetches. -/
  | fetched (name : String)
  /-- The route parameters in the browser. -/
  | paramsHook (params : List RouteParam)
  | paramsField (param : RouteParam)
  /-- The route parameters on the server. -/
  | paramsPattern (params : List RouteParam)
  | conversion (param : RouteParam)
  /-- A statement that binds nothing. -/
  | effect (code : String)
  deriving Repr

def Setup.code (typeScript : Bool) : Setup → String
  | .stub name => Emitter.stub name
  | .fetched name => "const " ++ name ++ " = await getData();"
  | .paramsHook params =>
    "const params = useParams" ++
      (if typeScript then "<" ++ RouteParam.typeOf params ++ ">" else "") ++ "();"
  | .paramsField p => "const " ++ p.rawName ++ " = params." ++ p.name ++ ";"
  | .paramsPattern params =>
    "const \x7b " ++ Text.join ", " (params.map RouteParam.pattern) ++ " \x7d = await params;"
  | .conversion p => "const " ++ p.name ++ " = Number(" ++ p.rawName ++ ");"
  | .effect code => code

inductive Parameters where
  | none
  /-- The fetched data, handed on by the page. -/
  | data (name : String)
  | routeParams
  /-- A pattern that is part of a fixed template, with and without types. -/
  | fixed (typed untyped : String)
  deriving Repr

def Parameters.code (typeScript : Bool) : Parameters → String
  | .none => ""
  | .data name =>
    if typeScript then "\x7b " ++ name ++ " \x7d: \x7b " ++ name ++ ": unknown \x7d"
    else "\x7b " ++ name ++ " \x7d"
  | .routeParams => if typeScript then "\x7b params \x7d: PageProps" else "\x7b params \x7d"
  | .fixed typed untyped => if typeScript then typed else untyped

inductive Returned where
  | body (markup : Body)
  /-- The companion that holds the page, with the data it takes. -/
  | companion (name : String) (data : Option String)
  /-- Markup that is part of a fixed template. -/
  | fixed (lines : List String)
  deriving Repr

def Returned.render (options : Options) : Returned → String
  | .body b => b.render options 2
  | .companion name none => Text.indent 2 ++ "<" ++ name ++ " />"
  | .companion name (some data) =>
    Text.indent 2 ++ "<" ++ name ++ " " ++ data ++ "=\x7b" ++ data ++ "\x7d />"
  | .fixed lines => Text.unlines (lines.map (Text.indent 2 ++ ·))

structure ComponentFunction where
  name : String
  isDefault : Bool := true
  isAsync : Bool := false
  parameters : Parameters := .none
  setup : List Setup := []
  returned : Returned
  deriving Repr

def ComponentFunction.render (options : Options) (f : ComponentFunction) : String :=
  let setup := f.setup.map fun s => Text.indentBlock 1 (s.code options.typeScript) ++ "\n"
  (if f.isDefault then "export default " else "export ") ++ (if f.isAsync then "async " else "") ++
    "function " ++ f.name ++ "(" ++ f.parameters.code options.typeScript ++ ") \x7b\n" ++
    (if setup.isEmpty then "" else Text.join "" setup ++ "\n") ++
    Text.indent 1 ++ "return (\n" ++ f.returned.render options ++ "\n" ++
    Text.indent 1 ++ ");\n\x7d"

namespace DataFetching

def binding (d : DataFetching) : String :=
  match d.variableName with
  | some name => if Name.isIdentifier name then name else "data"
  | none => "data"

def optionsCode (d : DataFetching) : String :=
  let parts := (d.cache.toList.map fun cache => "cache: \"" ++ cache.name ++ "\"") ++
    d.revalidate.toList.map fun seconds =>
      "next: \x7b revalidate: " ++ Decimal.digitText seconds ++ " \x7d"
  if parts.isEmpty then "" else ", \x7b " ++ Text.join ", " parts ++ " \x7d"

def fetchCode (d : DataFetching) (typeScript : Bool) : String :=
  Text.unlines [
    "async function getData()" ++ (if typeScript then ": Promise<unknown>" else "") ++ " \x7b",
    Text.indent 1 ++ "const res = await fetch(" ++ Text.quoted d.source ++ d.optionsCode ++ ");",
    Text.indent 1 ++ "if (!res.ok) \x7b",
    Text.indent 2 ++ "throw new Error(\"Failed to fetch data\");",
    Text.indent 1 ++ "\x7d",
    Text.indent 1 ++ "return res.json();",
    "\x7d"]

end DataFetching

inductive Block where
  | metadata (value : Json)
  | fetch (fetching : DataFetching)
  | routeProps (params : List RouteParam)
  | staticParams
  | component (function : ComponentFunction)
  deriving Repr

def Block.render (options : Options) : Block → String
  | .metadata value => Metadata.staticCode value options.typeScript
  | .fetch fetching => fetching.fetchCode options.typeScript
  | .routeProps params =>
    "type PageProps = \x7b\n" ++ Text.indent 1 ++ "params: Promise<" ++ RouteParam.typeOf params ++
      ">;\n\x7d;"
  | .staticParams =>
    "export async function generateStaticParams() \x7b\n" ++ Text.indent 1 ++ "return [];\n\x7d"
  | .component f => f.render options

structure PageModule where
  placement : Placement
  imports : Imports
  blocks : List Block
  deriving Repr

def PageModule.render (options : Options) (m : PageModule) : String :=
  assembleModule m.placement.directive? m.imports.lines (m.blocks.map (Block.render options))

end Pagewright

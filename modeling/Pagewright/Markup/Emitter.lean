import Pagewright.Markup.View
import Pagewright.Placement.Hook

/-!
# Emission

An emitter renders parts of one forest and remembers what the rendered components
need around them: imports, the functions their handlers refer to, kinds without a
primitive, and elements whose children were left out. The text of a part depends on
the forest, options and substitutions alone; the rest is a record of what was seen.
-/

set_option autoImplicit false

namespace Pagewright

def Component.registerImports (c : Component) (imports : Imports) : Imports :=
  let imports := match (Primitive.ofKind c.kind).framework with
    | some f => f.register imports
    | none => imports
  (c.properties.values.flatMap Hook.calls).foldl
    (fun imports hook => imports.addNamed [hook.name] hook.module) imports

structure Emitter where
  forest : Forest
  options : Options
  imports : Imports := Imports.empty
  handlerNames : List String := []
  fallbacks : List String := []
  voidParents : List String := []
  substitutions : Substitutions := OrderedMap.empty
  deriving Repr

namespace Emitter

def substitute (e : Emitter) (id component : String) : Emitter :=
  { e with substitutions := e.substitutions.insert id component }

def analyze (e : Emitter) (ids : List String) : Emitter :=
  let components := e.forest.walkFrom e.substitutions.keys ids
  { e with imports := components.foldl (fun imports c => c.registerImports imports) e.imports }

def note (e : Emitter) (c : Component) : Emitter :=
  let primitive := Primitive.ofKind c.kind
  { e with
    imports := match primitive.framework with
      | some f => f.register e.imports
      | none => e.imports
    handlerNames := FirstSeen.addAll e.handlerNames c.handlerNames
    fallbacks := if Primitive.isKnown c.kind then e.fallbacks else FirstSeen.add e.fallbacks c.kind
    voidParents :=
      if primitive.void && !(e.forest.children c).isEmpty then FirstSeen.add e.voidParents c.id
      else e.voidParents }

def noteAll (e : Emitter) (components : List Component) : Emitter := components.foldl note e

def renderTree (e : Emitter) (ids : List String) (depth : Nat) : String × Emitter :=
  let body : Body := ⟨false, e.forest.views e.substitutions ids⟩
  (body.render e.options depth, e.noteAll body.components)

def body (e : Emitter) (ids : List String) : Body := e.forest.body e.substitutions ids

def renderRoot (e : Emitter) (ids : List String) (depth : Nat) : String × Emitter :=
  let body := e.body ids
  (body.render e.options depth, e.noteAll body.components)

def stub (name : String) : String := "const " ++ name ++ " = () => \x7b\x7d;"

def stubNames (e : Emitter) : List String :=
  let bound := e.imports.bindings
  e.handlerNames.filter fun name => !bound.contains name

def stubs (e : Emitter) : List String := e.stubNames.map stub

def renderScoped (e : Emitter) (id : String) : Body × List String × Emitter :=
  let body := e.body [id]
  let inner := { e with handlerNames := [] }.noteAll body.components
  (body, inner.stubNames,
    { inner with handlerNames := FirstSeen.addAll e.handlerNames inner.handlerNames })

end Emitter

end Pagewright

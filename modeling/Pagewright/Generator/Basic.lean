import Pagewright.Action.Module
import Pagewright.Generator.Advice
import Pagewright.Generator.Failure
import Pagewright.Page.Plan
import Pagewright.Types.Inference

/-!
# Generation

The entry points. Each validates its request, plans the modules and finishes them
with the toolchain; every call stands on its own. A batch of pages is the
concatenation of the single results, and fails with the first page that does.
-/

set_option autoImplicit false

namespace Pagewright

structure Generation where
  files : List OutputFile
  statistics : PageStatistics
  suggestions : List Suggestion
  warnings : List String
  deriving Repr

namespace Generation

def empty : Generation := ⟨[], {}, [], []⟩

def tagged (path : String) (g : Generation) : Generation :=
  { g with warnings := g.warnings.map fun w => path ++ ": " ++ w }

def append (a b : Generation) : Generation :=
  ⟨a.files ++ b.files, a.statistics.merge b.statistics, a.suggestions ++ b.suggestions,
    a.warnings ++ b.warnings⟩

end Generation

def routeParams (params : OrderedMap ParamKind) : List RouteParam × List Violation :=
  let (good, bad) := params.entries.partition fun entry => Name.isIdentifier entry.1
  (good.map fun entry => ⟨entry.1, entry.2⟩, bad.map fun entry => .routeParameter entry.1)

def actionViolations (action : String) (params : List ActionField) : List Violation :=
  (params.filter fun p => !Name.isIdentifier p.name).map fun p => .actionParameter p.name action

namespace Toolchain

def result (t : Toolchain) (page : PageRequest) (output : PageOutput) : Generation :=
  let suggestions := suggest t.options page.components
  let isSplit := output.placement == .server &&
    output.files.any fun file => Text.occursIn islandsStem.toList file.path.toList
  { files := output.files
    statistics := output.statistics
    suggestions := if isSplit then suggestions.filter (!·.isPreferSplit) else suggestions
    warnings := output.warnings }

def pageOutput (t : Toolchain) (page : PageRequest) : Except Failure PageOutput :=
  match page.violations with
  | [] => .ok ((page.plan t.options).finish t)
  | violations => .error (.invalid violations)

def splitOutput (t : Toolchain) (page : PageRequest) : Except Failure PageOutput :=
  match page.violations with
  | [] => .ok ((page.splitPlan t.options).finish t)
  | violations => .error (.invalid violations)

def dynamicOutput (t : Toolchain) (page : PageRequest) (params : OrderedMap ParamKind) :
    Except Failure PageOutput :=
  let (good, bad) := routeParams params
  match page.violations ++ bad ++ (if params.isEmpty then [.noRouteParameter] else []) with
  | [] => .ok ((page.dynamicPlan t.options good).finish t)
  | violations => .error (.invalid violations)

def generatePage (t : Toolchain) (page : PageRequest) : Except Failure Generation :=
  (t.pageOutput page).map (t.result page)

def splitPage (t : Toolchain) (page : PageRequest) : Except Failure Generation :=
  (t.splitOutput page).map (t.result page)

def generateDynamicRoute (t : Toolchain) (page : PageRequest) (params : OrderedMap ParamKind) :
    Except Failure Generation :=
  (t.dynamicOutput page params).map (t.result page)

def generatePages (t : Toolchain) : List PageRequest → Except Failure Generation
  | [] => .ok Generation.empty
  | page :: rest =>
    match t.generatePage page with
    | .error cause => .error (.page page.path cause)
    | .ok first => (t.generatePages rest).map (first.tagged page.path).append

def typesPath : String := "types/components.ts"

def stylesheetPath : String := "app/globals.css"

def projectDrafts (t : Toolchain) (project : ProjectRequest) : Draft × List Draft :=
  let layout := Scaffold.layout project.name project.description t.options.typeScript
  let types := renderTypes (inferTypes (project.pages.flatMap PageRequest.components))
  (⟨.layout, Route.appDirectory ++ "/layout." ++ t.options.componentExtension,
      layout.render t.options⟩,
    if t.options.typeScript then [⟨.typeDeclaration, typesPath, types⟩] else [])

def generateProject (t : Toolchain) (project : ProjectRequest) : Except Failure Generation :=
  (t.generatePages project.pages).map fun g =>
    let (layoutDraft, typeDrafts) := t.projectDrafts project
    let layout := t.finish layoutDraft
    let types := typeDrafts.map t.finish
    let stylesheet :=
      OutputFile.of .stylesheet stylesheetPath (Scaffold.stylesheet t.options.utilityClasses)
    { g with
      files := g.files ++ layout.file :: stylesheet :: types.map Finished.file
      warnings := g.warnings ++ layout.warnings ++ types.flatMap Finished.warnings }

def isComponentName (name : String) : Bool :=
  Name.isIdentifier name && (name.toList.head?.map Char.isUpper).getD false

def componentModule (options : Options) (forest : Forest) (ids : List String) (name : String) :
    PageModule :=
  let report := forest.classify ids options.serverComponents
  let emitted := forest.emit options OrderedMap.empty ids
  { placement := report.page
    imports := emitted.imports
    blocks := [.component {
      name
      setup := emitted.stubNames.map .stub
      returned := .body emitted.body }] }

def generateComponent (t : Toolchain) (components : List Component) (ids : List String)
    (name : String) : Except Failure OutputFile :=
  let forest := Forest.ofComponents components
  if !isComponentName name then .error (.invalidComponentName name)
  else if ids.isEmpty then .error (.invalid (componentViolations []))
  else
    match ids.find? fun id => !forest.contains id with
    | some missing => .error (.unknownComponent missing)
    | none =>
      let m := componentModule t.options forest ids name
      let path := "components/" ++ name ++ "." ++ t.options.componentExtension
      .ok (t.finish ⟨.component, path, m.render t.options⟩).file

def actionFile (t : Toolchain) (name source : String) : OutputFile :=
  (t.finish ⟨.action, "app/actions/" ++ name ++ "." ++ t.options.scriptExtension, source⟩).file

def generateServerAction (t : Toolchain) (action : ServerAction) : Except Failure OutputFile :=
  if !Name.isIdentifier action.name then .error (.invalidActionName action.name)
  else
    match actionViolations action.name action.params with
    | [] => .ok (t.actionFile action.name (action.render t.options.typeScript))
    | violations => .error (.invalid violations)

def generateFormAction (t : Toolchain) (action : FormAction) : Except Failure OutputFile :=
  if !Name.isIdentifier action.name then .error (.invalidActionName action.name)
  else .ok (t.actionFile action.name (action.render t.options.typeScript))

end Toolchain

def generateMetadata (options : Options) (page : PageRequest) (dynamic : Bool) : String :=
  if dynamic then Metadata.dynamicCode page.metadataValue options.typeScript
  else Metadata.staticCode page.metadataValue options.typeScript

def pageStatistics (options : Options) (page : PageRequest) : PageStatistics :=
  let forest := Forest.ofComponents page.components
  forest.statistics (forest.classify forest.roots options.serverComponents)

end Pagewright

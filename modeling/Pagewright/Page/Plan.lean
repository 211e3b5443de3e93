import Pagewright.Markup.Emitter
import Pagewright.Ordered.Sorted
import Pagewright.Output.File
import Pagewright.Page.Scaffold
import Pagewright.Placement.Island

/-!
# Page plans

A plan holds the modules of one page before they are formatted: the page itself,
the companion that takes over a browser body where the page must stay on the
server, and the module of client islands. Loading and error modules follow in the
same directory. `PagePlan.finish` turns the plan into files and warnings.
-/

set_option autoImplicit false

namespace Pagewright

structure PageStatistics where
  total : Nat := 0
  client : Nat := 0
  server : Nat := 0
  /-- The number of components of each kind. -/
  components : List (String × Nat) := []
  deriving DecidableEq, Repr

def PageStatistics.merge (a b : PageStatistics) : PageStatistics :=
  ⟨a.total + b.total, a.client + b.client, a.server + b.server,
    Sorted.addTallies a.components b.components⟩

def Forest.statistics (forest : Forest) (report : PlacementReport) : PageStatistics where
  total := forest.size
  client := report.clientCount
  server := report.serverCount
  components := Sorted.tally (forest.components.map Component.kind)

structure EmittedBody where
  body : Body
  imports : Imports
  stubNames : List String
  fallbacks : List String
  voidParents : List String
  deriving Repr

def Forest.emit (forest : Forest) (options : Options) (substitutions : Substitutions)
    (ids : List String) : EmittedBody :=
  let start : Emitter := { forest, options, substitutions }
  let analyzed := start.analyze ids
  let body := analyzed.body ids
  let e := analyzed.noteAll body.components
  ⟨body, e.imports, e.stubNames, e.fallbacks, e.voidParents⟩

structure PagePlan where
  directory : String
  page : PageModule
  companion : Option PageModule := none
  islands : Option PageModule := none
  placement : Placement
  statistics : PageStatistics
  /-- Warnings about the request itself. -/
  notes : List String
  fallbacks : List String
  deriving Repr

structure PageOutput where
  files : List OutputFile
  placement : Placement
  statistics : PageStatistics
  warnings : List String
  fallbacks : List String
  deriving Repr

def companionStem : String := "page-client"

def islandsStem : String := "client-islands"

def fallbackNote (kind : String) : String :=
  "unknown component type `" ++ kind ++ "` rendered as a generic container"

def voidNote (id : String) : String :=
  "`" ++ id ++ "` is a void element; its children were not rendered"

def conflictNote (c : ImportConflict) : String :=
  "import of " ++ c.module ++ " replaced `" ++ c.previous ++ "` with `" ++ c.replacement ++ "`"

namespace PageRequest

def importMetadataType (page : PageRequest) (options : Options) (imports : Imports) : Imports :=
  if options.typeScript && page.metadata.isSome then imports.addTypes ["Metadata"] "next"
  else imports

def metadataBlocks (page : PageRequest) : List Block :=
  match page.metadata with
  | some _ => [.metadata page.metadataValue]
  | none => []

def componentName (page : PageRequest) : String := Name.ofTitle page.title

def pageModule (page : PageRequest) (options : Options) (placement : Placement) (imports : Imports)
    (setup : List Setup) (returned : Returned) : PageModule :=
  let function : ComponentFunction := { name := page.componentName, setup, returned }
  match page.dataFetching, page.metadata with
  | some fetching, _ =>
    { placement := .server
      imports := page.importMetadataType options imports
      blocks := page.metadataBlocks ++ [.fetch fetching, .component { function with
        isAsync := true
        setup := .fetched fetching.binding :: setup }] }
  | none, some _ =>
    { placement := .server
      imports := page.importMetadataType options imports
      blocks := page.metadataBlocks ++ [.component function] }
  | none, none => { placement, imports, blocks := [.component function] }

def companionName (page : PageRequest) : String := page.componentName ++ "Client"

def dataBinding? (page : PageRequest) : Option String := page.dataFetching.map DataFetching.binding

def companionModule (page : PageRequest) (emitted : EmittedBody) : PageModule where
  placement := .client
  imports := emitted.imports
  blocks := [.component {
    name := page.companionName
    parameters := match page.dataBinding? with
      | some name => .data name
      | none => .none
    setup := emitted.stubNames.map .stub
    returned := .body emitted.body }]

def needsCompanion (page : PageRequest) (placement : Placement) : Bool :=
  page.strategy != .plain && placement.isClient

def modules (page : PageRequest) (options : Options) (placement : Placement)
    (emitted : EmittedBody) : PageModule × Option PageModule :=
  if page.needsCompanion placement then
    let imports := Imports.empty.addDefault page.companionName ("./" ++ companionStem)
    (page.pageModule options .server imports [] (.companion page.companionName page.dataBinding?),
      some (page.companionModule emitted))
  else
    (page.pageModule options placement emitted.imports (emitted.stubNames.map .stub)
      (.body emitted.body), none)

def plan (page : PageRequest) (options : Options) : PagePlan :=
  let forest := Forest.ofComponents page.components
  let report := forest.classify forest.roots options.serverComponents
  let emitted := forest.emit options OrderedMap.empty forest.roots
  let (pageModule, companion) := page.modules options report.page emitted
  { directory := Route.directory page.path
    page := pageModule
    companion
    placement := report.page
    statistics := forest.statistics report
    notes := emitted.fallbacks.map fallbackNote ++ emitted.voidParents.map voidNote ++
      emitted.imports.conflicts.map conflictNote
    fallbacks := emitted.fallbacks }

/-- The page module of a parameterised route. In the browser the parameters come from a hook, on
the server from the page's properties. -/
def dynamicModule (page : PageRequest) (options : Options) (placement : Placement)
    (emitted : EmittedBody) (params : List RouteParam) : PageModule :=
  let conversions := (params.filter (·.kind == .number)).map Setup.conversion
  let stubs := emitted.stubNames.map Setup.stub
  let returned := Returned.body emitted.body
  if placement.isClient then
    { placement := .client
      imports := emitted.imports.addNavigation ["useParams"]
      blocks := [.component {
        name := page.componentName
        setup := .paramsHook params :: params.map .paramsField ++ conversions ++ stubs
        returned }] }
  else
    { placement := .server
      imports := emitted.imports
      blocks := (if options.typeScript then [.routeProps params] else []) ++ [
        .staticParams,
        .component {
          name := page.componentName
          isAsync := true
          parameters := .routeParams
          setup := .paramsPattern params :: conversions ++ stubs
          returned }] }

def ignoredNote : String := "dynamic routes ignore metadata and dataFetching descriptors"

def dynamicPlan (page : PageRequest) (options : Options) (params : List RouteParam) : PagePlan :=
  let forest := Forest.ofComponents page.components
  let report := forest.classify forest.roots options.serverComponents
  let emitted := forest.emit options OrderedMap.empty forest.roots
  { directory := Route.directory (Route.withParams page.path params)
    page := page.dynamicModule options report.page emitted params
    placement := report.page
    statistics := forest.statistics report
    notes := (if page.strategy = .plain then [] else [ignoredNote]) ++
      emitted.fallbacks.map fallbackNote ++ emitted.voidParents.map voidNote
    fallbacks := emitted.fallbacks }

def islandNames (islandRoots : List String) : List (String × String) :=
  islandRoots.zipIdx.map fun (id, i) => (id, "ClientIsland" ++ Decimal.digitText (i + 1))

def islandFunctions (e : Emitter) : List (String × String) → List ComponentFunction × Emitter
  | [] => ([], e)
  | (id, name) :: rest =>
    let (body, stubNames, e) := e.renderScoped id
    let (functions, e) := islandFunctions e rest
    let function : ComponentFunction :=
      { name, isDefault := false, setup := stubNames.map .stub, returned := .body body }
    (function :: functions, e)

def splitPlan (page : PageRequest) (options : Options) : PagePlan :=
  let forest := Forest.ofComponents page.components
  let report := forest.classify forest.roots true
  let names := islandNames forest.islandRoots
  let start : Emitter := { forest, options }
  let (functions, islands) := islandFunctions (start.analyze forest.islandRoots) names
  let emitted := forest.emit options (OrderedMap.ofList names) forest.roots
  let emitted := if names.isEmpty then emitted else
    { emitted with imports := emitted.imports.addNamed (names.map Prod.snd) ("./" ++ islandsStem) }
  let fallbacks := FirstSeen.addAll islands.fallbacks emitted.fallbacks
  let voidParents := FirstSeen.addAll islands.voidParents emitted.voidParents
  let (pageModule, companion) := page.modules options .server emitted
  { directory := Route.directory page.path
    page := pageModule
    companion
    islands :=
      if names.isEmpty then none
      else some ⟨.client, islands.imports, functions.map .component⟩
    placement := .server
    statistics := forest.statistics report
    notes := fallbacks.map fallbackNote ++ voidParents.map voidNote ++
      emitted.imports.conflicts.map conflictNote
    fallbacks }

end PageRequest

namespace PagePlan

def pathOf (plan : PagePlan) (options : Options) (stem : String) : String :=
  plan.directory ++ "/" ++ stem ++ "." ++ options.componentExtension

def draft (plan : PagePlan) (options : Options) (kind : FileKind) (stem : String) (m : PageModule) :
    Draft :=
  ⟨kind, plan.pathOf options stem, m.render options⟩

def finish (plan : PagePlan) (t : Toolchain) : PageOutput :=
  let finish := fun kind stem m => t.finish (plan.draft t.options kind stem m)
  let islands := plan.islands.toList.map (finish .component islandsStem)
  let companion := plan.companion.toList.map (finish .component companionStem)
  let page := finish .page "page" plan.page
  let scaffolds := [finish .scaffold "loading" (Scaffold.loading t.options),
    finish .scaffold "error" Scaffold.error]
  { files := (page :: companion ++ islands ++ scaffolds).map Finished.file
    placement := plan.placement
    statistics := plan.statistics
    warnings := islands.flatMap Finished.warnings ++ plan.notes ++
      (companion ++ page :: scaffolds).flatMap Finished.warnings
    fallbacks := plan.fallbacks }

end PagePlan

end Pagewright

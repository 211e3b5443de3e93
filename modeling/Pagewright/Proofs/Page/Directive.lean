import Mathlib.Data.List.Forall2
import Pagewright.Proofs.Code.Function
import Pagewright.Proofs.Page.IslandNames
import Pagewright.Proofs.Text.Split

/-!
# Modules without a browser directive

A module that does not open with the directive for the browser holds nothing that
needs the browser. Where a module goes is decided by a walk, what it imports by a
second traversal and what it shows by a third; each stays within reach of the same
ids, and that is all the proof needs of them. A split page reaches its components
without entering an island, a page with a companion shows no component at all.
-/

set_option autoImplicit false

namespace Pagewright

structure PageModule.ServerSafe (m : PageModule) : Prop where
  placed : ∀ c ∈ m.components, c.placement = .server
  inert : ∀ c ∈ m.components, c.Inert
  stubless : ∀ f ∈ m.functions, f.stubNames = []
  hookless : ∀ hook ∈ Hook.client, hook.name ∉ m.imports.bindings

def clientDirective : String := "\"use client\";"

def PageModule.Marked (options : Options) (m : PageModule) : Prop :=
  Text.startsWith (m.render options) clientDirective = false → m.ServerSafe

/-! ## Module texts and names -/

theorem PageModule.opens_with_directive (options : Options) {m : PageModule}
    (h : m.placement = .client) : Text.startsWith (m.render options) clientDirective = true := by
  rw [PageModule.render, assembleModule, h]
  obtain ⟨tail, htail⟩ := Text.join_cons "\n\n" clientDirective
    ((if m.imports.lines.isEmpty then [] else [Text.unlines m.imports.lines]) ++
      m.blocks.map (Block.render options))
  have hparts : Placement.client.directive?.toList ++
      (if m.imports.lines.isEmpty then [] else [Text.unlines m.imports.lines]) ++
      m.blocks.map (Block.render options) = clientDirective ::
        ((if m.imports.lines.isEmpty then [] else [Text.unlines m.imports.lines]) ++
          m.blocks.map (Block.render options)) := by
    rw [List.append_assoc]
    rfl
  simp only [hparts, htail, String.append_assoc]
  exact Text.startsWith_append _ _

theorem PageModule.marked_of_client (options : Options) {m : PageModule}
    (h : m.placement = .client) : m.Marked options := by
  intro hstart
  rw [PageModule.opens_with_directive options h] at hstart
  cases hstart

def IsNoHook (name : String) : Prop := ∀ hook ∈ Hook.client, hook.name ≠ name

theorem frameworkNames_noHook : ∀ name ∈ frameworkNames, IsNoHook name := by
  unfold IsNoHook
  decide

theorem Imports.Binds.mono {P Q : String → Prop} {imports : Imports} (h : imports.Binds P)
    (hpq : ∀ name, P name → Q name) : imports.Binds Q :=
  fun name hname => hpq name (h name hname)

theorem companionName_noHook (page : PageRequest) : IsNoHook page.companionName := by
  have ending : ∀ hook ∈ Hook.client, ¬ "Client".toList <:+ hook.name.toList := by decide
  intro hook hhook heq
  apply ending hook hhook
  rw [heq, PageRequest.companionName, String.toList_append]
  exact List.suffix_append _ _

theorem islandName_noHook (number : Nat) : IsNoHook (islandName number) := by
  have opening : ∀ hook ∈ Hook.client, ¬ "ClientIsland".toList <+: hook.name.toList := by decide
  intro hook hhook heq
  apply opening hook hhook
  rw [heq, islandName, String.toList_append]
  exact List.prefix_append _ _

/-! ## The modules of a page -/

def Setup.isStub : Setup → Bool
  | .stub _ => true
  | _ => false

theorem stubNames_eq_nil {f : ComponentFunction} (h : ∀ s ∈ f.setup, s.isStub = false) :
    f.stubNames = [] := by
  rw [ComponentFunction.stubNames, List.filterMap_eq_nil_iff]
  intro s hs
  have hstub := h s hs
  cases s <;> simp_all [Setup.isStub]

/-- A module with one component function, without stubs and hooks, that shows inert components
only. -/
theorem PageModule.serverSafe_of_single {m : PageModule} {f : ComponentFunction}
    (hfunctions : m.functions = [f]) (hshown : ∀ c ∈ f.returned.components, c.Inert)
    (hsetup : ∀ s ∈ f.setup, s.isStub = false) (himports : m.imports.Binds IsNoHook) :
    m.ServerSafe := by
  have inert : ∀ c ∈ m.components, c.Inert := by
    simpa [PageModule.components, hfunctions] using hshown
  refine ⟨fun c hc => c.placement_eq_server_iff.mpr (inert c hc), inert, ?_, ?_⟩
  · simpa [hfunctions] using stubNames_eq_nil hsetup
  · intro hook hhook hbound
    exact himports _ hbound hook hhook rfl

structure EmittedBody.ServerSafe (emitted : EmittedBody) : Prop where
  inert : ∀ c ∈ emitted.body.components, c.Inert
  stubless : emitted.stubNames = []
  imports : emitted.imports.Binds IsNoHook

namespace PageRequest

theorem importMetadataType_noHook (page : PageRequest) (options : Options) {imports : Imports}
    (h : imports.Binds IsNoHook) : (page.importMetadataType options imports).Binds IsNoHook := by
  unfold importMetadataType
  split
  · have hmetadata : specifiers ["Metadata"] = ["Metadata"] := specifiers_unbroken (by decide)
    apply h.addTypes
    rw [hmetadata]
    unfold IsNoHook
    decide
  · exact h

theorem pageModule_safe (page : PageRequest) (options : Options) (placement : Placement)
    {imports : Imports} {returned : Returned} (himports : imports.Binds IsNoHook)
    (hshown : ∀ c ∈ returned.components, c.Inert) :
    (page.pageModule options placement imports [] returned).ServerSafe := by
  have htyped := page.importMetadataType_noHook options himports
  unfold pageModule
  cases hfetching : page.dataFetching with
  | some fetching =>
    cases hmetadata : page.metadata <;>
      exact PageModule.serverSafe_of_single
        (by simp [PageModule.functions, metadataBlocks, hmetadata]; rfl) hshown
        (by simp [Setup.isStub]) htyped
  | none =>
    cases hmetadata : page.metadata with
    | some _ =>
      exact PageModule.serverSafe_of_single
        (by simp [PageModule.functions, metadataBlocks, hmetadata]; rfl) hshown (by simp) htyped
    | none =>
      exact PageModule.serverSafe_of_single (by simp [PageModule.functions]; rfl) hshown (by simp)
        himports

/-- Without metadata and data, the page module is the component function alone. -/
theorem pageModule_plain (page : PageRequest) (options : Options) (placement : Placement)
    (imports : Imports) (setup : List Setup) (returned : Returned)
    (h : page.strategy = .plain) :
    page.pageModule options placement imports setup returned =
      { placement, imports,
        blocks := [.component { name := page.componentName, setup, returned }] } := by
  unfold strategy at h
  cases hfetching : page.dataFetching with
  | some fetching => simp [hfetching] at h
  | none =>
    cases hmetadata : page.metadata with
    | some m => simp [hfetching, hmetadata] at h
    | none => simp [pageModule, hfetching, hmetadata]

theorem client_of_needsCompanion {page : PageRequest} {placement : Placement}
    (h : page.needsCompanion placement = true) : placement = .client := by
  cases placement with
  | client => rfl
  | server => simp at h

theorem strategy_of_not_companion {page : PageRequest}
    (h : page.needsCompanion .client = false) : page.strategy = .plain := by
  simpa [needsCompanion, Placement.isClient] using h

/-- Whatever the strategy, the modules around a body are marked as they need, provided that a
body placed on the server needs nothing of the browser. -/
theorem modules_marked (page : PageRequest) (options : Options) (placement : Placement)
    (emitted : EmittedBody)
    (h : placement = .server → emitted.ServerSafe) :
    (page.modules options placement emitted).1.Marked options ∧
      ∀ m ∈ (page.modules options placement emitted).2, m.Marked options := by
  by_cases hneeds : page.needsCompanion placement = true
  · simp only [modules, hneeds, if_true]
    constructor
    · intro _
      apply pageModule_safe
      · exact Imports.Binds.addDefault Imports.binds_empty (companionName_noHook page) _
      · simp [Returned.components]
    · intro m hm
      cases hm
      exact PageModule.marked_of_client options rfl
  · simp only [modules, hneeds, if_false, Option.mem_def, reduceCtorEq, false_imp_iff, implies_true,
      and_true, Bool.false_eq_true]
    cases placement with
    | client =>
      rw [pageModule_plain _ _ _ _ _ _ (strategy_of_not_companion (Bool.eq_false_iff.mpr hneeds))]
      exact PageModule.marked_of_client options rfl
    | server =>
      intro _
      rw [(h rfl).stubless]
      exact pageModule_safe page options .server (h rfl).imports (h rfl).inert

theorem dynamicModule_marked (page : PageRequest) (options : Options) (placement : Placement)
    (emitted : EmittedBody) (params : List RouteParam)
    (h : placement = .server → emitted.ServerSafe) :
    (page.dynamicModule options placement emitted params).Marked options := by
  cases placement with
  | client => exact PageModule.marked_of_client options rfl
  | server =>
    intro _
    refine PageModule.serverSafe_of_single (f := {
      name := page.componentName
      isAsync := true
      parameters := .routeParams
      setup := .paramsPattern params ::
        (params.filter (·.kind == .number)).map Setup.conversion ++
          emitted.stubNames.map Setup.stub
      returned := .body emitted.body }) ?_ (h rfl).inert ?_ (h rfl).imports
    · cases hts : options.typeScript <;>
        simp [dynamicModule, Placement.isClient, PageModule.functions, hts]
    · rw [(h rfl).stubless]
      simp only [List.map_nil, List.append_nil, List.mem_cons, List.mem_map, List.mem_filter]
      rintro _ (rfl | ⟨param, _, rfl⟩) <;> rfl

end PageRequest

/-! ## Plans and entry points -/

def Toolchain.KeepsDirective (t : Toolchain) : Prop :=
  ∀ source path content, t.formatter source path = .ok content →
    Text.startsWith source clientDirective = true → Text.startsWith content clientDirective = true

theorem Toolchain.KeepsDirective.finish {t : Toolchain} (h : t.KeepsDirective) (d : Draft)
    (hd : Text.startsWith d.source clientDirective = true) :
    Text.startsWith (t.finish d).file.content clientDirective = true := by
  have hformatted : Text.startsWith (t.formatted d).1 clientDirective = true := by
    unfold Toolchain.formatted
    split
    · split
      · rename_i content hcontent
        exact h _ _ _ hcontent hd
      · exact hd
    · exact hd
  exact hformatted

/-- A file is emitted from a module that is marked as it needs: in the text that is handed to the
formatter, and in the file itself where the formatter keeps the directive. -/
structure PageModule.Emitted (t : Toolchain) (kind : FileKind) (path : String) (m : PageModule)
    (file : OutputFile) : Prop where
  finished : file = (t.finish ⟨kind, path, m.render t.options⟩).file
  drafted : m.Marked t.options
  formatted : t.KeepsDirective →
    Text.startsWith file.content clientDirective = false → m.ServerSafe

theorem PageModule.Marked.emitted {t : Toolchain} {m : PageModule} (h : m.Marked t.options)
    (kind : FileKind) (path : String) :
    m.Emitted t kind path (t.finish ⟨kind, path, m.render t.options⟩).file := by
  refine ⟨rfl, h, fun hkeeps hcontent => h ?_⟩
  cases hdraft : Text.startsWith (m.render t.options) clientDirective with
  | false => rfl
  | true =>
    have := hkeeps.finish ⟨kind, path, m.render t.options⟩ hdraft
    rw [hcontent] at this
    cases this

structure PlannedModule where
  kind : FileKind
  stem : String
  module : PageModule

namespace PagePlan

def modules (plan : PagePlan) (options : Options) : List PlannedModule :=
  ⟨.page, "page", plan.page⟩ ::
    plan.companion.toList.map (⟨.component, companionStem, ·⟩) ++
    plan.islands.toList.map (⟨.component, islandsStem, ·⟩) ++
    [⟨.scaffold, "loading", Scaffold.loading options⟩, ⟨.scaffold, "error", Scaffold.error⟩]

/-- What holds of the page, of its companion and islands and of the scaffolds holds of every
module. -/
theorem forall_modules {plan : PagePlan} {options : Options} {P : PageModule → Prop}
    (hpage : P plan.page) (hcompanion : ∀ m ∈ plan.companion, P m)
    (hislands : ∀ m ∈ plan.islands, P m) (hloading : P (Scaffold.loading options))
    (herror : P Scaffold.error) : ∀ m ∈ plan.modules options, P m.module := by
  intro m hm
  simp only [modules, List.cons_append, List.mem_cons, List.mem_append, List.mem_map,
    Option.mem_toList, List.not_mem_nil, or_false] at hm
  rcases hm with rfl | (⟨companion, hc, rfl⟩ | ⟨islands, hi, rfl⟩) | rfl | rfl
  · exact hpage
  · exact hcompanion companion hc
  · exact hislands islands hi
  · exact hloading
  · exact herror

theorem finish_files (plan : PagePlan) (t : Toolchain) :
    (plan.finish t).files = (plan.modules t.options).map fun m =>
      (t.finish (plan.draft t.options m.kind m.stem m.module)).file := by
  simp [finish, modules, Function.comp_def]

def Emits (plan : PagePlan) (t : Toolchain) (files : List OutputFile) : Prop :=
  List.Forall₂ (fun m file => m.module.Emitted t m.kind (plan.pathOf t.options m.stem) file)
    (plan.modules t.options) files

theorem emits_finish {plan : PagePlan} {t : Toolchain} (hpage : plan.page.Marked t.options)
    (hcompanion : ∀ m ∈ plan.companion, m.Marked t.options)
    (hislands : ∀ m ∈ plan.islands, m.Marked t.options) :
    plan.Emits t (plan.finish t).files := by
  have loading : (Scaffold.loading t.options).Marked t.options := by
    intro _
    refine PageModule.serverSafe_of_single rfl (by simp [Returned.components]) (by simp) ?_
    exact Imports.binds_empty
  have marked := forall_modules hpage hcompanion hislands loading
    (PageModule.marked_of_client t.options rfl)
  rw [Emits, finish_files, List.forall₂_map_right_iff, List.forall₂_same]
  exact fun m hm => (marked m hm).emitted _ _

end PagePlan

theorem EmittedBody.Quiet.serverSafe {emitted : EmittedBody} (h : emitted.Quiet) :
    emitted.ServerSafe :=
  ⟨h.inert, h.stubless, h.imports.binds.mono frameworkNames_noHook⟩

/-- A body without placeholders is safe where its walk met no browser component. -/
theorem Forest.emit_serverSafe (forest : Forest) (options : Options) (ids : List String)
    (preferServer : Bool) (h : (forest.classify ids preferServer).page = .server) :
    (forest.emit options OrderedMap.empty ids).ServerSafe := by
  have hquiet := forest.emit_quiet options OrderedMap.empty ids
    fun _ hc => Forest.classify_server h hc
  exact hquiet.serverSafe

namespace PageRequest

theorem plan_emits (page : PageRequest) (t : Toolchain) :
    (page.plan t.options).Emits t ((page.plan t.options).finish t).files := by
  have hmodules := page.modules_marked t.options
    ((Forest.ofComponents page.components).classify (Forest.ofComponents page.components).roots
      t.options.serverComponents).page
    ((Forest.ofComponents page.components).emit t.options OrderedMap.empty
      (Forest.ofComponents page.components).roots)
    (Forest.emit_serverSafe _ t.options _ _)
  exact PagePlan.emits_finish hmodules.1 hmodules.2 (by simp [plan])

theorem dynamicPlan_emits (page : PageRequest) (t : Toolchain) (params : List RouteParam) :
    (page.dynamicPlan t.options params).Emits t
      ((page.dynamicPlan t.options params).finish t).files := by
  have hmodule := page.dynamicModule_marked t.options
    ((Forest.ofComponents page.components).classify (Forest.ofComponents page.components).roots
      t.options.serverComponents).page
    ((Forest.ofComponents page.components).emit t.options OrderedMap.empty
      (Forest.ofComponents page.components).roots)
    params (Forest.emit_serverSafe _ t.options _ _)
  exact PagePlan.emits_finish hmodule (by simp [dynamicPlan]) (by simp [dynamicPlan])

theorem splitEmitted_serverSafe (page : PageRequest) (options : Options)
    (h : componentViolations page.components = []) : (page.splitEmitted options).ServerSafe := by
  have hquiet := page.split_quiet options h
  unfold splitEmitted
  split
  · exact hquiet.serverSafe
  · refine ⟨hquiet.inert, hquiet.stubless, hquiet.serverSafe.imports.addNamed ?_ _⟩
    intro name hname
    rw [splitNames, specifiers_islandNames] at hname
    obtain ⟨entry, hentry, rfl⟩ := List.mem_map.mp hname
    obtain ⟨_, number, hnumber⟩ := mem_islandNames hentry
    rw [hnumber, (specifier_unbroken (islandName_unbroken number)).2]
    exact islandName_noHook number

theorem splitPlan_emits (page : PageRequest) (t : Toolchain)
    (h : componentViolations page.components = []) :
    (page.splitPlan t.options).Emits t ((page.splitPlan t.options).finish t).files := by
  have hmodules := page.modules_marked t.options .server (page.splitEmitted t.options)
    fun _ => page.splitEmitted_serverSafe t.options h
  refine PagePlan.emits_finish hmodules.1 hmodules.2 ?_
  intro m hm
  have hclient : m.placement = .client := by
    simp only [splitPlan] at hm
    split at hm
    · cases hm
    · cases hm
      rfl
  exact PageModule.marked_of_client t.options hclient

end PageRequest

namespace Toolchain

theorem componentModule_marked (options : Options) (forest : Forest) (ids : List String)
    (name : String) : (componentModule options forest ids name).Marked options := by
  cases hplacement : (forest.classify ids options.serverComponents).page with
  | client => exact PageModule.marked_of_client options hplacement
  | server =>
    intro _
    have hsafe := forest.emit_serverSafe options ids _ hplacement
    refine PageModule.serverSafe_of_single rfl hsafe.inert ?_ hsafe.imports
    rw [hsafe.stubless]
    simp

/-- Every module of a page, of a page on a dynamic route, of a split page and of a standalone
component opens with the browser directive, or shows server components only, declares no stub and
imports no browser hook. -/
theorem directive_soundness (t : Toolchain) :
    (∀ page g, t.generatePage page = .ok g → (page.plan t.options).Emits t g.files) ∧
    (∀ page params g, t.generateDynamicRoute page params = .ok g →
      (page.dynamicPlan t.options (routeParams params).1).Emits t g.files) ∧
    (∀ page g, t.splitPage page = .ok g → (page.splitPlan t.options).Emits t g.files) ∧
    (∀ components ids name file, t.generateComponent components ids name = .ok file →
      (componentModule t.options (Forest.ofComponents components) ids name).Emitted t .component
        ("components/" ++ name ++ "." ++ t.options.componentExtension) file) := by
  refine ⟨?_, ?_, ?_, ?_⟩
  · intro page g h
    rw [files_of_generatePage h]
    exact page.plan_emits t
  · intro page params g h
    rw [(files_of_generateDynamicRoute h).2]
    exact page.dynamicPlan_emits t _
  · intro page g h
    obtain ⟨hvalid, hfiles⟩ := files_of_splitPage h
    rw [hfiles]
    exact page.splitPlan_emits t hvalid
  · intro components ids name file h
    rw [file_of_generateComponent h]
    exact (componentModule_marked _ _ _ _).emitted _ _

end Toolchain

namespace Sample

def params : OrderedMap ParamKind := OrderedMap.ofList [("slug", .string)]

theorem directive_soundness_sample :
    toolchain.KeepsDirective ∧
    (∃ g, toolchain.generatePage page = .ok g ∧
      (page.plan toolchain.options).Emits toolchain g.files) ∧
    (∃ g, toolchain.generateDynamicRoute page params = .ok g ∧
      (page.dynamicPlan toolchain.options (routeParams params).1).Emits toolchain g.files) ∧
    (∃ g, toolchain.splitPage page = .ok g ∧
      (page.splitPlan toolchain.options).Emits toolchain g.files) ∧
    (∃ file, toolchain.generateComponent components ["box", "lost"] "Card" = .ok file ∧
      (Toolchain.componentModule toolchain.options (Forest.ofComponents components) ["box", "lost"]
        "Card").Emitted toolchain .component
          ("components/" ++ "Card" ++ "." ++ toolchain.options.componentExtension) file) := by
  obtain ⟨hpage, hdynamic, hsplit, hcomponent⟩ := Toolchain.directive_soundness toolchain
  have component_ok : ∃ file,
      toolchain.generateComponent components ["box", "lost"] "Card" = .ok file := ⟨_, rfl⟩
  obtain ⟨p, hp⟩ := toolchain.generatePage_ok page_valid
  obtain ⟨d, hd⟩ := toolchain.generateDynamicRoute_ok page_valid
    (by decide : (routeParams params).2 = []) (by decide)
  obtain ⟨s, hs⟩ := toolchain.splitPage_ok page_valid
  obtain ⟨file, hfile⟩ := component_ok
  have keeps : toolchain.KeepsDirective := by
    intro source path content hformat hsource
    cases hformat
    exact hsource
  exact ⟨keeps, ⟨p, hp, hpage _ _ hp⟩, ⟨d, hd, hdynamic _ _ _ hd⟩, ⟨s, hs, hsplit _ _ hs⟩,
    ⟨file, hfile, hcomponent _ _ _ _ hfile⟩⟩

end Sample

end Pagewright

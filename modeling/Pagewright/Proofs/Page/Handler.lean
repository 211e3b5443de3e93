import Mathlib.Data.List.Count
import Pagewright.Proofs.Markup.Reference
import Pagewright.Proofs.Page.Directive
import Pagewright.Proofs.Page.Split

/-!
# Handlers and the modules they stand in

Whatever a handler refers to by an identifier is bound exactly once where it is
rendered: by a stub in the very function that returns the markup, or by an import of
the module. A function has no other stubs. A companion takes body, stubs and imports
along, and each island keeps the stubs of its own body beside imports that were
complete before the first island was rendered.
-/

set_option autoImplicit false

namespace Pagewright

def Returned.attributes (options : Options) : Returned → List Attribute
  | .body b => b.attributes options
  | _ => []

namespace ComponentFunction

def statements (options : Options) (f : ComponentFunction) : List String :=
  f.setup.map (Setup.code options.typeScript)

/-- A function that a handler refers to by an identifier is declared by exactly one stub, unless
an import binds it and there is none; and every stub is referred to. -/
structure BindsHandlers (options : Options) (imports : Imports) (f : ComponentFunction) :
    Prop where
  once : ∀ key name, ⟨key, .reference name⟩ ∈ f.returned.attributes options →
    Name.isIdentifier name = true →
    (f.statements options).count (Emitter.stub name) = if name ∈ imports.bindings then 0 else 1
  needed : ∀ name, Emitter.stub name ∈ f.statements options →
    ∃ key, ⟨key, .reference name⟩ ∈ f.returned.attributes options

end ComponentFunction

def PageModule.BindsHandlers (options : Options) (m : PageModule) : Prop :=
  ∀ f ∈ m.functions, f.BindsHandlers options m.imports

def PagePlan.Yields (plan : PagePlan) (t : Toolchain) (P : PageModule → Prop)
    (files : List OutputFile) : Prop :=
  List.Forall₂ (fun m file =>
    file = (t.finish (plan.draft t.options m.kind m.stem m.module)).file ∧ P m.module)
    (plan.modules t.options) files

theorem PagePlan.yields_finish {plan : PagePlan} {t : Toolchain} {P : PageModule → Prop}
    (h : ∀ m ∈ plan.modules t.options, P m.module) : plan.Yields t P (plan.finish t).files := by
  rw [Yields, finish_files, List.forall₂_map_right_iff, List.forall₂_same]
  exact fun m hm => ⟨rfl, h m hm⟩

theorem PagePlan.Yields.holds {plan : PagePlan} {t : Toolchain} {P : PageModule → Prop}
    {files : List OutputFile} (h : plan.Yields t P files) :
    ∀ m ∈ plan.modules t.options, P m.module := by
  have parts := List.Forall₂.imp (fun _ _ hm => And.symm hm) h
  exact ((List.forall₂_and_left _ _).mp parts).1

/-! ## The text of a stub -/

theorem Emitter.stub_injective : Function.Injective stub :=
  Text.between_injective "const " " = () => \x7b\x7d;"

theorem Text.suffix_append_right (s : String) {t : String} {ending : List Char}
    (h : ending <:+ t.toList) : ending <:+ (s ++ t).toList := by
  rw [String.toList_append]
  exact h.trans (List.suffix_append _ _)

theorem Setup.fetched_ne_stub (typeScript : Bool) (variableName name : String) :
    (Setup.fetched variableName).code typeScript ≠ Emitter.stub name := by
  have call : "();".toList <:+ ((Setup.fetched variableName).code typeScript).toList :=
    Text.suffix_append_right ("const " ++ variableName) (by decide)
  have block : "\x7b\x7d;".toList <:+ (Emitter.stub name).toList :=
    Text.suffix_append_right ("const " ++ name) (by decide)
  intro h
  rw [h] at call
  exact absurd (List.suffix_of_suffix_length_le call block (by decide)) (by decide)

theorem Setup.effect_ne_stub {code : String} (h : Text.startsWith code "const " = false)
    (typeScript : Bool) (name : String) :
    (Setup.effect code).code typeScript ≠ Emitter.stub name := by
  intro heq
  have opening : Text.startsWith (Emitter.stub name) "const " = true := by
    rw [Emitter.stub, String.append_assoc]
    exact Text.startsWith_append _ _
  rw [← heq] at opening
  exact absurd (h.symm.trans opening) (by decide)

namespace ComponentFunction

theorem bindsHandlers_of_stubbed {options : Options} {imports : Imports} {f : ComponentFunction}
    {body : Body} {stubNames : List String} (h : body.StubbedBy options imports stubNames)
    (hreturned : f.returned = .body body) (hsetup : f.setup = stubNames.map .stub) :
    f.BindsHandlers options imports := by
  have statements : f.statements options = stubNames.map Emitter.stub := by
    rw [statements, hsetup, List.map_map]
    rfl
  have attributes : f.returned.attributes options = body.attributes options := by
    rw [hreturned]
    rfl
  constructor
  · intro key name hkey hname
    rw [attributes] at hkey
    have hmem : name ∈ stubNames ↔ name ∉ imports.bindings := by
      rw [h.mem_iff]
      exact ⟨fun hstub => hstub.2.2, fun hfree => ⟨⟨key, hkey⟩, hname, hfree⟩⟩
    rw [statements, List.count_map_of_injective _ _ Emitter.stub_injective, h.distinct.count]
    by_cases hbound : name ∈ imports.bindings <;> simp [hmem, hbound]
  · intro name hname
    rw [statements, List.mem_map_of_injective Emitter.stub_injective] at hname
    rw [attributes]
    exact ((h.mem_iff name).mp hname).1

/-- Where nothing is referred to, any setup without stubs will do. -/
theorem bindsHandlers_of_silent {options : Options} (imports : Imports) {f : ComponentFunction}
    (hreturned : ∀ key name, ⟨key, .reference name⟩ ∉ f.returned.attributes options)
    (hsetup : ∀ name, Emitter.stub name ∉ f.statements options) :
    f.BindsHandlers options imports :=
  ⟨fun key name hkey => absurd hkey (hreturned key name),
    fun name hname => absurd hname (hsetup name)⟩

end ComponentFunction

/-! ## The modules of a page -/

namespace Scaffold

theorem loading_bindsHandlers (options : Options) : (loading options).BindsHandlers options := by
  intro f hf
  cases List.mem_singleton.mp hf
  apply ComponentFunction.bindsHandlers_of_silent <;>
    simp [Returned.attributes, ComponentFunction.statements]

theorem error_bindsHandlers (options : Options) : error.BindsHandlers options := by
  intro f hf
  cases List.mem_singleton.mp hf
  apply ComponentFunction.bindsHandlers_of_silent
  · simp [Returned.attributes]
  · intro name hname
    exact Setup.effect_ne_stub (by decide) _ _ (List.mem_singleton.mp hname).symm

end Scaffold

namespace PageRequest

theorem pageModule_silent (page : PageRequest) (options : Options) (placement : Placement)
    (imports : Imports) {returned : Returned}
    (h : ∀ key name, ⟨key, .reference name⟩ ∉ returned.attributes options) :
    (page.pageModule options placement imports [] returned).BindsHandlers options := by
  intro f hf
  have parts := List.mem_map_of_mem (f := fun f : ComponentFunction => (f.setup, f.returned)) hf
  rw [pageModule_parts, List.append_nil, List.mem_singleton, Prod.mk.injEq] at parts
  obtain ⟨hsetup, hreturned⟩ := parts
  apply ComponentFunction.bindsHandlers_of_silent
  · rwa [hreturned]
  · intro name hname
    rw [ComponentFunction.statements, hsetup, List.map_map] at hname
    obtain ⟨data, _, hcode⟩ := List.mem_map.mp hname
    exact Setup.fetched_ne_stub _ _ _ hcode

/-- Whatever the strategy, handlers are bound in the modules around a body with its stubs, if a
body that is placed on the server refers to nothing. -/
theorem modules_bindHandlers (page : PageRequest) (options : Options) (placement : Placement)
    (emitted : EmittedBody)
    (hclient : placement = .client →
      emitted.body.StubbedBy options emitted.imports emitted.stubNames)
    (hserver : placement = .server →
      emitted.stubNames = [] ∧ ∀ name, ¬ emitted.body.Refers options name) :
    (page.modules options placement emitted).1.BindsHandlers options ∧
      ∀ m ∈ (page.modules options placement emitted).2, m.BindsHandlers options := by
  by_cases hneeds : page.needsCompanion placement = true
  · have hplacement := client_of_needsCompanion hneeds
    simp only [modules, hneeds, if_true]
    constructor
    · exact page.pageModule_silent options .server _ (by simp [Returned.attributes])
    · intro m hm f hf
      cases hm
      cases List.mem_singleton.mp hf
      exact ComponentFunction.bindsHandlers_of_stubbed (hclient hplacement) rfl rfl
  · simp only [modules, hneeds, if_false, Option.mem_def, reduceCtorEq, false_imp_iff, implies_true,
      and_true, Bool.false_eq_true]
    cases placement with
    | client =>
      rw [pageModule_plain _ _ _ _ _ _ (strategy_of_not_companion (Bool.eq_false_iff.mpr hneeds))]
      intro f hf
      cases List.mem_singleton.mp hf
      exact ComponentFunction.bindsHandlers_of_stubbed (hclient rfl) rfl rfl
    | server =>
      obtain ⟨hstubless, hsilent⟩ := hserver rfl
      rw [hstubless]
      exact page.pageModule_silent options .server _ fun key name hkey => hsilent name ⟨key, hkey⟩

/-- The islands add nothing to imports that were collected for all of them, so that each island's
stubs are those that the module needs. -/
theorem islandFunctions_bindHandlers (options : Options) (e : Emitter)
    (names : List (String × String))
    (h : ∀ entry ∈ names, ∀ c ∈ (e.body [entry.1]).components, c.Registered e.imports) :
    (islandFunctions e names).2.imports = e.imports ∧
      ∀ f ∈ (islandFunctions e names).1, f.BindsHandlers options e.imports := by
  induction names generalizing e with
  | nil => simp [islandFunctions]
  | cons entry rest ih =>
    obtain ⟨id, name⟩ := entry
    -- the island is registered already, so that the next one starts from the same imports
    have kept : (e.renderScoped id).2.2.imports = e.imports :=
      Emitter.noteAll_imports (e := { e with handlerNames := [] }) (h (id, name) (by simp))
    have same : ∀ ids, (e.renderScoped id).2.2.body ids = e.body ids := by
      intro ids
      rw [Emitter.body, (e.renderScoped_source id).1, (e.renderScoped_source id).2]
      rfl
    have stubbed : (e.body [id]).StubbedBy options (e.renderScoped id).2.2.imports
        (e.renderScoped id).2.1 :=
      Emitter.stubbedBy_noteAll options { e with handlerNames := [] } [id] rfl
    rw [kept] at stubbed
    have later := ih (e.renderScoped id).2.2 fun entry hentry c hc => by
      rw [same] at hc
      rw [kept]
      exact h entry (by simp [hentry]) c hc
    rw [kept] at later
    refine ⟨later.1, fun f hf => ?_⟩
    rcases List.mem_cons.mp hf with rfl | hf
    · exact ComponentFunction.bindsHandlers_of_stubbed stubbed rfl rfl
    · exact later.2 f hf

theorem renderedIslands_bindHandlers (page : PageRequest) (options : Options) :
    (page.renderedIslands options).2.imports =
        ((page.emitter options).analyze page.islandRoots).imports ∧
      ∀ f ∈ (page.renderedIslands options).1,
        f.BindsHandlers options ((page.emitter options).analyze page.islandRoots).imports :=
  islandFunctions_bindHandlers options _ page.splitNames fun _ hentry _ hc =>
    (page.emitter options).registered_of_shown
      (List.cons_subset.mpr ⟨(mem_islandNames hentry).1, List.nil_subset _⟩) hc

theorem islands_bindHandlers (page : PageRequest) (options : Options) :
    ∀ m ∈ (page.splitPlan options).islands, m.BindsHandlers options := by
  obtain ⟨himports, hfunctions⟩ := page.renderedIslands_bindHandlers options
  intro m hm
  rw [splitPlan_islands] at hm
  split at hm
  · cases hm
  · cases hm
    intro f hf
    rw [PageModule.functions_of_components] at hf
    rw [himports]
    exact hfunctions f hf

theorem plan_bindsHandlers (page : PageRequest) (options : Options) :
    ∀ m ∈ (page.plan options).modules options, m.module.BindsHandlers options := by
  have bound := page.modules_bindHandlers options
    ((Forest.ofComponents page.components).classify (Forest.ofComponents page.components).roots
      options.serverComponents).page
    ((Forest.ofComponents page.components).emit options OrderedMap.empty
      (Forest.ofComponents page.components).roots)
    (fun _ => Forest.emit_stubbedBy _ options _ _)
    fun hserver => Forest.emit_silent (Forest.emit_quiet _ options _ _ fun _ hc =>
      Forest.classify_server hserver hc)
  exact PagePlan.forall_modules bound.1 bound.2 (by simp [plan])
    (Scaffold.loading_bindsHandlers options) (Scaffold.error_bindsHandlers options)

theorem splitPlan_bindsHandlers (page : PageRequest) (options : Options)
    (h : componentViolations page.components = []) :
    ∀ m ∈ (page.splitPlan options).modules options, m.module.BindsHandlers options := by
  have silent : (page.splitEmitted options).stubNames = [] ∧
      ∀ name, ¬ (page.splitEmitted options).body.Refers options name := by
    unfold splitEmitted
    split <;> exact Forest.emit_silent (page.split_quiet options h)
  have bound := page.modules_bindHandlers options .server (page.splitEmitted options) nofun
    fun _ => silent
  exact PagePlan.forall_modules bound.1 bound.2 (page.islands_bindHandlers options)
    (Scaffold.loading_bindsHandlers options) (Scaffold.error_bindsHandlers options)

end PageRequest

namespace Toolchain

theorem componentModule_bindsHandlers (options : Options) (forest : Forest) (ids : List String)
    (name : String) : (componentModule options forest ids name).BindsHandlers options := by
  intro f hf
  cases List.mem_singleton.mp hf
  exact ComponentFunction.bindsHandlers_of_stubbed
    (forest.emit_stubbedBy options OrderedMap.empty ids) rfl rfl

/-! ## Entry points -/

/-- In every module of a page, of a split page and of a standalone component, each function that
a handler refers to by an identifier is bound exactly once, by a stub of the function whose markup
holds the handler or by an import of the module, and there is no stub beyond these. -/
theorem handlers_bound_once (t : Toolchain) :
    (∀ page g, t.generatePage page = .ok g →
      (page.plan t.options).Yields t (PageModule.BindsHandlers t.options) g.files) ∧
    (∀ page g, t.splitPage page = .ok g →
      (page.splitPlan t.options).Yields t (PageModule.BindsHandlers t.options) g.files) ∧
    (∀ components ids name file, t.generateComponent components ids name = .ok file →
      let m := componentModule t.options (Forest.ofComponents components) ids name
      file = (t.finish ⟨.component, "components/" ++ name ++ "." ++ t.options.componentExtension,
        m.render t.options⟩).file ∧ m.BindsHandlers t.options) := by
  refine ⟨?_, ?_, ?_⟩
  · intro page g h
    rw [files_of_generatePage h]
    exact PagePlan.yields_finish (page.plan_bindsHandlers t.options)
  · intro page g h
    obtain ⟨hvalid, hfiles⟩ := files_of_splitPage h
    rw [hfiles]
    exact PagePlan.yields_finish (page.splitPlan_bindsHandlers t.options hvalid)
  · intro components ids name file h
    exact ⟨file_of_generateComponent h, componentModule_bindsHandlers _ _ _ _⟩

end Toolchain

namespace Sample

/-! Two buttons share a handler, and a link has one of its own name. -/

def panel : Component := component "panel" "Container" none ["first", "second", "home"] .empty

def saveButton (id : String) : Component :=
  component id "Button" (some "panel") [] (OrderedMap.ofList [("onClick", .text "save")])

def homeLink : Component :=
  component "home" "Link" (some "panel") [] (OrderedMap.ofList [("onClick", .text "Link")])

def panelTree : ComponentTree :=
  .node panel [.node (saveButton "first") [], .node (saveButton "second") [], .node homeLink []]

def panelComponents : List Component := [panel, saveButton "first", saveButton "second", homeLink]

theorem panel_spells : Spells [panelTree] panelComponents where
  nonempty := by simp
  linked := by
    simp [panelTree, ComponentTree.LinkedBelow, ComponentTree.Linked, panel, saveButton, homeLink,
      component]
  named := by
    simp only [panelTree, ComponentTree.componentsOf_cons, ComponentTree.componentsOf_nil]
    decide
  distinct := by decide
  listed := .refl _

def panelPage : PageRequest where
  title := "Panel"
  description := ""
  path := "/panel"
  metadata := none
  dataFetching := some ⟨"/api/panel", none, none, none⟩
  components := panelComponents

theorem panelPage_valid : panelPage.violations = [] := by
  have request : Text.isBlank "/panel" = false ∧ Text.isBlank "Panel" = false ∧
      Text.isBlank "/api/panel" = false := by decide
  simp only [PageRequest.violations, panelPage, request, Bool.false_eq_true, if_false,
    List.nil_append]
  exact no_violations_of_coherent panel_spells.coherent

def panelModule : PageModule :=
  Toolchain.componentModule toolchain.options (Forest.ofComponents panelComponents)
    ["first", "home"] "Panel"

theorem first_found :
    (Forest.ofComponents panelComponents).find? "first" = some (saveButton "first") := rfl

theorem home_found : (Forest.ofComponents panelComponents).find? "home" = some homeLink := rfl

theorem panelModule_bindings : panelModule.imports.bindings = ["Link"] := by
  have walk : (Forest.ofComponents panelComponents).walkFrom [] ["first", "home"] =
      [saveButton "first", homeLink] := by
    rw [Forest.walkFrom_found (by simp) first_found]
    refine congrArg (List.cons _) ((Forest.walkFrom_found (by simp) home_found).trans ?_)
    exact congrArg (List.cons _) (Forest.walkFrom.eq_1 _ _)
  have kept : panelModule.imports = ((Forest.ofComponents panelComponents).walkFrom []
      ["first", "home"]).foldl (fun imports c => c.registerImports imports) Imports.empty :=
    Emitter.noteAll_imports fun c hc =>
      Emitter.registered_of_shown _ (List.Subset.refl ["first", "home"]) hc
  rw [kept, walk]
  decide

theorem panelModule_references : ∃ f ∈ panelModule.functions,
    ∀ c ∈ [saveButton "first", homeLink], ∀ key name, (key, .reference name) ∈ c.handlers →
      ⟨key, .reference name⟩ ∈ f.returned.attributes toolchain.options := by
  have first_view : (Forest.ofComponents panelComponents).view .empty "first" =
      some (.node (saveButton "first") false []) := Forest.viewBelow_found first_found
  have home_view : (Forest.ofComponents panelComponents).view .empty "home" =
      some (.node homeLink false []) := Forest.viewBelow_found home_found
  have shown : ((Forest.ofComponents panelComponents).body .empty ["first", "home"]).components =
      [saveButton "first", homeLink] := by
    simp [Body.components, Forest.body, Forest.views, first_view, home_view, View.componentsOf,
      View.components]
  have held : ∀ c ∈ [saveButton "first", homeLink], ∀ key name,
      (key, .reference name) ∈ c.handlers → ⟨key, .reference name⟩ ∈
        ((Forest.ofComponents panelComponents).body .empty ["first", "home"]).attributes
          toolchain.options := by
    intro c hc key name h
    rw [Forest.body_attributes, shown]
    exact List.mem_flatMap.mpr ⟨c, hc, (c.mem_attributes_reference _ key name).mpr h⟩
  exact ⟨_, List.mem_singleton.mpr rfl, held⟩

/-- In the component of a button and a link, the handler of the button has a stub, and that of the
link is the link's own import. -/
theorem handlers_bound_once_panel :
    (∃ g, toolchain.generatePage panelPage = .ok g ∧ (panelPage.plan toolchain.options).Yields
      toolchain (PageModule.BindsHandlers toolchain.options) g.files) ∧
    (∃ g, toolchain.splitPage panelPage = .ok g ∧ (panelPage.splitPlan toolchain.options).Yields
      toolchain (PageModule.BindsHandlers toolchain.options) g.files) ∧
    (∃ file, toolchain.generateComponent panelComponents ["first", "home"] "Panel" = .ok file ∧
      file = (toolchain.finish ⟨.component, "components/" ++ "Panel" ++ "." ++
        toolchain.options.componentExtension, panelModule.render toolchain.options⟩).file) ∧
    (Name.isIdentifier "save" = true ∧ Name.isIdentifier "Link" = true) ∧
    ∃ f ∈ panelModule.functions,
      ⟨"onClick", .reference "save"⟩ ∈ f.returned.attributes toolchain.options ∧
      (f.statements toolchain.options).count (Emitter.stub "save") = 1 ∧
      ⟨"onClick", .reference "Link"⟩ ∈ f.returned.attributes toolchain.options ∧
      (f.statements toolchain.options).count (Emitter.stub "Link") = 0 := by
  obtain ⟨hpage, hsplit, hcomponent⟩ := Toolchain.handlers_bound_once toolchain
  have component_ok : ∃ file,
      toolchain.generateComponent panelComponents ["first", "home"] "Panel" = .ok file := ⟨_, rfl⟩
  obtain ⟨p, hp⟩ := toolchain.generatePage_ok panelPage_valid
  obtain ⟨q, hq⟩ := toolchain.splitPage_ok panelPage_valid
  obtain ⟨file, hfile⟩ := component_ok
  obtain ⟨hsource, hbound⟩ : _ ∧ panelModule.BindsHandlers toolchain.options :=
    hcomponent _ _ _ _ hfile
  have identifiers : Name.isIdentifier "save" = true ∧ Name.isIdentifier "Link" = true := by decide
  obtain ⟨f, hf, hreferences⟩ := panelModule_references
  have save := hreferences (saveButton "first") (by simp) "onClick" "save" (by decide)
  have link := hreferences homeLink (by simp) "onClick" "Link" (by decide)
  have save_count := (hbound f hf).once _ _ save identifiers.1
  have link_count := (hbound f hf).once _ _ link identifiers.2
  rw [panelModule_bindings] at save_count link_count
  exact ⟨⟨p, hp, hpage _ _ hp⟩, ⟨q, hq, hsplit _ _ hq⟩, ⟨file, hfile, hsource⟩, identifiers,
    f, hf, save, save_count, link, link_count⟩

end Sample

end Pagewright

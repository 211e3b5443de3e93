import Pagewright.Proofs.Code.Scope
import Pagewright.Proofs.Page.Handler
import Pagewright.Proofs.Page.Route

/-!
# Names within a function

The names that a function declares are read off its printed parameters and statements.
On a page they are pairwise distinct unless a handler refers to the fetched data: stubs
respect what is imported, but not what the companion takes.
-/

set_option autoImplicit false

namespace Pagewright

open Scope

namespace ComponentFunction

def declared (options : Options) (f : ComponentFunction) : List String :=
  patternNames (f.parameters.code options.typeScript).toList ++
    (f.statements options).flatMap statementNames

def Refers (options : Options) (f : ComponentFunction) (name : String) : Prop :=
  ∃ key, ⟨key, .reference name⟩ ∈ f.returned.attributes options

theorem refers_iff {options : Options} {f : ComponentFunction} {body : Body}
    (h : f.returned = .body body) (name : String) :
    f.Refers options name ↔ body.Refers options name := by
  rw [Refers, h]
  rfl

structure WellNamed (f : ComponentFunction) : Prop where
  parameters : f.parameters.WellNamed
  setup : ∀ s ∈ f.setup, s.WellNamed

theorem declared_eq_locals (options : Options) {f : ComponentFunction} (h : f.WellNamed) :
    f.declared options = f.locals := by
  have setup : (f.statements options).flatMap statementNames = f.setup.flatMap Setup.binds := by
    rw [statements, List.flatMap_map]
    exact List.flatMap_congr fun s hs => Setup.statementNames_code _ (h.setup s hs)
  rw [declared, locals, Parameters.patternNames_code _ h.parameters, setup]

end ComponentFunction

theorem Setup.binds_stubs (names : List String) :
    (names.map Setup.stub).flatMap Setup.binds = names := by
  rw [List.flatMap_map]
  exact List.flatMap_singleton' names

theorem Body.StubbedBy.wellNamed {options : Options} {imports : Imports} {body : Body}
    {stubNames : List String} (h : body.StubbedBy options imports stubNames) :
    ∀ s ∈ stubNames.map Setup.stub, s.WellNamed := by
  rw [List.forall_mem_map]
  intro name hname
  exact Name.isWellFormed_of_isIdentifier ((h.mem_iff name).mp hname).2.1

theorem DataFetching.binding_isIdentifier (d : DataFetching) :
    Name.isIdentifier d.binding = true := by
  unfold binding
  split
  · split
    · assumption
    · decide
  · decide

/-! ## Scaffolds -/

namespace Scaffold

theorem loading_declared (options : Options) :
    ∀ f ∈ (loading options).functions, f.declared options = [] := by
  intro f hf
  cases List.mem_singleton.mp hf
  rfl

theorem error_declared (options : Options) :
    ∀ f ∈ error.functions, f.declared options = ["error", "reset"] := by
  intro f hf
  cases List.mem_singleton.mp hf
  have parameters : errorParameters.WellNamed := by
    simp only [errorParameters, Parameters.WellNamed]
    decide
  refine (ComponentFunction.declared_eq_locals options ⟨parameters, ?_⟩).trans (by decide)
  exact List.forall_mem_singleton.mpr (by decide : Text.startsWith _ _ = false)

end Scaffold

/-! ## Pages -/

theorem PagePlan.mem_modules_companion {plan : PagePlan} {options : Options} {m : PageModule}
    (h : plan.companion = some m) : ⟨.component, companionStem, m⟩ ∈ plan.modules options := by
  simp [modules, h]

namespace PageRequest

def DataUnstubbed (page : PageRequest) (options : Options) (imports : Imports)
    (f : ComponentFunction) : Prop :=
  ∀ data, page.dataBinding? = some data → f.Refers options data → data ∈ imports.bindings

variable {page : PageRequest} {options : Options} {imports : Imports} {f : ComponentFunction}

theorem dataBinding_isIdentifier {data : String} (h : page.dataBinding? = some data) :
    Name.isIdentifier data = true := by
  obtain ⟨fetching, _, rfl⟩ := Option.map_eq_some_iff.mp h
  exact fetching.binding_isIdentifier

/-- The companion takes the data under the name that the page gives to it. -/
theorem companion_parameters (page : PageRequest) :
    let parameters : Parameters := match page.dataBinding? with
      | some name => .data name
      | none => .none
    parameters.WellNamed ∧ parameters.binds = page.dataBinding?.toList := by
  cases hdata : page.dataBinding? with
  | some data => exact ⟨Name.isWellFormed_of_isIdentifier (dataBinding_isIdentifier hdata), rfl⟩
  | none => exact ⟨trivial, rfl⟩

theorem wellNamed_fetched (page : PageRequest) :
    ∀ s ∈ page.dataBinding?.toList.map Setup.fetched, s.WellNamed := by
  rw [List.forall_mem_map]
  intro data hdata
  exact Name.isWellFormed_of_isIdentifier (dataBinding_isIdentifier (Option.mem_toList.mp hdata))

theorem nodup_iff_of_stubbed {body : Body} {stubNames : List String}
    (hstubs : body.StubbedBy options imports stubNames) (hreturned : f.returned = .body body)
    (hnamed : f.WellNamed) (hlocals : f.locals = page.dataBinding?.toList ++ stubNames) :
    (f.declared options).Nodup ↔ page.DataUnstubbed options imports f := by
  rw [ComponentFunction.declared_eq_locals options hnamed, hlocals]
  cases hdata : page.dataBinding? with
  | none => simp [DataUnstubbed, hdata, hstubs.distinct]
  | some data =>
    have name := dataBinding_isIdentifier hdata
    have unstubbed : data ∉ stubNames ↔ (f.Refers options data → data ∈ imports.bindings) := by
      simp [hstubs.mem_iff, ComponentFunction.refers_iff hreturned, name]
    simp [DataUnstubbed, hdata, hstubs.distinct, unstubbed]

theorem nodup_iff_of_silent (h : (f.declared options).Nodup)
    (hsilent : ∀ name, ¬ f.Refers options name) :
    (f.declared options).Nodup ↔ page.DataUnstubbed options imports f := by
  apply iff_of_true h
  intro data _ hrefers
  exact absurd hrefers (hsilent data)

/-- Each function declares distinct names exactly if none of its handlers needs a stub of the name
that the page's data has. -/
def LocalsDecided (page : PageRequest) (options : Options) (m : PageModule) : Prop :=
  ∀ f ∈ m.functions, (f.declared options).Nodup ↔ page.DataUnstubbed options m.imports f

theorem pageModule_localsDecided (page : PageRequest) (options : Options) (placement : Placement)
    (imports : Imports) {returned : Returned}
    (h : ∀ key name, ⟨key, .reference name⟩ ∉ returned.attributes options) :
    page.LocalsDecided options (page.pageModule options placement imports [] returned) := by
  intro f hf
  rw [pageModule_functions, List.mem_singleton] at hf
  subst hf
  apply nodup_iff_of_silent
  · rw [ComponentFunction.declared_eq_locals]
    · cases page.dataBinding? <;> simp [ComponentFunction.locals, Parameters.binds, Setup.binds]
    · constructor
      · trivial
      · rw [List.append_nil]
        exact page.wellNamed_fetched
  · rintro name ⟨key, hkey⟩
    exact h key name hkey

theorem dataBinding_of_plain (h : page.strategy = .plain) : page.dataBinding? = none := by
  unfold strategy at h
  unfold dataBinding?
  cases hfetching : page.dataFetching with
  | some fetching => simp [hfetching] at h
  | none => rfl

/-- Whatever the strategy, a body with its stubs decides about the modules around it, if a body
that is placed on the server refers to nothing. -/
theorem modules_localsDecided (page : PageRequest) (options : Options) (placement : Placement)
    (emitted : EmittedBody)
    (hclient : placement = .client →
      emitted.body.StubbedBy options emitted.imports emitted.stubNames)
    (hserver : placement = .server →
      emitted.stubNames = [] ∧ ∀ name, ¬ emitted.body.Refers options name) :
    page.LocalsDecided options (page.modules options placement emitted).1 ∧
      ∀ m ∈ (page.modules options placement emitted).2, page.LocalsDecided options m := by
  by_cases hneeds : page.needsCompanion placement = true
  · have hplacement := client_of_needsCompanion hneeds
    simp only [modules, hneeds, if_true]
    constructor
    · exact page.pageModule_localsDecided options .server _ (by simp [Returned.attributes])
    · intro m hm f hf
      cases hm
      cases List.mem_singleton.mp hf
      apply nodup_iff_of_stubbed (hclient hplacement) rfl
      · exact ⟨page.companion_parameters.1, (hclient hplacement).wellNamed⟩
      · exact congrArg₂ List.append page.companion_parameters.2 (Setup.binds_stubs _)
  · simp only [modules, hneeds, if_false, Option.mem_def, reduceCtorEq, false_imp_iff, implies_true,
      and_true, Bool.false_eq_true]
    cases placement with
    | client =>
      have plain := strategy_of_not_companion (Bool.eq_false_iff.mpr hneeds)
      rw [pageModule_plain _ _ _ _ _ _ plain]
      intro f hf
      cases List.mem_singleton.mp hf
      apply nodup_iff_of_stubbed (hclient rfl) rfl
      · exact ⟨trivial, (hclient rfl).wellNamed⟩
      · rw [dataBinding_of_plain plain]
        exact Setup.binds_stubs _
    | server =>
      obtain ⟨hstubless, hsilent⟩ := hserver rfl
      rw [hstubless]
      exact page.pageModule_localsDecided options .server _ fun key name hkey =>
        hsilent name ⟨key, hkey⟩

theorem loading_localsDecided (page : PageRequest) (options : Options) :
    page.LocalsDecided options (Scaffold.loading options) := by
  intro f hf
  apply nodup_iff_of_silent
  · simp [Scaffold.loading_declared options f hf]
  · cases List.mem_singleton.mp hf
    simp [ComponentFunction.Refers, Returned.attributes]

theorem error_localsDecided (page : PageRequest) (options : Options) :
    page.LocalsDecided options Scaffold.error := by
  intro f hf
  apply nodup_iff_of_silent
  · simp [Scaffold.error_declared options f hf]
  · cases List.mem_singleton.mp hf
    simp [ComponentFunction.Refers, Returned.attributes]

theorem plan_localsDecided (page : PageRequest) (options : Options) :
    ∀ m ∈ (page.plan options).modules options, page.LocalsDecided options m.module := by
  have decided := page.modules_localsDecided options
    ((Forest.ofComponents page.components).classify (Forest.ofComponents page.components).roots
      options.serverComponents).page
    ((Forest.ofComponents page.components).emit options OrderedMap.empty
      (Forest.ofComponents page.components).roots)
    (fun _ => Forest.emit_stubbedBy _ options _ _)
    fun hserver => Forest.emit_silent (Forest.emit_quiet _ options _ _ fun _ hc =>
      Forest.classify_server hserver hc)
  exact PagePlan.forall_modules decided.1 decided.2 (by simp [plan])
    (page.loading_localsDecided options) (page.error_localsDecided options)

end PageRequest

namespace Toolchain

/-- In every module of a page, the names that a function takes as parameters and declares as
constants are pairwise distinct exactly if no handler in its markup refers to the page's data
under a name that the module does not import. -/
theorem page_locals_distinct_iff {t : Toolchain} {page : PageRequest} {g : Generation}
    (h : t.generatePage page = .ok g) :
    (page.plan t.options).Yields t (fun m => ∀ f ∈ m.functions,
      (f.declared t.options).Nodup ↔ ∀ data, page.dataBinding? = some data →
        f.Refers t.options data → data ∈ m.imports.bindings) g.files := by
  rw [files_of_generatePage h]
  exact PagePlan.yields_finish (page.plan_localsDecided t.options)

end Toolchain

namespace Sample

def buttonWith (handler : String) : Component :=
  component "press" "Button" none [] (OrderedMap.ofList [("onClick", .text handler)])

def buttonPage (handler : String) : PageRequest where
  title := "Press"
  description := ""
  path := "/press"
  metadata := none
  dataFetching := some ⟨"/api/press", none, none, none⟩
  components := [buttonWith handler]

theorem button_spells (handler : String) :
    Spells [.node (buttonWith handler) []] [buttonWith handler] where
  nonempty := by simp
  linked := by simp [ComponentTree.LinkedBelow, ComponentTree.Linked, buttonWith, component]
  named := by
    have id : Text.trim "press" ≠ "" := by decide
    simpa [buttonWith, component] using id
  distinct := by simp
  listed := .refl _

theorem buttonPage_valid (handler : String) : (buttonPage handler).violations = [] := by
  have request : Text.isBlank "/press" = false ∧ Text.isBlank "Press" = false ∧
      Text.isBlank "/api/press" = false := by decide
  simp only [PageRequest.violations, buttonPage, request, Bool.false_eq_true, if_false,
    List.nil_append]
  exact no_violations_of_coherent (button_spells handler).coherent

theorem button_found (handler : String) :
    (Forest.ofComponents [buttonWith handler]).find? "press" = some (buttonWith handler) := rfl

theorem button_walk (handler : String) :
    (Forest.ofComponents [buttonWith handler]).walkFrom [] ["press"] = [buttonWith handler] := by
  rw [Forest.walkFrom_found (by simp) (button_found handler)]
  exact congrArg (List.cons _) (Forest.walkFrom.eq_1 _ _)

theorem button_components (handler : String) :
    ((Forest.ofComponents [buttonWith handler]).body .empty ["press"]).components =
      [buttonWith handler] := by
  have view : (Forest.ofComponents [buttonWith handler]).view .empty "press" =
      some (.node (buttonWith handler) false []) := Forest.viewBelow_found (button_found handler)
  simp [Body.components, Forest.body, Forest.views, view, View.componentsOf, View.components]

theorem button_refers (handler name : String) :
    ((Forest.ofComponents [buttonWith handler]).body .empty ["press"]).Refers
        toolchain.options name ↔
      ∃ key, (key, .reference name) ∈ (buttonWith handler).handlers := by
  simp only [Body.Refers, Forest.body_attributes, button_components, List.flatMap_cons,
    List.flatMap_nil, List.append_nil, Component.mem_attributes_reference]

theorem button_client {handler : String} (h : (buttonWith handler).isClient = true) :
    ((Forest.ofComponents [buttonWith handler]).classify ["press"] true).page = .client := by
  simp [Forest.classify, Forest.walk, button_walk, h]

theorem button_imports {handler : String}
    (h : (buttonWith handler).registerImports Imports.empty = Imports.empty) :
    ((Forest.ofComponents [buttonWith handler]).emit toolchain.options .empty ["press"]).imports =
      Imports.empty := by
  have kept : ((Forest.ofComponents [buttonWith handler]).emit toolchain.options .empty
      ["press"]).imports = ((Forest.ofComponents [buttonWith handler]).walkFrom []
        ["press"]).foldl (fun imports c => c.registerImports imports) Imports.empty :=
    Emitter.noteAll_imports fun c hc =>
      Emitter.registered_of_shown _ (List.Subset.refl ["press"]) hc
  rw [kept, button_walk]
  exact h

/-- The companion of the button's page takes the data and returns the button. -/
theorem button_companion {handler : String} (h : (buttonWith handler).isClient = true) :
    ∃ m f, ((buttonPage handler).plan toolchain.options).companion = some m ∧ m.functions = [f] ∧
      m.imports = ((Forest.ofComponents [buttonWith handler]).emit toolchain.options .empty
        ["press"]).imports ∧
      ∀ name, f.Refers toolchain.options name ↔
        ∃ key, (key, .reference name) ∈ (buttonWith handler).handlers := by
  refine ⟨(buttonPage handler).companionModule ((Forest.ofComponents [buttonWith handler]).emit
    toolchain.options .empty ["press"]), _, ?_, rfl, rfl, button_refers handler⟩
  have needs : (buttonPage handler).needsCompanion .client = true := rfl
  have roots : (Forest.ofComponents [buttonWith handler]).roots = ["press"] := rfl
  have client : ((Forest.ofComponents [buttonWith handler]).classify ["press"]
      toolchain.options.serverComponents).page = .client := button_client h
  simp only [PageRequest.plan, PageRequest.modules]
  rw [show (buttonPage handler).components = [buttonWith handler] from rfl, roots, client, needs]
  rfl

/-- The companion declares a stub beside the data that it takes, and twice the same name if the
stub has the name of the data. -/
theorem page_locals_distinct_iff_button :
    (∃ g m f, toolchain.generatePage (buttonPage "save") = .ok g ∧
      ((buttonPage "save").plan toolchain.options).companion = some m ∧ m.functions = [f] ∧
      (f.declared toolchain.options).Nodup) ∧
    (∃ g m f, toolchain.generatePage (buttonPage "data") = .ok g ∧
      ((buttonPage "data").plan toolchain.options).companion = some m ∧ m.functions = [f] ∧
      ¬ (f.declared toolchain.options).Nodup) := by
  obtain ⟨g, hg⟩ := toolchain.generatePage_ok (buttonPage_valid "save")
  have client : ∀ handler ∈ ["save", "data"], (buttonWith handler).isClient = true := by decide
  obtain ⟨m, f, hm, hf, _, hrefers⟩ := button_companion (client "save" (by simp))
  have distinct := (Toolchain.page_locals_distinct_iff hg).holds ⟨_, _, m⟩
    (PagePlan.mem_modules_companion hm) f (by simp [hf])
  obtain ⟨g', hg'⟩ := toolchain.generatePage_ok (buttonPage_valid "data")
  obtain ⟨m', f', hm', hf', himports', hrefers'⟩ := button_companion (client "data" (by simp))
  have repeated := (Toolchain.page_locals_distinct_iff hg').holds ⟨_, _, m'⟩
    (PagePlan.mem_modules_companion hm') f' (by simp [hf'])
  have data : ∀ handler, (buttonPage handler).dataBinding? = some "data" := fun _ => rfl
  refine ⟨⟨g, m, f, hg, hm, hf, distinct.mpr ?_⟩, g', m', f', hg', hm', hf', fun hnodup => ?_⟩
  · intro name hname hreferred
    cases (data _).symm.trans hname
    obtain ⟨key, hkey⟩ := (hrefers _).mp hreferred
    have only : (buttonWith "save").handlers = [("onClick", .reference "save")] := by decide
    rw [only] at hkey
    simp at hkey
  · have referred : f'.Refers toolchain.options "data" := (hrefers' _).mpr ⟨"onClick", by decide⟩
    have bound := repeated.mp hnodup _ (data _) referred
    rw [himports', button_imports (by decide)] at bound
    exact absurd bound (by decide)

end Sample

end Pagewright

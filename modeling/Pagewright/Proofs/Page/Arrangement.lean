import Pagewright.Proofs.Markup.Arrangement
import Pagewright.Proofs.Page.Split

/-!
# Pages of rearranged requests

Two valid requests that differ in the order of their components, apart from that of
the roots, and in what only the editor shows lead to the same output: the same files
down to their fingerprints, the same placement, statistics and warnings. All that
happens between plan and output reads the texts of the modules, and these are the same.
-/

set_option autoImplicit false

namespace Pagewright

/-! ## Module texts -/

theorem ComponentFunction.render_returned {options : Options} {a b : Returned}
    (h : a.render options = b.render options) (f : ComponentFunction) :
    { f with returned := a }.render options = { f with returned := b }.render options := by
  rw [render, render, h]

/-- The component function that ends a module matters by its text alone. -/
theorem PageModule.render_last {options : Options} {a b : Returned}
    (h : a.render options = b.render options) (placement : Placement) (imports : Imports)
    (blocks : List Block) (f : ComponentFunction) :
    render options ⟨placement, imports, blocks ++ [.component { f with returned := a }]⟩ =
      render options ⟨placement, imports, blocks ++ [.component { f with returned := b }]⟩ := by
  have last : Block.render options (.component { f with returned := a }) =
      Block.render options (.component { f with returned := b }) :=
    ComponentFunction.render_returned h f
  rw [render, render, List.map_append, List.map_append, List.map_singleton, List.map_singleton,
    last]

theorem PageModule.render_functions {options : Options} {functions others : List ComponentFunction}
    (h : functions.map (ComponentFunction.render options) =
      others.map (ComponentFunction.render options)) (placement : Placement) (imports : Imports) :
    render options ⟨placement, imports, functions.map .component⟩ =
      render options ⟨placement, imports, others.map .component⟩ := by
  rw [render, render, List.map_map, List.map_map]
  exact congrArg (assembleModule _ _) h

structure PagePlan.SameText (options : Options) (p q : PagePlan) : Prop where
  directory : p.directory = q.directory
  page : p.page.render options = q.page.render options
  companion : p.companion.map (PageModule.render options) =
    q.companion.map (PageModule.render options)
  islands : p.islands.map (PageModule.render options) = q.islands.map (PageModule.render options)
  placement : p.placement = q.placement
  statistics : p.statistics = q.statistics
  notes : p.notes = q.notes
  fallbacks : p.fallbacks = q.fallbacks

/-- An output is made of texts alone. -/
theorem PagePlan.SameText.finish {t : Toolchain} {p q : PagePlan} (h : p.SameText t.options q) :
    p.finish t = q.finish t := by
  have drafted : ∀ (kind : FileKind) (stem : String) (m n : PageModule),
      m.render t.options = n.render t.options →
      p.draft t.options kind stem m = q.draft t.options kind stem n := by
    intro kind stem m n hrender
    rw [draft, draft, pathOf, pathOf, h.directory, hrender]
  have optional : ∀ (stem : String) (x y : Option PageModule),
      x.map (PageModule.render t.options) = y.map (PageModule.render t.options) →
      x.toList.map (fun m => t.finish (p.draft t.options .component stem m)) =
        y.toList.map (fun m => t.finish (q.draft t.options .component stem m)) := by
    intro stem x y hrender
    cases x with
    | none =>
      have hy : y = none := Option.map_eq_none_iff.mp hrender.symm
      rw [hy]
      rfl
    | some m =>
      obtain ⟨n, rfl, hn⟩ := Option.map_eq_some_iff.mp hrender.symm
      exact congrArg (fun d => [t.finish d]) (drafted _ stem m n hn.symm)
  simp only [PagePlan.finish, optional _ _ _ h.islands, optional _ _ _ h.companion,
    drafted _ _ _ _ h.page, drafted _ _ (Scaffold.loading t.options) _ rfl,
    drafted _ _ Scaffold.error _ rfl, h.placement, h.statistics, h.notes, h.fallbacks]

namespace PageRequest

variable {options : Options}

/-- Whatever comes before it, the component function is the last block of a page. -/
theorem pageModule_ends (page : PageRequest) (options : Options) (placement : Placement)
    (imports : Imports) (setup : List Setup) :
    ∃ (m : PageModule) (f : ComponentFunction), ∀ returned,
    page.pageModule options placement imports setup returned =
      ⟨m.placement, m.imports, m.blocks ++ [.component { f with returned := returned }]⟩ := by
  cases hfetching : page.dataFetching with
  | some fetching =>
    refine ⟨⟨.server, page.importMetadataType options imports,
      page.metadataBlocks ++ [.fetch fetching]⟩, ⟨page.componentName, true, true, .none,
      .fetched fetching.binding :: setup, .fixed []⟩, fun returned => ?_⟩
    rw [pageModule, hfetching, List.append_assoc]
    rfl
  | none =>
    cases hmetadata : page.metadata with
    | some _ =>
      refine ⟨⟨.server, page.importMetadataType options imports, page.metadataBlocks⟩,
        ⟨page.componentName, true, false, .none, setup, .fixed []⟩, fun returned => ?_⟩
      rw [pageModule, hfetching, hmetadata]
    | none =>
      refine ⟨⟨placement, imports, []⟩,
        ⟨page.componentName, true, false, .none, setup, .fixed []⟩, fun returned => ?_⟩
      rw [pageModule, hfetching, hmetadata]
      rfl

theorem pageModule_render (page : PageRequest) (placement : Placement) (imports : Imports)
    (setup : List Setup) {a b : Returned} (h : a.render options = b.render options) :
    (page.pageModule options placement imports setup a).render options =
      (page.pageModule options placement imports setup b).render options := by
  obtain ⟨m, f, ends⟩ := page.pageModule_ends options placement imports setup
  rw [ends, ends]
  exact PageModule.render_last h m.placement m.imports m.blocks f

theorem modules_render (page : PageRequest) {p q : Placement} (hplaced : p = q) {a b : EmittedBody}
    (h : a.SameText options b) :
    (page.modules options p a).1.render options = (page.modules options q b).1.render options ∧
    (page.modules options p a).2.map (PageModule.render options) =
      (page.modules options q b).2.map (PageModule.render options) := by
  subst hplaced
  have text : (Returned.body a.body).render options = (Returned.body b.body).render options :=
    h.text
  have companion : (page.companionModule a).render options =
      (page.companionModule b).render options := by
    rw [companionModule, companionModule, h.imports, h.stubNames]
    exact PageModule.render_last text .client _ [] ⟨_, _, _, _, _, .body a.body⟩
  unfold modules
  split
  · exact ⟨rfl, congrArg some companion⟩
  · rw [h.imports, h.stubNames]
    exact ⟨page.pageModule_render p _ _ text, rfl⟩

theorem dynamicModule_render (page : PageRequest) {p q : Placement} (hplaced : p = q)
    {a b : EmittedBody} (h : a.SameText options b) (params : List RouteParam) :
    (page.dynamicModule options p a params).render options =
      (page.dynamicModule options q b params).render options := by
  subst hplaced
  have text : (Returned.body a.body).render options = (Returned.body b.body).render options :=
    h.text
  unfold dynamicModule
  rw [h.imports, h.stubNames]
  split
  · exact PageModule.render_last text .client _ [] ⟨_, _, _, _, _, .body a.body⟩
  · have apart : ∀ (front : List Block) (last : Block),
        front ++ [.staticParams, last] = (front ++ [.staticParams]) ++ [last] :=
      fun _ _ => List.append_cons _ _ _
    simp only [apart]
    exact PageModule.render_last text .server _ _ ⟨_, _, _, _, _, .body a.body⟩

theorem islandFunctions_cons (e : Emitter) (id name : String) (rest : List (String × String)) :
    islandFunctions e ((id, name) :: rest) =
      (⟨name, false, false, .none, (e.renderScoped id).2.1.map .stub,
          .body (e.renderScoped id).1⟩ :: (islandFunctions (e.renderScoped id).2.2 rest).1,
        (islandFunctions (e.renderScoped id).2.2 rest).2) := rfl

/-- The islands of alike forests have the same texts and leave the emitter the same to
remember. -/
theorem islandFunctions_withForest {e : Emitter} {g : Forest} (h : e.forest.Alike g)
    (names : List (String × String)) :
    (islandFunctions (e.withForest g) names).1.map (ComponentFunction.render options) =
      (islandFunctions e names).1.map (ComponentFunction.render options) ∧
    (islandFunctions (e.withForest g) names).2 = (islandFunctions e names).2.withForest g := by
  induction names generalizing e with
  | nil => exact ⟨rfl, rfl⟩
  | cons entry rest ih =>
    obtain ⟨id, name⟩ := entry
    obtain ⟨hbody, hstubs, hafter⟩ := Emitter.renderScoped_withForest h id options
    have alike : (e.renderScoped id).2.2.forest.Alike g := (e.renderScoped_source id).1 ▸ h
    obtain ⟨hrest, hlast⟩ := ih alike
    rw [← hafter] at hrest hlast
    have text : (Returned.body ((e.withForest g).renderScoped id).1).render options =
        (Returned.body (e.renderScoped id).1).render options := hbody
    have first := ComponentFunction.render_returned text
      ⟨name, false, false, .none, (e.renderScoped id).2.1.map .stub, .body (e.renderScoped id).1⟩
    rw [islandFunctions_cons, islandFunctions_cons, List.map_cons, List.map_cons, hrest, hstubs]
    exact ⟨congrArg (List.cons · _) first, hlast⟩

/-! ## Plans -/

def withComponents (page : PageRequest) (components : List Component) : PageRequest :=
  { page with components }

variable {page : PageRequest} {components : List Component}

/-- What a plan takes from the forest at its roots. -/
theorem reordered_roots {a b : List Component} (h : Reordered a b)
    (hn : (a.map Component.id).Nodup) (options : Options) (substitutions : Substitutions)
    (preferServer : Bool) :
    let f := Forest.ofComponents a
    let g := Forest.ofComponents b
    (f.classify f.roots preferServer).page = (g.classify g.roots preferServer).page ∧
    f.statistics (f.classify f.roots preferServer) =
      g.statistics (g.classify g.roots preferServer) ∧
    (f.emit options substitutions f.roots).SameText options
      (g.emit options substitutions g.roots) := by
  have alike := h.alike hn
  have roots : (Forest.ofComponents b).roots = (Forest.ofComponents a).roots := alike.roots.symm
  simp only [roots]
  exact ⟨(alike.classify _ _).1, h.statistics hn _ _, alike.emit options _ _⟩

theorem plan_sameText (options : Options) (h : Reordered page.components components)
    (hn : (page.components.map Component.id).Nodup) :
    (page.plan options).SameText options ((page.withComponents components).plan options) := by
  obtain ⟨placed, statistics, emitted⟩ :=
    reordered_roots h hn options OrderedMap.empty options.serverComponents
  have modules := page.modules_render placed emitted
  refine ⟨rfl, modules.1, modules.2, rfl, placed, statistics, ?_, emitted.fallbacks⟩
  simp only [plan, withComponents, emitted.fallbacks, emitted.voidParents, emitted.imports]

theorem dynamicPlan_sameText (options : Options) (h : Reordered page.components components)
    (hn : (page.components.map Component.id).Nodup) (params : List RouteParam) :
    (page.dynamicPlan options params).SameText options
      ((page.withComponents components).dynamicPlan options params) := by
  obtain ⟨placed, statistics, emitted⟩ :=
    reordered_roots h hn options OrderedMap.empty options.serverComponents
  have module := page.dynamicModule_render placed emitted params
  refine ⟨rfl, module, rfl, rfl, placed, statistics, ?_, emitted.fallbacks⟩
  simp only [dynamicPlan, withComponents, emitted.fallbacks, emitted.voidParents]
  rfl

theorem islandRoots_withComponents (h : Reordered page.components components)
    (hn : (page.components.map Component.id).Nodup) :
    (page.withComponents components).islandRoots = page.islandRoots :=
  (h.alike hn).islandRoots.symm

theorem splitNames_withComponents (h : Reordered page.components components)
    (hn : (page.components.map Component.id).Nodup) :
    (page.withComponents components).splitNames = page.splitNames :=
  congrArg islandNames (islandRoots_withComponents h hn)

theorem splitEmitted_sameText (options : Options) (h : Reordered page.components components)
    (hn : (page.components.map Component.id).Nodup) :
    (page.splitEmitted options).SameText options
      ((page.withComponents components).splitEmitted options) := by
  obtain ⟨_, _, emitted⟩ :=
    reordered_roots h hn options (OrderedMap.ofList page.splitNames) true
  rw [splitEmitted, splitEmitted, splitNames_withComponents h hn]
  split
  · exact emitted
  · exact ⟨emitted.text, congrArg (Imports.addNamed · _ _) emitted.imports, emitted.stubNames,
      emitted.fallbacks, emitted.voidParents⟩

theorem renderedIslands_withComponents (options : Options)
    (h : Reordered page.components components) (hn : (page.components.map Component.id).Nodup) :
    ((page.withComponents components).renderedIslands options).1.map
        (ComponentFunction.render options) =
      (page.renderedIslands options).1.map (ComponentFunction.render options) ∧
    ((page.withComponents components).renderedIslands options).2 =
      (page.renderedIslands options).2.withForest (Forest.ofComponents components) := by
  have alike : (page.emitter options).forest.Alike (Forest.ofComponents components) := h.alike hn
  have start : (page.withComponents components).emitter options =
      (page.emitter options).withForest (Forest.ofComponents components) := rfl
  rw [renderedIslands, splitNames_withComponents h hn, islandRoots_withComponents h hn, start,
    Emitter.analyze_withForest alike]
  exact islandFunctions_withForest (e := (page.emitter options).analyze page.islandRoots) alike
    page.splitNames

theorem splitPlan_sameText (options : Options) (h : Reordered page.components components)
    (hn : (page.components.map Component.id).Nodup) :
    (page.splitPlan options).SameText options
      ((page.withComponents components).splitPlan options) := by
  have emitted := splitEmitted_sameText options h hn
  obtain ⟨functions, after⟩ := renderedIslands_withComponents options h hn
  obtain ⟨_, statistics, _⟩ := reordered_roots h hn options OrderedMap.empty true
  have modules := page.modules_render (p := .server) rfl emitted
  have islands : (page.splitPlan options).islands.map (PageModule.render options) =
      ((page.withComponents components).splitPlan options).islands.map
        (PageModule.render options) := by
    rw [splitPlan_islands, splitPlan_islands, splitNames_withComponents h hn, after]
    split
    · rfl
    · exact congrArg some (PageModule.render_functions functions.symm _ _)
  have fallbacks : ∀ page : PageRequest, (page.splitPlan options).fallbacks =
      FirstSeen.addAll (page.renderedIslands options).2.fallbacks
        (page.splitEmitted options).fallbacks := fun _ => rfl
  have notes : ∀ page : PageRequest, (page.splitPlan options).notes =
      (page.splitPlan options).fallbacks.map fallbackNote ++
        (FirstSeen.addAll (page.renderedIslands options).2.voidParents
          (page.splitEmitted options).voidParents).map voidNote ++
        (page.splitEmitted options).imports.conflicts.map conflictNote := fun _ => rfl
  have same_fallbacks : (page.splitPlan options).fallbacks =
      ((page.withComponents components).splitPlan options).fallbacks := by
    rw [fallbacks, fallbacks, after, emitted.fallbacks]
    rfl
  refine ⟨rfl, modules.1, modules.2, islands, rfl, statistics, ?_, same_fallbacks⟩
  rw [notes, notes, after, emitted.voidParents, emitted.imports, same_fallbacks]
  rfl

structure Rearranged (a b : PageRequest) : Prop where
  title : a.title = b.title
  description : a.description = b.description
  path : a.path = b.path
  metadata : a.metadata = b.metadata
  dataFetching : a.dataFetching = b.dataFetching
  components : Reordered a.components b.components

theorem Rearranged.eq_withComponents {a b : PageRequest} (h : a.Rearranged b) :
    b = a.withComponents b.components := by
  rw [withComponents, h.title, h.description, h.path, h.metadata, h.dataFetching]

end PageRequest

/-- Valid requests that are rearrangements of one another have equal outputs: as whole pages, on
dynamic routes with the same parameters, and split. -/
theorem Toolchain.output_of_rearranged (t : Toolchain) (a b : PageRequest) (ha : a.violations = [])
    (hb : b.violations = []) (h : a.Rearranged b) :
    (∃ output, t.pageOutput a = .ok output ∧ t.pageOutput b = .ok output) ∧
    (∀ params, t.dynamicOutput a params = t.dynamicOutput b params) ∧
    (∃ output, t.splitOutput a = .ok output ∧ t.splitOutput b = .ok output) := by
  have hn : (a.components.map Component.id).Nodup :=
    (coherent_of_no_violations (PageRequest.components_valid ha)).distinct
  have whole := (PageRequest.plan_sameText t.options h.components hn).finish
  have split := (PageRequest.splitPlan_sameText t.options h.components hn).finish
  have dynamic := fun params =>
    (PageRequest.dynamicPlan_sameText t.options h.components hn params).finish
  rw [← h.eq_withComponents] at whole split
  simp only [← h.eq_withComponents] at dynamic
  refine ⟨⟨_, t.pageOutput_valid ha, by rw [t.pageOutput_valid hb, whole]⟩, ?_,
    ⟨_, t.splitOutput_valid ha, by rw [t.splitOutput_valid hb, split]⟩⟩
  intro params
  simp only [dynamicOutput, ha, hb, dynamic]

namespace Sample

/-! The small page with its list in another order, the box moved and locked and the button
hidden. -/

def movedBox : Component :=
  { box with position := some ⟨.zero false, .zero true⟩, locked := true }

def hiddenAsk : Component := { ask with hidden := true }

def movedTree : ComponentTree :=
  .node movedBox [.node picture [.node lost []], .node hiddenAsk []]

def movedComponents : List Component := [picture, lost, hiddenAsk, movedBox]

theorem moved_spells : Spells [movedTree] movedComponents where
  nonempty := by simp
  linked := by
    simp [movedTree, ComponentTree.LinkedBelow, ComponentTree.Linked, movedBox, hiddenAsk, box,
      picture, lost, ask, component]
  named := by
    simp only [movedTree, ComponentTree.componentsOf_cons, ComponentTree.componentsOf_nil]
    decide
  distinct := by decide
  listed := (List.perm_append_comm : ([picture, lost, hiddenAsk] ++ [movedBox]).Perm _)

def movedPage : PageRequest := page.withComponents movedComponents

theorem movedPage_valid : movedPage.violations = [] := by
  have request : Text.isBlank movedPage.path = false ∧ Text.isBlank movedPage.title = false := by
    decide
  simp only [PageRequest.violations, request, Bool.false_eq_true, if_false, List.nil_append]
  exact no_violations_of_coherent moved_spells.coherent

theorem page_rearranged : page.Rearranged movedPage where
  title := rfl
  description := rfl
  path := rfl
  metadata := rfl
  dataFetching := rfl
  components := by
    refine ⟨?_, by decide⟩
    exact (List.perm_append_comm : ([ask.bare, box.bare] ++ [picture.bare, lost.bare]).Perm _)

theorem output_of_rearranged_page :
    page.violations = [] ∧ movedPage.violations = [] ∧ page.Rearranged movedPage ∧
    (∃ output, toolchain.pageOutput page = .ok output ∧
      toolchain.pageOutput movedPage = .ok output) ∧
    (∀ params, toolchain.dynamicOutput page params = toolchain.dynamicOutput movedPage params) ∧
    (∃ output, toolchain.splitOutput page = .ok output ∧
      toolchain.splitOutput movedPage = .ok output) :=
  ⟨page_valid, movedPage_valid, page_rearranged, Toolchain.output_of_rearranged toolchain page
    movedPage page_valid movedPage_valid page_rearranged⟩

end Sample

end Pagewright

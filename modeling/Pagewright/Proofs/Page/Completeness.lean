import Mathlib.Data.List.Nodup
import Pagewright.Proofs.Markup.Printing
import Pagewright.Proofs.Markup.Record
import Pagewright.Proofs.Page.Handler
import Pagewright.Proofs.Page.Split
import Pagewright.Proofs.Page.Warning

/-!
# Nothing is lost in silence

A valid page shows every component that no element without content stands above, each
once. Its warnings name every such element that is shown with children, and every kind
without a primitive among what is shown, each once and nothing else. A split page shows
the components across its modules: each at most once, and exactly once unless a warning
names one above it. What is shown is printed: the text of a module holds the bodies of
its functions, and each body can be cut into the opening tags of its components, with
all their attributes, and stretches in which nothing opens but the islands.
-/

set_option autoImplicit false

namespace Pagewright

open ComponentTree

def Component.losesChildren (c : Component) : Bool :=
  (Primitive.ofKind c.kind).void && !c.childIds.isEmpty

def PagePlan.rendered (plan : PagePlan) : List Component :=
  (plan.islands.toList ++ plan.companion.toList ++ [plan.page]).flatMap PageModule.components

def PagePlan.islandNames (plan : PagePlan) : List String :=
  plan.islands.toList.flatMap fun m => m.functions.map ComponentFunction.name

def Returned.Printed (options : Options) (names : List String) (r : Returned) : Prop :=
  ∀ body, r = .body body → Markup.Prints options names body.components (r.render options).toList

structure PageModule.PrintsComponents (options : Options) (names : List String)
    (m : PageModule) : Prop where
  held : Text.Holds (m.functions.map fun f => f.returned.render options) (m.render options)
  printed : ∀ f ∈ m.functions, f.returned.Printed options names

/-- The warnings name each element that loses its children once, each kind without a primitive
once, and no others; and these kinds are listed by their first component. -/
structure PageOutput.Reports (output : PageOutput) (rendered : List Component) : Prop where
  voids : ∀ id, output.warnings.count (voidNote id) =
    if id ∈ (rendered.filter Component.losesChildren).map Component.id then 1 else 0
  kinds : ∀ kind, output.warnings.count (fallbackNote kind) =
    if kind ∈ unknownKinds rendered then 1 else 0
  fallbacks : output.fallbacks = (unknownKinds rendered).eraseDups

namespace PageRequest

def ancestors (page : PageRequest) (c : Component) : List Component :=
  (Forest.ofComponents page.components).ancestors c.id

def isShown (page : PageRequest) (c : Component) : Bool :=
  (page.ancestors c).all fun a => !(Primitive.ofKind a.kind).void

end PageRequest

/-! ## The texts of warnings -/

theorem voidNote_injective : Function.Injective voidNote :=
  Text.between_injective "`" "` is a void element; its children were not rendered"

theorem fallbackNote_injective : Function.Injective fallbackNote :=
  Text.between_injective "unknown component type `" "` rendered as a generic container"

/-- Formatting and checking add no warning of another kind to those of the plan. -/
theorem PagePlan.count_finish {plan : PagePlan}
    (hdirectory : plan.directory.toList.head? = some 'a') (t : Toolchain) {note : String}
    (hnote : note.toList.head? ≠ some 'f' ∧ note.toList.head? ≠ some 'a') :
    (plan.finish t).warnings.count note = plan.notes.count note := by
  have foreign : ∀ d ∈ plan.islandDrafts t.options ++ plan.pageDrafts t.options,
      note ∉ (t.finish d).warnings := by
    apply forall_drafts
    intro kind _ stem m hmem
    rcases t.finish_warning_head (draft_path_head hdirectory t.options kind stem m) hmem with
      hf | ha
    · exact hnote.1 hf
    · exact hnote.2 ha
  have none : ∀ drafts ⊆ plan.islandDrafts t.options ++ plan.pageDrafts t.options,
      (drafts.flatMap fun d => (t.finish d).warnings).count note = 0 := by
    intro drafts hdrafts
    rw [List.count_eq_zero, List.mem_flatMap]
    rintro ⟨d, hd, hmem⟩
    exact foreign d (hdrafts hd) hmem
  rw [finish_warnings, List.count_append, List.count_append,
    none _ (List.subset_append_left _ _), none _ (List.subset_append_right _ _), Nat.zero_add,
    Nat.add_zero]

/-- The notes of a plan hold each record once. -/
theorem count_notes {fallbacks voids : List String} (conflicts : List ImportConflict)
    (hfallbacks : fallbacks.Nodup) (hvoids : voids.Nodup) :
    let notes := fallbacks.map fallbackNote ++ voids.map voidNote ++ conflicts.map conflictNote
    (∀ kind, notes.count (fallbackNote kind) = if kind ∈ fallbacks then 1 else 0) ∧
      ∀ id, notes.count (voidNote id) = if id ∈ voids then 1 else 0 := by
  have apart : ∀ {α : Type} {f : α → String} {c : Char} (l : List α) {note : String},
      (∀ a, (f a).toList.head? = some c) → note.toList.head? ≠ some c →
      (l.map f).count note = 0 := by
    intro α f c l note hf hnote
    rw [List.count_eq_zero]
    intro hmem
    obtain ⟨a, _, rfl⟩ := List.mem_map.mp hmem
    exact hnote (hf a)
  refine ⟨fun kind => ?_, fun id => ?_⟩
  · rw [List.count_append, List.count_append,
      List.count_map_of_injective _ _ fallbackNote_injective,
      apart voids voidNote_head (by rw [fallbackNote_head]; decide),
      apart conflicts conflictNote_head (by rw [fallbackNote_head]; decide), hfallbacks.count,
      Nat.add_zero]
  · rw [List.count_append, List.count_append, List.count_map_of_injective _ _ voidNote_injective,
      apart fallbacks fallbackNote_head (by rw [voidNote_head]; decide),
      apart conflicts conflictNote_head (by rw [voidNote_head]; decide), hvoids.count,
      Nat.zero_add, Nat.add_zero]

theorem PagePlan.reports_finish {plan : PagePlan} {voids : List String}
    {conflicts : List ImportConflict} (hdirectory : plan.directory.toList.head? = some 'a')
    (hnotes : plan.notes = plan.fallbacks.map fallbackNote ++ voids.map voidNote ++
      conflicts.map conflictNote)
    (hfallbacks : plan.fallbacks = FirstSeen.ofList (unknownKinds plan.rendered))
    (hvoids : voids =
      FirstSeen.ofList ((plan.rendered.filter Component.losesChildren).map Component.id))
    (t : Toolchain) : (plan.finish t).Reports plan.rendered := by
  obtain ⟨hkinds, hids⟩ := count_notes conflicts (hfallbacks ▸ FirstSeen.nodup_ofList _)
    (hvoids ▸ FirstSeen.nodup_ofList _)
  refine ⟨fun id => ?_, fun kind => ?_, ?_⟩
  · rw [count_finish hdirectory t (by rw [voidNote_head]; decide), hnotes, hids, hvoids]
    simp only [FirstSeen.mem_ofList]
  · rw [count_finish hdirectory t (by rw [fallbackNote_head]; decide), hnotes, hkinds, hfallbacks]
    simp only [FirstSeen.mem_ofList]
  · exact hfallbacks.trans (FirstSeen.ofList_eq_eraseDups _)

/-! ## The modules of a page -/

theorem PagePlan.rendered_eq (plan : PagePlan) :
    plan.rendered = plan.islands.toList.flatMap PageModule.components ++
      (plan.companion.toList.flatMap PageModule.components ++ plan.page.components) := by
  simp [rendered]

theorem Returned.printed_of_views {body : Body} {names : List String}
    {substitutions : Substitutions} {trees : List ComponentTree}
    (h : body.views = viewsOf substitutions trees)
    (hnames : ∀ id name, substitutions.find? id = some name → name ∈ names) (options : Options) :
    (Returned.body body).Printed options names := by
  rintro _ ⟨⟩
  exact body.prints_of_views h hnames options 2

theorem Returned.printed_unreplaced {body : Body} {trees : List ComponentTree}
    (h : body.views = viewsOf OrderedMap.empty trees) (options : Options) (names : List String) :
    (Returned.body body).Printed options names := by
  apply printed_of_views h
  intro id name hname
  cases hname

theorem PageModule.printsComponents_of_single {options : Options} {names : List String}
    {m : PageModule} {f : ComponentFunction} (hfunctions : m.functions = [f])
    (h : f.returned.Printed options names) : m.PrintsComponents options names := by
  refine ⟨m.holds_returned options, ?_⟩
  rw [hfunctions]
  exact List.forall_mem_singleton.mpr h

/-- The scaffolds around a page hold no body. -/
theorem PagePlan.modules_print {plan : PagePlan} {options : Options} {names : List String}
    (hpage : plan.page.PrintsComponents options names)
    (hcompanion : ∀ m ∈ plan.companion, m.PrintsComponents options names)
    (hislands : ∀ m ∈ plan.islands, m.PrintsComponents options names) :
    ∀ m ∈ plan.modules options, m.module.PrintsComponents options names :=
  forall_modules (P := PageModule.PrintsComponents options names) hpage hcompanion hislands
    (PageModule.printsComponents_of_single rfl nofun)
    (PageModule.printsComponents_of_single rfl nofun)

namespace PageRequest

theorem pageModule_components (page : PageRequest) (options : Options) (placement : Placement)
    (imports : Imports) (setup : List Setup) (returned : Returned) :
    (page.pageModule options placement imports setup returned).components =
      returned.components := by
  rw [PageModule.components, pageModule_functions, List.flatMap_singleton]

theorem companionModule_components (page : PageRequest) (emitted : EmittedBody) :
    (page.companionModule emitted).components = emitted.body.components :=
  List.append_nil _

/-- With or without a companion, the body is rendered once. -/
theorem modules_components (page : PageRequest) (options : Options) (placement : Placement)
    (emitted : EmittedBody) :
    (page.modules options placement emitted).2.toList.flatMap PageModule.components ++
      (page.modules options placement emitted).1.components = emitted.body.components := by
  unfold modules
  split
  · simp only [pageModule_components, Option.toList_some, List.flatMap_singleton,
      companionModule_components, Returned.components, List.append_nil]
  · rw [pageModule_components]
    rfl

theorem modules_prints (page : PageRequest) (options : Options) (placement : Placement)
    {emitted : EmittedBody} {names : List String}
    (h : (Returned.body emitted.body).Printed options names) :
    (page.modules options placement emitted).1.PrintsComponents options names ∧
      ∀ m ∈ (page.modules options placement emitted).2, m.PrintsComponents options names := by
  unfold modules
  split
  · refine ⟨PageModule.printsComponents_of_single (pageModule_functions _ _ _ _ _ _) nofun, ?_⟩
    rintro m ⟨⟩
    exact PageModule.printsComponents_of_single rfl h
  · exact ⟨PageModule.printsComponents_of_single (pageModule_functions _ _ _ _ _ _) h, nofun⟩

theorem plan_rendered (page : PageRequest) (options : Options) :
    (page.plan options).rendered = ((Forest.ofComponents page.components).body OrderedMap.empty
      (rootIds page.components)).components := by
  rw [PagePlan.rendered_eq]
  exact page.modules_components options _ _

theorem plan_notes (page : PageRequest) (options : Options) :
    (page.plan options).notes = (page.plan options).fallbacks.map fallbackNote ++
      (page.emitted options).voidParents.map voidNote ++
      (page.emitted options).imports.conflicts.map conflictNote := rfl

/-- Each island returns the view of its own id. -/
theorem islandFunctions_returned (e : Emitter) (names : List (String × String)) :
    (islandFunctions e names).1.map ComponentFunction.returned =
      names.map fun entry => .body (e.forest.body e.substitutions [entry.1]) := by
  induction names generalizing e with
  | nil => rfl
  | cons entry rest ih =>
    obtain ⟨id, name⟩ := entry
    have later := ih (e.renderScoped id).2.2
    rw [(e.renderScoped_source id).1, (e.renderScoped_source id).2] at later
    exact congrArg (List.cons _) later

def islandComponents (page : PageRequest) (options : Options) : List Component :=
  (page.renderedIslands options).1.flatMap fun f => f.returned.components

theorem splitPlan_islandNames (page : PageRequest) (options : Options) :
    (page.splitPlan options).islandNames = page.splitNames.map Prod.snd := by
  rw [PagePlan.islandNames, splitPlan_islands]
  split
  · rename_i hempty
    rw [List.isEmpty_iff.mp hempty]
    rfl
  · rw [Option.toList_some, List.flatMap_singleton, PageModule.functions_of_components,
      renderedIslands_names]

/-- Every placeholder of a split page is one of the islands. -/
theorem placeholder_mem_islandNames (page : PageRequest) (options : Options) {id name : String}
    (h : (OrderedMap.ofList page.splitNames).find? id = some name) :
    name ∈ (page.splitPlan options).islandNames := by
  rw [OrderedMap.find?_ofList] at h
  rw [splitPlan_islandNames]
  exact List.mem_map_of_mem (List.mem_reverse.mp (mem_of_lookup h))

theorem splitPlan_rendered (page : PageRequest) (options : Options) :
    (page.splitPlan options).rendered =
      page.islandComponents options ++ (page.splitEmitted options).body.components := by
  have islands : (page.splitPlan options).islands.toList.flatMap PageModule.components =
      page.islandComponents options := by
    rw [splitPlan_islands, islandComponents]
    split
    · rename_i hempty
      rw [renderedIslands, List.isEmpty_iff.mp hempty]
      rfl
    · exact (List.flatMap_singleton _ _).trans
        (congrArg _ (PageModule.functions_of_components _ _ _))
  rw [PagePlan.rendered_eq, islands]
  exact congrArg _ (page.modules_components options .server (page.splitEmitted options))

section

variable {page : PageRequest} {trees : List ComponentTree}

theorem cutShort_eq (h : Spells trees page.components) {components : List Component}
    (hsub : ∀ c ∈ components, c ∈ page.components) :
    (Forest.ofComponents page.components).cutShort components =
      (components.filter Component.losesChildren).map Component.id := by
  rw [Forest.cutShort]
  congr 1
  apply List.filter_congr
  intro c hc
  rw [h.children_isEmpty (hsub c hc), Component.losesChildren]

theorem rendered_whole (h : Spells trees page.components)
    (hroots : trees.map ComponentTree.id = rootIds page.components) (options : Options) :
    (page.plan options).rendered = ComponentTree.rendered OrderedMap.empty trees := by
  rw [plan_rendered, h.body hroots]
  rfl

theorem rendered_perm_shown (h : Spells trees page.components)
    (hroots : trees.map ComponentTree.id = rootIds page.components) (options : Options) :
    (page.plan options).rendered.Perm (page.components.filter page.isShown) := by
  have shown : ∀ p ∈ placesOf [] trees, p.isShown = page.isShown p.component := by
    intro p hp
    rw [isShown, ancestors, show p.component.id = p.id from rfl, h.ancestors hp, Place.isShown]
  have places : rendered OrderedMap.empty trees = (componentsOf trees).filter page.isShown := by
    rw [rendered_eq_shown [] trees (by simp), ← places_components [] trees,
      List.filter_map, List.filter_congr shown]
    rfl
  rw [rendered_whole h hroots, places]
  exact (h.listed.filter _).symm

theorem plan_reports (h : Spells trees page.components)
    (hroots : trees.map ComponentTree.id = rootIds page.components) (t : Toolchain) :
    ((page.plan t.options).finish t).Reports (page.plan t.options).rendered := by
  obtain ⟨hfallbacks, hvoids⟩ := (Forest.ofComponents page.components).emit_records t.options
    OrderedMap.empty (rootIds page.components)
  have hsub : ∀ c ∈ (page.plan t.options).rendered, c ∈ page.components := by
    intro c hc
    exact (List.mem_filter.mp ((rendered_perm_shown h hroots t.options).mem_iff.mp hc)).1
  have body := page.plan_rendered t.options
  have directory : (page.plan t.options).directory.toList.head? = some 'a' :=
    Route.directory_head page.path
  refine PagePlan.reports_finish directory (page.plan_notes t.options) ?_ ?_ t
  · rw [body]
    exact hfallbacks
  · rw [← cutShort_eq h hsub, body]
    exact hvoids

theorem find?_splitNames (h : Spells trees page.components)
    (hroots : trees.map ComponentTree.id = rootIds page.components) :
    ∀ p ∈ placesOf [] trees,
      ((OrderedMap.ofList page.splitNames).find? p.id).isSome = p.isIsland := by
  intro p hp
  rw [splitNames, find?_islandNames (h.islandRoots_nodup hroots), Option.isSome_map]
  exact islandNumber?_isSome h hroots p hp

/-- The body of an island is the view of its tree. -/
theorem island_views (h : Spells trees page.components)
    (hroots : trees.map ComponentTree.id = rootIds page.components) (options : Options) :
    (page.renderedIslands options).1.map ComponentFunction.returned =
      (cutTreesOf (OrderedMap.ofList page.splitNames) trees).map fun t =>
        .body ⟨false, viewsOf OrderedMap.empty [t]⟩ := by
  have ids : page.splitNames.map Prod.fst =
      (cutTreesOf (OrderedMap.ofList page.splitNames) trees).map ComponentTree.id := by
    have roots : page.splitNames.map Prod.fst =
        ((placesOf [] trees).filter Place.isIsland).map Place.id :=
      (keys_islandNames _).trans (h.islandRoots hroots)
    rw [roots, cutTreesOf_ids trees (find?_splitNames h hroots)]
  have views : ∀ t ∈ cutTreesOf (OrderedMap.ofList page.splitNames) trees,
      (Forest.ofComponents page.components).body OrderedMap.empty [t.id] =
        ⟨false, viewsOf OrderedMap.empty [t]⟩ := by
    intro t ht
    exact congrArg (Body.mk false) (h.view_subtree ((cutTreesOf_sublist _ trees).subset ht) _)
  calc
    _ = page.splitNames.map fun entry =>
        .body ((Forest.ofComponents page.components).body OrderedMap.empty [entry.1]) :=
      islandFunctions_returned _ _
    _ = (page.splitNames.map Prod.fst).map fun id =>
        .body ((Forest.ofComponents page.components).body OrderedMap.empty [id]) := by
      rw [List.map_map]
      rfl
    _ = _ := by
      rw [ids, List.map_map]
      exact List.map_congr_left fun t ht => congrArg Returned.body (views t ht)

theorem splitEmitted_views (h : Spells trees page.components)
    (hroots : trees.map ComponentTree.id = rootIds page.components) (options : Options) :
    (page.splitEmitted options).body.views =
      viewsOf (OrderedMap.ofList page.splitNames) trees := by
  have body : (page.splitEmitted options).body = (Forest.ofComponents page.components).body
      (OrderedMap.ofList page.splitNames) (rootIds page.components) := by
    unfold splitEmitted
    split <;> rfl
  rw [body, h.body hroots]

theorem rendered_split (h : Spells trees page.components)
    (hroots : trees.map ComponentTree.id = rootIds page.components) (options : Options) :
    (page.splitPlan options).rendered =
      renderedApart (OrderedMap.ofList page.splitNames) trees := by
  have islands := congrArg (List.flatMap Returned.components) (island_views h hroots options)
  rw [List.flatMap_map, List.flatMap_map] at islands
  rw [splitPlan_rendered, renderedApart, Body.components, splitEmitted_views h hroots]
  exact congrArg (· ++ _) islands

theorem rendered_split_subset (h : Spells trees page.components)
    (hroots : trees.map ComponentTree.id = rootIds page.components) (options : Options) :
    ∀ c ∈ (page.splitPlan options).rendered, c ∈ page.components := by
  intro c hc
  rw [rendered_split h hroots] at hc
  exact h.listed.mem_iff.mpr (renderedApart_subset _ _ hc)

theorem rendered_split_nodup (h : Spells trees page.components)
    (hroots : trees.map ComponentTree.id = rootIds page.components) (options : Options) :
    ((page.splitPlan options).rendered.map Component.id).Nodup := by
  rw [rendered_split h hroots]
  exact renderedApart_ids_nodup _ h.distinct

theorem splitEmitted_records (page : PageRequest) (options : Options) :
    (page.splitEmitted options).fallbacks =
        FirstSeen.ofList (unknownKinds (page.splitEmitted options).body.components) ∧
      (page.splitEmitted options).voidParents = FirstSeen.ofList
        ((Forest.ofComponents page.components).cutShort
          (page.splitEmitted options).body.components) := by
  unfold splitEmitted
  split <;> exact Forest.emit_records _ _ _ _

theorem splitPlan_notes (page : PageRequest) (options : Options) :
    (page.splitPlan options).notes = (page.splitPlan options).fallbacks.map fallbackNote ++
      (FirstSeen.addAll (page.renderedIslands options).2.voidParents
        (page.splitEmitted options).voidParents).map voidNote ++
      (page.splitEmitted options).imports.conflicts.map conflictNote := rfl

theorem splitPlan_fallbacks (page : PageRequest) (options : Options) :
    (page.splitPlan options).fallbacks =
      FirstSeen.addAll (page.renderedIslands options).2.fallbacks
        (page.splitEmitted options).fallbacks := rfl

/-- The islands are recorded before the page around them. -/
theorem splitPlan_reports (h : Spells trees page.components)
    (hroots : trees.map ComponentTree.id = rootIds page.components) (t : Toolchain) :
    ((page.splitPlan t.options).finish t).Reports (page.splitPlan t.options).rendered := by
  obtain ⟨hfallbacks, hvoids, _⟩ := islandFunctions_records
    ((page.emitter t.options).analyze page.islandRoots) page.splitNames
  obtain ⟨hpageFallbacks, hpageVoids⟩ := page.splitEmitted_records t.options
  have hsub := rendered_split_subset h hroots t.options
  have directory : (page.splitPlan t.options).directory.toList.head? = some 'a' :=
    Route.directory_head page.path
  refine PagePlan.reports_finish directory (page.splitPlan_notes t.options) ?_ ?_ t
  · rw [splitPlan_fallbacks, splitPlan_rendered, unknownKinds_append, ← FirstSeen.addAll_ofList,
      hpageFallbacks]
    exact congrArg (FirstSeen.addAll · _) hfallbacks
  · rw [← cutShort_eq h hsub, splitPlan_rendered, Forest.cutShort_append,
      ← FirstSeen.addAll_ofList, hpageVoids]
    exact congrArg (FirstSeen.addAll · _) hvoids

/-- A component of a split page is rendered once, unless a warning names one above it. -/
theorem rendered_once (h : Spells trees page.components)
    (hroots : trees.map ComponentTree.id = rootIds page.components) (t : Toolchain) {c : Component}
    (hc : c ∈ page.components)
    (hunnamed : ∀ a ∈ page.ancestors c,
      voidNote a.id ∉ ((page.splitPlan t.options).finish t).warnings) :
    ((page.splitPlan t.options).rendered.map Component.id).count c.id = 1 := by
  obtain ⟨p, hp, rfl⟩ := exists_place [] (h.listed.mem_iff.mp hc)
  have above : page.ancestors p.component = p.above := h.ancestors hp
  have apart := rendered_split h hroots t.options
  suffices shown : p.component ∈ (page.splitPlan t.options).rendered by
    exact List.count_eq_one_of_mem (rendered_split_nodup h hroots t.options)
      (List.mem_map_of_mem shown)
  rcases renderedApart_accounted (OrderedMap.ofList page.splitNames) hp with
    hshown | ⟨a, ha, hvoid, hshown⟩ | ⟨t, ht, _⟩
  · exact apart ▸ hshown
  · -- the component above it has a child, so it is named
    have listed : a.childIds ≠ [] := by
      rcases childIds_ne_nil_of_above h.linked hp ha with hnone | hne
      · cases hnone
      · exact hne
    have loses : a.losesChildren = true := by simp [Component.losesChildren, hvoid, listed]
    have reported : a.id ∈ ((page.splitPlan t.options).rendered.filter
        Component.losesChildren).map Component.id :=
      List.mem_map_of_mem (List.mem_filter.mpr ⟨apart ▸ hshown, loses⟩)
    have named := (splitPlan_reports h hroots t).voids a.id
    rw [if_pos reported] at named
    refine absurd (List.count_pos_iff.mp ?_) (hunnamed a (above ▸ ha))
    rw [named]
    exact Nat.one_pos
  · cases ht

theorem plan_prints (h : Spells trees page.components)
    (hroots : trees.map ComponentTree.id = rootIds page.components) (options : Options) :
    ∀ m ∈ (page.plan options).modules options, m.module.PrintsComponents options [] := by
  have views : (page.emitted options).body.views = viewsOf OrderedMap.empty trees := by
    have body := h.body hroots OrderedMap.empty
    exact congrArg Body.views body
  have prints := page.modules_prints options (page.plan options).placement
    (Returned.printed_unreplaced views options [])
  exact PagePlan.modules_print prints.1 prints.2 nofun

theorem splitPlan_prints (h : Spells trees page.components)
    (hroots : trees.map ComponentTree.id = rootIds page.components) (options : Options) :
    ∀ m ∈ (page.splitPlan options).modules options,
      m.module.PrintsComponents options (page.splitPlan options).islandNames := by
  have prints := page.modules_prints options .server (Returned.printed_of_views
    (splitEmitted_views h hroots options) (fun _ _ => page.placeholder_mem_islandNames options)
    options)
  refine PagePlan.modules_print prints.1 prints.2 ?_
  intro m hm
  rw [splitPlan_islands] at hm
  split at hm
  · cases hm
  · cases hm
    refine ⟨PageModule.holds_returned options _, ?_⟩
    intro f hf
    rw [PageModule.functions_of_components] at hf
    have returned := List.mem_map_of_mem (f := ComponentFunction.returned) hf
    rw [island_views h hroots] at returned
    obtain ⟨t, _, heq⟩ := List.mem_map.mp returned
    rw [← heq]
    exact Returned.printed_unreplaced rfl options _

end

end PageRequest

/-! ## Entry points -/

structure PageRequest.ShownWhole (page : PageRequest) (t : Toolchain) (output : PageOutput) :
    Prop where
  printed : (page.plan t.options).Yields t (PageModule.PrintsComponents t.options []) output.files
  rendered : (page.plan t.options).rendered.Perm (page.components.filter page.isShown)
  reported : output.Reports (page.plan t.options).rendered

/-- The page and the islands show each component at most once, and exactly once unless a warning
names one above it. -/
structure PageRequest.ShownApart (page : PageRequest) (t : Toolchain) (output : PageOutput) :
    Prop where
  printed : (page.splitPlan t.options).Yields t
    (PageModule.PrintsComponents t.options (page.splitPlan t.options).islandNames) output.files
  pageAndIslands : (page.splitPlan t.options).companion = none
  within : ∀ c ∈ (page.splitPlan t.options).rendered, c ∈ page.components
  distinct : ((page.splitPlan t.options).rendered.map Component.id).Nodup
  once : ∀ c ∈ page.components, (∀ a ∈ page.ancestors c, voidNote a.id ∉ output.warnings) →
    ((page.splitPlan t.options).rendered.map Component.id).count c.id = 1
  reported : output.Reports (page.splitPlan t.options).rendered

/-- A valid page loses no component in silence, be it generated in one piece or split. -/
theorem Toolchain.no_silent_loss (t : Toolchain) (page : PageRequest)
    (h : page.violations = []) :
    (∃ output, t.pageOutput page = .ok output ∧
      t.generatePage page = .ok (t.result page output) ∧ page.ShownWhole t output) ∧
    ∃ output, t.splitOutput page = .ok output ∧
      t.splitPage page = .ok (t.result page output) ∧ page.ShownApart t output := by
  obtain ⟨trees, hspells, hroots⟩ :=
    exists_trees_of_no_violations (PageRequest.components_valid h)
  refine ⟨⟨_, t.pageOutput_valid h, generatePage_eq_ok_iff.mpr ⟨h, rfl⟩, ?_⟩,
    ⟨_, t.splitOutput_valid h, splitPage_eq_ok_iff.mpr ⟨h, rfl⟩, ?_⟩⟩
  · exact ⟨PagePlan.yields_finish (PageRequest.plan_prints hspells hroots t.options),
      PageRequest.rendered_perm_shown hspells hroots t.options,
      PageRequest.plan_reports hspells hroots t⟩
  · exact ⟨PagePlan.yields_finish (PageRequest.splitPlan_prints hspells hroots t.options),
      page.splitPlan_companion t.options,
      PageRequest.rendered_split_subset hspells hroots t.options,
      PageRequest.rendered_split_nodup hspells hroots t.options,
      fun _ hc => PageRequest.rendered_once hspells hroots t hc,
      PageRequest.splitPlan_reports hspells hroots t⟩

namespace Sample

/-! Two components of an unknown kind, one above an image with a caption and one above a button. -/

def mosaic : Component := component "mosaic" "Mosaic" none ["photo", "tile"] .empty

def photo : Component := component "photo" "Image" (some "mosaic") ["caption"] .empty

def caption : Component := component "caption" "Text" (some "photo") [] .empty

def tile : Component := component "tile" "Mosaic" (some "mosaic") ["press"] .empty

def press : Component := component "press" "Button" (some "tile") [] .empty

def galleryTree : ComponentTree :=
  .node mosaic [.node photo [.node caption []], .node tile [.node press []]]

def gallery : PageRequest where
  title := "Gallery"
  description := ""
  path := "/gallery"
  metadata := none
  dataFetching := none
  components := [mosaic, photo, caption, tile, press]

theorem gallery_spells : Spells [galleryTree] gallery.components where
  nonempty := by simp
  linked := by
    simp [galleryTree, LinkedBelow, Linked, mosaic, photo, caption, tile, press, component]
  named := by
    simp only [galleryTree, componentsOf_cons, componentsOf_nil]
    decide
  distinct := by decide
  listed := by
    simp only [galleryTree, componentsOf_cons, componentsOf_nil, List.append_nil, List.nil_append,
      List.cons_append]
    exact .refl _

theorem gallery_valid : gallery.violations = [] := by
  have request : Text.isBlank gallery.path = false ∧ Text.isBlank gallery.title = false := by decide
  simp only [PageRequest.violations, request, Bool.false_eq_true, if_false, List.nil_append]
  exact no_violations_of_coherent gallery_spells.coherent

theorem gallery_rendered :
    (gallery.plan toolchain.options).rendered = [mosaic, photo, tile, press] := by
  have listed : [galleryTree].map ComponentTree.id = rootIds gallery.components := by decide
  have voids : (Primitive.ofKind mosaic.kind).void = false ∧
      (Primitive.ofKind photo.kind).void = true ∧ (Primitive.ofKind tile.kind).void = false ∧
      (Primitive.ofKind press.kind).void = false := by decide
  rw [PageRequest.rendered_whole gallery_spells listed]
  simp [galleryTree, rendered_cons, find?_empty_isSome, voids]

theorem gallery_body : ∃ f ∈ (gallery.plan toolchain.options).page.functions, ∃ body,
    f.returned = .body body ∧ body.components = [mosaic, photo, tile, press] := by
  have functions := gallery.pageModule_functions toolchain.options
    (gallery.plan toolchain.options).placement (gallery.emitted toolchain.options).imports
    ((gallery.emitted toolchain.options).stubNames.map .stub)
    (.body (gallery.emitted toolchain.options).body)
  have rendered := gallery.plan_rendered toolchain.options
  rw [gallery_rendered] at rendered
  exact ⟨_, functions ▸ List.mem_singleton_self _, _, rfl, rendered.symm⟩

/-- The caption is lost, and the image above it is named; the two components of the unknown kind
are reported once. The text of the page shows the other four. Split in two, the page still has the
button. -/
theorem no_silent_loss_gallery : gallery.violations = [] ∧
    (∃ output, toolchain.pageOutput gallery = .ok output ∧
      [mosaic, photo, tile, press].Perm (gallery.components.filter gallery.isShown) ∧
      (∃ f ∈ (gallery.plan toolchain.options).page.functions,
        Markup.Prints toolchain.options [] [mosaic, photo, tile, press]
          (f.returned.render toolchain.options).toList) ∧
      output.warnings.count (voidNote "photo") = 1 ∧
      output.warnings.count (fallbackNote "Mosaic") = 1 ∧ output.fallbacks = ["Mosaic"]) ∧
    ∃ output, toolchain.splitOutput gallery = .ok output ∧
      (∀ a ∈ gallery.ancestors press, voidNote a.id ∉ output.warnings) ∧
      ((gallery.splitPlan toolchain.options).rendered.map Component.id).count "press" = 1 := by
  obtain ⟨⟨output, houtput, _, whole⟩, ⟨split, hsplit, _, apart⟩⟩ :=
    Toolchain.no_silent_loss toolchain gallery gallery_valid
  obtain ⟨printed, shown, voids, kinds, fallbacks⟩ := whole
  rw [gallery_rendered] at shown voids kinds fallbacks
  have above : gallery.ancestors press = [tile, mosaic] :=
    gallery_spells.ancestors (p := ⟨press, [tile, mosaic]⟩) (by simp [galleryTree])
  have unnamed : ∀ a ∈ gallery.ancestors press, voidNote a.id ∉ split.warnings := by
    have image : ∀ c ∈ gallery.components, c.losesChildren = true →
        ∀ a ∈ [tile, mosaic], c.id ≠ a.id := by decide
    intro a ha
    rw [← List.count_eq_zero, apart.reported.voids, if_neg]
    intro hmem
    obtain ⟨c, hc, hid⟩ := List.mem_map.mp hmem
    obtain ⟨hc, hloses⟩ := List.mem_filter.mp hc
    exact image c (apart.within c hc) hloses a (above ▸ ha) hid
  obtain ⟨f, hf, body, hbody, hcomponents⟩ := gallery_body
  have prints := printed.holds ⟨.page, "page", (gallery.plan toolchain.options).page⟩
    (by simp [PagePlan.modules])
  have text := prints.printed f hf body hbody
  rw [hcomponents] at text
  refine ⟨gallery_valid, ⟨output, houtput, shown, ⟨f, hf, text⟩, ?_, ?_, ?_⟩, split, hsplit,
    unnamed, ?_⟩
  · rw [voids, if_pos (by decide)]
  · rw [kinds, if_pos (by decide)]
  · rw [fallbacks]
    decide
  · exact apart.once press (by simp [gallery]) unnamed

end Sample

end Pagewright

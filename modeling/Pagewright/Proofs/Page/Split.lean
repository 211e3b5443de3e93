import Pagewright.Proofs.Code.Function
import Pagewright.Proofs.Markup.Template
import Pagewright.Proofs.Page.IslandNames

/-!
# Split pages

A split page shows the same markup as the page in one piece: both are one text, cut
where the islands stand, with a placeholder or the island itself put in at every cut.
The cuts are the islands that are shown at all. The module of islands exports them
under the names that the page imports, those that are not shown included.
-/

set_option autoImplicit false

namespace Pagewright

def islandLine (index depth : Nat) : String :=
  Text.indent depth ++ "<" ++ islandName (index + 1) ++ " />"

namespace PageRequest

def emitter (page : PageRequest) (options : Options) : Emitter where
  forest := Forest.ofComponents page.components
  options := options

def islandRoots (page : PageRequest) : List String :=
  (Forest.ofComponents page.components).islandRoots

def islandMarkup (page : PageRequest) (options : Options) (index depth : Nat) : String :=
  ((page.emitter options).renderTree page.islandRoots[index]?.toList depth).1

/-- The split page and the page in one piece are the same text, cut where shown islands stand. -/
structure SplitAt (page : PageRequest) (options : Options) (first : String)
    (cuts : List IslandCut) : Prop where
  split : (page.splitPlan options).page.functions.map (fun f => f.returned.render options) =
    [splice islandLine first cuts]
  whole : ((page.emitter options).renderRoot (page.emitter options).forest.roots 2).1 =
    splice (page.islandMarkup options) first cuts
  increasing : (cuts.map IslandCut.index).Pairwise (· < ·)
  shown : ∀ index, index ∈ cuts.map IslandCut.index ↔ ∃ id, page.islandRoots[index]? = some id ∧
    ∀ c ∈ (page.emitter options).forest.ancestors id, (Primitive.ofKind c.kind).void = false

structure ExportsIslands (page : PageRequest) (options : Options)
    (functions : List ComponentFunction) : Prop where
  blocks : (page.splitPlan options).islands.map PageModule.blocks =
    if page.islandRoots.isEmpty then none else some (functions.map Block.component)
  exported : functions.map (fun f => (f.name, f.isDefault, f.returned.render options)) =
    page.islandRoots.zipIdx.map fun entry =>
      (islandName (entry.2 + 1), false, ((page.emitter options).renderTree [entry.1] 2).1)
  distinct : (functions.map ComponentFunction.name).Nodup
  imported : ∃ named : List String, named.Perm (functions.map ComponentFunction.name) ∧
    (page.splitPlan options).page.imports.find? ("./" ++ islandsStem) =
      if page.islandRoots.isEmpty then none else some { named }

/-! ## The page around the islands -/

/-- A page module has one function, in which fetched data comes first. -/
theorem pageModule_functions (page : PageRequest) (options : Options) (placement : Placement)
    (imports : Imports) (setup : List Setup) (returned : Returned) :
    (page.pageModule options placement imports setup returned).functions =
      [{ name := page.componentName
         isAsync := page.dataFetching.isSome
         setup := page.dataBinding?.toList.map Setup.fetched ++ setup
         returned }] := by
  unfold pageModule dataBinding?
  cases page.dataFetching with
  | some fetching =>
    cases hmetadata : page.metadata <;> simp [PageModule.functions, metadataBlocks, hmetadata]
  | none =>
    cases hmetadata : page.metadata <;> simp [PageModule.functions, metadataBlocks, hmetadata]

theorem pageModule_parts (page : PageRequest) (options : Options) (placement : Placement)
    (imports : Imports) (setup : List Setup) (returned : Returned) :
    (page.pageModule options placement imports setup returned).functions.map
      (fun f => (f.setup, f.returned)) =
        [(page.dataBinding?.toList.map Setup.fetched ++ setup, returned)] := by
  rw [pageModule_functions, List.map_singleton]

theorem pageModule_returned (page : PageRequest) (options : Options) (placement : Placement)
    (imports : Imports) (setup : List Setup) (returned : Returned) :
    (page.pageModule options placement imports setup returned).functions.map
      ComponentFunction.returned = [returned] := by
  have parts := congrArg (List.map Prod.snd)
    (page.pageModule_parts options placement imports setup returned)
  rwa [List.map_map] at parts

theorem pageModule_find? (page : PageRequest) (options : Options) (placement : Placement)
    (imports : Imports) (setup : List Setup) (returned : Returned) {module : String}
    (hne : module ≠ "next") :
    (page.pageModule options placement imports setup returned).imports.find? module =
      imports.find? module := by
  have typed : (page.importMetadataType options imports).find? module = imports.find? module := by
    unfold importMetadataType
    split
    · exact Imports.find?_update_ne hne _
    · rfl
  unfold pageModule
  split
  · exact typed
  · exact typed
  · rfl

theorem splitPlan_returned (page : PageRequest) (options : Options) :
    (page.splitPlan options).page.functions.map ComponentFunction.returned =
      [.body ((Forest.ofComponents page.components).body (OrderedMap.ofList page.splitNames)
        (Forest.ofComponents page.components).roots)] := by
  have body : (page.splitEmitted options).body = (Forest.ofComponents page.components).body
      (OrderedMap.ofList page.splitNames) (Forest.ofComponents page.components).roots := by
    unfold splitEmitted
    split <;> rfl
  rw [splitPlan_page, modules, needsCompanion_server, ← body]
  exact pageModule_returned page options .server _ _ _

theorem filterMap_idxOf?_self {ids : List String} (hn : ids.Nodup) :
    ids.filterMap (ids.idxOf? ·) = List.range ids.length := by
  have numbered : ids.map (ids.idxOf? ·) = (List.range ids.length).map some := by
    apply List.ext_getElem (by simp)
    intro index hindex _
    have hlt : index < ids.length := by simpa using hindex
    rw [List.getElem_map, List.getElem_map, List.getElem_range, idxOf?_eq_some_iff_getElem? hn]
    exact List.getElem?_eq_getElem hlt
  calc
    ids.filterMap (ids.idxOf? ·) = (ids.map (ids.idxOf? ·)).filterMap id := by
      rw [List.filterMap_map]
      rfl
    _ = List.range ids.length := by rw [numbered, List.filterMap_map]; simp

def islandNumber? (page : PageRequest) (id : String) : Option Nat := page.islandRoots.idxOf? id

section

open ComponentTree

variable {page : PageRequest} {trees : List ComponentTree}

theorem islandNumber?_isSome (h : Spells trees page.components)
    (hroots : trees.map ComponentTree.id = rootIds page.components) :
    ∀ p ∈ placesOf [] trees, (page.islandNumber? p.id).isSome = p.isIsland := by
  intro p hp
  rw [Bool.eq_iff_iff, islandNumber?, List.isSome_idxOf?]
  exact h.mem_islandRoots hroots hp

def cutNumbers (page : PageRequest) (trees : List ComponentTree) : List Nat :=
  ((placesOf [] trees).filter Place.isCut).filterMap fun p => page.islandNumber? p.id

theorem cutNumbers_increasing (h : Spells trees page.components)
    (hroots : trees.map ComponentTree.id = rootIds page.components) :
    (page.cutNumbers trees).Pairwise (· < ·) := by
  have hsub : ((placesOf [] trees).filter Place.isCut).Sublist
      ((placesOf [] trees).filter Place.isIsland) := by
    apply List.monotone_filter_right
    intro p hcut
    exact (Bool.and_eq_true_iff.mp hcut).1
  have hall : ((placesOf [] trees).filter Place.isIsland).filterMap
      (fun p => page.islandNumber? p.id) = List.range page.islandRoots.length := by
    have hislands : page.islandRoots = ((placesOf [] trees).filter Place.isIsland).map Place.id :=
      h.islandRoots hroots
    calc
      _ = (((placesOf [] trees).filter Place.isIsland).map Place.id).filterMap
          page.islandNumber? := by rw [List.filterMap_map]; rfl
      _ = page.islandRoots.filterMap (page.islandRoots.idxOf? ·) := by rw [← hislands]; rfl
      _ = List.range page.islandRoots.length :=
        filterMap_idxOf?_self (h.islandRoots_nodup hroots)
  have hnumbers := hsub.filterMap fun p => page.islandNumber? p.id
  rw [hall] at hnumbers
  exact List.pairwise_lt_range.sublist hnumbers

theorem mem_cutNumbers (h : Spells trees page.components)
    (hroots : trees.map ComponentTree.id = rootIds page.components) (index : Nat) :
    index ∈ page.cutNumbers trees ↔ ∃ id, page.islandRoots[index]? = some id ∧
      ∀ c ∈ (Forest.ofComponents page.components).ancestors id,
        (Primitive.ofKind c.kind).void = false := by
  have at_index : ∀ id, page.islandNumber? id = some index ↔ page.islandRoots[index]? = some id :=
    fun _ => idxOf?_eq_some_iff_getElem? (h.islandRoots_nodup hroots)
  have shown : ∀ p ∈ placesOf [] trees, p.isShown = true ↔
      ∀ c ∈ (Forest.ofComponents page.components).ancestors p.id,
        (Primitive.ofKind c.kind).void = false := by
    intro p hp
    rw [h.ancestors hp]
    simp [Place.isShown]
  rw [cutNumbers, List.mem_filterMap]
  constructor
  · rintro ⟨p, hcut, hindex⟩
    obtain ⟨hp, hcut⟩ := List.mem_filter.mp hcut
    exact ⟨p.id, (at_index _).mp hindex, (shown p hp).mp (Bool.and_eq_true_iff.mp hcut).2⟩
  · rintro ⟨id, hid, hshown⟩
    have hmem : id ∈ ((placesOf [] trees).filter Place.isIsland).map Place.id :=
      h.islandRoots hroots ▸ List.mem_of_getElem? hid
    obtain ⟨p, hp, rfl⟩ := List.mem_map.mp hmem
    obtain ⟨hp, hisland⟩ := List.mem_filter.mp hp
    have hcut : p.isCut = true := Bool.and_eq_true_iff.mpr ⟨hisland, (shown p hp).mpr hshown⟩
    exact ⟨p, List.mem_filter.mpr ⟨hp, hcut⟩, (at_index _).mpr hid⟩

theorem split_text (h : Spells trees page.components)
    (hroots : trees.map ComponentTree.id = rootIds page.components) (options : Options) :
    ((Forest.ofComponents page.components).body (OrderedMap.ofList page.splitNames)
        (Forest.ofComponents page.components).roots).render options 2 =
      Text.unlines ((bodyTemplate options page.islandNumber? 2 trees).flatMap
        (Segment.lines fun index depth => [islandLine index depth])) := by
  have names : ∀ id, (OrderedMap.ofList page.splitNames).find? id =
      (page.islandNumber? id).map fun index => islandName (index + 1) :=
    find?_islandNames (h.islandRoots_nodup hroots)
  rw [show (Forest.ofComponents page.components).roots = rootIds page.components from rfl,
    h.body hroots]
  apply bodyTemplate_render options page.islandNumber? _ _ h.nonempty
  · intro t _ hfree
    rw [names, hfree]
    rfl
  · intro t _ index hindex depth
    obtain ⟨c, children⟩ := t
    have hname : (OrderedMap.ofList page.splitNames).find? c.id =
        some (islandName (index + 1)) := by
      rw [id_node] at hindex
      rw [names, hindex]
      rfl
    simp [view, hname, View.element, Element.lines, islandLine]

def islandLines (page : PageRequest) (options : Options) (index depth : Nat) : List String :=
  Body.lines options depth ⟨false, (Forest.ofComponents page.components).views OrderedMap.empty
    page.islandRoots[index]?.toList⟩

theorem islandLines_eq (h : Spells trees page.components)
    (hroots : trees.map ComponentTree.id = rootIds page.components) (options : Options)
    {t : ComponentTree} (ht : t ∈ subtreesOf trees) {index : Nat}
    (hindex : page.islandNumber? t.id = some index) (depth : Nat) :
    page.islandLines options index depth =
      (View.element options (t.view OrderedMap.empty)).lines depth := by
  have hat : page.islandRoots[index]? = some t.id :=
    (idxOf?_eq_some_iff_getElem? (h.islandRoots_nodup hroots)).mp hindex
  rw [islandLines, hat, Option.toList_some, h.view_subtree ht]
  simp [Body.lines, View.elements]

theorem islandLines_ne_nil (h : Spells trees page.components)
    (hroots : trees.map ComponentTree.id = rootIds page.components) (options : Options)
    {index : Nat} (hindex : index ∈ page.cutNumbers trees) (depth : Nat) :
    page.islandLines options index depth ≠ [] := by
  obtain ⟨p, hcut, hnumber⟩ := List.mem_filterMap.mp hindex
  have hcomponent : p.component ∈ (subtreesOf trees).map root := by
    rw [roots_subtreesOf]
    exact place_mem (List.mem_filter.mp hcut).1
  obtain ⟨t, ht, hroot⟩ := List.mem_map.mp hcomponent
  have hid : t.id = p.id := congrArg Component.id hroot
  obtain ⟨first, rest, hlines⟩ := Element.lines_head depth
    (View.element options (t.view OrderedMap.empty))
  rw [islandLines_eq h hroots options ht (hid ▸ hnumber), hlines]
  exact List.cons_ne_nil _ _

theorem whole_text (h : Spells trees page.components)
    (hroots : trees.map ComponentTree.id = rootIds page.components) (options : Options) :
    ((page.emitter options).renderRoot (page.emitter options).forest.roots 2).1 =
      Text.unlines ((bodyTemplate options page.islandNumber? 2 trees).flatMap
        (Segment.lines (page.islandLines options))) := by
  have body := h.body hroots OrderedMap.empty
  have text : ((page.emitter options).renderRoot (page.emitter options).forest.roots 2).1 =
      ((Forest.ofComponents page.components).body OrderedMap.empty
        (rootIds page.components)).render options 2 := rfl
  rw [text, body]
  exact bodyTemplate_render options page.islandNumber? _ _ h.nonempty 2 (fun _ _ _ => rfl)
    fun t ht index hindex depth => islandLines_eq h hroots options ht hindex depth

/-- The text around the islands, and where they stand in it. -/
theorem exists_splitAt (page : PageRequest) (options : Options)
    (h : componentViolations page.components = []) :
    ∃ first cuts, page.SplitAt options first cuts := by
  obtain ⟨trees, hspells, hroots⟩ := exists_trees_of_no_violations h
  have hnumbers : (bodyTemplate options page.islandNumber? 2 trees).filterMap Segment.island? =
      page.cutNumbers trees :=
    bodyTemplate_islands options _ trees 2 (islandNumber?_isSome hspells hroots)
  obtain ⟨first, cuts, hindices, hsplice⟩ :=
    Segment.exists_cuts (bodyTemplate options page.islandNumber? 2 trees)
  rw [hnumbers] at hindices
  refine ⟨first, cuts, ?_, ?_, ?_, ?_⟩
  · have filled := hsplice (fun index depth => [islandLine index depth])
      (Segment.lines_ne_nil (by simp))
    have returned := congrArg (List.map (Returned.render options)) (page.splitPlan_returned options)
    rw [List.map_map] at returned
    refine returned.trans (congrArg (fun text => [text]) ?_)
    exact (split_text hspells hroots options).trans filled
  · have filled := hsplice (page.islandLines options) (Segment.lines_ne_nil fun index hindex =>
      islandLines_ne_nil hspells hroots options (hnumbers ▸ hindex))
    exact (whole_text hspells hroots options).trans filled
  · rw [hindices]
    exact cutNumbers_increasing hspells hroots
  · intro index
    rw [hindices]
    exact mem_cutNumbers hspells hroots index

end

/-! ## The islands -/

/-- The islands are rendered one after the other, and none depends on those before it. -/
theorem islandFunctions_rendered (options : Options) (e : Emitter)
    (names : List (String × String)) :
    (islandFunctions e names).1.map (fun f => (f.name, f.isDefault, f.returned.render options)) =
      names.map fun entry =>
        (entry.2, false, (e.forest.body e.substitutions [entry.1]).render options 2) := by
  induction names generalizing e with
  | nil => rfl
  | cons entry rest ih =>
    obtain ⟨id, name⟩ := entry
    have later := ih (e.renderScoped id).2.2
    rw [(e.renderScoped_source id).1, (e.renderScoped_source id).2] at later
    exact congrArg (List.cons _) later

def renderedIslands (page : PageRequest) (options : Options) : List ComponentFunction × Emitter :=
  islandFunctions ((page.emitter options).analyze page.islandRoots) page.splitNames

theorem renderedIslands_names (page : PageRequest) (options : Options) :
    (page.renderedIslands options).1.map ComponentFunction.name =
      page.splitNames.map Prod.snd := by
  have rendered := congrArg (List.map Prod.fst) (islandFunctions_rendered options
    ((page.emitter options).analyze page.islandRoots) page.splitNames)
  rwa [List.map_map, List.map_map] at rendered

theorem splitPlan_islands (page : PageRequest) (options : Options) :
    (page.splitPlan options).islands =
      if page.splitNames.isEmpty then none
      else some ⟨.client, (page.renderedIslands options).2.imports,
        (page.renderedIslands options).1.map .component⟩ := rfl

theorem splitNames_isEmpty (page : PageRequest) :
    page.splitNames.isEmpty = page.islandRoots.isEmpty := by
  rw [Bool.eq_iff_iff]
  simp [splitNames, islandNames, islandRoots, List.isEmpty_iff]

theorem splitPlan_find? (page : PageRequest) (options : Options)
    (h : componentViolations page.components = []) :
    (page.splitPlan options).page.imports.find? ("./" ++ islandsStem) =
      if page.islandRoots.isEmpty then none
      else some { named := Sorted.insertAll [] (page.splitNames.map Prod.snd) } := by
  have unused := (page.split_quiet options h).imports.modules ("./" ++ islandsStem) (by decide)
  rw [splitPlan_page, modules, needsCompanion_server]
  refine (pageModule_find? page options .server _ _ _ (by decide)).trans ?_
  rw [splitEmitted, splitNames_isEmpty]
  split
  · exact unused
  · refine (Imports.find?_update_new unused _).trans ?_
    rw [splitNames, specifiers_islandNames]

theorem exists_exportsIslands (page : PageRequest) (options : Options)
    (h : componentViolations page.components = []) :
    ∃ functions, page.ExportsIslands options functions := by
  have rendered := islandFunctions_rendered options
    ((page.emitter options).analyze page.islandRoots) page.splitNames
  have names := page.renderedIslands_names options
  refine ⟨(page.renderedIslands options).1, ?_, rendered.trans ?_, ?_,
    Sorted.insertAll [] (page.splitNames.map Prod.snd), ?_, ?_⟩
  · rw [← splitNames_isEmpty]
    exact apply_ite (Option.map PageModule.blocks) _ _ _
  · rw [splitNames, islandNames, List.map_map]
    rfl
  · rw [names]
    exact values_islandNames_nodup _
  · rw [names]
    exact Sorted.insertAll_perm (values_islandNames_nodup _)
  · exact page.splitPlan_find? options h

end PageRequest

/-- A valid page is split: its body is that of the whole page with a placeholder for each island
that is shown, and the islands module exports the islands under the names the page imports. -/
theorem Toolchain.split_preserves_markup (t : Toolchain) (page : PageRequest)
    (h : page.violations = []) :
    t.splitOutput page = .ok ((page.splitPlan t.options).finish t) ∧
    (∃ first cuts, page.SplitAt t.options first cuts) ∧
    ∃ functions, page.ExportsIslands t.options functions := by
  have hcomponents := PageRequest.components_valid h
  exact ⟨t.splitOutput_valid h, page.exists_splitAt t.options hcomponents,
    page.exists_exportsIslands t.options hcomponents⟩

namespace Sample

theorem roots_listed : [tree].map ComponentTree.id = rootIds page.components := by decide

theorem page_islandRoots : page.islandRoots = ["lost", "\"ask\""] := by
  refine (spells.islandRoots roots_listed).trans ?_
  decide

/-- The button beside the picture is cut out of the box. The one below it is not shown, and
exported all the same. -/
theorem split_preserves_markup_page : page.violations = [] ∧
    page.islandRoots = ["lost", "\"ask\""] ∧
    toolchain.splitOutput page = .ok ((page.splitPlan toolchain.options).finish toolchain) ∧
    (∃ first cuts, page.SplitAt toolchain.options first cuts ∧
      cuts.map IslandCut.index = [1]) ∧
    ∃ functions, page.ExportsIslands toolchain.options functions := by
  obtain ⟨houtput, ⟨first, cuts, hsplit⟩, hislands⟩ :=
    Toolchain.split_preserves_markup toolchain page page_valid
  refine ⟨page_valid, page_islandRoots, houtput, ⟨first, cuts, hsplit, ?_⟩, hislands⟩
  have lost_above : (Forest.ofComponents components).ancestors "lost" = [picture, box] :=
    spells.ancestors (p := ⟨lost, [picture, box]⟩) (by simp [tree])
  have ask_above : (Forest.ofComponents components).ancestors "\"ask\"" = [box] :=
    spells.ancestors (p := ⟨ask, [box]⟩) (by simp [tree])
  have hidden : ¬ ∀ c ∈ [picture, box], (Primitive.ofKind c.kind).void = false := by decide
  have shown : ∀ c ∈ [box], (Primitive.ofKind c.kind).void = false := by decide
  have only : ∀ index, index ∈ cuts.map IslandCut.index ↔ index ∈ [1] := by
    intro index
    rw [hsplit.shown, page_islandRoots]
    rcases index with _ | _ | index
    · refine ⟨?_, by simp⟩
      rintro ⟨id, hid, habove⟩
      cases hid
      exact absurd (lost_above ▸ habove) hidden
    · exact ⟨by simp, fun _ => ⟨_, rfl, ask_above ▸ shown⟩⟩
    · simp
  have hnodup : (cuts.map IslandCut.index).Nodup := hsplit.increasing.imp Nat.ne_of_lt
  exact List.perm_singleton.mp ((List.perm_ext_iff_of_nodup hnodup (by simp)).mpr only)

end Sample

end Pagewright

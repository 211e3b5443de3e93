import Mathlib.Data.List.Perm.Basic
import Pagewright.Proofs.Placement.Classification
import Pagewright.Proofs.Placement.Island

/-!
# The partition into islands

The partition of a forest is made from a report, on a walk of its own that hands down
whether something above runs in the browser. With the report of that same forest it is,
on every graph, what the visits of the island walk tell. On a valid component list the
walk knows at each place all that stands above it, which is also the chain of parent
pointers. So the partition can be told by the ancestors alone, and a chain that holds
a browser component has exactly one topmost one.
-/

set_option autoImplicit false

namespace Pagewright

open ComponentTree

/-! ## Partition and visits -/

def IslandPartition.ofVisits (visits : List Visit) : IslandPartition where
  islandRoots := (visits.filter fun v => v.component.isClient && !v.inside).map (·.component.id)
  clientIds := (visits.filter Visit.onClient).map (·.component.id)
  serverIds := (visits.filter fun v => !v.onClient).map (·.component.id)

theorem IslandPartition.ofVisits_cons (v : Visit) (rest : List Visit) :
    ofVisits (v :: rest) =
      (ofVisits rest).file v.component.id v.component.isClient v.inside := by
  obtain ⟨c, inside⟩ := v
  cases hclient : c.isClient <;> cases inside <;>
    simp [ofVisits, file, Visit.onClient, hclient]

namespace Forest

/-- Where the report knows all that is visited, the partition is the one that the visits tell. -/
theorem partitionFrom_eq (components : List Component) (report : PlacementReport)
    (seen : List String) (pending : List (String × Bool))
    (h : ∀ v ∈ (ofComponents components).visitsFrom seen pending,
      report.placementOf? v.component.id = some v.component.placement) :
    (ofComponents components).partitionFrom report seen pending =
      .ofVisits ((ofComponents components).visitsFrom seen pending) := by
  fun_induction partitionFrom (ofComponents components) report seen pending with
  | case1 seen =>
    rw [visitsFrom]
    rfl
  | case2 seen id inside pending old ih =>
    rw [visitsFrom_seen old] at h ⊢
    exact ih h
  | case3 seen id inside pending new found ih =>
    rw [visitsFrom_missing found] at h ⊢
    exact ih h
  | case4 seen id inside pending new c found isClient ih =>
    rw [visitsFrom_found new found] at h ⊢
    have hid : c.id = id := (mem_of_find?_ofComponents found).2
    have placed : report.placementOf? id = some c.placement := hid ▸ h _ List.mem_cons_self
    -- the flag that is handed down says the same in both walks
    have client : isClient = c.isClient := by
      simp only [isClient, placed, Component.isClient]
      cases c.placement <;> rfl
    rw [client] at ih ⊢
    rw [IslandPartition.ofVisits_cons, hid, ih fun v hv => h v (List.mem_cons_of_mem _ hv)]
    rfl

/-- The island walk visits the components of the plain walk. -/
theorem visitsFrom_components (forest : Forest) (seen : List String)
    (pending : List (String × Bool)) :
    (forest.visitsFrom seen pending).map Visit.component =
      forest.walkFrom seen (pending.map Prod.fst) := by
  fun_induction visitsFrom forest seen pending with
  | case1 seen => rw [List.map_nil, List.map_nil, walkFrom]
  | case2 seen id inside pending old ih => rw [ih, List.map_cons, walkFrom_seen old]
  | case3 seen id inside pending new found ih => rw [ih, List.map_cons, walkFrom_missing found]
  | case4 seen id inside pending new c found visit ih =>
    rw [List.map_cons, ih, List.map_append, List.map_map, List.map_cons, walkFrom_found new found]
    simp [visit, Function.comp_def]

theorem visits_components (forest : Forest) :
    forest.visits.map Visit.component = forest.walk forest.roots := by
  rw [visits, visitsFrom_components, List.map_map]
  simp [walk, Function.comp_def]

/-- With its own report a forest is divided as its islands say. -/
theorem partition_classify (components : List Component) (preferServer : Bool) :
    let forest := ofComponents components
    forest.partition (forest.classify forest.roots preferServer) =
      ⟨forest.islandRoots, forest.clientIds, forest.serverIds⟩ := by
  intro forest
  apply partitionFrom_eq
  intro v hv
  apply placementOf?_classify.mpr
  refine ⟨v.component, ?_, rfl, rfl⟩
  rw [← visits_components]
  exact List.mem_map_of_mem hv

end Forest

/-! ## The topmost of a chain -/

section Topmost

variable {α : Type} {p : α → Bool} {l : List α}

theorem exists_topmost (h : l.any p = true) :
    ∃ a up, (a :: up) <:+ l ∧ p a = true ∧ up.any p = false := by
  induction l with
  | nil => simp at h
  | cons x rest ih =>
    by_cases hrest : rest.any p = true
    · obtain ⟨a, up, hsuffix, hup⟩ := ih hrest
      exact ⟨a, up, hsuffix.trans (List.suffix_cons x rest), hup⟩
    · have hx : p x = true := by simpa [hrest] using h
      exact ⟨x, rest, List.suffix_rfl, hx, by simpa using hrest⟩

/-- Of two that have none above them, neither can stand above the other. -/
theorem topmost_unique {a b : α} {up above : List α} (ha : (a :: up) <:+ l)
    (hb : (b :: above) <:+ l) (hpa : p a = true) (hup : up.any p = false) (hpb : p b = true)
    (habove : above.any p = false) : a = b := by
  induction l with
  | nil => simp at ha
  | cons x rest ih =>
    rcases List.suffix_cons_iff.mp ha with hfirst | hlater
    · obtain ⟨rfl, rfl⟩ := List.cons.inj hfirst
      rcases List.suffix_cons_iff.mp hb with heq | hb
      · exact (List.cons.inj heq).1.symm
      · have some : up.any p = true := List.any_eq_true.mpr ⟨b, hb.mem (by simp), hpb⟩
        rw [hup] at some
        cases some
    · rcases List.suffix_cons_iff.mp hb with heq | hb
      · obtain ⟨rfl, rfl⟩ := List.cons.inj heq
        have some : above.any p = true := List.any_eq_true.mpr ⟨a, hlater.mem (by simp), hpa⟩
        rw [habove] at some
        cases some
      · exact ih hlater hb

end Topmost

/-! ## Valid forests -/

def Place.onClient (p : Place) : Bool := (p.component :: p.above).any Component.isClient

theorem Place.onClient_visit (p : Place) : p.visit.onClient = p.onClient := by
  simp [visit, Visit.onClient, onClient, Bool.or_comm]

/-- What it takes to divide a forest into islands and the server part around them. -/
structure IslandPartition.Divides (split : IslandPartition) (forest : Forest)
    (components : List Component) : Prop where
  client_walked : split.clientIds.Sublist ((forest.walk forest.roots).map Component.id)
  server_walked : split.serverIds.Sublist ((forest.walk forest.roots).map Component.id)
  apart : List.Disjoint split.clientIds split.serverIds
  once : ∀ c ∈ components, (split.clientIds ++ split.serverIds).count c.id = 1
  client_iff : ∀ id, id ∈ split.clientIds ↔
    (∃ c, forest.find? id = some c ∧ c.isClient = true) ∨
      ∃ a ∈ forest.ancestors id, a.isClient = true
  roots_eq : split.islandRoots =
    ((forest.walk forest.roots).filter fun c =>
      c.isClient && !(forest.ancestors c.id).any Component.isClient).map Component.id
  one_root : ∀ id ∈ split.clientIds, ∃! root, root ∈ split.islandRoots ∧
    (root = id ∨ ∃ a ∈ forest.ancestors id, a.id = root)

namespace Spells

variable {trees : List ComponentTree} {components : List Component}

theorem walk (h : Spells trees components)
    (hroots : trees.map ComponentTree.id = rootIds components) :
    (Forest.ofComponents components).walk (rootIds components) =
      (placesOf [] trees).map Place.component := by
  have visited := (Forest.ofComponents components).visits_components
  rw [h.visits hroots, List.map_map] at visited
  exact visited.symm

theorem walk_ids (h : Spells trees components)
    (hroots : trees.map ComponentTree.id = rootIds components) :
    ((Forest.ofComponents components).walk (rootIds components)).map Component.id =
      (placesOf [] trees).map Place.id := by
  rw [h.walk hroots, List.map_map]
  rfl

/-- What the visits tell of ids is told by the places. -/
theorem visited_ids (h : Spells trees components)
    (hroots : trees.map ComponentTree.id = rootIds components) {q : Visit → Bool}
    {r : Place → Bool} (hq : ∀ p : Place, q p.visit = r p) :
    ((Forest.ofComponents components).visits.filter q).map (fun v => v.component.id) =
      ((placesOf [] trees).filter r).map Place.id := by
  have same : q ∘ Place.visit = r := funext hq
  rw [h.visits hroots, List.filter_map, List.map_map, same]
  rfl

theorem clientIds (h : Spells trees components)
    (hroots : trees.map ComponentTree.id = rootIds components) :
    (Forest.ofComponents components).clientIds =
      ((placesOf [] trees).filter Place.onClient).map Place.id :=
  h.visited_ids hroots fun p => by rw [Place.onClient_visit]

theorem serverIds (h : Spells trees components)
    (hroots : trees.map ComponentTree.id = rootIds components) :
    (Forest.ofComponents components).serverIds =
      ((placesOf [] trees).filter fun p => !p.onClient).map Place.id :=
  h.visited_ids hroots fun p => by rw [Place.onClient_visit]

/-- Whatever is found stands at a place. -/
theorem exists_place_of_found (h : Spells trees components) {id : String} {c : Component}
    (hc : (Forest.ofComponents components).find? id = some c) :
    ∃ p ∈ placesOf [] trees, p.component = c ∧ p.id = id := by
  obtain ⟨hmem, rfl⟩ := h.find?_iff.mp hc
  obtain ⟨p, hp, rfl⟩ := exists_place [] hmem
  exact ⟨p, hp, rfl, rfl⟩

/-- What stands above a place stands at a place itself, below the rest. -/
theorem place_of_suffix (h : Spells trees components) {p : Place} (hp : p ∈ placesOf [] trees)
    {a : Component} {up : List Component} (hsuffix : (a :: up) <:+ (p.component :: p.above)) :
    ⟨a, up⟩ ∈ placesOf [] trees := by
  have chain : ∀ x ∈ p.component :: p.above, x ∈ componentsOf trees := by
    intro x hx
    rcases List.mem_cons.mp hx with rfl | hx
    · exact place_mem hp
    · exact place_above_components hp (by simp) (fun _ hc => hc) x hx
  have upwards : ∀ x ∈ up, x ∈ componentsOf trees :=
    fun x hx => chain x (hsuffix.mem (List.mem_cons_of_mem _ hx))
  obtain ⟨q, hq, hqa⟩ := exists_place [] (chain a (hsuffix.mem (by simp)))
  have hascends := (place_ascends (show Ascends [] from trivial) h.linked hp).suffix hsuffix
  have hqascends := place_ascends (show Ascends [] from trivial) h.linked hq
  rw [hqa] at hqascends
  have habove := ascends_unique h.distinct hqascends hascends
    (place_above_components hq (by simp) fun _ hc => hc) upwards
  rw [← hqa, ← habove]
  exact hq

theorem client_iff (h : Spells trees components)
    (hroots : trees.map ComponentTree.id = rootIds components) (id : String) :
    id ∈ (Forest.ofComponents components).clientIds ↔
      (∃ c, (Forest.ofComponents components).find? id = some c ∧ c.isClient = true) ∨
        ∃ a ∈ (Forest.ofComponents components).ancestors id, a.isClient = true := by
  have at_place : ∀ p ∈ placesOf [] trees, p.onClient = true ↔
      (∃ c, (Forest.ofComponents components).find? p.id = some c ∧ c.isClient = true) ∨
        ∃ a ∈ (Forest.ofComponents components).ancestors p.id, a.isClient = true := by
    intro p hp
    have hfound : (Forest.ofComponents components).find? p.id = some p.component :=
      h.find?_iff.mpr ⟨place_mem hp, rfl⟩
    rw [h.ancestors hp, hfound, Place.onClient, List.any_cons, Bool.or_eq_true, List.any_eq_true]
    simp
  rw [h.clientIds hroots, List.mem_map]
  constructor
  · rintro ⟨p, hp, rfl⟩
    obtain ⟨hp, hclient⟩ := List.mem_filter.mp hp
    exact (at_place p hp).mp hclient
  · intro hclient
    cases hfound : (Forest.ofComponents components).find? id with
    | none => simp [Forest.ancestors, hfound, Forest.chainFrom] at hclient
    | some c =>
      obtain ⟨p, hp, _, rfl⟩ := h.exists_place_of_found hfound
      exact ⟨p, List.mem_filter.mpr ⟨hp, (at_place p hp).mpr hclient⟩, rfl⟩

theorem islandRoots_eq (h : Spells trees components)
    (hroots : trees.map ComponentTree.id = rootIds components) :
    (Forest.ofComponents components).islandRoots =
      (((Forest.ofComponents components).walk (rootIds components)).filter fun c =>
        c.isClient && !((Forest.ofComponents components).ancestors c.id).any
          Component.isClient).map Component.id := by
  rw [h.islandRoots hroots, h.walk hroots, List.filter_map, List.map_map]
  apply congrArg (List.map _)
  apply List.filter_congr
  intro p hp
  have above := h.ancestors hp
  rw [Place.id] at above
  simp only [Place.isIsland, Function.comp_apply, above]

/-- A component of the client side has one island at or above it. -/
theorem exists_unique_root (h : Spells trees components)
    (hroots : trees.map ComponentTree.id = rootIds components) {id : String}
    (hid : id ∈ (Forest.ofComponents components).clientIds) :
    ∃! root, root ∈ (Forest.ofComponents components).islandRoots ∧
      (root = id ∨ ∃ a ∈ (Forest.ofComponents components).ancestors id, a.id = root) := by
  rw [h.clientIds hroots] at hid
  obtain ⟨p, hp, rfl⟩ := List.mem_map.mp hid
  obtain ⟨hp, hclient⟩ := List.mem_filter.mp hp
  rw [h.ancestors hp]
  have on_chain : ∀ root, (root = p.id ∨ ∃ a ∈ p.above, a.id = root) ↔
      ∃ a ∈ p.component :: p.above, a.id = root := by
    intro root
    rw [List.exists_mem_cons_iff, Place.id, eq_comm]
  obtain ⟨a, up, hsuffix, ha, hup⟩ := exists_topmost hclient
  have hplace := h.place_of_suffix hp hsuffix
  refine ⟨a.id, ⟨?_, (on_chain a.id).mpr ⟨a, hsuffix.mem (by simp), rfl⟩⟩, ?_⟩
  · apply (h.mem_islandRoots hroots hplace).mpr
    simp only [Place.isIsland, ha, hup]
    rfl
  · rintro root ⟨hroot, hchain⟩
    obtain ⟨b, hb, rfl⟩ := (on_chain root).mp hchain
    obtain ⟨front, above, hsplit⟩ := List.append_of_mem hb
    have hbsuffix : (b :: above) <:+ (p.component :: p.above) := ⟨front, hsplit.symm⟩
    have hisland := (h.mem_islandRoots hroots (h.place_of_suffix hp hbsuffix)).mp hroot
    simp only [Place.isIsland, Bool.and_eq_true, Bool.not_eq_true'] at hisland
    rw [topmost_unique hbsuffix hsuffix hisland.1 hisland.2 ha hup]

end Spells

/-- The partition of a valid component list, made from its own report, divides it: client and server
ids are apart and follow the walk, the client ids are those with a browser component at or above
them, and each of these belongs to one island. -/
theorem partition_divides {components : List Component}
    (valid : componentViolations components = []) (preferServer : Bool) :
    let forest := Forest.ofComponents components
    (forest.partition (forest.classify forest.roots preferServer)).Divides forest components := by
  intro forest
  obtain ⟨trees, h, hroots⟩ := exists_trees_of_no_violations valid
  have ids : ((forest.walk forest.roots).map Component.id) = (placesOf [] trees).map Place.id :=
    h.walk_ids hroots
  have distinct : ((placesOf [] trees).map Place.id).Nodup :=
    ids ▸ Forest.walkFrom_ids_nodup components [] _
  have sides : (forest.clientIds ++ forest.serverIds).Perm ((placesOf [] trees).map Place.id) := by
    rw [h.clientIds hroots, h.serverIds hroots, ← List.map_append]
    exact (List.filter_append_perm _ _).map _
  rw [Forest.partition_classify]
  constructor
  · rw [ids, h.clientIds hroots]
    exact List.filter_sublist.map _
  · rw [ids, h.serverIds hroots]
    exact List.filter_sublist.map _
  · exact List.disjoint_of_nodup_append (sides.nodup_iff.mpr distinct)
  · intro c hc
    obtain ⟨p, hp, rfl⟩ := exists_place [] (h.listed.mem_iff.mp hc)
    rw [sides.count_eq]
    exact List.count_eq_one_of_mem distinct (List.mem_map_of_mem hp)
  · exact h.client_iff hroots
  · exact h.islandRoots_eq hroots
  · exact fun id hid => h.exists_unique_root hroots hid

namespace Sample

theorem partition_divides_box :
    componentViolations components = [] ∧
      let forest := Forest.ofComponents components
      let split := forest.partition (forest.classify forest.roots true)
      split.Divides forest components ∧ "lost" ∈ split.clientIds ∧ "box" ∉ split.clientIds := by
  have divides := partition_divides valid true
  have found : (Forest.ofComponents components).find? "lost" = some lost :=
    spells.find?_iff.mpr ⟨by simp [tree], rfl⟩
  have alone : (Forest.ofComponents components).ancestors "box" = [] :=
    spells.ancestors (p := ⟨box, []⟩) (by simp [tree])
  refine ⟨valid, divides, ?_, ?_⟩
  · exact (divides.client_iff "lost").mpr (.inl ⟨lost, found, by decide⟩)
  · intro hbox
    rcases (divides.client_iff "box").mp hbox with ⟨c, hc, hclient⟩ | ⟨a, ha, _⟩
    · obtain ⟨hmem, hid⟩ := spells.find?_iff.mp hc
      obtain rfl : c = box := eq_of_id spells.distinct hmem (by simp [tree]) hid
      exact absurd hclient (by decide)
    · simp [alone] at ha

end Sample

end Pagewright

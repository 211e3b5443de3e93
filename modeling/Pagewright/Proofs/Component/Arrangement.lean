import Pagewright.Page.Plan
import Pagewright.Proofs.Ordered.Sorted
import Pagewright.Proofs.Placement.Island

/-!
# Arrangement

The list in which components come has an order, and components have a place and flags
in the editor; neither belongs to the forest. Two forests are alike when they have the
same roots and find the same under every id, apart from what only the editor shows.
The walks over alike forests visit the same, and so placement, islands and statistics
do not depend on the arrangement.
-/

set_option autoImplicit false

namespace Pagewright

def Component.bare (c : Component) : Component :=
  { c with position := none, size := none, locked := false, hidden := false }

namespace Component

variable {α : Type} {read : Component → α}

/-- What is read off a component without regard to the editor is the same for bare components
that are equal. -/
theorem read_eq (hread : ∀ c, read c.bare = read c) {c d : Component} (h : c.bare = d.bare) :
    read c = read d := by
  rw [← hread c, h, hread d]

theorem map_read_eq (hread : ∀ c, read c.bare = read c) {cs ds : List Component}
    (h : cs.map bare = ds.map bare) : cs.map read = ds.map read := by
  have mapped := congrArg (List.map read) h
  simpa only [List.map_map, Function.comp_def, hread] using mapped

end Component

def Visit.bare (v : Visit) : Visit := ⟨v.component.bare, v.inside⟩

namespace Forest

structure Alike (f g : Forest) : Prop where
  roots : f.roots = g.roots
  found : ∀ id, (f.find? id).map Component.bare = (g.find? id).map Component.bare

variable {f g : Forest}

namespace Alike

theorem missing (h : f.Alike g) {id : String} (hf : f.find? id = none) : g.find? id = none := by
  have hid := h.found id
  rw [hf, Option.map_none] at hid
  exact Option.map_eq_none_iff.mp hid.symm

theorem exists_found (h : f.Alike g) {id : String} {c : Component} (hf : f.find? id = some c) :
    ∃ d, g.find? id = some d ∧ d.bare = c.bare := by
  have hid := h.found id
  rw [hf, Option.map_some] at hid
  exact Option.map_eq_some_iff.mp hid.symm

/-! ## Walks -/

theorem walkFrom (h : f.Alike g) (seen ids : List String) :
    (f.walkFrom seen ids).map Component.bare = (g.walkFrom seen ids).map Component.bare := by
  fun_induction Forest.walkFrom f seen ids with
  | case1 seen => rw [Forest.walkFrom]
  | case2 seen id pending old ih => rw [walkFrom_seen old, ih]
  | case3 seen id pending new found ih => rw [walkFrom_missing (h.missing found), ih]
  | case4 seen id pending new c found ih =>
    obtain ⟨d, hd, hbare⟩ := h.exists_found found
    have hids : d.childIds = c.childIds := Component.read_eq (fun _ => rfl) hbare
    rw [walkFrom_found new hd, List.map_cons, List.map_cons, hbare, hids, ih]

theorem visitsFrom (h : f.Alike g) (seen : List String) (pending : List (String × Bool)) :
    (f.visitsFrom seen pending).map Visit.bare = (g.visitsFrom seen pending).map Visit.bare := by
  fun_induction Forest.visitsFrom f seen pending with
  | case1 seen => rw [Forest.visitsFrom]
  | case2 seen id inside pending old ih => rw [visitsFrom_seen old, ih]
  | case3 seen id inside pending new found ih => rw [visitsFrom_missing (h.missing found), ih]
  | case4 seen id inside pending new c found visit ih =>
    obtain ⟨d, hd, hbare⟩ := h.exists_found found
    have hids : d.childIds = c.childIds := Component.read_eq (fun _ => rfl) hbare
    have hclient : d.isClient = c.isClient := Component.read_eq (fun _ => rfl) hbare
    have hvisit : Visit.bare ⟨d, inside⟩ = visit.bare := congrArg (Visit.mk · inside) hbare
    have hinside : Visit.onClient ⟨d, inside⟩ = visit.onClient := congrArg (inside || ·) hclient
    rw [visitsFrom_found new hd, List.map_cons, List.map_cons, hvisit, hids, hinside, ih]

theorem islandRoots (h : f.Alike g) : f.islandRoots = g.islandRoots := by
  have read : ∀ visits : List Visit,
      ((visits.map Visit.bare).filter fun v => v.component.isClient && !v.inside).map
        (fun v => v.component.id) =
      (visits.filter fun v => v.component.isClient && !v.inside).map (fun v => v.component.id) := by
    intro visits
    rw [List.filter_map, List.map_map]
    rfl
  have visits : f.visits.map Visit.bare = g.visits.map Visit.bare := by
    rw [Forest.visits, Forest.visits, h.roots]
    exact h.visitsFrom [] _
  rw [Forest.islandRoots, Forest.islandRoots, ← read, visits, read]

/-- The children that exist are as many, so that an element is empty in both or in neither. -/
theorem children_isEmpty (h : f.Alike g) (c : Component) :
    (f.children c).isEmpty = (g.children c).isEmpty := by
  have same : (f.children c).map Component.bare = (g.children c).map Component.bare := by
    rw [children, children, List.map_filterMap, List.map_filterMap]
    simp only [h.found]
  have emptied := congrArg List.isEmpty same
  rwa [List.isEmpty_map, List.isEmpty_map] at emptied

end Alike

/-! ## Placement and statistics -/

/-- What a placement report says apart from the components themselves. -/
theorem Alike.classify (h : f.Alike g) (ids : List String) (preferServer : Bool) :
    (f.classify ids preferServer).page = (g.classify ids preferServer).page ∧
    (f.classify ids preferServer).clientCount = (g.classify ids preferServer).clientCount ∧
    (f.classify ids preferServer).serverCount = (g.classify ids preferServer).serverCount := by
  have clients : (f.walk ids).map Component.isClient = (g.walk ids).map Component.isClient :=
    Component.map_read_eq (fun _ => rfl) (h.walkFrom [] ids)
  have servers : (f.walk ids).map (fun c => !c.isClient) =
      (g.walk ids).map (fun c => !c.isClient) :=
    Component.map_read_eq (fun _ => rfl) (h.walkFrom [] ids)
  have any := congrArg (List.any · id) clients
  have clientCounts := congrArg (List.countP id) clients
  have serverCounts := congrArg (List.countP id) servers
  simp only [List.any_map, List.countP_map, Function.id_comp] at any clientCounts serverCounts
  refine ⟨?_, clientCounts, serverCounts⟩
  simp only [Forest.classify, any]

theorem components_ofComponents {components : List Component}
    (hn : (components.map Component.id).Nodup) :
    (ofComponents components).components = components := by
  have entries : (ofComponents components).nodes.entries = components.map fun c => (c.id, c) := by
    apply OrderedMap.entries_ofList
    simpa [Function.comp_def] using hn
  rw [Forest.components, OrderedMap.values, entries, List.map_map]
  exact List.map_id _

theorem size_ofComponents {components : List Component}
    (hn : (components.map Component.id).Nodup) :
    (ofComponents components).size = components.length := by
  have values := congrArg List.length (components_ofComponents hn)
  rwa [Forest.components, OrderedMap.values, List.length_map] at values

end Forest

structure Reordered (a b : List Component) : Prop where
  listed : (a.map Component.bare).Perm (b.map Component.bare)
  roots : rootIds a = rootIds b

namespace Reordered

variable {a b : List Component}

theorem symm (h : Reordered a b) : Reordered b a := ⟨h.listed.symm, h.roots.symm⟩

theorem ids (h : Reordered a b) : (a.map Component.id).Perm (b.map Component.id) := by
  have mapped := h.listed.map Component.id
  rwa [List.map_map, List.map_map] at mapped

theorem exists_found (h : Reordered a b) (hn : (b.map Component.id).Nodup) {id : String}
    {c : Component} (hc : (Forest.ofComponents a).find? id = some c) :
    ∃ d, (Forest.ofComponents b).find? id = some d ∧ d.bare = c.bare := by
  obtain ⟨hmem, rfl⟩ := Forest.mem_of_find?_ofComponents hc
  obtain ⟨d, hd, hbare⟩ := List.mem_map.mp (h.listed.subset (List.mem_map_of_mem hmem))
  have hid : d.id = c.id := Component.read_eq (fun _ => rfl) hbare
  exact ⟨d, (Forest.find?_ofComponents_iff hn).mpr ⟨hd, hid⟩, hbare⟩

theorem alike (h : Reordered a b) (hn : (a.map Component.id).Nodup) :
    (Forest.ofComponents a).Alike (Forest.ofComponents b) := by
  refine ⟨h.roots, fun id => ?_⟩
  cases ha : (Forest.ofComponents a).find? id with
  | some c =>
    obtain ⟨d, hd, hbare⟩ := h.exists_found (h.ids.nodup hn) ha
    rw [hd, Option.map_some, Option.map_some, hbare]
  | none =>
    cases hb : (Forest.ofComponents b).find? id with
    | none => rfl
    | some d =>
      obtain ⟨c, hc, _⟩ := h.symm.exists_found hn hb
      rw [ha] at hc
      cases hc

theorem statistics (h : Reordered a b) (hn : (a.map Component.id).Nodup) (ids : List String)
    (preferServer : Bool) :
    (Forest.ofComponents a).statistics ((Forest.ofComponents a).classify ids preferServer) =
      (Forest.ofComponents b).statistics ((Forest.ofComponents b).classify ids preferServer) := by
  obtain ⟨_, clients, servers⟩ := (h.alike hn).classify ids preferServer
  have kinds : (a.map Component.kind).Perm (b.map Component.kind) := by
    have mapped := h.listed.map Component.kind
    rwa [List.map_map, List.map_map] at mapped
  have total : a.length = b.length := by simpa using h.listed.length_eq
  simp only [Forest.statistics, clients, servers, Forest.size_ofComponents hn,
    Forest.size_ofComponents (h.ids.nodup hn), total,
    Forest.components_ofComponents hn, Forest.components_ofComponents (h.ids.nodup hn),
    Sorted.tally_perm kinds]

end Reordered

end Pagewright

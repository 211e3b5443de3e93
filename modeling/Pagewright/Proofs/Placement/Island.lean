import Pagewright.Placement.Island
import Pagewright.Proofs.Component.Validity

/-!
# Islands of valid forests

On a valid component list the walk that looks for islands visits every component at
its place in the trees and knows whether something above it runs in the browser. So
the islands are the browser components with none above them, and what one reaches
from the roots without entering an island runs on the server.
-/

set_option autoImplicit false

namespace Pagewright

open ComponentTree

namespace Place

def visit (p : Place) : Visit := ⟨p.component, p.above.any Component.isClient⟩

def isIsland (p : Place) : Bool := p.component.isClient && !p.above.any Component.isClient

def id (p : Place) : String := p.component.id

end Place

namespace Forest

theorem visitsFrom_seen {forest : Forest} {seen : List String} {id : String} (h : id ∈ seen)
    (inside : Bool) (pending : List (String × Bool)) :
    forest.visitsFrom seen ((id, inside) :: pending) = forest.visitsFrom seen pending := by
  rw [visitsFrom, dif_pos h]

theorem visitsFrom_missing {forest : Forest} {seen : List String} {id : String}
    (h : forest.find? id = none) (inside : Bool) (pending : List (String × Bool)) :
    forest.visitsFrom seen ((id, inside) :: pending) = forest.visitsFrom seen pending := by
  rw [visitsFrom]
  split
  · rfl
  · split
    · rfl
    · rename_i c hc
      rw [h] at hc
      cases hc

theorem visitsFrom_found {forest : Forest} {seen : List String} {id : String} {c : Component}
    (hnew : id ∉ seen) (h : forest.find? id = some c) (inside : Bool)
    (pending : List (String × Bool)) :
    forest.visitsFrom seen ((id, inside) :: pending) =
      ⟨c, inside⟩ :: forest.visitsFrom (id :: seen)
        (c.childIds.map (fun child => (child, (⟨c, inside⟩ : Visit).onClient)) ++ pending) := by
  rw [visitsFrom]
  simp only [hnew, dite_false]
  split
  · rename_i hnone
    rw [h] at hnone
    cases hnone
  · rename_i d hd
    rw [h] at hd
    cases hd
    rfl

theorem chainFrom_found {forest : Forest} {seen : List String} {id : String} {c : Component}
    (hnew : id ∉ seen) (h : forest.find? id = some c) :
    forest.chainFrom seen (some id) = c :: forest.chainFrom (id :: seen) c.parentId := by
  rw [chainFrom]
  simp only [hnew, dite_false]
  split
  · rename_i hnone
    rw [h] at hnone
    cases hnone
  · rename_i d hd
    rw [h] at hd
    cases hd
    rfl

end Forest

namespace ComponentTree

theorem place_of_root (above : List Component) {trees : List ComponentTree} {t : ComponentTree}
    (ht : t ∈ trees) : ⟨t.root, above⟩ ∈ placesOf above trees := by
  induction trees with
  | nil => simp at ht
  | cons s rest ih =>
    obtain ⟨c, children⟩ := s
    rcases List.mem_cons.mp ht with rfl | hrest
    · simp [root]
    · simp [ih hrest]

/-- A listed child stands right below the component that lists it. -/
theorem place_child {parent : Option String} {above : List Component} {trees : List ComponentTree}
    (h : LinkedBelow parent trees) {p : Place} (hp : p ∈ placesOf above trees) {k : String}
    (hk : k ∈ p.component.childIds) :
    ∃ d, d.id = k ∧ ⟨d, p.component :: p.above⟩ ∈ placesOf above trees := by
  induction trees using siblings_induction generalizing parent above with
  | nil => simp at hp
  | cons c children rest ihc ihr =>
    obtain ⟨_, hids, hchildren, hrest⟩ := linkedBelow_cons.mp h
    simp only [placesOf_cons, List.mem_cons, List.mem_append] at hp ⊢
    rcases hp with rfl | hp | hp
    · obtain ⟨t, ht, rfl⟩ := List.mem_map.mp (hids ▸ hk)
      exact ⟨t.root, rfl, .inr (.inl (place_of_root _ ht))⟩
    · obtain ⟨d, hid, hd⟩ := ihc hchildren hp
      exact ⟨d, hid, .inr (.inl hd)⟩
    · obtain ⟨d, hid, hd⟩ := ihr hrest hp
      exact ⟨d, hid, .inr (.inr hd)⟩

/-- The island walk over some siblings visits their places in order, then goes on with what was
pending. -/
theorem visitsFrom_siblings (forest : Forest) {parent : Option String} (above : List Component)
    (trees : List ComponentTree) (seen : List String) (pending : List (String × Bool))
    (h : LinkedBelow parent trees)
    (hfound : ∀ c ∈ componentsOf trees, forest.find? c.id = some c)
    (hn : ((componentsOf trees).map Component.id).Nodup)
    (hnew : ∀ c ∈ componentsOf trees, c.id ∉ seen) :
    forest.visitsFrom seen
        (trees.map (fun t => (t.id, above.any Component.isClient)) ++ pending) =
      (placesOf above trees).map Place.visit ++
        forest.visitsFrom (((componentsOf trees).map Component.id).reverse ++ seen) pending := by
  induction trees using siblings_induction generalizing parent above seen pending with
  | nil => simp
  | cons c children rest ihc ihr =>
    obtain ⟨_, hids, hchildren, hrest⟩ := linkedBelow_cons.mp h
    simp only [componentsOf_cons, List.map_cons, List.map_append, List.nodup_cons,
      List.nodup_append, List.mem_cons, List.mem_append] at hfound hn hnew
    obtain ⟨hc, hnc, hnr, hdisjoint⟩ := hn
    have inside : (c :: above).any Component.isClient =
        (⟨c, above.any Component.isClient⟩ : Visit).onClient := by
      simp [Visit.onClient, Bool.or_comm]
    have step : forest.visitsFrom seen
        ((c.id, above.any Component.isClient) ::
          (rest.map (fun t => (t.id, above.any Component.isClient)) ++ pending)) =
        (⟨c, above.any Component.isClient⟩ : Visit) :: forest.visitsFrom (c.id :: seen)
          (children.map (fun t => (t.id, (c :: above).any Component.isClient)) ++
            (rest.map (fun t => (t.id, above.any Component.isClient)) ++ pending)) := by
      rw [Forest.visitsFrom_found (hnew c (.inl rfl)) (hfound c (.inl rfl)), hids, inside,
        List.map_map]
      rfl
    have freshChildren : ∀ d ∈ componentsOf children, d.id ∉ c.id :: seen := by
      intro d hd
      simp only [List.mem_cons, not_or]
      exact ⟨fun heq => hc (.inl (heq ▸ List.mem_map_of_mem hd)), hnew d (.inr (.inl hd))⟩
    have freshRest : ∀ d ∈ componentsOf rest,
        d.id ∉ ((componentsOf children).map Component.id).reverse ++ c.id :: seen := by
      intro d hd
      simp only [List.mem_append, List.mem_reverse, List.mem_cons, not_or]
      refine ⟨fun hm => hdisjoint _ hm _ (List.mem_map_of_mem hd) rfl, ?_, hnew d (.inr (.inr hd))⟩
      exact fun heq => hc (.inr (heq ▸ List.mem_map_of_mem hd))
    rw [List.map_cons, List.cons_append, id_node, step,
      ihc (c :: above) _ _ hchildren (fun d hd => hfound d (.inr (.inl hd))) hnc freshChildren,
      ihr above _ _ hrest (fun d hd => hfound d (.inr (.inr hd))) hnr freshRest]
    simp [Place.visit]

end ComponentTree

namespace Forest

/-- The chain of parents runs through an ascending list. -/
theorem chainFrom_ascends (forest : Forest) (seen : List String) {above : List Component}
    (h : Ascends above) (hfound : ∀ c ∈ above, forest.find? c.id = some c)
    (hn : (above.map Component.id).Nodup) (hnew : ∀ c ∈ above, c.id ∉ seen) :
    forest.chainFrom seen (above.head?.map Component.id) = above := by
  induction above generalizing seen with
  | nil => rw [List.head?_nil, Option.map_none, chainFrom]
  | cons c up ih =>
    obtain ⟨hc, hup⟩ := List.nodup_cons.mp hn
    have rest : forest.chainFrom (c.id :: seen) c.parentId = up := by
      rw [h.1]
      refine ih _ h.2 (fun d hd => hfound d (by simp [hd])) hup ?_
      intro d hd
      simp only [List.mem_cons, not_or]
      exact ⟨fun heq => hc (heq ▸ List.mem_map_of_mem hd), hnew d (by simp [hd])⟩
    rw [List.head?_cons, Option.map_some,
      chainFrom_found (hnew c (by simp)) (hfound c (by simp)), rest]

end Forest

namespace Spells

variable {trees : List ComponentTree} {components : List Component}

theorem visits (h : Spells trees components)
    (hroots : trees.map ComponentTree.id = rootIds components) :
    (Forest.ofComponents components).visits = (placesOf [] trees).map Place.visit := by
  have hwalk := visitsFrom_siblings (Forest.ofComponents components) [] trees [] [] h.linked
    (fun c hc => h.find?_iff.mpr ⟨hc, rfl⟩) h.distinct (by simp)
  have hstart : (Forest.ofComponents components).roots = trees.map ComponentTree.id := hroots.symm
  rw [Forest.visits, hstart, List.map_map]
  simpa [Function.comp_def, Forest.visitsFrom] using hwalk

theorem islandRoots (h : Spells trees components)
    (hroots : trees.map ComponentTree.id = rootIds components) :
    (Forest.ofComponents components).islandRoots =
      ((placesOf [] trees).filter Place.isIsland).map Place.id := by
  rw [Forest.islandRoots, h.visits hroots, List.filter_map, List.map_map]
  rfl

theorem ancestors (h : Spells trees components) {p : Place} (hp : p ∈ placesOf [] trees) :
    (Forest.ofComponents components).ancestors p.id = p.above := by
  have hup := place_ascends (show Ascends [] from trivial) h.linked hp
  have hmem : ∀ c ∈ p.above, c ∈ componentsOf trees :=
    place_above_components hp (by simp) fun _ hc => hc
  have hnodup : (p.above.map Component.id).Nodup :=
    (hup.2.nodup h.distinct hmem).map_on fun a ha b hb => eq_of_id h.distinct (hmem a ha) (hmem b hb)
  have hself : (Forest.ofComponents components).find? p.id = some p.component :=
    h.find?_iff.mpr ⟨place_mem hp, rfl⟩
  rw [Forest.ancestors, hself, Option.bind_some, hup.1]
  exact Forest.chainFrom_ascends _ [] hup.2 (fun c hc => h.find?_iff.mpr ⟨hmem c hc, rfl⟩)
    hnodup (by simp)

theorem islandRoots_nodup (h : Spells trees components)
    (hroots : trees.map ComponentTree.id = rootIds components) :
    (Forest.ofComponents components).islandRoots.Nodup := by
  have hids : (placesOf [] trees).map Place.id = (componentsOf trees).map Component.id := by
    rw [← places_components [] trees, List.map_map]
    rfl
  rw [h.islandRoots hroots]
  exact (List.filter_sublist.map _).nodup (hids ▸ h.distinct)

theorem mem_islandRoots (h : Spells trees components)
    (hroots : trees.map ComponentTree.id = rootIds components) {p : Place}
    (hp : p ∈ placesOf [] trees) :
    p.id ∈ (Forest.ofComponents components).islandRoots ↔ p.isIsland = true := by
  rw [h.islandRoots hroots]
  constructor
  · intro hid
    obtain ⟨q, hq, hqid⟩ := List.mem_map.mp hid
    obtain ⟨hq, hisland⟩ := List.mem_filter.mp hq
    have hcomponent : q.component = p.component :=
      eq_of_id h.distinct (place_mem hq) (place_mem hp) hqid
    have habove : q.above = p.above := by rw [← h.ancestors hq, hqid, h.ancestors hp]
    rwa [Place.isIsland, hcomponent, habove] at hisland
  · intro hisland
    exact List.mem_map_of_mem (List.mem_filter.mpr ⟨hp, hisland⟩)

/-- From the roots one meets no browser component before an island. -/
theorem server_outside_islands (h : Spells trees components)
    (hroots : trees.map ComponentTree.id = rootIds components) {avoid : List String}
    (havoid : ∀ id ∈ (Forest.ofComponents components).islandRoots, id ∈ avoid) {c : Component}
    (hc : (Forest.ofComponents components).Reaches avoid (rootIds components) c) :
    c.isClient = false := by
  -- a place that is no island, with nothing of the browser above it, is itself on the server
  have outside : ∀ p ∈ placesOf [] trees, p.id ∉ avoid →
      p.above.any Component.isClient = false → p.component.isClient = false := by
    intro p hp hfree habove
    by_contra hclient
    apply hfree
    apply havoid
    rw [h.islandRoots hroots]
    refine List.mem_map.mpr ⟨p, List.mem_filter.mpr ⟨hp, ?_⟩, rfl⟩
    rw [Bool.not_eq_false] at hclient
    simp [Place.isIsland, habove, hclient]
  have quiet : ∃ p ∈ placesOf [] trees, p.component = c ∧
      p.above.any Component.isClient = false ∧ c.isClient = false := by
    refine hc.all (P := fun c => ∃ p ∈ placesOf [] trees, p.component = c ∧
      p.above.any Component.isClient = false ∧ c.isClient = false) ?_ ?_
    · intro id hid hfree d hfound
      obtain ⟨t, ht, rfl⟩ := List.mem_map.mp (hroots ▸ hid)
      obtain ⟨hd, hdid⟩ := h.find?_iff.mp hfound
      have hroot : d = t.root := eq_of_id h.distinct hd (linked_root h.linked ht).1 hdid
      subst hroot
      have hp := place_of_root [] ht
      exact ⟨_, hp, rfl, rfl, outside _ hp hfree rfl⟩
    · rintro d ⟨p, hp, rfl, habove, hserver⟩ k hk hfree e hfound
      obtain ⟨e', rfl, hq⟩ := place_child h.linked hp hk
      obtain ⟨he, heid⟩ := h.find?_iff.mp hfound
      have heq : e = e' := eq_of_id h.distinct he (place_mem hq) heid
      subst heq
      have hquiet : (p.component :: p.above).any Component.isClient = false := by
        rw [List.any_cons, hserver, habove]
        rfl
      exact ⟨_, hq, rfl, hquiet, outside _ hq hfree hquiet⟩
  obtain ⟨_, _, _, _, hserver⟩ := quiet
  exact hserver

end Spells

end Pagewright

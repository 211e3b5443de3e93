import Pagewright.Component.Validation
import Pagewright.Proofs.Component.Tree
import Pagewright.Proofs.Text.Blank

/-!
# Valid component lists

A component list has no violation exactly when it is a reordering of the components
of an ordered forest. The rules are checked one by one and know nothing of trees;
`Coherent` collects what their silence means. From there the trees are grown from
the roots: on the way down the components above are pairwise distinct, so that the
length of the list bounds the depth, and parent pointers keep siblings apart.
-/

set_option autoImplicit false

namespace Pagewright

open ComponentTree

structure Spells (trees : List ComponentTree) (components : List Component) : Prop where
  nonempty : trees ≠ []
  linked : LinkedBelow none trees
  named : ∀ c ∈ componentsOf trees, Text.trim c.id ≠ ""
  distinct : ((componentsOf trees).map Component.id).Nodup
  listed : components.Perm (componentsOf trees)

structure Coherent (components : List Component) : Prop where
  named : ∀ c ∈ components, Text.isBlank c.id = false
  distinct : (components.map Component.id).Nodup
  rooted : rootIds components ≠ []
  ownedOnce : (components.flatMap Component.childIds).Nodup
  backed : ∀ c ∈ components, ∀ k ∈ c.childIds,
    ∃ d ∈ components, d.id = k ∧ d.parentId = some c.id
  claimed : ∀ c ∈ components, c.parentId ≠ none → ∃ owner ∈ components, c.id ∈ owner.childIds
  reached : ∀ c ∈ components, (Forest.ofComponents components).Reaches [] (rootIds components) c

/-! ## The single rules -/

theorem idViolations_eq_nil_iff (seen : List String) (components : List Component) :
    idViolations seen components = [] ↔
      (∀ c ∈ components, Text.isBlank c.id = false ∧ c.id ∉ seen) ∧
        (components.map Component.id).Nodup := by
  induction components generalizing seen with
  | nil => simp [idViolations]
  | cons c rest ih =>
    by_cases hblank : Text.isBlank c.id = true
    · simp [idViolations, hblank]
    · by_cases hseen : c.id ∈ seen
      · simp [idViolations, hblank, hseen]
      · have step : idViolations seen (c :: rest) = idViolations (c.id :: seen) rest := by
          simp [idViolations, hblank, hseen]
        rw [step, ih, List.map_cons, List.nodup_cons]
        constructor
        · rintro ⟨hall, hn⟩
          refine ⟨?_, ?_, hn⟩
          · intro d hd
            rcases List.mem_cons.mp hd with rfl | hd
            · exact ⟨by simpa using hblank, hseen⟩
            · exact ⟨(hall d hd).1, fun h => (hall d hd).2 (List.mem_cons_of_mem _ h)⟩
          · intro hc
            obtain ⟨d, hd, hid⟩ := List.mem_map.mp hc
            exact (hall d hd).2 (by simp [hid])
        · rintro ⟨hall, hnew, hn⟩
          refine ⟨?_, hn⟩
          intro d hd
          obtain ⟨hb, hs⟩ := hall d (List.mem_cons_of_mem _ hd)
          refine ⟨hb, ?_⟩
          simp only [List.mem_cons, not_or]
          exact ⟨fun h => hnew (h ▸ List.mem_map_of_mem hd), hs⟩

theorem pointerViolations_eq_nil_iff (entry : Listing) (child : Component) :
    pointerViolations entry child = [] ↔ child.parentId = some entry.owner := by
  unfold pointerViolations
  cases child.parentId with
  | none => simp
  | some parent => by_cases h : parent = entry.owner <;> simp [h]

/-- Every listed child exists, is listed once and points back at its owner. -/
theorem ownerViolations_eq_nil_iff (forest : Forest) (owners : List (String × String))
    (entries : List Listing) :
    ownerViolations forest owners entries = [] ↔
      (∀ entry ∈ entries, entry.child ∉ owners.map Prod.fst ∧
        ∃ child, forest.find? entry.child = some child ∧ child.parentId = some entry.owner) ∧
      (entries.map Listing.child).Nodup := by
  induction entries generalizing owners with
  | nil => simp [ownerViolations]
  | cons entry rest ih =>
    cases hfind : forest.find? entry.child with
    | none => simp [ownerViolations, hfind]
    | some child =>
      cases howned : lookup entry.child owners with
      | some first =>
        have hmem : entry.child ∈ owners.map Prod.fst :=
          List.mem_map.mpr ⟨_, mem_of_lookup howned, rfl⟩
        simp only [ownerViolations, hfind, howned]
        constructor
        · intro h
          cases h
        · rintro ⟨hall, _⟩
          exact absurd hmem (hall entry (by simp)).1
      | none =>
        have hfree : entry.child ∉ owners.map Prod.fst := lookup_eq_none_iff.mp howned
        simp only [ownerViolations, hfind, howned, List.append_eq_nil_iff,
          pointerViolations_eq_nil_iff, ih, List.map_cons, List.nodup_cons]
        constructor
        · rintro ⟨hback, hall, hn⟩
          refine ⟨?_, ?_, hn⟩
          · intro e he
            rcases List.mem_cons.mp he with rfl | he
            · exact ⟨hfree, child, hfind, hback⟩
            · exact ⟨fun h => (hall e he).1 (List.mem_cons_of_mem _ h), (hall e he).2⟩
          · intro hm
            obtain ⟨e, he, hid⟩ := List.mem_map.mp hm
            exact (hall e he).1 (by simp [hid])
        · rintro ⟨hall, hnew, hn⟩
          obtain ⟨_, child', hfind', hback⟩ := hall entry (by simp)
          refine ⟨?_, ?_, hn⟩
          · rw [hfind] at hfind'
            cases hfind'
            exact hback
          · intro e he
            obtain ⟨hs, hchild⟩ := hall e (List.mem_cons_of_mem _ he)
            refine ⟨?_, hchild⟩
            simp only [List.mem_cons, not_or]
            exact ⟨fun h => hnew (h ▸ List.mem_map_of_mem he), hs⟩

theorem parentViolation_eq_none_iff (forest : Forest) (owned : List String) (c : Component) :
    parentViolation forest owned c = none ↔
      ∀ parent, c.parentId = some parent → forest.contains parent = true ∧ c.id ∈ owned := by
  unfold parentViolation
  cases c.parentId with
  | none => simp
  | some parent =>
    by_cases hp : forest.contains parent = true <;> by_cases ho : c.id ∈ owned <;> simp [hp, ho]

theorem reachViolation_eq_none_iff (reached owned : List String) (c : Component) :
    reachViolation reached owned c = none ↔
      Text.isBlank c.id = true ∨ c.id ∈ reached ∨ c.id ∉ owned := by
  unfold reachViolation
  by_cases hb : Text.isBlank c.id = true <;> by_cases hr : c.id ∈ reached <;>
    by_cases ho : c.id ∈ owned <;> simp [hb, hr, ho]

theorem listings_children (components : List Component) :
    (listings components).map Listing.child = components.flatMap Component.childIds := by
  simp [listings, List.map_flatMap, List.map_map, Function.comp_def]

theorem mem_rootIds {components : List Component} {id : String} :
    id ∈ rootIds components ↔ ∃ c ∈ components, c.parentId = none ∧ c.id = id := by
  simp [rootIds, Component.isRoot, and_assoc]

theorem namedForest_of_named {components : List Component}
    (h : ∀ c ∈ components, Text.isBlank c.id = false) :
    namedForest components = Forest.ofComponents components := by
  rw [namedForest, List.filter_eq_self.mpr]
  intro c hc
  simp [h c hc]

theorem componentViolations_eq_nil_iff {components : List Component} :
    componentViolations components = [] ↔ components ≠ [] ∧
      idViolations [] components = [] ∧ rootIds components ≠ [] ∧
      ownerViolations (namedForest components) [] (listings components) = [] ∧
      (∀ c ∈ components,
        parentViolation (namedForest components) (owned (namedForest components) components) c =
          none) ∧
      ∀ c ∈ components, reachViolation
        (((namedForest components).walk (rootIds components)).map Component.id)
        (owned (namedForest components) components) c = none := by
  cases components with
  | nil => simp [componentViolations]
  | cons c rest =>
    by_cases hroot : rootIds (c :: rest) = [] <;>
      simp [componentViolations, List.filterMap_eq_nil_iff, hroot, and_assoc]

section Lookup

variable {components : List Component}

theorem mem_owned_iff (hn : (components.map Component.id).Nodup) {c : Component}
    (hc : c ∈ components) :
    c.id ∈ owned (Forest.ofComponents components) components ↔
      ∃ owner ∈ components, c.id ∈ owner.childIds := by
  have hfound : (Forest.ofComponents components).contains c.id = true := by
    rw [Forest.contains, OrderedMap.contains, Option.isSome_iff_exists]
    exact ⟨c, (Forest.find?_ofComponents_iff hn).mpr ⟨hc, rfl⟩⟩
  rw [owned, listings_children, List.mem_filter, List.mem_flatMap]
  simp [hfound]

theorem mem_walk_ids_iff (hn : (components.map Component.id).Nodup) (ids : List String)
    {c : Component} (hc : c ∈ components) :
    c.id ∈ ((Forest.ofComponents components).walk ids).map Component.id ↔
      (Forest.ofComponents components).Reaches [] ids c := by
  rw [← Forest.mem_walk_iff, List.mem_map]
  constructor
  · rintro ⟨d, hd, hid⟩
    obtain ⟨_, _, found⟩ := ((Forest.mem_walk_iff _ _ _).mp hd).exists_found
    rwa [← eq_of_id hn (Forest.mem_of_find?_ofComponents found).1 hc hid]
  · exact fun h => ⟨c, h, rfl⟩

end Lookup

theorem coherent_of_no_violations {components : List Component}
    (h : componentViolations components = []) : Coherent components := by
  obtain ⟨_, hids, hroots, howners, hparents, hreach⟩ := componentViolations_eq_nil_iff.mp h
  obtain ⟨hnamed, hdistinct⟩ := (idViolations_eq_nil_iff [] components).mp hids
  have named : ∀ c ∈ components, Text.isBlank c.id = false := fun c hc => (hnamed c hc).1
  rw [namedForest_of_named named] at howners hparents hreach
  obtain ⟨hlisted, honce⟩ := (ownerViolations_eq_nil_iff _ _ _).mp howners
  rw [listings_children] at honce
  have claimed : ∀ c ∈ components, c.parentId ≠ none →
      ∃ owner ∈ components, c.id ∈ owner.childIds := by
    intro c hc hparent
    obtain ⟨parent, hp⟩ := Option.ne_none_iff_exists'.mp hparent
    have hown := ((parentViolation_eq_none_iff _ _ c).mp (hparents c hc) parent hp).2
    exact (mem_owned_iff hdistinct hc).mp hown
  refine ⟨named, hdistinct, hroots, honce, ?_, claimed, ?_⟩
  · intro c hc k hk
    have hentry : (⟨c.id, k⟩ : Listing) ∈ listings components :=
      List.mem_flatMap.mpr ⟨c, hc, List.mem_map.mpr ⟨k, hk, rfl⟩⟩
    obtain ⟨_, d, hfound, hback⟩ := hlisted _ hentry
    obtain ⟨hd, hid⟩ := Forest.mem_of_find?_ofComponents hfound
    exact ⟨d, hd, hid, hback⟩
  · intro c hc
    by_cases hroot : c.parentId = none
    · exact .start (mem_rootIds.mpr ⟨c, hc, hroot, rfl⟩) (by simp)
        ((Forest.find?_ofComponents_iff hdistinct).mpr ⟨hc, rfl⟩)
    · rcases (reachViolation_eq_none_iff _ _ c).mp (hreach c hc) with hb | hr | ho
      · rw [named c hc] at hb
        cases hb
      · exact (mem_walk_ids_iff hdistinct _ hc).mp hr
      · exact absurd ((mem_owned_iff hdistinct hc).mpr (claimed c hc hroot)) ho

theorem no_violations_of_coherent {components : List Component} (h : Coherent components) :
    componentViolations components = [] := by
  rw [componentViolations_eq_nil_iff, namedForest_of_named h.named]
  have found : ∀ {c : Component}, c ∈ components →
      (Forest.ofComponents components).find? c.id = some c :=
    fun hc => (Forest.find?_ofComponents_iff h.distinct).mpr ⟨hc, rfl⟩
  refine ⟨?_, ?_, h.rooted, ?_, ?_, ?_⟩
  · rintro rfl
    exact h.rooted rfl
  · exact (idViolations_eq_nil_iff [] _).mpr ⟨fun c hc => ⟨h.named c hc, by simp⟩, h.distinct⟩
  · refine (ownerViolations_eq_nil_iff _ _ _).mpr ⟨?_, listings_children components ▸ h.ownedOnce⟩
    intro entry he
    obtain ⟨c, hc, hlist⟩ := List.mem_flatMap.mp he
    obtain ⟨k, hk, rfl⟩ := List.mem_map.mp hlist
    obtain ⟨d, hd, rfl, hback⟩ := h.backed c hc k hk
    exact ⟨by simp, d, found hd, hback⟩
  · intro c hc
    refine (parentViolation_eq_none_iff _ _ c).mpr fun parent hp => ?_
    obtain ⟨owner, ho, hlist⟩ := h.claimed c hc (by simp [hp])
    obtain ⟨d, hd, hid, hback⟩ := h.backed owner ho c.id hlist
    rw [eq_of_id h.distinct hd hc hid, hp] at hback
    refine ⟨?_, (mem_owned_iff h.distinct hc).mpr ⟨owner, ho, hlist⟩⟩
    rw [Forest.contains, OrderedMap.contains, Option.isSome_iff_exists]
    exact ⟨owner, Option.some.inj hback ▸ found ho⟩
  · intro c hc
    exact (reachViolation_eq_none_iff _ _ c).mpr
      (.inr (.inl ((mem_walk_ids_iff h.distinct _ hc).mpr (h.reached c hc))))

/-- The walk from the roots visits every component once. -/
theorem Coherent.walk_perm {components : List Component} (h : Coherent components) :
    ((Forest.ofComponents components).walk (rootIds components)).Perm components := by
  have once : ((Forest.ofComponents components).walk (rootIds components)).Nodup :=
    List.Nodup.of_map _ (Forest.walkFrom_ids_nodup components [] _)
  rw [List.perm_ext_iff_of_nodup once (List.Nodup.of_map _ h.distinct)]
  intro c
  rw [Forest.mem_walk_iff]
  constructor
  · intro hc
    obtain ⟨_, _, found⟩ := hc.exists_found
    exact (Forest.mem_of_find?_ofComponents found).1
  · exact h.reached c

/-! ## From rules to trees -/

theorem Coherent.childIds_nodup {components : List Component} (h : Coherent components) :
    ∀ c ∈ components, c.childIds.Nodup :=
  (List.nodup_flatMap.mp h.ownedOnce).1

theorem Coherent.ascends_length {components : List Component} (h : Coherent components)
    {a : List Component} (ha : Ascends a) (hm : ∀ x ∈ a, x ∈ components) :
    a.length ≤ components.length :=
  (List.subperm_of_subset (ha.nodup h.distinct hm) hm).length_le

/-- Trees with given roots exist below any ascending list. Going down lengthens that list, and it
is never longer than the component list. -/
theorem Coherent.grow {components : List Component} (h : Coherent components) (room : Nat)
    (above : List Component) (ids : List String) (ha : Ascends above)
    (hm : ∀ x ∈ above, x ∈ components) (hroom : components.length ≤ above.length + room)
    (hids : ∀ k ∈ ids, ∃ d ∈ components, d.id = k ∧
      d.parentId = above.head?.map Component.id) :
    ∃ trees, trees.map ComponentTree.id = ids ∧
      LinkedBelow (above.head?.map Component.id) trees ∧
      ∀ x ∈ componentsOf trees, x ∈ components := by
  induction room generalizing above ids with
  | zero =>
    cases ids with
    | nil => exact ⟨[], rfl, trivial, by simp⟩
    | cons k rest =>
      obtain ⟨d, hd, _, hback⟩ := hids k (by simp)
      have hlen := h.ascends_length (a := d :: above) ⟨hback, ha⟩ (by simpa [hd] using hm)
      simp only [List.length_cons] at hlen
      omega
  | succ room ihroom =>
    induction ids with
    | nil => exact ⟨[], rfl, trivial, by simp⟩
    | cons k rest ihrest =>
      obtain ⟨trees, htrees, hlinked, hmem⟩ := ihrest fun j hj => hids j (by simp [hj])
      obtain ⟨d, hd, rfl, hback⟩ := hids k (by simp)
      obtain ⟨children, hchildren, hbelow, hmemc⟩ := ihroom (d :: above) d.childIds
        ⟨hback, ha⟩ (by simpa [hd] using hm)
        (by simp only [List.length_cons]; omega)
        (by simpa using h.backed d hd)
      refine ⟨.node d children :: trees, by simp [htrees], ?_, ?_⟩
      · exact linkedBelow_cons.mpr ⟨hback, hchildren.symm, hbelow, hlinked⟩
      · intro x hx
        simp only [componentsOf_cons, List.mem_cons, List.mem_append] at hx
        rcases hx with rfl | hx | hx
        · exact hd
        · exact hmemc x hx
        · exact hmem x hx

theorem Coherent.exists_trees {components : List Component} (h : Coherent components) :
    ∃ trees, Spells trees components ∧ trees.map ComponentTree.id = rootIds components := by
  obtain ⟨trees, hroots, hlinked, hmem⟩ := h.grow components.length [] (rootIds components)
    trivial (by simp) (by simp) (by
      intro k hk
      obtain ⟨c, hc, hp, hid⟩ := mem_rootIds.mp hk
      exact ⟨c, hc, hid, hp⟩)
  have rootsNodup : (trees.map ComponentTree.id).Nodup := by
    rw [hroots, rootIds]
    exact h.distinct.sublist (List.filter_sublist.map _)
  have complete : ∀ c ∈ components, c ∈ componentsOf trees := by
    intro c hc
    refine (h.reached c hc).all ?_ ?_
    · intro id hid _ d hfound
      obtain ⟨t, ht, rfl⟩ := List.mem_map.mp (hroots ▸ hid)
      obtain ⟨hd, hdid⟩ := Forest.mem_of_find?_ofComponents hfound
      obtain ⟨hroot, _⟩ := linked_root hlinked ht
      rwa [eq_of_id h.distinct hd (hmem _ hroot) hdid]
    · intro d hd k hk _ e hfound
      obtain ⟨f, hf, rfl, _⟩ := linked_child hlinked hd hk
      obtain ⟨he, heid⟩ := Forest.mem_of_find?_ofComponents hfound
      rwa [eq_of_id h.distinct he (hmem _ hf) heid]
  have treesNodup := componentsOf_nodup h.distinct h.childIds_nodup (show Ascends [] from trivial)
    (by simp) hlinked hmem rootsNodup
  have perm : components.Perm (componentsOf trees) :=
    (List.perm_ext_iff_of_nodup (List.Nodup.of_map _ h.distinct) treesNodup).mpr
      fun c => ⟨complete c, hmem c⟩
  refine ⟨trees, ⟨?_, hlinked, ?_, (perm.map _).nodup h.distinct, perm⟩, hroots⟩
  · rintro rfl
    exact h.rooted hroots.symm
  · intro c hc hblank
    rw [Text.trim_eq_empty_iff, h.named c (hmem c hc)] at hblank
    cases hblank

/-! ## From trees to rules -/

namespace Spells

variable {trees : List ComponentTree} {components : List Component}

theorem ids_nodup (h : Spells trees components) : (components.map Component.id).Nodup :=
  (h.listed.map _).nodup_iff.mpr h.distinct

theorem find?_iff (h : Spells trees components) {id : String} {c : Component} :
    (Forest.ofComponents components).find? id = some c ↔ c ∈ componentsOf trees ∧ c.id = id := by
  rw [Forest.find?_ofComponents_iff h.ids_nodup, h.listed.mem_iff]

theorem root_listed (h : Spells trees components) {t : ComponentTree} (ht : t ∈ trees) :
    t.id ∈ rootIds components := by
  obtain ⟨hm, hp⟩ := linked_root h.linked ht
  exact mem_rootIds.mpr ⟨t.root, h.listed.mem_iff.mpr hm, hp, rfl⟩

theorem reached (h : Spells trees components) {c : Component} (hc : c ∈ componentsOf trees) :
    (Forest.ofComponents components).Reaches [] (rootIds components) c := by
  refine linked_reached h.linked (fun x hx => h.find?_iff.mpr ⟨hx, rfl⟩) ?_ c hc
  intro t ht
  exact .start (h.root_listed ht) (by simp)
    (h.find?_iff.mpr ⟨(linked_root h.linked ht).1, rfl⟩)

theorem coherent (h : Spells trees components) : Coherent components := by
  have mem : ∀ {c : Component}, c ∈ components ↔ c ∈ componentsOf trees := h.listed.mem_iff
  refine ⟨?_, h.ids_nodup, ?_, ?_, ?_, ?_, fun c hc => h.reached (mem.mp hc)⟩
  · intro c hc
    have hname := h.named c (mem.mp hc)
    rwa [Ne, Text.trim_eq_empty_iff, Bool.not_eq_true] at hname
  · obtain ⟨t, ht⟩ := List.exists_mem_of_ne_nil trees h.nonempty
    exact List.ne_nil_of_mem (h.root_listed ht)
  · have hn := (listed_perm h.linked).nodup_iff.mpr h.distinct
    exact (h.listed.flatMap_right _).nodup_iff.mpr (List.nodup_append.mp hn).2.1
  · intro c hc k hk
    obtain ⟨d, hd, hback⟩ := linked_child h.linked (mem.mp hc) hk
    exact ⟨d, mem.mpr hd, hback⟩
  · intro c hc hparent
    rcases linked_owner h.linked (mem.mp hc) with ⟨_, hp⟩ | ⟨owner, ho, _, hlist⟩
    · exact absurd hp hparent
    · exact ⟨owner, mem.mpr ho, hlist⟩

end Spells

/-- A valid list spells out trees whose roots stand in list order. -/
theorem exists_trees_of_no_violations {components : List Component}
    (h : componentViolations components = []) :
    ∃ trees, Spells trees components ∧ trees.map ComponentTree.id = rootIds components :=
  (coherent_of_no_violations h).exists_trees

/-- Validation accepts exactly the reorderings of non-empty ordered forests. -/
theorem no_violations_iff_spells (components : List Component) :
    componentViolations components = [] ↔ ∃ trees, Spells trees components := by
  constructor
  · intro h
    obtain ⟨trees, hspells, _⟩ := exists_trees_of_no_violations h
    exact ⟨trees, hspells⟩
  · rintro ⟨trees, h⟩
    exact no_violations_of_coherent h.coherent

/-! ## A small forest

A box with a picture and a button. The picture cannot hold content and still lists a button, which
is therefore never shown; one id and one text need to be escaped. -/

namespace Sample

def component (id kind : String) (parentId : Option String) (childIds : List String)
    (properties : OrderedMap Json) : Component :=
  { id, kind, parentId, childIds, properties, styles := .empty, position := none, size := none,
    locked := false, hidden := false }

def box : Component := component "box" "Container" none ["picture", "\"ask\""] .empty

def picture : Component := component "picture" "Image" (some "box") ["lost"] .empty

def lost : Component := component "lost" "Button" (some "picture") [] .empty

def ask : Component :=
  component "\"ask\"" "Button" (some "box") [] (OrderedMap.ofList [("text", .text "1 < 2?")])

def tree : ComponentTree := .node box [.node picture [.node lost []], .node ask []]

def components : List Component := [ask, box, picture, lost]

theorem spells : Spells [tree] components where
  nonempty := by simp
  linked := by simp [tree, LinkedBelow, Linked, box, picture, lost, ask, component]
  named := by
    simp only [tree, componentsOf_cons, componentsOf_nil]
    decide
  distinct := by decide
  listed := by
    simp only [tree, componentsOf_cons, componentsOf_nil, components, List.append_nil,
      List.nil_append, List.cons_append]
    exact (List.perm_append_comm : ([ask] ++ [box, picture, lost]).Perm _)

theorem valid : componentViolations components = [] := no_violations_of_coherent spells.coherent

end Sample

end Pagewright

import Pagewright.Proofs.Markup.View
import Pagewright.Proofs.Placement.Island

/-!
# What rendering leaves out

Of a valid forest, rendering leaves out what a placeholder stands for and what lies
below an element without content. What a placeholder stands for is rendered as a tree
of its own, and then nothing is rendered twice; what lies below an element without
content has an ancestor of that kind among the rendered components. So a component is
rendered, or the loss shows in what is.
-/

set_option autoImplicit false

namespace Pagewright

namespace ComponentTree

def rendered (substitutions : Substitutions) (trees : List ComponentTree) : List Component :=
  View.componentsOf (viewsOf substitutions trees)

mutual

def cutTrees (substitutions : Substitutions) : ComponentTree → List ComponentTree
  | .node c children =>
    if (substitutions.find? c.id).isSome then [.node c children]
    else cutTreesOf substitutions children

def cutTreesOf (substitutions : Substitutions) : List ComponentTree → List ComponentTree
  | [] => []
  | t :: rest => cutTrees substitutions t ++ cutTreesOf substitutions rest

end

@[simp] theorem rendered_nil (substitutions : Substitutions) : rendered substitutions [] = [] := rfl

theorem rendered_cons (substitutions : Substitutions) (c : Component)
    (children rest : List ComponentTree) :
    rendered substitutions (.node c children :: rest) =
      (if (substitutions.find? c.id).isSome then []
        else c :: if (Primitive.ofKind c.kind).void then [] else rendered substitutions children) ++
        rendered substitutions rest := by
  rw [rendered, viewsOf, View.componentsOf, view]
  congr 1
  cases substitutions.find? c.id with
  | some name => rfl
  | none =>
    by_cases hvoid : (Primitive.ofKind c.kind).void = true <;>
      simp [hvoid, View.components, rendered, View.componentsOf]

@[simp] theorem cutTreesOf_nil (substitutions : Substitutions) : cutTreesOf substitutions [] = [] :=
  rfl

theorem cutTreesOf_cons (substitutions : Substitutions) (c : Component)
    (children rest : List ComponentTree) :
    cutTreesOf substitutions (.node c children :: rest) =
      (if (substitutions.find? c.id).isSome then [.node c children]
        else cutTreesOf substitutions children) ++ cutTreesOf substitutions rest :=
  rfl

theorem find?_empty_isSome (id : String) :
    ((OrderedMap.empty : Substitutions).find? id).isSome = false := rfl

/-- Without placeholders, what is rendered is what no element without content stands above. -/
theorem rendered_eq_shown (above : List Component) (trees : List ComponentTree)
    (habove : ∀ c ∈ above, (Primitive.ofKind c.kind).void = false) :
    rendered OrderedMap.empty trees =
      ((placesOf above trees).filter Place.isShown).map Place.component := by
  induction trees using siblings_induction generalizing above with
  | nil => rfl
  | cons c children rest ihc ihr =>
    have shown : Place.isShown ⟨c, above⟩ = true := by simpa [Place.isShown] using habove
    have below : (if (Primitive.ofKind c.kind).void then [] else
        rendered OrderedMap.empty children) =
        ((placesOf (c :: above) children).filter Place.isShown).map Place.component := by
      split
      · rename_i hvoid
        have none : (placesOf (c :: above) children).filter Place.isShown = [] := by
          rw [List.filter_eq_nil_iff]
          intro p hp
          rw [hidden_below hvoid hp]
          exact Bool.false_ne_true
        rw [none, List.map_nil]
      · rename_i hvoid
        exact ihc (c :: above) (by simpa [hvoid] using habove)
    rw [rendered_cons, find?_empty_isSome, below, ihr above habove]
    simp [shown]

theorem rendered_sublist (substitutions : Substitutions) (trees : List ComponentTree) :
    (rendered substitutions trees).Sublist (componentsOf trees) := by
  induction trees using siblings_induction with
  | nil => exact .refl _
  | cons c children rest ihc ihr =>
    rw [rendered_cons, componentsOf_cons]
    split
    · exact (ihr.trans (List.sublist_append_right _ _)).cons _
    · split
      · exact (ihr.trans (List.sublist_append_right _ _)).cons_cons c
      · exact (ihc.append ihr).cons_cons c

theorem cutTreesOf_sublist (substitutions : Substitutions) (trees : List ComponentTree) :
    (cutTreesOf substitutions trees).Sublist (subtreesOf trees) := by
  induction trees using siblings_induction with
  | nil => exact .refl _
  | cons c children rest ihc ihr =>
    rw [cutTreesOf_cons, subtreesOf_cons]
    split
    · exact (ihr.trans (List.sublist_append_right _ _)).cons_cons _
    · exact (ihc.append ihr).cons _

def renderedApart (substitutions : Substitutions) (trees : List ComponentTree) : List Component :=
  ((cutTreesOf substitutions trees).flatMap fun t => rendered OrderedMap.empty [t]) ++
    rendered substitutions trees

/-- Nothing is rendered more often than it is there. -/
theorem renderedApart_countP_le (substitutions : Substitutions) (trees : List ComponentTree)
    (q : Component → Bool) :
    (renderedApart substitutions trees).countP q ≤ (componentsOf trees).countP q := by
  induction trees using siblings_induction with
  | nil => simp [renderedApart]
  | cons c children rest ihc ihr =>
    simp only [renderedApart, rendered_cons, cutTreesOf_cons, componentsOf_cons,
      List.flatMap_append, List.countP_append, List.countP_cons] at ihc ihr ⊢
    split
    · have own := (rendered_sublist OrderedMap.empty [.node c children]).countP_le (p := q)
      simp only [componentsOf_cons, componentsOf_nil, List.append_nil, List.countP_cons] at own
      simp only [List.flatMap_cons, List.flatMap_nil, List.append_nil, List.countP_nil]
      omega
    · split
      · simp only [List.countP_cons, List.countP_nil]
        omega
      · simp only [List.countP_cons]
        omega

theorem renderedApart_subset (substitutions : Substitutions) (trees : List ComponentTree) :
    renderedApart substitutions trees ⊆ componentsOf trees := by
  classical
  intro c hc
  have le := renderedApart_countP_le substitutions trees fun d => decide (d = c)
  have pos : 0 < (renderedApart substitutions trees).countP fun d => decide (d = c) :=
    List.countP_pos_iff.mpr ⟨c, hc, by simp⟩
  obtain ⟨d, hd, heq⟩ := List.countP_pos_iff.mp (Nat.lt_of_lt_of_le pos le)
  exact of_decide_eq_true heq ▸ hd

theorem renderedApart_ids_nodup (substitutions : Substitutions) {trees : List ComponentTree}
    (h : ((componentsOf trees).map Component.id).Nodup) :
    ((renderedApart substitutions trees).map Component.id).Nodup := by
  rw [List.nodup_iff_count_le_one] at h ⊢
  intro k
  have le := renderedApart_countP_le substitutions trees fun c => c.id == k
  have once := h k
  rw [List.count_eq_countP, List.countP_map] at once ⊢
  exact le.trans once

def Accounted (shown : List Component) (elsewhere : List ComponentTree) (p : Place) : Prop :=
  p.component ∈ shown ∨
    (∃ a ∈ p.above, (Primitive.ofKind a.kind).void = true ∧ a ∈ shown) ∨
    ∃ t ∈ elsewhere, ∃ outside, p ∈ placesOf outside [t]

theorem Accounted.mono {shown shown' : List Component} {elsewhere elsewhere' : List ComponentTree}
    {p : Place} (h : Accounted shown elsewhere p) (hshown : shown ⊆ shown')
    (helsewhere : elsewhere ⊆ elsewhere') : Accounted shown' elsewhere' p := by
  rcases h with hc | ⟨a, ha, hvoid, hc⟩ | ⟨t, ht, hp⟩
  · exact .inl (hshown hc)
  · exact .inr (.inl ⟨a, ha, hvoid, hshown hc⟩)
  · exact .inr (.inr ⟨t, helsewhere ht, hp⟩)

theorem rendered_accounted (substitutions : Substitutions) {above : List Component}
    {trees : List ComponentTree} {p : Place} (hp : p ∈ placesOf above trees) :
    Accounted (rendered substitutions trees) (cutTreesOf substitutions trees) p := by
  induction trees using siblings_induction generalizing above with
  | nil => simp at hp
  | cons c children rest ihc ihr =>
    rw [rendered_cons, cutTreesOf_cons]
    simp only [placesOf_cons, List.mem_cons, List.mem_append] at hp
    by_cases hcut : (substitutions.find? c.id).isSome = true
    · -- a placeholder: the place lies in the tree it stands for, or beside it
      rcases or_assoc.mpr hp with hhere | hrest
      · refine .inr (.inr ⟨.node c children, by simp [hcut], above, ?_⟩)
        simpa using hhere
      · exact (ihr hrest).mono (List.subset_append_right _ _) (List.subset_append_right _ _)
    · rcases hp with rfl | hchild | hrest
      · exact .inl (by simp [hcut])
      · by_cases hvoid : (Primitive.ofKind c.kind).void = true
        · have hc : c ∈ p.above := (place_above hchild).subset List.mem_cons_self
          exact .inr (.inl ⟨c, hc, hvoid, by simp [hcut]⟩)
        · refine (ihc hchild).mono ?_ ?_
          · intro d hd
            simp [hcut, hvoid, hd]
          · intro t ht
            simp [hcut, ht]
      · exact (ihr hrest).mono (List.subset_append_right _ _) (List.subset_append_right _ _)

theorem cutTreesOf_empty (trees : List ComponentTree) :
    cutTreesOf OrderedMap.empty trees = [] := by
  induction trees using siblings_induction with
  | nil => rfl
  | cons c children rest ihc ihr => simp [cutTreesOf_cons, find?_empty_isSome, ihc, ihr]

theorem renderedApart_accounted (substitutions : Substitutions) {trees : List ComponentTree}
    {p : Place} (hp : p ∈ placesOf [] trees) :
    Accounted (renderedApart substitutions trees) [] p := by
  rcases rendered_accounted substitutions hp with hc | hlost | ⟨t, ht, outside, hp⟩
  · exact .inl (List.mem_append_right _ hc)
  · obtain ⟨a, ha, hvoid, hc⟩ := hlost
    exact .inr (.inl ⟨a, ha, hvoid, List.mem_append_right _ hc⟩)
  · have inside := rendered_accounted OrderedMap.empty hp
    rw [cutTreesOf_empty] at inside
    refine inside.mono (fun c hc => List.mem_append_left _ ?_) (List.Subset.refl _)
    exact List.mem_flatMap.mpr ⟨t, ht, hc⟩

/-- Where placeholders stand for the islands, the trees that are cut out are the islands. -/
theorem cutTreesOf_ids {substitutions : Substitutions} (trees : List ComponentTree)
    {above : List Component}
    (h : ∀ p ∈ placesOf above trees, (substitutions.find? p.id).isSome = p.isIsland) :
    (cutTreesOf substitutions trees).map id =
      ((placesOf above trees).filter Place.isIsland).map Place.id := by
  induction trees using siblings_induction generalizing above with
  | nil => rfl
  | cons c children rest ihc ihr =>
    simp only [placesOf_cons, List.forall_mem_cons, List.forall_mem_append] at h
    obtain ⟨hhere, hchildren, hrest⟩ := h
    have here : (substitutions.find? c.id).isSome = Place.isIsland ⟨c, above⟩ := hhere
    rw [cutTreesOf_cons, placesOf_cons, here, List.map_append, ihr hrest]
    by_cases hisland : Place.isIsland ⟨c, above⟩ = true
    · have client : c.isClient = true := (Bool.and_eq_true_iff.mp hisland).1
      have below : (placesOf (c :: above) children).filter Place.isIsland = [] := by
        rw [List.filter_eq_nil_iff]
        intro p hp
        have hc : c ∈ p.above := (place_above hp).subset List.mem_cons_self
        have inside : p.above.any Component.isClient = true := List.any_eq_true.mpr ⟨c, hc, client⟩
        simp [Place.isIsland, inside]
      simp [hisland, below, Place.id]
    · simp [hisland, ihc hchildren]

/-- A component above a place lists a child. -/
theorem childIds_ne_nil_of_above {parent : Option String} {trees : List ComponentTree}
    (h : LinkedBelow parent trees) {above : List Component} {p : Place}
    (hp : p ∈ placesOf above trees) {a : Component} (ha : a ∈ p.above) :
    a ∈ above ∨ a.childIds ≠ [] := by
  induction trees using siblings_induction generalizing parent above with
  | nil => simp at hp
  | cons c children rest ihc ihr =>
    obtain ⟨_, hids, hchildren, hrest⟩ := linkedBelow_cons.mp h
    simp only [placesOf_cons, List.mem_cons, List.mem_append] at hp
    rcases hp with rfl | hp | hp
    · exact .inl ha
    · rcases ihc hchildren hp with hmem | hne
      · rcases List.mem_cons.mp hmem with rfl | hmem
        · have some_child : children ≠ [] := by
            rintro rfl
            simp at hp
          exact .inr (by simpa [hids] using some_child)
        · exact .inl hmem
      · exact .inr hne
    · exact ihr hrest hp

end ComponentTree

namespace Spells

open ComponentTree

variable {trees : List ComponentTree} {components : List Component}

theorem children_isEmpty (h : Spells trees components) {c : Component} (hc : c ∈ components) :
    ((Forest.ofComponents components).children c).isEmpty = c.childIds.isEmpty := by
  rw [Bool.eq_iff_iff, List.isEmpty_iff, List.isEmpty_iff, Forest.children,
    List.filterMap_eq_nil_iff, List.eq_nil_iff_forall_not_mem]
  refine forall_congr' fun k => ⟨fun hnone hk => ?_, fun hno hk => absurd hk hno⟩
  obtain ⟨d, hd, hid, _⟩ := linked_child h.linked (h.listed.mem_iff.mp hc) hk
  have found : (Forest.ofComponents components).find? k = some d := h.find?_iff.mpr ⟨hd, hid⟩
  rw [hnone hk] at found
  cases found

end Spells

end Pagewright

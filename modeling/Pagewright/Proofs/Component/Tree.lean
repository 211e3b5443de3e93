import Mathlib.Data.List.Perm.Basic
import Mathlib.Data.List.Infix
import Pagewright.Proofs.Component.Reach

/-!
# Component trees

The ordered rose trees that a component list is meant to spell out. A list of
siblings is linked below a parent when the pointers of all its components agree
with the tree. Each component of a tree stands at a place: the list of those above
it, nearest first. Parent pointers determine that list, so a component of linked
trees cannot stand at two places.
-/

set_option autoImplicit false

namespace Pagewright

inductive ComponentTree where
  | node (root : Component) (children : List ComponentTree)

structure Place where
  component : Component
  above : List Component

namespace ComponentTree

def root : ComponentTree → Component
  | .node c _ => c

def id (t : ComponentTree) : String := t.root.id

@[simp] theorem id_node (c : Component) (children : List ComponentTree) :
    (node c children).id = c.id := rfl

mutual

def components : ComponentTree → List Component
  | .node c children => c :: componentsOf children

def componentsOf : List ComponentTree → List Component
  | [] => []
  | t :: rest => components t ++ componentsOf rest

end

mutual

def subtrees : ComponentTree → List ComponentTree
  | .node c children => .node c children :: subtreesOf children

def subtreesOf : List ComponentTree → List ComponentTree
  | [] => []
  | t :: rest => subtrees t ++ subtreesOf rest

end

mutual

def places (above : List Component) : ComponentTree → List Place
  | .node c children => ⟨c, above⟩ :: placesOf (c :: above) children

def placesOf (above : List Component) : List ComponentTree → List Place
  | [] => []
  | t :: rest => places above t ++ placesOf above rest

end

mutual

def Linked (parent : Option String) : ComponentTree → Prop
  | .node c children =>
    c.parentId = parent ∧ c.childIds = children.map id ∧ LinkedBelow (some c.id) children

def LinkedBelow (parent : Option String) : List ComponentTree → Prop
  | [] => True
  | t :: rest => Linked parent t ∧ LinkedBelow parent rest

end

@[simp] theorem componentsOf_nil : componentsOf [] = [] := rfl

@[simp] theorem componentsOf_cons (c : Component) (children rest : List ComponentTree) :
    componentsOf (.node c children :: rest) = c :: (componentsOf children ++ componentsOf rest) :=
  rfl

@[simp] theorem subtreesOf_nil : subtreesOf [] = [] := rfl

@[simp] theorem subtreesOf_cons (c : Component) (children rest : List ComponentTree) :
    subtreesOf (.node c children :: rest) =
      .node c children :: (subtreesOf children ++ subtreesOf rest) :=
  rfl

@[simp] theorem placesOf_nil (above : List Component) : placesOf above [] = [] := rfl

@[simp] theorem placesOf_cons (above : List Component) (c : Component)
    (children rest : List ComponentTree) :
    placesOf above (.node c children :: rest) =
      ⟨c, above⟩ :: (placesOf (c :: above) children ++ placesOf above rest) :=
  rfl

theorem linkedBelow_cons {parent : Option String} {c : Component}
    {children rest : List ComponentTree} :
    LinkedBelow parent (.node c children :: rest) ↔
      c.parentId = parent ∧ c.childIds = children.map id ∧ LinkedBelow (some c.id) children ∧
        LinkedBelow parent rest := by
  simp only [LinkedBelow, Linked, and_assoc]

/-- Induction on siblings: below the first one, and to its right. -/
theorem siblings_induction {P : List ComponentTree → Prop} (nil : P [])
    (cons : ∀ c children rest, P children → P rest → P (.node c children :: rest)) :
    ∀ trees, P trees
  | [] => nil
  | .node c children :: rest =>
    cons c children rest (siblings_induction nil cons children) (siblings_induction nil cons rest)

theorem roots_subtreesOf (trees : List ComponentTree) :
    (subtreesOf trees).map root = componentsOf trees := by
  induction trees using siblings_induction with
  | nil => rfl
  | cons c children rest ihc ihr => simp [root, ihc, ihr]

/-- A tree within linked trees is linked below some parent, and holds some of their components. -/
theorem linked_subtree {parent : Option String} {trees : List ComponentTree}
    (h : LinkedBelow parent trees) {t : ComponentTree} (ht : t ∈ subtreesOf trees) :
    (∃ owner, LinkedBelow owner [t]) ∧ (componentsOf [t]).Sublist (componentsOf trees) := by
  induction trees using siblings_induction generalizing parent with
  | nil => simp at ht
  | cons c children rest ihc ihr =>
    obtain ⟨hparent, hids, hchildren, hrest⟩ := linkedBelow_cons.mp h
    simp only [subtreesOf_cons, List.mem_cons, List.mem_append] at ht
    rcases ht with rfl | ht | ht
    · refine ⟨⟨parent, linkedBelow_cons.mpr ⟨hparent, hids, hchildren, trivial⟩⟩, ?_⟩
      simp
    · obtain ⟨howner, hsub⟩ := ihc hchildren ht
      exact ⟨howner, (hsub.trans (List.sublist_append_left _ _)).cons _⟩
    · obtain ⟨howner, hsub⟩ := ihr hrest ht
      exact ⟨howner, (hsub.trans (List.sublist_append_right _ _)).cons _⟩

theorem places_components (above : List Component) (trees : List ComponentTree) :
    (placesOf above trees).map Place.component = componentsOf trees := by
  induction trees using siblings_induction generalizing above with
  | nil => rfl
  | cons c children rest ihc ihr => simp [ihc, ihr]

theorem exists_place (above : List Component) {trees : List ComponentTree} {c : Component}
    (h : c ∈ componentsOf trees) : ∃ p ∈ placesOf above trees, p.component = c := by
  rw [← places_components above] at h
  exact List.mem_map.mp h

theorem place_mem {above : List Component} {trees : List ComponentTree} {p : Place}
    (h : p ∈ placesOf above trees) : p.component ∈ componentsOf trees := by
  rw [← places_components above]
  exact List.mem_map_of_mem h

/-- The root above a place is the last step before the components given from outside. -/
theorem place_root {above : List Component} {trees : List ComponentTree} {p : Place}
    (h : p ∈ placesOf above trees) :
    ∃ r, r.id ∈ trees.map id ∧ (r :: above) <:+ (p.component :: p.above) := by
  induction trees using siblings_induction generalizing above with
  | nil => simp at h
  | cons c children rest ihc ihr =>
    simp only [placesOf_cons, List.mem_cons, List.mem_append] at h
    rcases h with rfl | hchild | hrest
    · exact ⟨c, by simp, List.suffix_rfl⟩
    · obtain ⟨r, _, hr⟩ := ihc hchild
      exact ⟨c, by simp, (List.suffix_cons r _).trans hr⟩
    · obtain ⟨r, hid, hr⟩ := ihr hrest
      exact ⟨r, by simp [hid], hr⟩

/-- Whatever is given from outside stands above every place. -/
theorem place_above {above : List Component} {trees : List ComponentTree} {p : Place}
    (h : p ∈ placesOf above trees) : above <:+ p.above := by
  obtain ⟨r, _, hroot⟩ := place_root h
  rcases List.suffix_cons_iff.mp hroot with heq | hs
  · exact (List.cons.inj heq).2 ▸ List.suffix_rfl
  · exact (List.suffix_cons r _).trans hs

theorem linked_root {parent : Option String} {trees : List ComponentTree}
    (h : LinkedBelow parent trees) {t : ComponentTree} (ht : t ∈ trees) :
    t.root ∈ componentsOf trees ∧ t.root.parentId = parent := by
  induction trees with
  | nil => simp at ht
  | cons s rest ih =>
    obtain ⟨c, children⟩ := s
    obtain ⟨hparent, _, _, hbeside⟩ := linkedBelow_cons.mp h
    rcases List.mem_cons.mp ht with rfl | hrest
    · exact ⟨by simp [root], hparent⟩
    · obtain ⟨hm, hp⟩ := ih hbeside hrest
      exact ⟨by simp [hm], hp⟩

/-- A listed child stands in the tree and points back. -/
theorem linked_child {parent : Option String} {trees : List ComponentTree}
    (h : LinkedBelow parent trees) {c : Component} (hc : c ∈ componentsOf trees)
    {k : String} (hk : k ∈ c.childIds) :
    ∃ d ∈ componentsOf trees, d.id = k ∧ d.parentId = some c.id := by
  induction trees using siblings_induction generalizing parent with
  | nil => simp at hc
  | cons e children rest ihc ihr =>
    obtain ⟨_, hids, hchildren, hrest⟩ := linkedBelow_cons.mp h
    simp only [componentsOf_cons, List.mem_cons, List.mem_append] at hc ⊢
    rcases hc with rfl | hc | hc
    · rw [hids] at hk
      obtain ⟨t, ht, rfl⟩ := List.mem_map.mp hk
      obtain ⟨hm, hp⟩ := linked_root hchildren ht
      exact ⟨t.root, .inr (.inl hm), rfl, hp⟩
    · obtain ⟨d, hd, hback⟩ := ihc hchildren hc
      exact ⟨d, .inr (.inl hd), hback⟩
    · obtain ⟨d, hd, hback⟩ := ihr hrest hc
      exact ⟨d, .inr (.inr hd), hback⟩

/-- A component is a sibling of the first row, or listed by the one it points to. -/
theorem linked_owner {parent : Option String} {trees : List ComponentTree}
    (h : LinkedBelow parent trees) {c : Component} (hc : c ∈ componentsOf trees) :
    (c.id ∈ trees.map id ∧ c.parentId = parent) ∨
      ∃ owner ∈ componentsOf trees, c.parentId = some owner.id ∧ c.id ∈ owner.childIds := by
  induction trees using siblings_induction generalizing parent with
  | nil => simp at hc
  | cons e children rest ihc ihr =>
    obtain ⟨hparent, hids, hchildren, hrest⟩ := linkedBelow_cons.mp h
    simp only [componentsOf_cons, List.mem_cons, List.mem_append] at hc ⊢
    rcases hc with rfl | hc | hc
    · exact .inl ⟨by simp, hparent⟩
    · rcases ihc hchildren hc with ⟨hid, hp⟩ | ⟨owner, ho, hback⟩
      · exact .inr ⟨e, .inl rfl, hp, hids ▸ hid⟩
      · exact .inr ⟨owner, .inr (.inl ho), hback⟩
    · rcases ihr hrest hc with ⟨hid, hp⟩ | ⟨owner, ho, hback⟩
      · exact .inl ⟨by simp [hid], hp⟩
      · exact .inr ⟨owner, .inr (.inr ho), hback⟩

/-- Every component is listed once, except those of the first row. -/
theorem listed_perm {parent : Option String} {trees : List ComponentTree}
    (h : LinkedBelow parent trees) :
    (trees.map id ++ (componentsOf trees).flatMap Component.childIds).Perm
      ((componentsOf trees).map Component.id) := by
  induction trees using siblings_induction generalizing parent with
  | nil => exact .nil
  | cons c children rest ihc ihr =>
    obtain ⟨_, hids, hchildren, hrest⟩ := linkedBelow_cons.mp h
    have below := ihc hchildren
    have beside := ihr hrest
    simp only [componentsOf_cons, List.map_cons, List.map_append, List.flatMap_cons,
      List.flatMap_append, List.cons_append, id_node, hids]
    apply List.Perm.cons
    have swap := (@List.perm_append_comm _ (rest.map id)
      (children.map id ++ (componentsOf children).flatMap Component.childIds)).append_right
      ((componentsOf rest).flatMap Component.childIds)
    simp only [List.append_assoc] at swap below ⊢
    refine swap.trans ?_
    rw [← List.append_assoc]
    exact below.append beside

/-- Everything below reached siblings is reached. -/
theorem linked_reached {forest : Forest} {ids : List String} {parent : Option String}
    {trees : List ComponentTree} (h : LinkedBelow parent trees)
    (hfound : ∀ c ∈ componentsOf trees, forest.find? c.id = some c)
    (hroots : ∀ t ∈ trees, forest.Reaches [] ids t.root) :
    ∀ c ∈ componentsOf trees, forest.Reaches [] ids c := by
  induction trees using siblings_induction generalizing parent with
  | nil => simp
  | cons d children rest ihc ihr =>
    obtain ⟨_, hids, hchildren, hrest⟩ := linkedBelow_cons.mp h
    simp only [componentsOf_cons, List.mem_cons, List.mem_append] at hfound ⊢
    intro c hc
    rcases hc with rfl | hc | hc
    · exact hroots (.node c children) (by simp)
    · refine ihc hchildren (fun x hx => hfound x (.inr (.inl hx))) ?_ c hc
      intro t ht
      obtain ⟨hroot, _⟩ := linked_root hchildren ht
      exact .child (hroots (.node d children) (by simp)) (hids ▸ List.mem_map_of_mem ht) (by simp)
        (hfound _ (.inr (.inl hroot)))
    · exact ihr hrest (fun x hx => hfound x (.inr (.inr hx)))
        (fun t ht => hroots t (List.mem_cons_of_mem _ ht)) c hc

def Ascends : List Component → Prop
  | [] => True
  | c :: above => c.parentId = above.head?.map Component.id ∧ Ascends above

theorem place_ascends {above : List Component} {trees : List ComponentTree}
    (ha : Ascends above) (h : LinkedBelow (above.head?.map Component.id) trees) {p : Place}
    (hp : p ∈ placesOf above trees) : Ascends (p.component :: p.above) := by
  induction trees using siblings_induction generalizing above with
  | nil => simp at hp
  | cons c children rest ihc ihr =>
    obtain ⟨hparent, _, hchildren, hrest⟩ := linkedBelow_cons.mp h
    simp only [placesOf_cons, List.mem_cons, List.mem_append] at hp
    rcases hp with rfl | hp | hp
    · exact ⟨hparent, ha⟩
    · have hac : Ascends (c :: above) := ⟨hparent, ha⟩
      exact ihc hac hchildren hp
    · exact ihr ha hrest hp

theorem place_above_components {above : List Component} {trees : List ComponentTree} {p : Place}
    {components : List Component} (hp : p ∈ placesOf above trees)
    (ha : ∀ c ∈ above, c ∈ components) (hm : ∀ c ∈ componentsOf trees, c ∈ components) :
    ∀ c ∈ p.above, c ∈ components := by
  induction trees using siblings_induction generalizing above with
  | nil => simp at hp
  | cons e children rest ihc ihr =>
    have hmc : ∀ c ∈ componentsOf children, c ∈ components := fun c hc => hm c (by simp [hc])
    have hmr : ∀ c ∈ componentsOf rest, c ∈ components := fun c hc => hm c (by simp [hc])
    simp only [placesOf_cons, List.mem_cons, List.mem_append] at hp
    rcases hp with rfl | hp | hp
    · exact ha
    · apply ihc hp _ hmc
      intro c hc
      rcases List.mem_cons.mp hc with rfl | hc
      · exact hm c (by simp)
      · exact ha c hc
    · exact ihr hp ha hmr

section Distinct

variable {components : List Component}

theorem eq_of_id (hn : (components.map Component.id).Nodup) {a b : Component}
    (ha : a ∈ components) (hb : b ∈ components) (h : a.id = b.id) : a = b :=
  List.inj_on_of_nodup_map hn ha hb h

/-- Where ids are distinct, the pointers leave no choice on the way up. -/
theorem ascends_unique (hn : (components.map Component.id).Nodup) {c : Component}
    {a b : List Component} (ha : Ascends (c :: a)) (hb : Ascends (c :: b))
    (hma : ∀ x ∈ a, x ∈ components) (hmb : ∀ x ∈ b, x ∈ components) : a = b := by
  induction a generalizing c b with
  | nil =>
    have hroot := ha.1.symm.trans hb.1
    cases b with
    | nil => rfl
    | cons y ys => simp at hroot
  | cons x xs ih =>
    have hhead := ha.1.symm.trans hb.1
    cases b with
    | nil => simp at hhead
    | cons y ys =>
      have hid : x.id = y.id := by simpa using hhead
      have hxy : x = y := eq_of_id hn (hma x (by simp)) (hmb y (by simp)) hid
      subst hxy
      rw [ih ha.2 hb.2 (fun z hz => hma z (by simp [hz])) (fun z hz => hmb z (by simp [hz]))]

theorem Ascends.suffix {a b : List Component} (h : Ascends b) (hs : a <:+ b) : Ascends a := by
  induction b with
  | nil =>
    rw [List.suffix_nil.mp hs]
    trivial
  | cons c rest ih =>
    rcases List.suffix_cons_iff.mp hs with rfl | hrest
    · exact h
    · exact ih h.2 hrest

theorem Ascends.nodup (hn : (components.map Component.id).Nodup) {a : List Component}
    (h : Ascends a) (hm : ∀ x ∈ a, x ∈ components) : a.Nodup := by
  induction a with
  | nil => exact List.nodup_nil
  | cons c rest ih =>
    refine List.nodup_cons.mpr ⟨?_, ih h.2 (fun x hx => hm x (by simp [hx]))⟩
    intro hc
    obtain ⟨s, u, hsplit⟩ := List.append_of_mem hc
    have hu : Ascends (c :: u) := h.2.suffix ⟨s, hsplit.symm⟩
    have heq : rest = u := ascends_unique hn h hu (fun x hx => hm x (by simp [hx]))
      (fun x hx => hm x (by simp [hsplit, hx]))
    have hlen := congrArg List.length hsplit
    simp only [List.length_append, List.length_cons, heq] at hlen
    omega

/-- Linked trees over components with distinct ids hold no component twice, provided that no
list of children names one twice. -/
theorem componentsOf_nodup (hn : (components.map Component.id).Nodup)
    (hlists : ∀ c ∈ components, c.childIds.Nodup) {above : List Component}
    {trees : List ComponentTree} (ha : Ascends above) (hma : ∀ x ∈ above, x ∈ components)
    (h : LinkedBelow (above.head?.map Component.id) trees)
    (hm : ∀ x ∈ componentsOf trees, x ∈ components) (hids : (trees.map id).Nodup) :
    (componentsOf trees).Nodup := by
  induction trees using siblings_induction generalizing above with
  | nil => exact List.nodup_nil
  | cons c children rest ihc ihr =>
    obtain ⟨hparent, hchildIds, hchildren, hrest⟩ := linkedBelow_cons.mp h
    obtain ⟨hnew, hidsRest⟩ := List.nodup_cons.mp hids
    have hmc : ∀ x ∈ componentsOf children, x ∈ components := fun x hx => hm x (by simp [hx])
    have hmr : ∀ x ∈ componentsOf rest, x ∈ components := fun x hx => hm x (by simp [hx])
    have hac : Ascends (c :: above) := ⟨hparent, ha⟩
    have hmac : ∀ x ∈ c :: above, x ∈ components := by
      intro x hx
      rcases List.mem_cons.mp hx with rfl | hx
      · exact hm x (by simp)
      · exact hma x hx
    have hlc : LinkedBelow ((c :: above).head?.map Component.id) children := hchildren
    have hdistinct : (children.map id).Nodup := hchildIds ▸ hlists c (hm c (by simp))
    -- to the right of `c` nothing stands below it
    have apart : ∀ q ∈ placesOf above rest, ¬ (c :: above) <:+ (q.component :: q.above) := by
      intro q hq hsuffix
      obtain ⟨r, hr, hroot⟩ := place_root hq
      have heq := (List.suffix_of_suffix_length_le hroot hsuffix (by simp)).eq_of_length (by simp)
      rw [(List.cons.inj heq).1] at hr
      exact hnew hr
    rw [componentsOf_cons, List.nodup_cons, List.nodup_append, List.mem_append, not_or]
    refine ⟨⟨?_, ?_⟩, ihc hac hmac hlc hmc hdistinct, ihr ha hma hrest hmr hidsRest, ?_⟩
    · intro hc
      obtain ⟨p, hp, rfl⟩ := exists_place (c :: above) hc
      have habove := ascends_unique hn (place_ascends hac hlc hp) hac
        (place_above_components hp hmac hmc) hma
      have hlen := (place_above hp).length_le
      simp only [habove, List.length_cons] at hlen
      omega
    · intro hc
      obtain ⟨q, hq, rfl⟩ := exists_place above hc
      have habove := ascends_unique hn (place_ascends ha hrest hq) hac
        (place_above_components hq hma hmr) hma
      exact apart q hq (by rw [habove])
    · intro x hx y hy hxy
      obtain ⟨p, hp, rfl⟩ := exists_place (c :: above) hx
      obtain ⟨q, hq, rfl⟩ := exists_place above hy
      have habove := ascends_unique hn (place_ascends hac hlc hp)
        (hxy ▸ place_ascends ha hrest hq) (place_above_components hp hmac hmc)
        (place_above_components hq hma hmr)
      exact apart q hq ((habove ▸ place_above hp).trans (List.suffix_cons _ _))

end Distinct

end ComponentTree

end Pagewright

import Pagewright.Markup.View
import Pagewright.Proofs.Component.Validity

/-!
# Views of graphs and of trees

What a view shows lies within reach of the ids it starts from, on every graph. On a
valid forest a view is the tree itself, cut at placeholders and below elements that
can hold no content: `ComponentTree.view` says so by recursion on the tree, and the
search for cycles never cuts anything off.
-/

set_option autoImplicit false

namespace Pagewright

theorem Element.openLines_head (depth : Nat) (tag : String) (attributes : List Attribute)
    (shortEnding ending : String) : ∃ first rest,
    openLines depth tag attributes shortEnding ending =
      (Text.indent depth ++ ("<" ++ first)) :: rest := by
  unfold openLines
  split
  · exact ⟨tag ++ shortEnding, [], by simp [String.append_assoc]⟩
  · rename_i text _
    exact ⟨tag ++ " " ++ text ++ shortEnding, [], by simp [String.append_assoc]⟩
  · exact ⟨tag, _, by rw [String.append_assoc]; rfl⟩

theorem Element.lines_head (depth : Nat) (e : Element) : ∃ first rest,
    lines depth e = (Text.indent depth ++ ("<" ++ first)) :: rest := by
  cases e with
  | placeholder name => exact ⟨name ++ " />", [], by simp [lines, String.append_assoc]⟩
  | leaf tag attributes => exact openLines_head depth tag attributes " />" "/>"
  | textual tag attributes content =>
    rw [lines]
    split
    · exact openLines_head depth tag attributes _ ">"
    · obtain ⟨first, rest, h⟩ := openLines_head depth tag attributes ">" ">"
      exact ⟨first, _, by rw [h]; rfl⟩
  | nested tag attributes content children =>
    obtain ⟨first, rest, h⟩ := openLines_head depth tag attributes ">" ">"
    exact ⟨first, _, by rw [lines, h]; rfl⟩

namespace View

theorem mem_componentsOf {views : List View} {c : Component} :
    c ∈ componentsOf views ↔ ∃ view ∈ views, c ∈ view.components := by
  induction views with
  | nil => simp [componentsOf]
  | cons view rest ih => simp [componentsOf, ih]

end View

namespace Forest

theorem viewBelow_missing {forest : Forest} {substitutions : Substitutions} {path : List String}
    {id : String} (h : forest.find? id = none) : forest.viewBelow substitutions path id = none := by
  rw [viewBelow]
  split
  · rfl
  · rename_i c hc
    rw [h] at hc
    cases hc

theorem viewBelow_found {forest : Forest} {substitutions : Substitutions} {path : List String}
    {id : String} {c : Component} (h : forest.find? id = some c) :
    forest.viewBelow substitutions path id =
      match substitutions.find? id with
      | some name => some (.placeholder name)
      | none =>
        if id ∈ path then none
        else if (Primitive.ofKind c.kind).void then some (.node c false [])
        else
          some (.node c (!(forest.children c).isEmpty)
            (c.childIds.filterMap (forest.viewBelow substitutions (id :: path)))) := by
  rw [viewBelow]
  split
  · rename_i hnone
    rw [h] at hnone
    cases hnone
  · rename_i d hd
    rw [h] at hd
    cases hd
    rfl

/-- A property that passes from a component to its children, except at placeholders, holds
throughout a view. -/
theorem viewBelow_all {forest : Forest} {substitutions : Substitutions} {P : Component → Prop}
    (hchild : ∀ c, P c → ∀ id ∈ c.childIds, id ∉ substitutions.keys → ∀ d,
      forest.find? id = some d → P d)
    (path : List String) (id : String) (view : View)
    (hview : forest.viewBelow substitutions path id = some view)
    (hstart : id ∉ substitutions.keys → ∀ c, forest.find? id = some c → P c) :
    ∀ c ∈ view.components, P c := by
  induction path, id using viewBelow.induct forest substitutions generalizing view with
  | case1 path id hfind =>
    rw [viewBelow_missing hfind] at hview
    cases hview
  | case2 path id c hfind name hname =>
    simp only [viewBelow_found hfind, hname, Option.some.injEq] at hview
    subst hview
    simp [View.components]
  | case3 path id c hfind hfree hold => simp [viewBelow_found hfind, hfree, hold] at hview
  | case4 path id c hfind hfree hnew hvoid =>
    simp only [viewBelow_found hfind, hfree, hnew, hvoid, if_false, if_true,
      Option.some.injEq] at hview
    subst hview
    simpa [View.components, View.componentsOf] using
      hstart (OrderedMap.find?_eq_none_iff.mp hfree) c hfind
  | case5 path id c hfind hfree hnew hvoid ih =>
    simp only [viewBelow_found hfind, hfree, hnew, hvoid, Bool.false_eq_true, if_false,
      Option.some.injEq] at hview
    subst hview
    have hc := hstart (OrderedMap.find?_eq_none_iff.mp hfree) c hfind
    intro d hd
    rcases List.mem_cons.mp hd with rfl | hd
    · exact hc
    · obtain ⟨below, hbelow, hd⟩ := View.mem_componentsOf.mp hd
      obtain ⟨child, hlisted, hbelow⟩ := List.mem_filterMap.mp hbelow
      exact ih child below hbelow (hchild c hc child hlisted) d hd

theorem body_reaches {forest : Forest} {substitutions : Substitutions} {ids : List String}
    {c : Component} (hc : c ∈ (forest.body substitutions ids).components) :
    forest.Reaches substitutions.keys ids c := by
  obtain ⟨view, hview, hc⟩ := View.mem_componentsOf.mp hc
  obtain ⟨id, hid, hview⟩ := List.mem_filterMap.mp hview
  exact viewBelow_all (fun _ above _ listed free _ found => .child above listed free found) [] id
    view hview (fun free _ found => .start hid free found) c hc

end Forest

def Place.isShown (p : Place) : Bool :=
  p.above.all fun c => !(Primitive.ofKind c.kind).void

namespace ComponentTree

theorem hidden_below {c : Component} (hvoid : (Primitive.ofKind c.kind).void = true)
    {above : List Component} {trees : List ComponentTree} {p : Place}
    (hp : p ∈ placesOf (c :: above) trees) : p.isShown = false := by
  have hc : c ∈ p.above := (place_above hp).subset List.mem_cons_self
  rw [Place.isShown, List.all_eq_false]
  exact ⟨c, hc, by simp [hvoid]⟩

mutual

def view (substitutions : Substitutions) : ComponentTree → View
  | .node c children =>
    match substitutions.find? c.id with
    | some name => .placeholder name
    | none =>
      if (Primitive.ofKind c.kind).void then .node c false []
      else .node c (!children.isEmpty) (viewsOf substitutions children)

def viewsOf (substitutions : Substitutions) : List ComponentTree → List View
  | [] => []
  | t :: rest => view substitutions t :: viewsOf substitutions rest

end

/-- The forest unfolds linked trees to their own views, below any path that avoids them. -/
theorem views_siblings (forest : Forest) (substitutions : Substitutions) {parent : Option String}
    (trees : List ComponentTree) (path : List String) (h : LinkedBelow parent trees)
    (hfound : ∀ c ∈ componentsOf trees, forest.find? c.id = some c)
    (hn : ((componentsOf trees).map Component.id).Nodup)
    (hpath : ∀ c ∈ componentsOf trees, c.id ∉ path) :
    (trees.map id).filterMap (forest.viewBelow substitutions path) =
      viewsOf substitutions trees := by
  induction trees using siblings_induction generalizing parent path with
  | nil => rfl
  | cons c children rest ihc ihr =>
    obtain ⟨_, hids, hchildren, hrest⟩ := linkedBelow_cons.mp h
    simp only [componentsOf_cons, List.map_cons, List.map_append, List.nodup_cons,
      List.nodup_append, List.mem_cons, List.mem_append] at hfound hn hpath
    obtain ⟨hc, hnc, hnr, _⟩ := hn
    have below := ihc (c.id :: path) hchildren (fun d hd => hfound d (.inr (.inl hd))) hnc (by
      intro d hd
      simp only [List.mem_cons, not_or]
      exact ⟨fun heq => hc (.inl (heq ▸ List.mem_map_of_mem hd)), hpath d (.inr (.inl hd))⟩)
    have beside := ihr path hrest (fun d hd => hfound d (.inr (.inr hd))) hnr
      (fun d hd => hpath d (.inr (.inr hd)))
    have hnested : (forest.children c).isEmpty = children.isEmpty := by
      rw [Forest.children, hids]
      cases hcase : children with
      | nil => rfl
      | cons t others =>
        obtain ⟨hroot, _⟩ := linked_root hchildren (hcase ▸ List.mem_cons_self (a := t))
        have ht : forest.find? t.id = some t.root := hfound _ (.inr (.inl hroot))
        simp [ht]
    have here : forest.viewBelow substitutions path c.id =
        some (view substitutions (.node c children)) := by
      have hnew : c.id ∉ path := hpath c (.inl rfl)
      rw [Forest.viewBelow_found (hfound c (.inl rfl)), view]
      cases substitutions.find? c.id with
      | some name => rfl
      | none =>
        simp only [hnew, if_false, hids, below, hnested]
        split <;> rfl
    rw [List.map_cons, id_node, List.filterMap_cons_some here, beside]
    rfl

end ComponentTree

namespace Spells

open ComponentTree

variable {trees : List ComponentTree} {components : List Component}

/-- Every tree of the forest is rendered as its own view. -/
theorem view_subtree (h : Spells trees components) {t : ComponentTree} (ht : t ∈ subtreesOf trees)
    (substitutions : Substitutions) :
    (Forest.ofComponents components).views substitutions [t.id] = [t.view substitutions] := by
  obtain ⟨⟨owner, hlinked⟩, hsub⟩ := linked_subtree h.linked ht
  exact views_siblings (Forest.ofComponents components) substitutions [t] [] hlinked
    (fun c hc => h.find?_iff.mpr ⟨hsub.subset hc, rfl⟩) ((hsub.map _).nodup h.distinct) (by simp)

theorem body (h : Spells trees components)
    (hroots : trees.map ComponentTree.id = rootIds components) (substitutions : Substitutions) :
    (Forest.ofComponents components).body substitutions (rootIds components) =
      ⟨trees.length != 1, viewsOf substitutions trees⟩ := by
  have hviews := views_siblings (Forest.ofComponents components) substitutions trees [] h.linked
    (fun c hc => h.find?_iff.mpr ⟨hc, rfl⟩) h.distinct (by simp)
  rw [hroots] at hviews
  have hlength : (rootIds components).length = trees.length := by
    rw [← hroots, List.length_map]
  rw [Forest.body, hlength]
  exact congrArg (Body.mk _) hviews

end Spells

end Pagewright

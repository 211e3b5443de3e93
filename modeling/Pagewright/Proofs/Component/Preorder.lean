import Mathlib.Logic.Function.Iterate
import Pagewright.Proofs.Placement.Partition

/-!
# Walks in preorder

A walk keeps the ids still to be visited in one list. Two other accounts of it are given
here. `tour` is the traversal by recursion: a component comes before all that lies below
it, and the ids seen below are handed on to those beside it. `StackWalk` is the loop with a
stack: it takes one id at a time, marks it whether or not it names a component, and puts
on the stack only children that are not marked yet. On every graph all three visit the
same components in the same order; on a valid list that order is the one of the trees.
-/

set_option autoImplicit false

namespace Pagewright

/-! ## By recursion -/

structure Tour where
  visited : List Component
  seen : List String

namespace Forest

theorem unseen_mono (forest : Forest) {seen more : List String} (h : seen ⊆ more) :
    forest.unseen more ≤ forest.unseen seen := by
  apply List.countP_mono_left
  intro id _ hid
  simp only [decide_eq_true_eq] at hid ⊢
  exact fun hseen => hid (h hseen)

def tour (forest : Forest) (seen : List String) : List String → { t : Tour // seen ⊆ t.seen }
  | [] => ⟨⟨[], seen⟩, List.Subset.refl seen⟩
  | id :: rest =>
    if _old : id ∈ seen then tour forest seen rest
    else
      match _found : forest.find? id with
      | none => tour forest seen rest
      | some c =>
        match tour forest (id :: seen) c.childIds with
        | ⟨below, kept⟩ =>
          match tour forest below.seen rest with
          | ⟨beside, later⟩ =>
            ⟨⟨c :: (below.visited ++ beside.visited), beside.seen⟩,
              fun _ h => later (kept (List.mem_cons_of_mem id h))⟩
termination_by ids => (forest.unseen seen, ids.length)
decreasing_by
  · exact Prod.Lex.right _ (by simp)
  · exact Prod.Lex.right _ (by simp)
  · exact Prod.Lex.left _ _ (unseen_cons_lt forest seen id c _found _old)
  · exact Prod.Lex.left _ _
      ((unseen_mono forest kept).trans_lt (unseen_cons_lt forest seen id c _found _old))

def preorder (forest : Forest) (ids : List String) : List Component :=
  (forest.tour [] ids).val.visited

/-- A walk makes the tour of the ids at the front before it turns to the others. -/
theorem walkFrom_append (forest : Forest) (seen ids pending : List String) :
    forest.walkFrom seen (ids ++ pending) =
      (forest.tour seen ids).val.visited ++
        forest.walkFrom (forest.tour seen ids).val.seen pending := by
  fun_induction tour forest seen ids generalizing pending with
  | case1 seen => rfl
  | case2 seen id rest old ih => rw [List.cons_append, walkFrom_seen old, ih]
  | case3 seen id rest new found ih => rw [List.cons_append, walkFrom_missing found, ih]
  | case4 seen id rest new c found below kept hbelow beside later hbeside ihbelow ihbeside =>
    rw [hbelow] at ihbelow
    rw [hbeside] at ihbeside
    rw [List.cons_append, walkFrom_found new found, ihbelow, ihbeside]
    simp

theorem walk_eq_preorder (forest : Forest) (ids : List String) :
    forest.walk ids = forest.preorder ids := by
  have toured := forest.walkFrom_append [] ids []
  rw [List.append_nil, walkFrom, List.append_nil] at toured
  exact toured

/-! ## With a stack -/

/-- A seen id may be left out wherever it stands. -/
theorem walkFrom_drop (forest : Forest) {seen : List String} {id : String} (h : id ∈ seen)
    (front rest : List String) :
    forest.walkFrom seen (front ++ id :: rest) = forest.walkFrom seen (front ++ rest) := by
  have still : id ∈ (forest.tour seen front).val.seen := (forest.tour seen front).property h
  rw [walkFrom_append, walkFrom_append, walkFrom_seen still]

theorem walkFrom_filter (forest : Forest) (seen front ids rest : List String) :
    forest.walkFrom seen (front ++ (ids.filter (· ∉ seen) ++ rest)) =
      forest.walkFrom seen (front ++ (ids ++ rest)) := by
  induction ids generalizing front with
  | nil => rfl
  | cons id ids ih =>
    by_cases h : id ∈ seen
    · rw [List.filter_cons_of_neg (by simpa using h), ih, List.cons_append,
        walkFrom_drop forest h]
    · have shifted := ih (front ++ [id])
      rw [List.filter_cons_of_pos (by simpa using h)]
      simpa using shifted

/-- Seen ids that name no component make no difference. -/
theorem walkFrom_congr (forest : Forest) {seen other : List String} (ids : List String)
    (h : ∀ id c, forest.find? id = some c → (id ∈ seen ↔ id ∈ other)) :
    forest.walkFrom seen ids = forest.walkFrom other ids := by
  fun_induction walkFrom forest seen ids generalizing other with
  | case1 seen => rw [walkFrom]
  | case2 seen id pending old ih =>
    cases found : forest.find? id with
    | none => rw [walkFrom_missing found, ih h]
    | some c => rw [walkFrom_seen ((h id c found).mp old), ih h]
  | case3 seen id pending new found ih => rw [walkFrom_missing found, ih h]
  | case4 seen id pending new c found ih =>
    have fresh : id ∉ other := fun hold => new ((h id c found).mpr hold)
    rw [walkFrom_found fresh found]
    apply congrArg
    apply ih
    intro k d hk
    rw [List.mem_cons, List.mem_cons, h k d hk]

end Forest

structure StackWalk where
  stack : List String
  seen : List String
  visited : List Component

namespace StackWalk

variable (forest : Forest)

def start (ids : List String) : StackWalk := ⟨ids, [], []⟩

def step (w : StackWalk) : StackWalk :=
  match w.stack with
  | [] => w
  | id :: stack =>
    if id ∈ w.seen then { w with stack }
    else
      match forest.find? id with
      | none => { w with stack, seen := id :: w.seen }
      | some c => ⟨c.childIds.filter (· ∉ id :: w.seen) ++ stack, id :: w.seen, w.visited ++ [c]⟩

def outcome (w : StackWalk) : List Component := w.visited ++ forest.walkFrom w.seen w.stack

theorem outcome_step (w : StackWalk) : (w.step forest).outcome forest = w.outcome forest := by
  obtain ⟨stack, seen, visited⟩ := w
  cases stack with
  | nil => rfl
  | cons id stack =>
    by_cases old : id ∈ seen
    · simp [step, outcome, old, Forest.walkFrom_seen old]
    · cases found : forest.find? id with
      | none =>
        have unmarked : forest.walkFrom (id :: seen) stack = forest.walkFrom seen stack := by
          apply forest.walkFrom_congr
          intro k c hk
          have hne : k ≠ id := by
            rintro rfl
            rw [found] at hk
            cases hk
          simp [hne]
        simp [step, outcome, old, found, unmarked, Forest.walkFrom_missing found]
      | some c =>
        have pushed := forest.walkFrom_filter (id :: seen) [] c.childIds stack
        simp only [List.nil_append] at pushed
        simp only [step, outcome, old, found, if_false, pushed, Forest.walkFrom_found old found,
          List.append_assoc, List.singleton_append]

/-- A step leaves fewer ids unseen, or as many and a shorter stack. -/
theorem step_decreases {w : StackWalk} (h : w.stack ≠ []) :
    Prod.Lex (· < ·) (· < ·) (forest.unseen (w.step forest).seen, (w.step forest).stack.length)
      (forest.unseen w.seen, w.stack.length) := by
  obtain ⟨stack, seen, visited⟩ := w
  cases stack with
  | nil => exact absurd rfl h
  | cons id stack =>
    by_cases old : id ∈ seen
    · simp only [step, old, if_true]
      exact Prod.Lex.right _ (by simp)
    · cases found : forest.find? id with
      | none =>
        simp only [step, old, found, if_false]
        rcases (forest.unseen_mono (List.subset_cons_self id seen)).lt_or_eq with hlt | heq
        · exact Prod.Lex.left _ _ hlt
        · rw [heq]
          exact Prod.Lex.right _ (by simp)
      | some c =>
        simp only [step, old, found, if_false]
        exact Prod.Lex.left _ _ (forest.unseen_cons_lt seen id c found old)

theorem outcome_iterate (n : Nat) (w : StackWalk) :
    ((step forest)^[n] w).outcome forest = w.outcome forest := by
  induction n generalizing w with
  | zero => rfl
  | succ n ih => rw [Function.iterate_succ_apply, ih, outcome_step]

/-- The stack runs empty. -/
theorem exists_end (w : StackWalk) : ∃ n, ((step forest)^[n] w).stack = [] := by
  by_cases h : w.stack = []
  · exact ⟨0, h⟩
  · obtain ⟨n, hn⟩ := exists_end (w.step forest)
    exact ⟨n + 1, by rw [Function.iterate_succ_apply, hn]⟩
termination_by (forest.unseen w.seen, w.stack.length)
decreasing_by exact step_decreases forest h

theorem visited_of_end {w : StackWalk} (h : w.stack = []) : w.visited = w.outcome forest := by
  rw [outcome, h, Forest.walkFrom, List.append_nil]

/-- The loop comes to an end, and has then visited what the walk visits. -/
theorem exists_finished (ids : List String) :
    ∃ n, ((step forest)^[n] (start ids)).stack = [] ∧
      ((step forest)^[n] (start ids)).visited = forest.walk ids := by
  obtain ⟨n, hn⟩ := exists_end forest (start ids)
  refine ⟨n, hn, ?_⟩
  rw [visited_of_end forest hn, outcome_iterate]
  rfl

end StackWalk

/-! ## Over trees -/

namespace ComponentTree

theorem roots_sublist (trees : List ComponentTree) :
    (trees.map id).Sublist ((componentsOf trees).map Component.id) := by
  induction trees with
  | nil => exact List.Sublist.slnil
  | cons t rest ih =>
    obtain ⟨c, children⟩ := t
    simp only [List.map_cons, componentsOf_cons, List.map_append, id_node]
    exact (ih.trans (List.sublist_append_right _ _)).cons_cons c.id

/-- In preorder a component comes before its children, and these in the order in which it lists
them. -/
theorem listed_sublist {parent : Option String} {trees : List ComponentTree}
    (h : LinkedBelow parent trees) {c : Component} (hc : c ∈ componentsOf trees) :
    (c.id :: c.childIds).Sublist ((componentsOf trees).map Component.id) := by
  induction trees using siblings_induction generalizing parent with
  | nil => simp at hc
  | cons e children rest ihc ihr =>
    obtain ⟨_, hids, hchildren, hrest⟩ := linkedBelow_cons.mp h
    simp only [componentsOf_cons, List.mem_cons, List.mem_append] at hc
    simp only [componentsOf_cons, List.map_cons, List.map_append]
    rcases hc with rfl | hc | hc
    · rw [hids]
      exact ((roots_sublist children).trans (List.sublist_append_left _ _)).cons_cons c.id
    · exact ((ihc hchildren hc).trans (List.sublist_append_left _ _)).cons e.id
    · exact ((ihr hrest hc).trans (List.sublist_append_right _ _)).cons e.id

end ComponentTree

structure OrderedDown (order components : List Component) : Prop where
  complete : order.Perm components
  after_parent : ∀ c ∈ components, ∀ parent, c.parentId = some parent →
    [parent, c.id].Sublist (order.map Component.id)
  siblings : ∀ c ∈ components, c.childIds.Sublist (order.map Component.id)

theorem Spells.orderedDown {trees : List ComponentTree} {components : List Component}
    (h : Spells trees components) (hroots : trees.map ComponentTree.id = rootIds components) :
    OrderedDown ((Forest.ofComponents components).walk (rootIds components)) components := by
  have walked : (Forest.ofComponents components).walk (rootIds components) =
      ComponentTree.componentsOf trees :=
    (h.walk hroots).trans (ComponentTree.places_components [] trees)
  rw [walked]
  refine ⟨h.listed.symm, ?_, ?_⟩
  · intro c hc parent hparent
    rcases ComponentTree.linked_owner h.linked (h.listed.mem_iff.mp hc) with
      ⟨_, hroot⟩ | ⟨owner, howner, hpoints, hlisted⟩
    · rw [hparent] at hroot
      cases hroot
    · obtain rfl : parent = owner.id := Option.some.inj (hparent.symm.trans hpoints)
      have pair : [owner.id, c.id].Sublist (owner.id :: owner.childIds) :=
        (List.singleton_sublist.mpr hlisted).cons_cons owner.id
      exact pair.trans (ComponentTree.listed_sublist h.linked howner)
  · intro c hc
    exact (List.sublist_cons_self c.id c.childIds).trans
      (ComponentTree.listed_sublist h.linked (h.listed.mem_iff.mp hc))

/-- From any ids of any component list, the loop with a stack ends with the components of the walk,
and these are the recursive preorder: no id twice, and exactly what the ids lead to. From the roots
of a valid list it is all components, each after its parent and siblings in the order listed. -/
theorem walk_in_preorder (components : List Component) (ids : List String) :
    let forest := Forest.ofComponents components
    (∃ n, ((StackWalk.step forest)^[n] (StackWalk.start ids)).stack = [] ∧
      ((StackWalk.step forest)^[n] (StackWalk.start ids)).visited = forest.walk ids) ∧
    forest.walk ids = forest.preorder ids ∧
    ((forest.walk ids).map Component.id).Nodup ∧
    (∀ c, c ∈ forest.walk ids ↔ forest.Reaches [] ids c) ∧
    (componentViolations components = [] →
      OrderedDown (forest.walk (rootIds components)) components) := by
  intro forest
  refine ⟨StackWalk.exists_finished forest ids, forest.walk_eq_preorder ids,
    Forest.walkFrom_ids_nodup components [] ids, forest.mem_walk_iff ids, ?_⟩
  intro valid
  obtain ⟨trees, hspells, hroots⟩ := exists_trees_of_no_violations valid
  exact hspells.orderedDown hroots

namespace Sample

theorem walk_in_preorder_box :
    componentViolations components = [] ∧
      let forest := Forest.ofComponents components
      OrderedDown (forest.walk (rootIds components)) components ∧
        ["picture", "\"ask\""].Sublist ((forest.walk (rootIds components)).map Component.id) := by
  have down := (walk_in_preorder components ["way", "box", "box"]).2.2.2.2 valid
  exact ⟨valid, down, down.siblings box (by simp [components])⟩

end Sample

end Pagewright

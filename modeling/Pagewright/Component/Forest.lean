import Pagewright.Component.Basic

/-!
# The component graph

A forest is the list of components indexed by id. It promises nothing about the
shape: ids may repeat, in which case the last component stands at the first
position, children may be missing, shared or cyclic. Walks and depths are defined
on every such graph, because a walk never visits an id twice and a path never
repeats one. The number of ids not yet seen bounds both.
-/

set_option autoImplicit false

namespace Pagewright

structure Forest where
  nodes : OrderedMap Component
  roots : List String
  deriving Repr

namespace Forest

def ofComponents (components : List Component) : Forest where
  nodes := OrderedMap.ofList (components.map fun c => (c.id, c))
  roots := rootIds components

def find? (forest : Forest) (id : String) : Option Component := forest.nodes.find? id

def contains (forest : Forest) (id : String) : Bool := forest.nodes.contains id

def size (forest : Forest) : Nat := forest.nodes.size

def components (forest : Forest) : List Component := forest.nodes.values

def children (forest : Forest) (c : Component) : List Component :=
  c.childIds.filterMap forest.find?

def unseen (forest : Forest) (seen : List String) : Nat :=
  forest.nodes.keys.countP (fun id => id ∉ seen)

theorem mem_keys_of_lookup {α : Type} (id : String) (entries : List (String × α)) (value : α)
    (h : lookup id entries = some value) : id ∈ entries.map Prod.fst := by
  induction entries with
  | nil => simp [lookup] at h
  | cons entry rest ih =>
    obtain ⟨k, v⟩ := entry
    by_cases hk : k = id
    · simp [hk]
    · rw [lookup, if_neg hk] at h
      exact List.mem_cons_of_mem _ (ih h)

theorem mem_keys_of_find? (forest : Forest) (id : String) (c : Component)
    (h : forest.find? id = some c) : id ∈ forest.nodes.keys :=
  mem_keys_of_lookup id forest.nodes.entries c h

theorem countP_lt_of_mem (ids seen : List String) (id : String) (hmem : id ∈ ids)
    (hnew : id ∉ seen) :
    ids.countP (fun x => x ∉ id :: seen) < ids.countP (fun x => x ∉ seen) := by
  induction ids with
  | nil => simp at hmem
  | cons y rest ih =>
    have mono : rest.countP (fun x => x ∉ id :: seen) ≤ rest.countP (fun x => x ∉ seen) := by
      apply List.countP_mono_left
      intro x _ hx
      simp only [List.mem_cons, not_or, decide_eq_true_eq] at hx
      simpa using hx.2
    simp only [List.countP_cons]
    by_cases hy : y = id
    · subst hy
      have gone : decide (y ∉ y :: seen) = false := by simp
      have kept : decide (y ∉ seen) = true := by simpa using hnew
      rw [gone, kept]
      simp only [if_true, Bool.false_eq_true, if_false]
      omega
    · have step := ih ((List.mem_cons.mp hmem).resolve_left (Ne.symm hy))
      have same : decide (y ∉ id :: seen) = decide (y ∉ seen) := by simp [hy]
      rw [same]
      omega

theorem unseen_cons_lt (forest : Forest) (seen : List String) (id : String) (c : Component)
    (hfind : forest.find? id = some c) (hnew : id ∉ seen) :
    forest.unseen (id :: seen) < forest.unseen seen :=
  countP_lt_of_mem _ seen id (mem_keys_of_find? forest id c hfind) hnew

def walkFrom (forest : Forest) (seen : List String) : List String → List Component
  | [] => []
  | id :: pending =>
    if _old : id ∈ seen then walkFrom forest seen pending
    else
      match _found : forest.find? id with
      | none => walkFrom forest seen pending
      | some c => c :: walkFrom forest (id :: seen) (c.childIds ++ pending)
termination_by pending => (forest.unseen seen, pending.length)
decreasing_by
  · exact Prod.Lex.right _ (by simp)
  · exact Prod.Lex.right _ (by simp)
  · exact Prod.Lex.left _ _ (unseen_cons_lt forest seen id c _found _old)

def walk (forest : Forest) (ids : List String) : List Component := forest.walkFrom [] ids

def depthBelow (forest : Forest) (path : List String) (id : String) : Nat :=
  if _old : id ∈ path then 0
  else
    match _found : forest.find? id with
    | none => 0
    | some c => (c.childIds.map (fun child => depthBelow forest (id :: path) child)).foldl max 0 + 1
termination_by forest.unseen path
decreasing_by
  exact unseen_cons_lt forest path id c _found _old

def maxDepth (forest : Forest) : Nat :=
  (forest.roots.map (forest.depthBelow [])).foldl max 0

def chainFrom (forest : Forest) (seen : List String) (parent : Option String) : List Component :=
  match parent with
  | none => []
  | some id =>
    if _old : id ∈ seen then []
    else
      match _found : forest.find? id with
      | none => []
      | some c => c :: chainFrom forest (id :: seen) c.parentId
termination_by forest.unseen seen
decreasing_by
  exact unseen_cons_lt forest seen id c _found _old

def ancestors (forest : Forest) (id : String) : List Component :=
  forest.chainFrom [] ((forest.find? id).bind Component.parentId)

end Forest

end Pagewright

import Pagewright.Placement.Classification

/-!
# Client islands

Everything below a browser component runs in the browser too. The walk from the
roots carries that fact down, so that the components fall into whole client
subtrees, the islands, and the server part around them. `visits` reads off each
component where it runs; `partition` takes that from a report made before.
-/

set_option autoImplicit false

namespace Pagewright

structure Visit where
  component : Component
  inside : Bool
  deriving Repr

def Visit.onClient (v : Visit) : Bool := v.inside || v.component.isClient

namespace Forest

def visitsFrom (forest : Forest) (seen : List String) : List (String × Bool) → List Visit
  | [] => []
  | (id, inside) :: pending =>
    if _old : id ∈ seen then visitsFrom forest seen pending
    else
      match _found : forest.find? id with
      | none => visitsFrom forest seen pending
      | some c =>
        let visit : Visit := ⟨c, inside⟩
        visit :: visitsFrom forest (id :: seen)
          (c.childIds.map (fun child => (child, visit.onClient)) ++ pending)
termination_by pending => (forest.unseen seen, pending.length)
decreasing_by
  · exact Prod.Lex.right _ (by simp)
  · exact Prod.Lex.right _ (by simp)
  · exact Prod.Lex.left _ _ (unseen_cons_lt forest seen id c _found _old)

def visits (forest : Forest) : List Visit :=
  forest.visitsFrom [] (forest.roots.map fun id => (id, false))

def islandRoots (forest : Forest) : List String :=
  (forest.visits.filter fun v => v.component.isClient && !v.inside).map (·.component.id)

def clientIds (forest : Forest) : List String :=
  (forest.visits.filter Visit.onClient).map (·.component.id)

def serverIds (forest : Forest) : List String :=
  (forest.visits.filter fun v => !v.onClient).map (·.component.id)

end Forest

structure IslandPartition where
  islandRoots : List String
  clientIds : List String
  serverIds : List String
  deriving DecidableEq, Repr

def IslandPartition.file (later : IslandPartition) (id : String) (isClient inside : Bool) :
    IslandPartition where
  islandRoots := if isClient && !inside then id :: later.islandRoots else later.islandRoots
  clientIds := if inside || isClient then id :: later.clientIds else later.clientIds
  serverIds := if inside || isClient then later.serverIds else id :: later.serverIds

namespace Forest

def partitionFrom (forest : Forest) (report : PlacementReport) (seen : List String) :
    List (String × Bool) → IslandPartition
  | [] => ⟨[], [], []⟩
  | (id, inside) :: pending =>
    if _old : id ∈ seen then partitionFrom forest report seen pending
    else
      match _found : forest.find? id with
      | none => partitionFrom forest report seen pending
      | some c =>
        let isClient := report.placementOf? id == some .client
        (partitionFrom forest report (id :: seen)
          (c.childIds.map (fun child => (child, inside || isClient)) ++ pending)).file
          id isClient inside
termination_by pending => (forest.unseen seen, pending.length)
decreasing_by
  · exact Prod.Lex.right _ (by simp)
  · exact Prod.Lex.right _ (by simp)
  · exact Prod.Lex.left _ _ (unseen_cons_lt forest seen id c _found _old)

def partition (forest : Forest) (report : PlacementReport) : IslandPartition :=
  forest.partitionFrom report [] (forest.roots.map fun id => (id, false))

end Forest

end Pagewright

import Pagewright.Component.Forest
import Pagewright.Component.Violation

/-!
# Well-formed component lists

A component list is sound when it spells out a forest of trees: ids are distinct
and not blank, every listed child exists, has one owner and points back at it,
every parent pointer is backed by a listing, and everything is reached from a
root. `componentViolations` reports every breach, rule after rule, in list order.
-/

set_option autoImplicit false

namespace Pagewright

def namedForest (components : List Component) : Forest :=
  Forest.ofComponents (components.filter fun c => !Text.isBlank c.id)

def idViolations (seen : List String) : List Component → List Violation
  | [] => []
  | c :: rest =>
    if Text.isBlank c.id then .blankId c.kind :: idViolations seen rest
    else if seen.contains c.id then .duplicateId c.id :: idViolations seen rest
    else idViolations (c.id :: seen) rest

structure Listing where
  owner : String
  child : String
  deriving DecidableEq, Repr

def listings (components : List Component) : List Listing :=
  components.flatMap fun c => c.childIds.map fun child => ⟨c.id, child⟩

def pointerViolations (entry : Listing) (child : Component) : List Violation :=
  match child.parentId with
  | none => [.rootAsChild entry.child entry.owner]
  | some parent =>
    if parent = entry.owner then [] else [.parentMismatch entry.child entry.owner parent]

/-- The first listing of each existing child owns it; `owners` are the owners found so far. -/
def ownerViolations (forest : Forest) (owners : List (String × String)) :
    List Listing → List Violation
  | [] => []
  | entry :: rest =>
    match forest.find? entry.child with
    | none => .danglingChild entry.owner entry.child :: ownerViolations forest owners rest
    | some child =>
      match lookup entry.child owners with
      | some first =>
        .sharedChild entry.child first entry.owner :: ownerViolations forest owners rest
      | none =>
        pointerViolations entry child ++
          ownerViolations forest ((entry.child, entry.owner) :: owners) rest

def owned (forest : Forest) (components : List Component) : List String :=
  ((listings components).map Listing.child).filter forest.contains

def parentViolation (forest : Forest) (owned : List String) (c : Component) : Option Violation :=
  match c.parentId with
  | none => none
  | some parent =>
    if !forest.contains parent then some (.unknownParent c.id parent)
    else if !owned.contains c.id then some (.orphanedChild c.id parent)
    else none

/-- An owned component that no root leads to. One that nobody owns is reported elsewhere. -/
def reachViolation (reached owned : List String) (c : Component) : Option Violation :=
  if Text.isBlank c.id || reached.contains c.id || !owned.contains c.id then none
  else some (.unreachable c.id)

def componentViolations (components : List Component) : List Violation :=
  if components.isEmpty then [.noComponents]
  else
    let forest := namedForest components
    let owned := owned forest components
    let reached := (forest.walk (rootIds components)).map Component.id
    idViolations [] components ++
      (if (rootIds components).isEmpty then [.noRoot] else []) ++
      ownerViolations forest [] (listings components) ++
      components.filterMap (parentViolation forest owned) ++
      components.filterMap (reachViolation reached owned)

end Pagewright

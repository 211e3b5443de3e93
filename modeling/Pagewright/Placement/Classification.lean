import Pagewright.Component.Forest
import Pagewright.Component.Primitive
import Pagewright.Placement.Handler
import Pagewright.Placement.Hook

/-!
# Where components run

A component runs in the browser when it has an executable handler, renders as an
interactive primitive or calls a hook; otherwise it renders on the server. A page
is a client page as soon as one of its components runs in the browser, or when
server rendering is not wanted.
-/

set_option autoImplicit false

namespace Pagewright

inductive Placement where
  | client
  | server
  deriving DecidableEq, Repr

namespace Placement

def isClient : Placement → Bool
  | .client => true
  | .server => false

def directive? : Placement → Option String
  | .client => some "\"use client\";"
  | .server => none

end Placement

inductive PlacementReason where
  | eventHandler (property : String)
  | interactivePrimitive (kind : String)
  | hookUsage (hook : String)
  deriving DecidableEq, Repr

namespace Component

def placementReasons (c : Component) : List PlacementReason :=
  c.handlers.map (fun handler => .eventHandler handler.1) ++
    (if (Primitive.ofKind c.kind).interactive then [.interactivePrimitive c.kind] else []) ++
    c.hooks.map (fun hook => .hookUsage hook.name)

def placement (c : Component) : Placement :=
  if c.placementReasons.isEmpty then .server else .client

def isClient (c : Component) : Bool := c.placement.isClient

end Component

structure PlacementReport where
  components : List Component
  page : Placement
  deriving Repr

namespace PlacementReport

def placementOf? (report : PlacementReport) (id : String) : Option Placement :=
  (report.components.find? fun c => c.id == id).map Component.placement

def clientCount (report : PlacementReport) : Nat := report.components.countP Component.isClient

def serverCount (report : PlacementReport) : Nat := report.components.countP (fun c => !c.isClient)

end PlacementReport

def Forest.classify (forest : Forest) (ids : List String) (preferServer : Bool) : PlacementReport :=
  let components := forest.walk ids
  ⟨components, if components.any Component.isClient || !preferServer then .client else .server⟩

end Pagewright

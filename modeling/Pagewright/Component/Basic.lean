import Pagewright.Json.Value
import Pagewright.Style.Value

/-!
# Components

A page is edited as a flat list of components that name their parent and, in
rendering order, their children. Position, size and the two editor flags are
carried along and never rendered.
-/

set_option autoImplicit false

namespace Pagewright

structure Position where
  x : Binary64
  y : Binary64
  deriving DecidableEq, Repr

structure Size where
  width : Binary64
  height : Binary64
  deriving DecidableEq, Repr

structure Component where
  id : String
  kind : String
  parentId : Option String
  childIds : List String
  properties : OrderedMap Json
  styles : OrderedMap StyleValue
  position : Option Position
  size : Option Size
  locked : Bool
  hidden : Bool
  deriving Repr

namespace Component

def isRoot (c : Component) : Bool := c.parentId.isNone

def textKeys : List String := ["text", "label", "children"]

def isContent : Json → Bool
  | .text _ => true
  | .whole _ => true
  | .real _ => true
  | _ => false

def content? (c : Component) : Option (String × Json) :=
  textKeys.findSome? fun key =>
    match c.properties.find? key with
    | some value => if isContent value then some (key, value) else none
    | none => none

end Component

def rootIds (components : List Component) : List String :=
  (components.filter Component.isRoot).map Component.id

end Pagewright

import Pagewright.Component.Forest
import Pagewright.Markup.Element

/-!
# Views

A view is what rendering makes of the component graph: the tree unfolded from an
id, cut at components that are replaced by a placeholder, at elements that can
hold no content, and where a component would come to stand inside itself. Its
elements are the markup, its components the ones rendered, in order.
-/

set_option autoImplicit false

namespace Pagewright

inductive View where
  | placeholder (name : String)
  /-- A rendered component; `nested` says that it has children in the graph. -/
  | node (root : Component) (nested : Bool) (children : List View)
  deriving Repr

namespace View

def elementOf (options : Options) (c : Component) (nested : Bool) (children : List Element) :
    Element :=
  let primitive := Primitive.ofKind c.kind
  let attributes := c.attributes options
  if primitive.void then .leaf primitive.tag attributes
  else if nested then .nested primitive.tag attributes (c.content?.map Prod.snd) children
  else
    match c.content? with
    | some (_, content) => .textual primitive.tag attributes content
    | none => .leaf primitive.tag attributes

mutual

def element (options : Options) : View → Element
  | .placeholder name => .placeholder name
  | .node root nested children => elementOf options root nested (elements options children)

def elements (options : Options) : List View → List Element
  | [] => []
  | view :: rest => element options view :: elements options rest

end

mutual

def components : View → List Component
  | .placeholder _ => []
  | .node root _ children => root :: componentsOf children

def componentsOf : List View → List Component
  | [] => []
  | view :: rest => components view ++ componentsOf rest

end

end View

abbrev Substitutions := OrderedMap String

namespace Forest

def viewBelow (forest : Forest) (substitutions : Substitutions) (path : List String) (id : String) :
    Option View :=
  match _found : forest.find? id with
  | none => none
  | some c =>
    match substitutions.find? id with
    | some name => some (.placeholder name)
    | none =>
      if _old : id ∈ path then none
      else if (Primitive.ofKind c.kind).void then some (.node c false [])
      else
        some (.node c (!(forest.children c).isEmpty)
          (c.childIds.filterMap fun child => viewBelow forest substitutions (id :: path) child))
termination_by forest.unseen path
decreasing_by
  exact unseen_cons_lt forest path id c _found _old

def view (forest : Forest) (substitutions : Substitutions) (id : String) : Option View :=
  forest.viewBelow substitutions [] id

def views (forest : Forest) (substitutions : Substitutions) (ids : List String) : List View :=
  ids.filterMap (forest.view substitutions)

end Forest

/-- The markup of several views: wrapped in a fragment unless exactly one id was asked for. -/
structure Body where
  fragment : Bool
  views : List View
  deriving Repr

namespace Body

def lines (options : Options) (depth : Nat) (body : Body) : List String :=
  (View.elements options body.views).flatMap (Element.lines depth)

def render (options : Options) (depth : Nat) (body : Body) : String :=
  if body.fragment then
    Text.indent depth ++ "<>\n" ++ Text.unlines (body.lines options (depth + 1)) ++ "\n" ++
      Text.indent depth ++ "</>"
  else Text.unlines (body.lines options depth)

def components (body : Body) : List Component := View.componentsOf body.views

end Body

def Forest.body (forest : Forest) (substitutions : Substitutions) (ids : List String) : Body :=
  ⟨ids.length != 1, forest.views substitutions ids⟩

end Pagewright

import Pagewright.Component.Basic

/-!
# Violations

Each rule that a request must meet has a constructor for its breach, with what
was found. Code, message, guarantee and hints are read off the constructor.
-/

set_option autoImplicit false

namespace Pagewright

inductive Violation where
  | missingPath
  | missingTitle
  | missingSource
  | noComponents
  | blankId (kind : String)
  | duplicateId (id : String)
  | noRoot
  | danglingChild (owner child : String)
  | sharedChild (child first second : String)
  | rootAsChild (child owner : String)
  | parentMismatch (child owner claimed : String)
  | unknownParent (id parent : String)
  | orphanedChild (id parent : String)
  | unreachable (id : String)
  | routeParameter (name : String)
  | noRouteParameter
  | actionParameter (name action : String)
  deriving DecidableEq, Repr

namespace Violation

def code : Violation → String
  | .missingPath => "PG-ERR-PATH-001"
  | .missingTitle => "PG-ERR-TITLE-001"
  | .missingSource => "PG-ERR-DATA-001"
  | .noComponents => "PG-ERR-EMPTY-001"
  | .blankId _ => "PG-ERR-ID-001"
  | .duplicateId _ => "PG-ERR-DUPLICATE-001"
  | .noRoot => "PG-ERR-ROOT-001"
  | .danglingChild .. => "PG-ERR-DANGLING-001"
  | .sharedChild .. => "PG-ERR-OWNER-001"
  | .rootAsChild .. => "PG-ERR-ROOT-002"
  | .parentMismatch .. => "PG-ERR-PARENT-001"
  | .unknownParent .. => "PG-ERR-PARENT-002"
  | .orphanedChild .. => "PG-ERR-PARENT-003"
  | .unreachable _ => "PG-ERR-CYCLE-001"
  | .routeParameter _ => "PG-ERR-ROUTE-001"
  | .noRouteParameter => "PG-ERR-ROUTE-001"
  | .actionParameter .. => "PG-ERR-ACTION-001"

def cite (name : String) : String := "\"" ++ name ++ "\""

def message : Violation → String
  | .missingPath => "Page path is required."
  | .missingTitle => "Page title is required."
  | .missingSource => "Data fetching requires a non-empty source."
  | .noComponents => "At least one component is required."
  | .blankId kind => "A component of type " ++ cite kind ++ " has an empty id."
  | .duplicateId id => "Component id " ++ cite id ++ " is used more than once."
  | .noRoot => "No root component found (every component has a parentId)."
  | .danglingChild owner child =>
    "Component " ++ cite owner ++ " lists child " ++ cite child ++ " which does not exist."
  | .sharedChild child first second =>
    "Component " ++ cite child ++ " is listed as a child of both " ++ cite first ++ " and " ++
      cite second ++ "."
  | .rootAsChild child owner =>
    "Root component " ++ cite child ++ " is listed as a child of " ++ cite owner ++ "."
  | .parentMismatch child owner claimed =>
    "Component " ++ cite child ++ " is listed by " ++ cite owner ++ " but its parentId is " ++
      cite claimed ++ "."
  | .unknownParent id parent =>
    "Component " ++ cite id ++ " has parentId " ++ cite parent ++ " which does not exist."
  | .orphanedChild id parent =>
    "Component " ++ cite id ++ " points at parent " ++ cite parent ++ " which does not list it."
  | .unreachable id =>
    "Component " ++ cite id ++ " is not reachable from any root (cycle in childIds)."
  | .routeParameter name => "Route parameter " ++ cite name ++ " is not an identifier."
  | .noRouteParameter => "A dynamic route needs at least one parameter."
  | .actionParameter name action =>
    "Parameter " ++ cite name ++ " of action " ++ cite action ++ " is not an identifier."

def guarantee : Violation → String
  | .missingPath => "Every generated page is mounted at a route path."
  | .missingTitle => "Every generated page carries a title."
  | .missingSource => "Data-fetching pages name the resource they fetch."
  | .noComponents => "A page renders at least one component."
  | .blankId _ => "Component ids are non-empty."
  | .duplicateId _ => "Component ids are unique within a generation run."
  | .noRoot => "Every page has at least one root component (parentId = null)."
  | .danglingChild .. => "Every child id resolves within the same component set."
  | .sharedChild .. => "A component is owned by exactly one parent."
  | .rootAsChild .. => "Root components are never owned by another component."
  | .parentMismatch .. => "Child id lists and parentId pointers describe the same tree."
  | .unknownParent .. => "Every parentId resolves within the same component set."
  | .orphanedChild .. => "Child id lists and parentId pointers describe the same tree."
  | .unreachable _ => "The component graph is acyclic and connected to a root."
  | .routeParameter _ => "Route parameters are valid identifiers, used once per route."
  | .noRouteParameter => "Route parameters are valid identifiers, used once per route."
  | .actionParameter .. => "Action parameters are valid identifiers."

def componentId? : Violation → Option String
  | .duplicateId id => some id
  | .danglingChild owner _ => some owner
  | .sharedChild child _ _ => some child
  | .rootAsChild child _ => some child
  | .parentMismatch child _ _ => some child
  | .unknownParent id _ => some id
  | .orphanedChild id _ => some id
  | .unreachable id => some id
  | _ => none

def relatedId? : Violation → Option String
  | .danglingChild _ child => some child
  | .sharedChild _ _ second => some second
  | .rootAsChild _ owner => some owner
  | .parentMismatch _ owner _ => some owner
  | .unknownParent _ parent => some parent
  | .orphanedChild _ parent => some parent
  | _ => none

def hints : Violation → List String
  | .missingPath => ["Use \"/\" for the home page."]
  | .noComponents => ["Add a root component (parentId = null) to the page."]
  | .routeParameter _ => ["Use letters, digits, `_` or `$`, not starting with a digit."]
  | _ => []

def display (v : Violation) : String := "[" ++ v.code ++ "] " ++ v.message

end Violation

end Pagewright

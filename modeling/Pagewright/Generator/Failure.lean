import Pagewright.Component.Violation
import Pagewright.Text.Visible

/-!
# Failures

Why a request produced nothing. A failure within a batch names the page it
happened on.
-/

set_option autoImplicit false

namespace Pagewright

inductive Failure where
  | invalid (violations : List Violation)
  | malformedInput
  | unknownComponent (id : String)
  | invalidActionName (name : String)
  | invalidComponentName (name : String)
  | page (path : String) (cause : Failure)
  deriving DecidableEq, Repr

namespace Failure

def message : Failure → String
  | .invalid violations =>
    "page validation failed with " ++ Decimal.digitText violations.length ++ " violation(s): " ++
      Text.join "; " (violations.map Violation.message)
  | .malformedInput => "invalid generator input"
  | .unknownComponent id => "unknown component id: " ++ id
  | .invalidActionName name => "invalid action name: " ++ Text.visible name
  | .invalidComponentName name => "invalid component name: " ++ Text.visible name
  | .page path cause => "failed to generate page " ++ path ++ ": " ++ cause.message

def violations : Failure → List Violation
  | .invalid vs => vs
  | .page _ cause => cause.violations
  | _ => []

end Failure

end Pagewright

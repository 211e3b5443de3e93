import Pagewright.Text.Blank
import Pagewright.Text.Lines
import Pagewright.Text.Quoted

/-!
# Import statements

One merged statement per module: a default name, a namespace name, named and
type-only specifiers. Statements are printed by tier, framework first and
relative modules last, and by module within a tier.
-/

set_option autoImplicit false

namespace Pagewright

inductive ImportTier where
  | frameworkCore
  | frameworkExtension
  | thirdParty
  | internal
  | relative
  deriving DecidableEq, Repr

namespace ImportTier

def all : List ImportTier :=
  [.frameworkCore, .frameworkExtension, .thirdParty, .internal, .relative]

def name : ImportTier → String
  | .frameworkCore => "framework-core"
  | .frameworkExtension => "framework-extension"
  | .thirdParty => "third-party"
  | .internal => "internal"
  | .relative => "relative"

def startsWithAny (module : String) (starts : List String) : Bool :=
  starts.any (Text.startsWith module)

def ofModule (module : String) : ImportTier :=
  if ["react", "react-dom", "next"].contains module then .frameworkCore
  else if startsWithAny module ["react/", "react-dom/", "next/"] then .frameworkExtension
  else if startsWithAny module ["@/", "~/"] then .internal
  else if [".", ".."].contains module || startsWithAny module ["./", "../", "/"] then .relative
  else .thirdParty

end ImportTier

inductive ImportKind where
  | default
  | named
  | namespaced
  | sideEffect
  deriving DecidableEq, Repr

def ImportKind.name : ImportKind → String
  | .default => "default"
  | .named => "named"
  | .namespaced => "namespace"
  | .sideEffect => "side-effect"

structure ImportStatement where
  module : String
  defaultName : Option String
  namespaceName : Option String
  named : List String
  types : List String
  deriving DecidableEq, Repr

def localName (specifier : String) : String :=
  match Text.cutLast? " as ".toList specifier.toList with
  | some (_, bound) => Text.trim (String.ofList bound)
  | none => Text.trim specifier

namespace ImportStatement

def tier (s : ImportStatement) : ImportTier := ImportTier.ofModule s.module

def kind (s : ImportStatement) : ImportKind :=
  if s.namespaceName.isSome then .namespaced
  else if s.defaultName.isSome then .default
  else if s.named.isEmpty && s.types.isEmpty then .sideEffect
  else .named

def bindings (s : ImportStatement) : List String :=
  s.defaultName.toList ++ s.namespaceName.toList ++ (s.named ++ s.types).map localName

/-- Nothing but type specifiers, so that the whole statement is marked as one of types. -/
def isTypeOnly (s : ImportStatement) : Bool :=
  s.defaultName.isNone && s.namespaceName.isNone && s.named.isEmpty

def clause? (s : ImportStatement) : Option String :=
  if s.named.isEmpty && s.types.isEmpty then none
  else
    let types := if s.isTypeOnly then s.types else s.types.map ("type " ++ ·)
    some ("\x7b " ++ Text.join ", " (s.named ++ types) ++ " \x7d")

def line (s : ImportStatement) (what : String) : String :=
  "import " ++ what ++ " from " ++ Text.quoted s.module ++ ";"

/-- The source lines. A namespace cannot share a line with specifiers in braces. -/
def lines (s : ImportStatement) : List String :=
  match s.defaultName, s.namespaceName, s.clause? with
  | some d, some n, none => [s.line (d ++ ", * as " ++ n)]
  | some d, some n, some c => [s.line (d ++ ", * as " ++ n), s.line c]
  | none, some n, none => [s.line ("* as " ++ n)]
  | none, some n, some c => [s.line ("* as " ++ n), s.line c]
  | some d, none, none => [s.line d]
  | some d, none, some c => [s.line (d ++ ", " ++ c)]
  | none, none, none => ["import " ++ Text.quoted s.module ++ ";"]
  | none, none, some c => [s.line (if s.named.isEmpty then "type " ++ c else c)]

end ImportStatement

end Pagewright

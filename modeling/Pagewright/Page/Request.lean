import Pagewright.Component.Validation

/-!
# Requests

What a caller asks for: one page, with an optional description for search engines
and an optional source of data, or a project of several pages.
-/

set_option autoImplicit false

namespace Pagewright

structure OpenGraph where
  title : Option String
  description : Option String
  image : Option String
  url : Option String
  type : Option String
  deriving DecidableEq, Repr

structure Metadata where
  title : Option String := none
  description : Option String := none
  keywords : List String := []
  openGraph : Option OpenGraph := none
  robots : Option String := none
  canonical : Option String := none
  deriving DecidableEq, Repr

inductive CacheStrategy where
  | forceCache
  | noStore
  deriving DecidableEq, Repr

def CacheStrategy.name : CacheStrategy → String
  | .forceCache => "force-cache"
  | .noStore => "no-store"

structure DataFetching where
  source : String
  /-- Seconds after which the data is fetched again. -/
  revalidate : Option Nat
  /-- The name the data is bound to. -/
  variableName : Option String
  cache : Option CacheStrategy
  deriving DecidableEq, Repr

structure PageRequest where
  title : String
  description : String
  path : String
  metadata : Option Metadata
  dataFetching : Option DataFetching
  components : List Component
  deriving Repr

structure ProjectRequest where
  name : String
  description : String
  pages : List PageRequest
  deriving Repr

def PageRequest.violations (page : PageRequest) : List Violation :=
  (if Text.isBlank page.path then [.missingPath] else []) ++
    (if Text.isBlank page.title then [.missingTitle] else []) ++
    (match page.dataFetching with
      | some fetching => if Text.isBlank fetching.source then [.missingSource] else []
      | none => []) ++
    componentViolations page.components

inductive PageStrategy where
  | plain
  | metadata
  | dataFetching
  deriving DecidableEq, Repr

def PageStrategy.name : PageStrategy → String
  | .plain => "plain"
  | .metadata => "metadata"
  | .dataFetching => "data-fetching"

def PageRequest.strategy (page : PageRequest) : PageStrategy :=
  if page.dataFetching.isSome then .dataFetching
  else if page.metadata.isSome then .metadata
  else .plain

end Pagewright

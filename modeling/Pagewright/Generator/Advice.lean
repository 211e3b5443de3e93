import Pagewright.Markup.Attribute
import Pagewright.Ordered.Sorted
import Pagewright.Placement.Classification

/-!
# Analysis and advice

Counts over a component list, and suggestions that follow from them and from single
components. Nothing here is enforced.
-/

set_option autoImplicit false

namespace Pagewright

structure Analysis where
  total : Nat
  roots : Nat
  maxDepth : Nat
  client : Nat
  server : Nat
  hidden : Nat
  locked : Nat
  byKind : List (String × Nat)
  /-- Kinds without a primitive, in first-seen order. -/
  unknownKinds : List String
  deriving DecidableEq, Repr

def analyze (options : Options) (components : List Component) : Analysis :=
  let forest := Forest.ofComponents components
  let report := forest.classify forest.roots options.serverComponents
  { total := components.length
    roots := forest.roots.length
    maxDepth := forest.maxDepth
    client := report.clientCount
    server := report.serverCount
    hidden := components.countP Component.hidden
    locked := components.countP Component.locked
    byKind := Sorted.tally (components.map Component.kind)
    unknownKinds :=
      FirstSeen.ofList
        ((components.map Component.kind).filter fun kind => !Primitive.isKnown kind) }

inductive Suggestion where
  | missingAlt (id : String)
  | missingHref (id : String)
  | heavyInlineStyles (id : String) (count : Nat)
  | hiddenComponent (id : String)
  | deepNesting (depth : Nat)
  | largeTree (total : Nat)
  | preferSplit (client total : Nat)
  | unknownKind (kind : String)
  deriving DecidableEq, Repr

namespace Suggestion

def kind : Suggestion → String
  | .missingAlt _ => "missing-alt"
  | .missingHref _ => "missing-href"
  | .heavyInlineStyles .. => "heavy-inline-styles"
  | .hiddenComponent _ => "hidden-component"
  | .deepNesting _ => "deep-nesting"
  | .largeTree _ => "large-tree"
  | .preferSplit .. => "prefer-split"
  | .unknownKind _ => "unknown-type"

def message : Suggestion → String
  | .missingAlt id => "Image `" ++ id ++ "` has no alt text."
  | .missingHref id => "Link `" ++ id ++ "` has no href and will point to \"#\"."
  | .heavyInlineStyles id count =>
    "`" ++ id ++ "` keeps " ++ Decimal.digitText count ++ " inline styles; consider a shared class."
  | .hiddenComponent id => "`" ++ id ++ "` is hidden in the editor but still rendered."
  | .deepNesting depth =>
    "Tree is " ++ Decimal.digitText depth ++ " levels deep; consider extracting components."
  | .largeTree total =>
    "Page has " ++ Decimal.digitText total ++ " components; consider splitting it."
  | .preferSplit client total =>
    Decimal.digitText client ++ " of " ++ Decimal.digitText total ++
      " components are interactive; split mode keeps the rest on the server."
  | .unknownKind kind => "`" ++ kind ++ "` is not a known component type and renders as a <div>."

def componentId? : Suggestion → Option String
  | .missingAlt id => some id
  | .missingHref id => some id
  | .heavyInlineStyles id _ => some id
  | .hiddenComponent id => some id
  | _ => none

def isPreferSplit : Suggestion → Bool
  | .preferSplit .. => true
  | _ => false

end Suggestion

def deepNesting : Nat := 10

def largeTree : Nat := 100

def heavyInlineStyles : Nat := 5

namespace Component

def hasAltText (c : Component) : Bool :=
  match c.properties.find? "alt" with
  | some (.text s) => !Text.isBlank s
  | _ => false

def suggestions (options : Options) (c : Component) : List Suggestion :=
  let inlineCount := (c.sheet options).inline.size
  (if c.kind == "Image" && !c.hasAltText then [.missingAlt c.id] else []) ++
    (if c.kind == "Link" && !c.properties.contains "href" then [.missingHref c.id] else []) ++
    (if heavyInlineStyles < inlineCount then [.heavyInlineStyles c.id inlineCount] else []) ++
    (if c.hidden then [.hiddenComponent c.id] else [])

end Component

namespace Analysis

def suggestions (a : Analysis) : List Suggestion :=
  (if deepNesting < a.maxDepth then [.deepNesting a.maxDepth] else []) ++
    (if largeTree < a.total then [.largeTree a.total] else []) ++
    (if 0 < a.client && a.client < a.server then [.preferSplit a.client a.total] else []) ++
    a.unknownKinds.map .unknownKind

end Analysis

def suggest (options : Options) (components : List Component) : List Suggestion :=
  components.flatMap (Component.suggestions options) ++ (analyze options components).suggestions

end Pagewright

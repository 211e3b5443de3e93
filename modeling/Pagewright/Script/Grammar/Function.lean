import Pagewright.Script.Grammar.Type

/-!
# Grammar of patterns, functions and classes
-/

set_option autoImplicit false

namespace Pagewright.Script.Grammar

open Reader

/-! ## Patterns -/

def patternWithDefault (g : Grammar) (ctx : Context) : Reader Tree := do
  let pattern ← g.pattern ctx
  match ← g.initial ctx with
  | some value => return .withDefault pattern value
  | none => return pattern

/-- A property of an object pattern. A name alone stands for itself. -/
def patternField (g : Grammar) (ctx : Context) : Reader Tree := do
  let isWord := match ← token with
    | .word _ => true
    | _ => false
  let field ← g.key ctx
  if ← skipMark ":" then return .patternField field (← g.patternWithDefault ctx)
  match field with
  | .name w =>
    require (isWord && isName ctx w)
    match ← g.initial ctx with
    | some value => return .patternField field (.withDefault (.name w) value)
    | none => return .patternField field (.name w)
  | _ => failure

def itemsAndRest (g : Grammar) (ctx : Context) (close : String) (item : Reader Tree) :
    Reader (List Tree × Option Tree) := do
  let items ← many (do
    if (← atMark close) || (← atMark "...") then return none
    let a ← item
    if !(← atMark close) then mark ","
    return some a) g.bound
  let rest ← g.optionally ctx "..." Grammar.pattern
  mark close
  return (items, rest)

def patternItem (g : Grammar) (ctx : Context) : Reader Tree := do
  if ← atMark "," then return .hole
  g.patternWithDefault ctx

def isNamePattern : Tree → Bool
  | .name _ => true
  | _ => false

def patternRule (g : Grammar) (ctx : Context) : Reader Tree := do
  let inner := ctx.bracketed
  if ← skipMark "\x7b" then
    let (fields, rest) ← g.itemsAndRest inner "\x7d" (g.patternField inner)
    require (rest.all isNamePattern)
    return .objectPattern fields rest
  if ← skipMark "[" then
    let (items, rest) ← g.itemsAndRest inner "]" (g.patternItem inner)
    return .arrayPattern items rest
  return .name (← name ctx)

/-! ## Functions -/

/-- The body of a function; with types there may be a declaration alone. What stands elsewhere has
its body there. -/
def optionalBody (g : Grammar) (ctx : Context) : Reader (Option Tree) := do
  if ← atMark "\x7b" then
    require !ctx.ambient
    return some (← g.functionBody ctx)
  require g.dialect.types
  endStatement
  return none

def functionRule (g : Grammar) (ctx : Context) (words : List String) (isExpression : Bool) :
    Reader Tree := do
  let isAsync ← skipWord "async"
  word "function"
  let isGenerator ← skipMark "*"
  let inner := ctx.inBody isAsync isGenerator
  let functionName ←
    match ← token with
    | .word w =>
      advance
      require (isName (if isExpression then inner else ctx) w)
      pure (some w)
    | _ => pure none
  let signature ← g.signature inner
  let body ← if isExpression then some <$> g.functionBody inner else g.optionalBody inner
  let words := words ++ if isAsync then ["async"] else []
  return .function words isGenerator functionName signature body false

def methodRest (g : Grammar) (ctx : Context) (words : List String) (isGenerator : Bool)
    (methodKey : Tree) (optional : Bool) : Reader Tree := do
  let inner := ctx.inBody (words.contains "async") isGenerator
  let signature ← g.signature inner
  require (isAccessible words signature)
  return .method words isGenerator methodKey optional signature (← g.optionalBody inner)

/-! ## Classes -/

def memberWords (g : Grammar) : List String :=
  if g.dialect.types then
    ["static", "public", "private", "protected", "readonly", "abstract", "override", "declare",
      "accessor", "async", "get", "set"]
  else ["static", "accessor", "async", "get", "set"]

def spells (w : String) : Tree → Bool
  | .name n => n == w
  | .text literal => literal.source == w
  | _ => false

/-- Whether a class can have such a method. The constructor is a plain method. -/
def isMethodName (words : List String) (isGenerator : Bool) (methodKey : Tree) : Bool :=
  let isStatic := words.contains "static"
  match methodKey with
  | .secret w => w != "constructor"
  | _ =>
    !(isStatic && spells "prototype" methodKey) &&
      (isStatic || !spells "constructor" methodKey ||
        !(isGenerator || words.contains "async" || words.contains "get" || words.contains "set"))

def isConstructorSignature : Tree → Bool
  | .signature typeParameters parameters _ =>
    typeParameters.isEmpty && !parameters.any isReceiver
  | _ => true

def isFieldName (words : List String) (fieldKey : Tree) : Bool :=
  match fieldKey with
  | .secret w => w != "constructor"
  | _ =>
    !spells "constructor" fieldKey && !(words.contains "static" && spells "prototype" fieldKey)

def isWellSigned : Tree → Bool
  | .method words _ methodKey _ sig _ =>
    words.contains "static" || !spells "constructor" methodKey || isConstructorSignature sig
  | _ => true

def plainMember (g : Grammar) (ctx : Context) : Reader Tree := do
  let c ← cursor
  let inner := ctx.inBody false false
  if c.isWord "static" && c.next.isMark "\x7b" then
    advance
    return .initialBlock (← g.block { inner with inFunction := false })
  let words ← g.modifiers g.memberWords
  let isGenerator ← skipMark "*"
  if g.dialect.types then
    if let some member ← attempt (g.indexSignature ctx words) then
      endStatement
      return member
  let memberKey ← g.key ctx
  let optional ← g.optionMark
  if isGenerator || (← atMark "(") || (← atMark "<") then
    require (isMethodName words isGenerator memberKey)
    let member ← g.methodRest ctx words isGenerator memberKey optional
    require (isWellSigned member)
    return member
  require (isFieldName words memberKey && !words.any isAccessorWord)
  let _ ← if g.dialect.types then skipMark "!" else pure false
  let type ← g.givenType ctx
  let value ← g.initial inner
  endStatement
  return .property words memberKey optional type value

def isDecorable : Tree → Bool
  | .initialBlock _ => false
  | .indexSignature _ _ _ _ => false
  | .method words _ methodKey _ _ _ => words.contains "static" || !spells "constructor" methodKey
  | _ => true

def classMember (g : Grammar) (ctx : Context) : Reader Tree := do
  let comments ← takeComments
  let decorators ← g.decorators ctx
  let member ← g.plainMember ctx
  require (decorators.isEmpty || isDecorable member)
  return withComments comments
    (if decorators.isEmpty then member else .decorated decorators member)

def baseClass (g : Grammar) (ctx : Context) : Reader (Option Tree × List Tree) := do
  if ← skipWord "extends" then
    match ← g.leftHandSide ctx with
    | .instantiation e types => return (some e, types)
    | e => return (some e, ← g.optionalTypeArguments ctx)
  else return (none, [])

def classRule (g : Grammar) (ctx : Context) (decorators : List Tree) (words : List String) :
    Reader Tree := do
  word "class"
  let className ←
    match ← token with
    | .word w =>
      if w == "extends" || (w == "implements" && g.dialect.types) then pure none
      else some <$> name ctx
    | _ => pure none
  let typeParameters ← g.typeParameters ctx
  let (base, baseTypes) ← g.baseClass ctx
  let interfaces ←
    if g.dialect.types then
      if ← skipWord "implements" then separated "," (g.type ctx) g.bound else pure []
    else pure []
  mark "\x7b"
  let members ← many (do
    let _ ← many (do if ← skipMark ";" then return some () else return none) g.bound
    if ← skipMark "\x7d" then return none
    return some (← g.classMember ctx)) g.bound
  return .classDefinition decorators words className typeParameters base baseTypes interfaces
    members

def classAfter (g : Grammar) (ctx : Context) (decorators : List Tree) : Reader Tree := do
  if !g.dialect.types then return ← g.classRule ctx decorators []
  let isDeclared ← skipWord "declare"
  let isAbstract ← skipWord "abstract"
  g.classRule { ctx with ambient := ctx.ambient || isDeclared } decorators
    ((if isDeclared then ["declare"] else []) ++ if isAbstract then ["abstract"] else [])

end Pagewright.Script.Grammar

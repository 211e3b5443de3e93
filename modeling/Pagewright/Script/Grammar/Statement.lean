import Pagewright.Script.Grammar.Expression

/-!
# Grammar of statements
-/

set_option autoImplicit false

namespace Pagewright.Script.Grammar

open Reader

/-! ## Declarations -/

def needsValue (kind : VariableKind) (pattern : Tree) : Bool :=
  kind == .constant || kind == .resource || kind == .asyncResource || !isNamePattern pattern

/-- A declared variable. Some need a value, unless the declaration heads a loop or describes code
that stands elsewhere. -/
def declarator (g : Grammar) (ctx : Context) (kind : VariableKind) (heads : Bool) :
    Reader Tree := do
  let pattern ← g.pattern ctx
  require (isNamePattern pattern || !(kind == .resource || kind == .asyncResource))
  let definite ← if g.dialect.types && !(← cursor).newLine then skipMark "!" else pure false
  let type ← g.givenType ctx
  let value ← g.initial ctx
  require (value.isSome || heads || ctx.ambient || !needsValue kind pattern)
  return .declarator pattern definite type value

def namesResource (c : Cursor) : Bool :=
  !c.newLine &&
    match c.token with
    | .word w => !keywords.contains w && w != "of"
    | _ => false

def variableKind? (c : Cursor) : Option VariableKind :=
  match c.token with
  | .word "var" => some .hoisted
  | .word "const" => if c.next.isWord "enum" then none else some .constant
  | .word "let" =>
    match c.next.token with
    | .word w => if w == "in" || w == "instanceof" then none else some .mutable
    | .mark m => if m == "[" || m == "\x7b" then some .mutable else none
    | _ => none
  | .word "using" => if namesResource c.next then some .resource else none
  | .word "await" =>
    if c.next.isWord "using" && !c.next.newLine && namesResource c.next.next then
      some .asyncResource
    else none
  | _ => none

def variableWords (kind : VariableKind) : Reader Unit := do
  advance
  if kind == .asyncResource then advance

def variableDeclaration (g : Grammar) (ctx : Context) (words : List String)
    (kind : VariableKind) : Reader Tree := do
  require (!ctx.isOnly || kind == .hoisted)
  variableWords kind
  let declarators ← separated "," (g.declarator ctx kind false) g.bound
  endStatement
  return .variableDeclaration words kind declarators

def typeAlias (g : Grammar) (ctx : Context) (words : List String) : Reader Tree := do
  word "type"
  let aliasName ← name ctx
  let typeParameters ← g.typeParameters ctx
  mark "="
  let type ← g.type ctx
  endStatement
  return .typeAlias words aliasName typeParameters type

def baseType (g : Grammar) (ctx : Context) : Reader Tree := do
  let baseName ← g.path
  return .reference baseName (← g.optionalTypeArguments ctx)

def interface (g : Grammar) (ctx : Context) (words : List String) : Reader Tree := do
  word "interface"
  let interfaceName ← name ctx
  let typeParameters ← g.typeParameters ctx
  let bases ← if ← skipWord "extends" then separated "," (g.baseType ctx) g.bound else pure []
  return .interface words interfaceName typeParameters bases (← g.typeMembers ctx)

def namesMember : Tree → Bool
  | .name _ => true
  | .text _ => true
  | .computed (.text _) => true
  | .computed (.template none _ _ spans) => spans.isEmpty
  | _ => false

def enumMember (g : Grammar) (ctx : Context) : Reader Tree := do
  let comments ← takeComments
  let memberKey ← g.key ctx
  require (namesMember memberKey)
  return withComments comments (.enumMember memberKey (← g.initial ctx))

def enumeration (g : Grammar) (ctx : Context) (words : List String) : Reader Tree := do
  word "enum"
  let enumName ← name ctx
  mark "\x7b"
  return .enumeration words enumName (← g.list "\x7d" (g.enumMember ctx))

def spaceBody (g : Grammar) (ctx : Context) : Reader (Option Tree) := do
  if ← skipMark "\x7b" then
    let inner := { ctx with isTop := true, isAsync := false, isOnly := false }
    let (statements, _) ← g.statementsUntilBrace inner
    return some (.block statements)
  else
    endStatement
    return none

def nestedSpace (g : Grammar) (ctx : Context) (words : List String) : Reader Tree := do
  let kind ← anyWord
  let spaceName ← match ← token with
    | .text literal =>
      advance
      pure (ModuleName.quoted literal)
    | _ => ModuleName.word <$> g.path
  return .space (words ++ [kind]) spaceName (← g.spaceBody ctx)

def typedDeclaration? (g : Grammar) (ctx : Context) (words : List String) :
    Reader (Option Tree) := do
  let c ← cursor
  if !g.dialect.types then return none
  let named := !c.next.newLine && match c.next.token with
    | .word _ => true
    | _ => false
  match c.token with
  | .word "interface" => if named then return some (← g.interface ctx words) else return none
  | .word "type" => if named then return some (← g.typeAlias ctx words) else return none
  | .word "enum" => return some (← g.enumeration ctx words)
  | .word "const" =>
    if c.next.isWord "enum" then
      advance
      return some (← g.enumeration ctx (words ++ ["const"]))
    else return none
  | .word "abstract" =>
    if c.next.isWord "class" && !c.next.newLine then
      advance
      return some (← g.classRule ctx [] (words ++ ["abstract"]))
    else return none
  | .word "namespace" => if named then return some (← g.nestedSpace ctx words) else return none
  | .word "module" =>
    let quoted := match c.next.token with
      | .text _ => true
      | _ => false
    if (named || quoted) && !c.next.newLine then return some (← g.nestedSpace ctx words)
    else return none
  | .word "global" =>
    if c.next.isMark "\x7b" && (ctx.ambient || !c.next.newLine) then
      advance
      return some (.space words (.word "global") (← g.spaceBody ctx))
    else return none
  | _ => return none

def hasName : Tree → Bool
  | .function _ _ w _ _ _ => w.isSome
  | .classDefinition _ _ w _ _ _ _ _ => w.isSome
  | _ => true

def isPlainFunction : Tree → Bool
  | .function words isGenerator _ _ _ _ => !isGenerator && !words.contains "async"
  | _ => true

def declaration? (g : Grammar) (ctx : Context) (words : List String) : Reader (Option Tree) := do
  let c ← cursor
  if let some declared ← g.typedDeclaration? ctx words then return some declared
  match variableKind? c with
  | some kind =>
    -- there the word is a name, unless brackets follow it
    if ctx.isOnly && kind == .mutable && !c.next.isMark "[" then return none
    return some (← g.variableDeclaration ctx words kind)
  | none =>
    if c.isWord "function" || (c.isWord "async" && c.next.isWord "function" && !c.next.newLine) then
      let declared ← g.functionRule ctx words false
      require (hasName declared && (!ctx.isOnly || isPlainFunction declared))
      return some declared
    else if c.isWord "class" then
      require !ctx.isOnly
      let declared ← g.classRule ctx [] words
      require (hasName declared)
      return some declared
    else return none

def ambientDeclaration? (g : Grammar) (ctx : Context) : Reader (Option Tree) := do
  let c ← cursor
  if g.dialect.types && c.isWord "declare" && !c.next.newLine then
    attempt (do
      advance
      match ← g.declaration? { ctx with ambient := true } ["declare"] with
      | some declared => return declared
      | none => failure)
  else return none

/-! ## Statements -/

def condition (g : Grammar) (ctx : Context) : Reader Tree := do
  mark "("
  let e ← g.expression ctx.bracketed
  mark ")"
  return e

def choice (g : Grammar) (ctx : Context) : Reader Tree := do
  word "if"
  let test ← g.condition ctx
  let yes ← g.statement ctx.only
  let no ← if ← skipWord "else" then some <$> g.statement ctx.only else pure none
  return .choice test yes no

def loopOverRest (g : Grammar) (ctx : Context) (isAsync : Bool) (start : Tree) : Reader Tree := do
  let w ← anyWord
  require (w == "of" || (w == "in" && !isAsync))
  let source ← if w == "of" then g.assignment ctx else g.expression ctx
  mark ")"
  return .loopOver isAsync start w source (← g.statement ctx.only)

def loopRest (g : Grammar) (ctx : Context) (start : Option Tree) : Reader Tree := do
  mark ";"
  let test ← if ← atMark ";" then pure none else some <$> g.expression ctx
  mark ";"
  let step ← if ← atMark ")" then pure none else some <$> g.expression ctx
  mark ")"
  return .loop start test step (← g.statement ctx.only)

def isWellDeclared (kind : VariableKind) : Tree → Bool
  | .declarator pattern _ _ value => value.isSome || !needsValue kind pattern
  | _ => false

def declaringLoop (g : Grammar) (ctx : Context) (isAsync : Bool) (kind : VariableKind) :
    Reader Tree := do
  variableWords kind
  let declarators ← separated "," (g.declarator { ctx with endsAtIn := true } kind true) g.bound
  let start := Tree.variableDeclaration [] kind declarators
  if (← atWord "of") || (← atWord "in") then
    g.loopOverRest ctx isAsync start
  else
    -- without a collection the usual rules for values hold
    require (!isAsync && declarators.all (isWellDeclared kind))
    g.loopRest ctx (some start)

def isNamed (w : String) : Tree → Bool
  | .name n => n == w
  | _ => false

def loop (g : Grammar) (ctx : Context) : Reader Tree := do
  word "for"
  let isAsync ← skipWord "await"
  if isAsync then require ctx.isAsync
  mark "("
  if ← atMark ";" then return ← g.loopRest ctx none
  match variableKind? (← cursor) with
  | some kind => g.declaringLoop ctx isAsync kind
  | none =>
    let e ← g.expression { ctx with endsAtIn := true }
    if (← atWord "of") || (← atWord "in") then
      -- this would look like an asynchronous function
      require (isAsync || !(isNamed "async" e && (← atWord "of")))
      g.loopOverRest ctx isAsync (← asTarget e)
    else
      require !isAsync
      g.loopRest ctx (some e)

def doLoop (g : Grammar) (ctx : Context) : Reader Tree := do
  word "do"
  let body ← g.statement ctx.only
  word "while"
  let test ← g.condition ctx
  let _ ← skipMark ";"
  return .doLoop body test

def leave (ctx : Context) (w : String) : Reader Tree := do
  word w
  let c ← cursor
  match c.token with
  | .word _ =>
    let label ← if c.newLine then pure none else some <$> name ctx
    endStatement
    return .leave w label
  | _ =>
    endStatement
    return .leave w none

def returns (g : Grammar) (ctx : Context) : Reader Tree := do
  require ctx.inFunction
  word "return"
  let c ← cursor
  if c.isMark ";" || c.isMark "\x7d" || c.newLine || c.token == .finish then
    endStatement
    return .returns none
  let e ← g.expression ctx
  endStatement
  return .returns (some e)

def throws (g : Grammar) (ctx : Context) : Reader Tree := do
  word "throw"
  require !(← cursor).newLine
  let e ← g.expression ctx
  endStatement
  return .throw e

/-- Reads what catches a failure. The type given to the caught value is checked and not kept. -/
def handler (g : Grammar) (ctx : Context) : Reader Tree := do
  let comments ← takeComments
  word "catch"
  let pattern ←
    if ← skipMark "(" then
      let pattern ← g.pattern ctx
      let _ ← g.givenType ctx
      mark ")"
      pure (some pattern)
    else pure none
  let bodyComments ← takeComments
  return .handler comments pattern bodyComments (← g.block ctx)

def attemptRule (g : Grammar) (ctx : Context) : Reader Tree := do
  word "try"
  let body ← g.block ctx
  let caught ← if ← atWord "catch" then some <$> g.handler ctx else pure none
  let final ← if ← skipWord "finally" then some <$> g.block ctx else pure none
  require (caught.isSome || final.isSome)
  return .attempt body caught final

def switchCase (g : Grammar) (ctx : Context) : Reader Tree := do
  let test ←
    if ← skipWord "case" then some <$> g.expression ctx
    else
      word "default"
      pure none
  mark ":"
  let statements ← many (do
    if (← atWord "case") || (← atWord "default") || (← atMark "\x7d") then return none
    return some (← g.statement ctx.listed)) g.bound
  return .switchCase test statements

def switch (g : Grammar) (ctx : Context) : Reader Tree := do
  word "switch"
  let subject ← g.condition ctx
  mark "\x7b"
  let cases ← many (do
    if ← skipMark "\x7d" then return none else return some (← g.switchCase ctx)) g.bound
  return .switch subject cases

def expressionStatement (g : Grammar) (ctx : Context) : Reader Tree := do
  let e ← g.expression ctx
  endStatement
  return .expression e

def wordStatement? (g : Grammar) (ctx : Context) (w : String) : Reader (Option Tree) := do
  match w with
  | "if" => return some (← g.choice ctx)
  | "for" => return some (← g.loop ctx)
  | "while" =>
    advance
    let test ← g.condition ctx
    return some (.whileLoop test (← g.statement ctx.only))
  | "with" =>
    advance
    let object ← g.condition ctx
    return some (.withScope object (← g.statement ctx.only))
  | "do" => return some (← g.doLoop ctx)
  | "break" => return some (← leave ctx "break")
  | "continue" => return some (← leave ctx "continue")
  | "return" => return some (← g.returns ctx)
  | "throw" => return some (← g.throws ctx)
  | "try" => return some (← g.attemptRule ctx)
  | "switch" => return some (← g.switch ctx)
  | "debugger" =>
    advance
    endStatement
    return some .debugger
  | _ => return none

def plainStatement (g : Grammar) (ctx : Context) : Reader Tree := do
  let c ← cursor
  if c.isMark "\x7b" then return ← g.block ctx
  if c.isMark ";" then
    advance
    return .empty
  if let some declared ← g.ambientDeclaration? ctx then return declared
  if let some declared ← g.declaration? ctx [] then return declared
  match c.token with
  | .word w =>
    if let some statement ← g.wordStatement? ctx w then return statement
    if c.next.isMark ":" && isName ctx w then
      advance
      advance
      return .labeled w (← g.statement ctx.only)
    g.expressionStatement ctx
  | _ => g.expressionStatement ctx

end Pagewright.Script.Grammar

import Pagewright.Script.Grammar.Function
import Pagewright.Script.Grammar.Markup
import Pagewright.Script.Grammar.Target

/-!
# Grammar of expressions

An assignment is an arrow function, an assignment proper or a conditional; below it
stand binary operators by level, operators before and after an operand, accesses and
calls, and primary expressions. Where a text could begin an arrow function, that is
tried first.
-/

set_option autoImplicit false

namespace Pagewright.Script

/-- How tightly an expression binds. The printer and the reader share the levels. -/
abbrev Level := Nat

namespace Level

def lowest : Level := 0
def comma : Level := 1
def yield : Level := 3
def assign : Level := 4
def conditional : Level := 5
def equals : Level := 12
def compare : Level := 13
def power : Level := 17
def unary : Level := 18
def trailing : Level := 19
def new : Level := 20
def call : Level := 21
def member : Level := 22

end Level

def operatorLevel (operator : String) : Option Level :=
  match operator with
  | "??" => some 6
  | "||" => some 7
  | "&&" => some 8
  | "|" => some 9
  | "^" => some 10
  | "&" => some 11
  | "==" | "!=" | "===" | "!==" => some 12
  | "<" | "<=" | ">" | ">=" | "in" | "instanceof" => some 13
  | "<<" | ">>" | ">>>" => some 14
  | "+" | "-" => some 15
  | "*" | "/" | "%" => some 16
  | "**" => some 17
  | _ => none

def assignmentOperators : List String := [
  "=", "+=", "-=", "*=", "/=", "%=", "**=", "<<=", ">>=", ">>>=",
  "&=", "|=", "^=", "&&=", "||=", "??="]

/-- The operator at a cursor with the cursor after it. Operators that begin with a closing angle
bracket are made of several tokens. -/
def Cursor.operator (c : Cursor) : Option (String × Cursor) :=
  match c.token with
  | .mark ">" =>
    let spelled := [">>>=", ">>>", ">>=", ">>", ">="].find? fun o => o.toList.isPrefixOf c.start
    match spelled with
    | some o => some (o, c.moveTo (c.start.drop o.length))
    | none => some (">", c.next)
  | .mark m => some (m, c.next)
  | .word w => if w == "in" || w == "instanceof" then some (w, c.next) else none
  | _ => none

def Tree.withPureCall : Tree → Tree
  | .call callee optional types arguments ending =>
    .pureCall (.call callee optional types arguments ending)
  | .new callee types arguments ending => .pureCall (.new callee types arguments ending)
  | .chain (.call callee optional types arguments ending) =>
    .chain (.pureCall (.call callee optional types arguments ending))
  | .binary operator left right => .binary operator left.withPureCall right
  | .conditional test yes no => .conditional test.withPureCall yes no
  | .grouped e => .grouped e.withPureCall
  | e => e

def Tree.asInert : Tree → Tree
  | .function words isGenerator w sig inside false =>
    .inert (.function words isGenerator w sig inside false)
  | .arrow isAsync sig result false => .inert (.arrow isAsync sig result false)
  | e => e

def Tree.isLogical (operators : List String) : Tree → Bool
  | .binary operator _ _ => operators.contains operator
  | _ => false

namespace Grammar

open Reader

/-! ## Literals -/

/-- A spread item of a literal. With a comma after it, it cannot become the rest of a target. -/
def spreadItem (g : Grammar) (ctx : Context) : Reader Tree := do
  let e ← g.assignment ctx
  return if ← atMark "," then .withComma (.spread e) else .spread e

def arrayItem (g : Grammar) (ctx : Context) : Reader Tree := do
  if ← atMark "," then return .hole
  if ← skipMark "..." then return ← g.spreadItem ctx
  g.assignment ctx

def argument (g : Grammar) (ctx : Context) : Reader Tree := do
  let comments ← takeComments
  let e ← if ← skipMark "..." then .spread <$> g.assignment ctx else g.assignment ctx
  return withComments comments e

def arguments (g : Grammar) (ctx : Context) : Reader (List Tree × List Comment) := do
  mark "("
  let items ← many (do
    if ← atMark ")" then return none
    let a ← g.argument ctx.bracketed
    if !(← atMark ")") then mark ","
    return some a) g.bound
  let ending ← takeComments
  mark ")"
  return (items, ending)

def objectField (g : Grammar) (ctx : Context) : Reader Tree := do
  if ← skipMark "..." then return ← g.spreadItem ctx
  let words ← g.modifiers ["async", "get", "set"]
  let isGenerator ← skipMark "*"
  let isWord := match ← token with
    | .word _ => true
    | _ => false
  let field ← g.key ctx
  if isGenerator || !words.isEmpty || (← atMark "(") || (← atMark "<") then
    let inner := ctx.inBody (words.contains "async") isGenerator
    let signature ← g.signature inner
    require (isAccessible words signature)
    return .method words isGenerator field false signature (some (← g.functionBody inner))
  if ← skipMark ":" then return .pair field (← g.assignment ctx)
  match field with
  | .name w =>
    require (isWord && isName ctx w)
    match ← g.initial ctx with
    | some value =>
      noteOpenField
      return .shorthandDefault w value
    | none => return .shorthand w
  | _ => failure

def regex : Reader Tree := do
  let c ← cursor
  match c.start with
  | '/' :: cs =>
    let some (pattern, rest) := regexSource false cs | failure
    let flags := rest.takeWhile Text.isIdentifierPart
    require (areFlags flags)
    set (c.moveTo (rest.drop flags.length))
    return .regex (String.ofList pattern) (String.ofList (regexFlags.filter flags.contains))
  | _ => failure

def template (g : Grammar) (ctx : Context) (tag : Option Tree) (types : List Tree) :
    Reader Tree := do
  let part := g.expression ctx.bracketed
  let (head, spans) ← g.templateParts part tag.isSome (← cursor).rest
  return .template tag types head spans

def grouped : Tree → Tree
  | .function words isGenerator functionName signature body _ =>
    .function words isGenerator functionName signature body true
  | .arrow isAsync signature result _ => .arrow isAsync signature result true
  | e => .grouped e

def primary (g : Grammar) (ctx : Context) : Reader Tree := do
  let c ← cursor
  match c.token with
  | .number value source =>
    advance
    return .number value source
  | .wholeNumber value =>
    advance
    return .wholeNumber value
  | .text literal =>
    advance
    return .text literal
  | .secret w =>
    advance
    require (← atWord "in")
    return .secret w
  | .mark "(" =>
    advance
    let e ← g.expression ctx.bracketed
    mark ")"
    return grouped e
  | .mark "[" =>
    advance
    return .array (← g.list "]" (g.arrayItem ctx.bracketed))
  | .mark "\x7b" =>
    let comments ← takeComments
    advance
    return .object comments (← g.list "\x7d" (g.objectField ctx.bracketed))
  | .mark "@" => g.classRule ctx (← g.decorators ctx) []
  | .mark "\x60" => g.template ctx none []
  | .mark "/" => regex
  | .mark "/=" => regex
  | .mark "<" =>
    require g.dialect.markup
    let element ← g.element ctx.bracketed
    mark ">"
    return element
  | .word w =>
    if w == "function" then g.functionRule ctx [] true
    else if w == "async" && c.next.isWord "function" && !c.next.newLine then
      g.functionRule ctx [] true
    else if w == "class" then g.classRule ctx [] []
    else if ["this", "null", "true", "false"].contains w then
      advance
      return .name w
    else
      advance
      require (isName ctx w)
      return .name w
  | _ => failure

/-! ## Accesses and calls -/

def operatorWords (g : Grammar) : List String :=
  if g.dialect.types then ["in", "instanceof", "as", "satisfies"] else ["in", "instanceof"]

def operandMarks : List String := ["[", "\x7b", "!", "~", "++", "--", "@"]

def operandWords : List String := [
  "this", "super", "null", "true", "false", "function", "class", "new", "delete", "typeof", "void",
  "import"]

/-- Whether types before the cursor belong to the expression before them. Otherwise the angle
brackets are comparisons. -/
def endsTypes (g : Grammar) (c : Cursor) : Bool :=
  match c.token with
  | .mark m =>
    if m == "(" || m == "\x60" then true
    else if ["<", ">", "+", "-"].contains m then false
    else c.newLine || !operandMarks.contains m
  | .word w =>
    c.newLine || g.operatorWords.contains w ||
      (keywords.contains w && !operandWords.contains w)
  | .finish => true
  | _ => c.newLine

/-- Types given to the expression before them. The last angle bracket is not part of a longer
comparison. -/
def givenTypes (g : Grammar) (ctx : Context) : Reader (List Tree) := do
  require g.dialect.types
  mark "<"
  let types ← separated "," (g.type ctx.bracketed) g.bound
  require !(">=".toList.isPrefixOf (← cursor).start)
  mark ">"
  require (g.endsTypes (← cursor))
  return types

def callOf (g : Grammar) (ctx : Context) (e : Tree) : Reader Tree := do
  let (items, ending) ← g.arguments ctx
  match e with
  | .instantiation callee types => return .call callee false types items ending
  | callee => return .call callee false [] items ending

def taggedTemplate (g : Grammar) (ctx : Context) (e : Tree) : Reader Tree :=
  match e with
  | .instantiation tag types => g.template ctx (some tag) types
  | tag => g.template ctx (some tag) []

def dotted (object : Tree) (optional : Bool) : Reader Tree := do
  match ← token with
  | .secret w =>
    advance
    return .member object optional ("#" ++ w)
  | _ => return .member object optional (← propertyName)

def optionalAccess (g : Grammar) (ctx : Context) (e : Tree) : Reader Tree := do
  if ← skipMark "[" then
    let index ← g.expression ctx.bracketed
    mark "]"
    return .index e true index
  if (← atMark "(") || (← atMark "<") then
    let types ← g.optionalTypeArguments ctx.bracketed
    let (items, ending) ← g.arguments ctx
    return .call e true types items ending
  dotted e true

def isInstantiation : Tree → Bool
  | .instantiation _ _ => true
  | _ => false

/-- One access or call after an expression, and whether it is optional. Without `calls` the
arguments belong to someone else, as after `new`; in a chain of optional accesses there are no
templates. -/
def accessStep (g : Grammar) (ctx : Context) (calls inChain : Bool) (e : Tree) :
    Reader (Option (Tree × Bool)) := do
  let c ← cursor
  match c.token with
  | .mark "." =>
    require !(isInstantiation e)
    advance
    return some (← dotted e false, false)
  | .mark "?." =>
    require (calls && (!isInstantiation e || c.next.isMark "("))
    advance
    return some (← g.optionalAccess ctx e, true)
  | .mark "[" =>
    if ctx.inDecorator then return none
    advance
    let index ← g.expression ctx.bracketed
    mark "]"
    return some (.index e false index, false)
  | .mark "(" => if calls then return some (← g.callOf ctx e, false) else return none
  | .mark "\x60" =>
    require !inChain
    return some (← g.taggedTemplate ctx e, false)
  | .mark "!" =>
    if g.dialect.types && !c.newLine then
      advance
      return some (.nonNull e, false)
    else return none
  | .mark "<" =>
    match ← attempt (g.givenTypes ctx) with
    | some types => return some (.instantiation e types, false)
    | none => return none
  | _ => return none

def accesses (g : Grammar) (ctx : Context) (calls : Bool) (start : Tree) : Reader Tree := do
  let (e, isOptional) ← iterate (fun (e, isOptional) => do
    match ← g.accessStep ctx calls isOptional e with
    | some (e', optional) => return some (e', isOptional || optional)
    | none => return none) g.bound (start, false)
  return if isOptional then .chain e else e

def superRule : Reader Tree := do
  word "super"
  require ((← atMark ".") || (← atMark "[") || (← atMark "("))
  return .name "super"

def newRule (g : Grammar) (ctx : Context) : Reader Tree := do
  word "new"
  if ← skipMark "." then
    word "target"
    return .metaProperty "new" "target"
  let (constructed, types) ← match ← g.constructed ctx with
    | .instantiation e types => pure (e, types)
    | e => pure (e, [])
  let (items, ending) ← if ← atMark "(" then g.arguments ctx else pure ([], [])
  return .new constructed types items ending

def importRule (g : Grammar) (ctx : Context) : Reader Tree := do
  word "import"
  let phase ←
    if ← skipMark "." then
      if ← skipWord "meta" then return .metaProperty "import" "meta"
      let phase ← anyWord
      require (phase == "defer" || phase == "source")
      pure (some phase)
    else pure none
  mark "("
  let source ← withComments <$> takeComments <*> g.assignment ctx.bracketed
  let options ←
    if (← skipMark ",") && !(← atMark ")") then
      let comments := (← cursor).comments
      let e ← g.assignment ctx.bracketed
      let _ ← skipMark ","
      pure (some (withComments comments e))
    else pure none
  let ending ← takeComments
  mark ")"
  return .importCall phase source options ending

def accessed (g : Grammar) (ctx : Context) : Reader Tree := do
  if ← atWord "new" then g.newRule ctx
  else if ← atWord "import" then g.importRule ctx
  else if ← atWord "super" then superRule
  else g.primary ctx

def isImportCall : Tree → Bool
  | .importCall _ _ _ _ => true
  | _ => false

def constructedRule (g : Grammar) (ctx : Context) : Reader Tree := do
  let start ← g.accessed ctx
  require !(isImportCall start)
  g.accesses ctx false start

def leftHandSideRule (g : Grammar) (ctx : Context) : Reader Tree := do
  g.accesses ctx true (← g.accessed ctx)

/-! ## Operators -/

def trailingUpdate (g : Grammar) (ctx : Context) : Reader Tree := do
  let e ← g.leftHandSideRule ctx
  let c ← cursor
  if !c.newLine && (c.isMark "++" || c.isMark "--") then
    require e.isPlace
    advance
    return .update (if c.isMark "++" then "++" else "--") false e
  return e

/-- Whether the word at the cursor waits for a promise. Outside asynchronous code it is a name,
unless an operand follows. -/
def awaits (ctx : Context) (c : Cursor) : Bool :=
  c.isWord "await" && (ctx.isAsync || (!c.next.newLine &&
    match c.next.token with
    | .word w => !(w == "in" || w == "instanceof" || w == "of" || w == "as" || w == "satisfies")
    | .number _ _ => true
    | .wholeNumber _ => true
    | .text _ => true
    | _ => false))

def assertedType (g : Grammar) (ctx : Context) : Reader Tree := do
  if ← skipWord "const" then return .reference "const" [] else g.type ctx

def unaryRule (g : Grammar) (ctx : Context) : Reader Tree := do
  let c ← cursor
  match c.token with
  | .mark m =>
    if ["+", "-", "~", "!"].contains m then
      advance
      return .unary m (← g.unary ctx)
    if m == "++" || m == "--" then
      advance
      let e ← g.unary ctx
      require e.isPlace
      return .update m true e
    if m == "<" && g.dialect.types && !g.dialect.markup then
      advance
      let type ← g.assertedType ctx.bracketed
      mark ">"
      return .assertion type (← g.unary ctx)
    g.trailingUpdate ctx
  | .word w =>
    if ["delete", "void", "typeof"].contains w then
      advance
      return .unary w (← g.unary ctx)
    if awaits ctx c then
      require ctx.isAsync
      advance
      return .await (← g.unary ctx)
    g.trailingUpdate ctx
  | _ => g.trailingUpdate ctx

/-- Whether two operands may stand beside an operator. Parentheses are needed around an operator
before the base of a power and between a default and another logical operator. -/
def mayCombine (operator : String) (left right : Tree) : Bool :=
  match operator with
  | "**" =>
    match left with
    | .unary _ _ => false
    | .await _ => false
    | _ => true
  | "??" => !left.isLogical ["||", "&&"] && !right.isLogical ["||", "&&"]
  | "||" => !left.isLogical ["??"] && !right.isLogical ["??"]
  | "&&" => !left.isLogical ["??"] && !right.isLogical ["??"]
  | _ => true

/-- An operator with its operands. A secret name can only be looked for in an object. -/
def combine (operator : String) (left right : Tree) : Option Tree :=
  match left, right with
  | _, .secret _ => none
  | .secret w, _ => if operator == "in" then some (.ownsSecret w right) else none
  | _, _ => if mayCombine operator left right then some (.binary operator left right) else none

abbrev Pending := List (String × Tree)

def settle (level : Level) (e : Tree) : Pending → Option (Tree × Pending)
  | [] => some (e, [])
  | (operator, left) :: rest =>
    let own := (operatorLevel operator).getD 0
    if level < own || (level = own && operator != "**") then
      (combine operator left e).bind (settle level · rest)
    else some (e, (operator, left) :: rest)

def lift {α : Type} (a : Option α) : Reader α :=
  match a with
  | some a => pure a
  | none => failure

def operand (g : Grammar) (ctx : Context) : Reader Tree := do
  let isPure := (← cursor).marksPure
  let e ← g.unary ctx
  return if isPure then e.withPureCall else e

def binaryStep (g : Grammar) (ctx : Context) (state : Tree × Pending) :
    Reader (Option (Tree × Pending)) := do
  let (e, pending) := state
  let c ← cursor
  let cast := if g.dialect.types && !c.newLine then
    if c.isWord "as" then some "as" else if c.isWord "satisfies" then some "satisfies" else none
    else none
  match cast with
  | some w =>
    let (left, waiting) ← lift (settle Level.compare e pending)
    advance
    let type ← if w == "as" then g.assertedType ctx else g.type ctx
    return some (.cast left w type, waiting)
  | none =>
    match c.operator with
    | none => return none
    | some (operator, after) =>
      match operatorLevel operator with
      | none => return none
      | some level =>
        if operator == "in" && ctx.endsAtIn then return none
        let (left, waiting) ← lift (settle level e pending)
        set after
        return some (← g.operand ctx, (operator, left) :: waiting)

def binary (g : Grammar) (ctx : Context) : Reader Tree := do
  let (e, pending) ← iterate (g.binaryStep ctx) g.bound (← g.operand ctx, [])
  let (result, _) ← lift (settle Level.lowest e pending)
  return result

def conditional (g : Grammar) (ctx : Context) : Reader Tree := do
  let test ← g.binary ctx
  if !(← skipMark "?") then return test
  let yes ← g.assignment { ctx.bracketed with inChoice := true }
  mark ":"
  return .conditional test yes (← g.assignment ctx)

/-! ## Assignments and arrow functions -/

def isTypeParameter (outer : Cursor) : Bool :=
  let c := if outer.isWord "const" then outer.next else outer
  c.next.isMark "," || c.next.isMark "=" ||
    (c.next.isWord "extends" &&
      match c.next.next.token with
      | .mark m => m != "=" && m != ">" && m != "/"
      | _ => true)

def arrowSignature (g : Grammar) (ctx : Context) (isAsync : Bool) : Reader (Tree × Bool) := do
  match ← token with
  | .word _ =>
    let only := Tree.parameter [] false (.name (← name { ctx with isAsync })) false none none
    return (.signature [] [only] none, false)
  | _ =>
    let typeParameters ← g.typeParameters ctx
    let parameters ← g.parameters { ctx with isAsync := false }
    require !(parameters.any isReceiver)
    let returns ← g.givenReturnType ctx.bracketed
    return (.signature typeParameters parameters returns, returns.isSome)

def arrowBody (g : Grammar) (ctx : Context) (isAsync : Bool) : Reader Tree := do
  if ← atMark "\x7b" then g.functionBody (ctx.inBody isAsync false)
  else g.assignment { ctx with isAsync, isGenerator := false }

def arrow (g : Grammar) (ctx : Context) : Reader Tree := do
  let c ← cursor
  let isAsync := c.isWord "async" && !c.next.newLine && !c.next.isMark "=>"
  if isAsync then advance
  let (signature, isTyped) ← g.arrowSignature ctx isAsync
  let c ← cursor
  require (c.isMark "=>" && !c.newLine)
  advance
  let body ← g.arrowBody ctx isAsync
  -- otherwise the colon before the result type belongs to the choice
  if isTyped && ctx.inChoice then require (← atMark ":")
  return .arrow isAsync signature body false

def mayBeArrow (g : Grammar) (c : Cursor) : Bool :=
  match c.token with
  | .word _ => c.isWord "async" || c.next.isMark "=>"
  | .mark m =>
    m == "(" || (m == "<" && g.dialect.types && (!g.dialect.markup || isTypeParameter c.next))
  | _ => false

def yieldRule (g : Grammar) (ctx : Context) : Reader Tree := do
  word "yield"
  let c ← cursor
  if c.newLine then return .yield false none
  if ← skipMark "*" then return .yield true (some (← g.assignment ctx))
  match c.token with
  | .mark m =>
    if [")", "]", "\x7d", ",", ";", ":"].contains m then return .yield false none
    return .yield false (some (← g.assignment ctx))
  | .finish => return .yield false none
  | .word "in" => return .yield false none
  | .word "of" => return .yield false none
  | _ => return .yield false (some (← g.assignment ctx))

def plainAssignment (g : Grammar) (ctx : Context) : Reader Tree := do
  let e ← g.conditional ctx
  match (← cursor).operator with
  | some (operator, after) =>
    if assignmentOperators.contains operator then
      let target ← if operator == "=" then asTarget e else do
        require e.isPlace
        pure e
      set { after with openFields := (← cursor).openFields }
      return .assign operator target (← g.assignment ctx)
    else return e
  | none => return e

def assignmentRule (g : Grammar) (ctx : Context) : Reader Tree := do
  let c ← cursor
  if ctx.isGenerator && c.isWord "yield" then return ← g.yieldRule ctx
  let function? ← if g.mayBeArrow c then attemptArrow (g.arrow ctx) else pure none
  let e ← match function? with
    | some function => pure function
    | none => g.plainAssignment ctx
  return if c.marksInert then e.asInert else e

end Grammar

end Pagewright.Script

import Pagewright.Script.Grammar.Basic

/-!
# Grammar of types

From loosest to tightest: function types and conditional types, unions,
intersections, operators, and types followed by brackets.
-/

set_option autoImplicit false

namespace Pagewright.Script.Grammar

open Reader

def path (g : Grammar) : Reader String := do
  let first ← anyWord
  let rest ← many (do
    if ← skipMark "." then return some (← propertyName) else return none) g.bound
  return Text.join "." (first :: rest)

def typeArguments (g : Grammar) (ctx : Context) : Reader (List Tree) := do
  mark "<"
  let types ← g.list ">" (g.type ctx.bracketed)
  require !types.isEmpty
  return types

def optionalTypeArguments (g : Grammar) (ctx : Context) : Reader (List Tree) := do
  if g.dialect.types && (← atMark "<") then g.typeArguments ctx else return []

def typeAfterWord (g : Grammar) (ctx : Context) (w : String) : Reader (Option Tree) := do
  if ← skipWord w then return some (← g.type ctx) else return none

def typeParameter (g : Grammar) (ctx : Context) : Reader Tree := do
  let words ← many (do
    match ← oneOf ["const", "in", "out"] with
    | some w =>
      let c ← cursor
      if c.next.isMark ">" || c.next.isMark "," || c.next.isWord "extends" || c.next.isMark "=" then
        return none
      advance
      return some w
    | none => return none) g.bound
  let parameterName ← name ctx
  let bound ← g.typeAfterWord ctx "extends"
  let value ← g.optionally ctx "=" Grammar.type
  return .typeParameter words parameterName bound value

def typeParameters (g : Grammar) (ctx : Context) : Reader (List Tree) := do
  if g.dialect.types then
    if ← skipMark "<" then
      let parameters ← g.list ">" (g.typeParameter ctx)
      require !parameters.isEmpty
      -- beside markup a comma keeps a lone parameter from being taken for a tag
      let alone := g.dialect.markup && parameters.length == 1
      return if alone then parameters ++ [.hole] else parameters
  return []

def parameterWords : List String := ["public", "private", "protected", "readonly", "override"]

def parameter (g : Grammar) (ctx : Context) : Reader Tree := do
  let decorators ← g.decorators ctx
  let words ← many (do
    match ← oneOf (if g.dialect.types then parameterWords else []) with
    | some w =>
      match (← cursor).next.token with
      | .word _ =>
        advance
        return some w
      | .mark m =>
        if m == "\x7b" || m == "[" then
          advance
          return some w
        else return none
      | _ => return none
    | none => return none) g.bound
  let isRest ← skipMark "..."
  let pattern ←
    if g.dialect.types && (← atWord "this") then
      advance
      pure (Tree.name "this")
    else g.pattern ctx
  let optional ← g.optionMark
  let type ← g.givenType ctx
  let value ← if isRest then pure none else g.initial ctx
  require !(optional && (isRest || value.isSome))
  -- nothing follows the rest of the parameters
  if isRest then require (← atMark ")")
  let read := Tree.parameter words isRest pattern optional type value
  return if decorators.isEmpty then read else .decorated decorators read

def isReceiver : Tree → Bool
  | .parameter _ _ (.name w) _ _ _ => w == "this"
  | _ => false

def isRestParameter : Tree → Bool
  | .parameter _ isRest _ _ _ _ => isRest
  | .decorated _ p => isRestParameter p
  | _ => false

def parameters (g : Grammar) (ctx : Context) : Reader (List Tree) := do
  mark "("
  g.list ")" (g.parameter ctx.bracketed)

def returnType (g : Grammar) (ctx : Context) : Reader Tree := do
  let c ← cursor
  match c.token, c.next.token with
  | .word "asserts", .word subject =>
    if c.next.newLine || subject == "is" then g.type ctx
    else
      advance
      advance
      return .predicate true subject (← g.typeAfterWord ctx "is")
  | .word subject, .word "is" =>
    if c.next.newLine then g.type ctx
    else
      advance
      return .predicate false subject (← g.typeAfterWord ctx "is")
  | _, _ => g.type ctx

def givenReturnType (g : Grammar) (ctx : Context) : Reader (Option Tree) :=
  if g.dialect.types then g.optionally ctx ":" returnType else return none

def isAccessible (words : List String) : Tree → Bool
  | .signature typeParameters parameters returns =>
    let given := parameters.filter fun p => !isReceiver p
    if words.contains "get" then typeParameters.isEmpty && given.isEmpty
    else if words.contains "set" then
      typeParameters.isEmpty && returns.isNone && given.length == 1 && !given.any isRestParameter
    else true
  | _ => true

def signature (g : Grammar) (ctx : Context) : Reader Tree := do
  let typeParameters ← g.typeParameters ctx
  let parameters ← g.parameters ctx
  return .signature typeParameters parameters (← g.givenReturnType ctx)

def functionType (g : Grammar) (ctx : Context) (words : List String) : Reader Tree := do
  let typeParameters ← g.typeParameters ctx
  let parameters ← g.parameters ctx
  mark "=>"
  return .functionType words (.signature typeParameters parameters none) (← g.returnType ctx)

/-! ## Members of object types -/

def endMember : Reader Unit := do
  let c ← cursor
  if c.isMark ";" || c.isMark "," then advance
  else require (c.isMark "\x7d" || c.newLine)

def isAccessorWord (w : String) : Bool := w == "get" || w == "set"

/-- Whether a word before a member is a modifier and not the member's own name. Most modifiers
stand on the line of what they modify, and the word of an accessor stands before its key. -/
def modifies (c : Cursor) (w : String) : Bool :=
  (w == "static" || isAccessorWord w || !c.next.newLine) &&
    match c.next.token with
    | .mark m => m == "[" || (!isAccessorWord w && (m == "\x7b" || m == "*"))
    | .finish => false
    | .invalid => false
    | _ => true

def modifiers (g : Grammar) (words : List String) : Reader (List String) :=
  many (do
    match ← oneOf words with
    | some w =>
      if modifies (← cursor) w then
        advance
        return some w
      else return none
    | none => return none) g.bound

def indexSignature (g : Grammar) (ctx : Context) (words : List String) : Reader Tree := do
  mark "["
  let parameterName ← name ctx
  mark ":"
  let keyType ← g.type ctx
  mark "]"
  mark ":"
  return .indexSignature words parameterName keyType (← g.type ctx)

def plainTypeMember (g : Grammar) (ctx : Context) : Reader Tree := do
  let words ← g.modifiers ["readonly", "get", "set"]
  let c ← cursor
  let isNew := c.isWord "new" && (c.next.isMark "(" || c.next.isMark "<")
  if isNew then advance
  if (← atMark "(") || (← atMark "<") then
    let signature ← g.signature ctx
    endMember
    return .method (words ++ if isNew then ["new"] else []) false (.name "") false signature none
  match ← attempt (g.indexSignature ctx words) with
  | some member =>
    endMember
    return member
  | none =>
    let memberKey ← g.key ctx
    let optional ← skipMark "?"
    if (← atMark "(") || (← atMark "<") then
      let signature ← g.signature ctx
      require (isAccessible words signature)
      endMember
      return .method words false memberKey optional signature none
    require !(words.any isAccessorWord)
    let type ← g.givenType ctx
    endMember
    return .property words memberKey optional type none

def typeMember (g : Grammar) (ctx : Context) : Reader Tree := do
  return withComments (← takeComments) (← g.plainTypeMember ctx)

def typeMembers (g : Grammar) (ctx : Context) : Reader (List Tree) := do
  mark "\x7b"
  many (do
    if ← skipMark "\x7d" then return none
    else return some (← g.typeMember ctx.bracketed)) g.bound

def signedMark (text : String) (here : Reader Bool) : Reader String := do
  if ← skipMark "+" then
    require (← here)
    return "+" ++ text
  if ← skipMark "-" then
    require (← here)
    return "-" ++ text
  return if ← here then text else ""

def mappedType (g : Grammar) (outer : Context) : Reader Tree := do
  let ctx := outer.bracketed
  mark "\x7b"
  let readonlyMark ← signedMark "readonly" (skipWord "readonly")
  mark "["
  let parameterName ← name ctx
  word "in"
  let source ← g.type ctx
  let rename ← g.typeAfterWord ctx "as"
  mark "]"
  let optionalMark ← signedMark "?" (skipMark "?")
  let value ← g.givenType ctx
  let _ ← skipMark ";"
  mark "\x7d"
  return .mapped readonlyMark parameterName source rename optionalMark value

/-! ## Types -/

def tupleItem (g : Grammar) (ctx : Context) : Reader Tree := do
  let isRest ← skipMark "..."
  let c ← cursor
  match c.token with
  | .word label =>
    if c.next.isMark ":" then
      advance
      advance
      return .tupleItem isRest (some label) false (← g.type ctx)
    if c.next.isMark "?" && c.next.next.isMark ":" then
      advance
      advance
      advance
      return .tupleItem isRest (some label) true (← g.type ctx)
  | _ => pure ()
  let type ← g.type ctx
  return .tupleItem isRest none (← skipMark "?") type

/-- The pieces of a template after the text `cs`, whose expressions a reader takes; the cursor
is left at the token after the template. Behind a tag the escapes need not stand for
characters. -/
def templateParts (g : Grammar) (part : Reader Tree) (tagged : Bool) (cs : List Char) :
    Reader (String × List Tree) := do
  let some (head, last, rest) := templateSource cs | failure
  require (tagged || hasValidEscapes head)
  modify (Cursor.moveTo · rest)
  if last then return (String.ofList head, [])
  let (_, spans) ← iterate (fun (last, spans) => do
    if last then return none
    let e ← part
    let c ← cursor
    require (c.isMark "\x7d")
    let some (piece, last', rest') := templateSource c.rest | failure
    require (tagged || hasValidEscapes piece)
    modify (Cursor.moveTo · rest')
    return some (last', spans ++ [Tree.span e (String.ofList piece)])) g.bound (false, [])
  return (String.ofList head, spans)

def templateType (g : Grammar) (ctx : Context) : Reader Tree := do
  let (head, spans) ← g.templateParts (g.type ctx) false (← cursor).rest
  return .template none [] head spans

def importType (g : Grammar) (ctx : Context) : Reader Tree := do
  word "import"
  mark "("
  let source ← text
  let options ← g.optionally ctx.bracketed "," (fun g ctx => g.assignment ctx)
  let _ ← skipMark ","
  mark ")"
  let path ← if ← skipMark "." then some <$> g.path else pure none
  return .importType source options path (← g.optionalTypeArguments ctx)

def typeKeywords : List String := ["void", "null", "this", "true", "false"]

def primaryType (g : Grammar) (ctx : Context) : Reader Tree := do
  match ← token with
  | .text literal =>
    advance
    return .text literal
  | .number value source =>
    advance
    return .number value source
  | .wholeNumber value =>
    advance
    return .wholeNumber value
  | .word "typeof" =>
    advance
    if ← atWord "import" then return .typeOperator "typeof" (← g.importType ctx)
    let subject ← g.path
    let arguments ← if (← cursor).newLine then pure [] else g.optionalTypeArguments ctx
    return .typeOperator "typeof" (.reference subject arguments)
  | .word "import" => g.importType ctx
  | .word w =>
    require (typeKeywords.contains w || !keywords.contains w)
    let referred ← g.path
    let arguments ← if (← cursor).newLine then pure [] else g.optionalTypeArguments ctx
    return .reference referred arguments
  | .mark "-" =>
    advance
    match ← token with
    | .number value source =>
      advance
      return .unary "-" (.number value source)
    | .wholeNumber value =>
      advance
      return .unary "-" (.wholeNumber value)
    | _ => failure
  | .mark "\x7b" =>
    match ← attempt (g.mappedType ctx) with
    | some type => return type
    | none => return .objectType (← g.typeMembers ctx)
  | .mark "[" =>
    advance
    return .tuple (← g.list "]" (g.tupleItem ctx.bracketed))
  | .mark "(" =>
    advance
    let type ← g.type ctx.bracketed
    mark ")"
    return .groupedType type
  | .mark "\x60" => g.templateType ctx
  | _ => failure

def postfixType (g : Grammar) (ctx : Context) : Reader Tree := do
  iterate (fun type => do
    if (← cursor).newLine then return none
    if ← skipMark "[" then
      if ← skipMark "]" then return some (.arrayType type)
      let keyType ← g.type ctx.bracketed
      mark "]"
      return some (.indexedType type keyType)
    return none) g.bound (← g.primaryType ctx)

def prefixedType (g : Grammar) (ctx : Context) : Reader Tree := do
  let words ← many (do
    match ← oneOf ["keyof", "unique", "readonly"] with
    | some w =>
      let c ← cursor
      match c.next.token with
      | .mark m =>
        if ["\x7b", "[", "(", "\x60"].contains m then
          advance
          return some w
        else return none
      | .finish => return none
      | _ =>
        if c.next.newLine then return none
        advance
        return some w
    | none => return none) g.bound
  let type ←
    if (← atWord "infer") && (match (← cursor).next.token with | .word _ => true | _ => false) then
      advance
      let variableName ← name ctx
      let bound ← attempt (do
        word "extends"
        let bound ← g.type { ctx with inBound := true }
        require (ctx.inBound || !(← atMark "?"))
        return bound)
      pure (Tree.infer variableName bound)
    else g.postfixType ctx
  return words.foldr Tree.typeOperator type

def intersectionType (g : Grammar) (ctx : Context) : Reader Tree := do
  let _ ← skipMark "&"
  match ← separated "&" (g.prefixedType ctx) g.bound with
  | [type] => return type
  | types => return .intersection types

def unionType (g : Grammar) (ctx : Context) : Reader Tree := do
  let _ ← skipMark "|"
  match ← separated "|" (g.intersectionType ctx) g.bound with
  | [type] => return type
  | types => return .union types

def conditionalType (g : Grammar) (ctx : Context) : Reader Tree := do
  let type ← g.unionType ctx
  let c ← cursor
  if c.isWord "extends" && !c.newLine && !ctx.inBound then
    advance
    let bound ← g.type { ctx with inBound := true }
    mark "?"
    let yes ← g.type ctx.bracketed
    mark ":"
    return .conditionalType type bound yes (← g.type ctx)
  return type

def typeRule (g : Grammar) (ctx : Context) : Reader Tree := do
  let c ← cursor
  if c.isWord "new" then
    advance
    g.functionType ctx ["new"]
  else if c.isWord "abstract" && c.next.isWord "new" then
    advance
    advance
    g.functionType ctx ["abstract", "new"]
  else if c.isMark "<" then g.functionType ctx []
  else if c.isMark "(" then
    match ← attempt (g.functionType ctx []) with
    | some type => return type
    | none => g.conditionalType ctx
  else g.conditionalType ctx

end Pagewright.Script.Grammar

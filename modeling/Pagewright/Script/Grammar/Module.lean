import Pagewright.Script.Grammar.Statement

/-!
# Grammar of modules

Imports and exports, and the reader of a whole module.
-/

set_option autoImplicit false

namespace Pagewright.Script

open Reader

def Tree.withInertValue : Tree → Tree
  | .declarator pattern definite type (some value) =>
    .declarator pattern definite type (some value.asInert)
  | t => t

def Tree.declaredInert : Tree → Tree
  | .function words isGenerator w sig inside isolated =>
    .inert (.function words isGenerator w sig inside isolated)
  | .exportDeclaration (.function words isGenerator w sig inside isolated) =>
    .inert (.exportDeclaration (.function words isGenerator w sig inside isolated))
  | .exportDefaultDeclaration (.function words isGenerator w sig inside isolated) =>
    .inert (.exportDefaultDeclaration (.function words isGenerator w sig inside isolated))
  | .exportDefault e => .exportDefault e.asInert
  | .variableDeclaration words .constant (first :: rest) =>
    .variableDeclaration words .constant (first.withInertValue :: rest)
  | .exportDeclaration (.variableDeclaration words .constant (first :: rest)) =>
    .exportDeclaration (.variableDeclaration words .constant (first.withInertValue :: rest))
  | s => s

namespace Grammar

/-! ## Imports -/

def moduleName : Reader ModuleName := do
  match ← token with
  | .text literal =>
    advance
    return .quoted literal
  | _ => return .word (← propertyName)

def marksType (c : Cursor) : Bool :=
  c.isWord "type" &&
    match c.next.token with
    | .word "as" =>
      match c.next.next.token with
      | .word "as" =>
        match c.next.next.next.token with
        | .word _ => true
        | .text _ => true
        | _ => false
      | .word _ => false
      | .text _ => false
      | _ => true
    | .word _ => true
    | .text _ => true
    | _ => false

def importSpecifier (g : Grammar) (ctx : Context) : Reader ImportSpecifier := do
  let typeOnly := g.dialect.types && marksType (← cursor)
  if typeOnly then advance
  let imported ← moduleName
  if ← skipWord "as" then return ⟨typeOnly, imported, ← name ctx⟩
  match imported with
  | .word w =>
    require (isName ctx w)
    return ⟨typeOnly, imported, w⟩
  | .quoted _ => failure

def importAttributes (g : Grammar) : Reader (Option ImportAttributes) := do
  let c ← cursor
  if c.next.isMark "\x7b" && (c.isWord "with" || (c.isWord "assert" && !c.newLine)) then
    let lead ← anyWord
    mark "\x7b"
    let entries ← g.list "\x7d" (do
      let key ← moduleName
      mark ":"
      return ImportAttribute.mk key (← text))
    return some ⟨lead, entries⟩
  else return none

def importNames (g : Grammar) (ctx : Context) :
    Reader (Option String × Option String × Option (List ImportSpecifier)) := do
  let defaultName ←
    match ← token with
    | .word _ => some <$> name ctx
    | _ => pure none
  if defaultName.isSome && !(← skipMark ",") then return (defaultName, none, none)
  if ← skipMark "*" then
    word "as"
    return (defaultName, some (← name ctx), none)
  mark "\x7b"
  return (defaultName, none, some (← g.list "\x7d" (g.importSpecifier ctx)))

def marksImport (c : Cursor) : Bool :=
  match c.next.token with
  | .word "from" => c.next.next.isWord "from" || c.next.next.isMark "="
  | .word _ => true
  | .mark m => m == "\x7b" || m == "*"
  | _ => false

def importWords (g : Grammar) : Reader (List String) := do
  let c ← cursor
  let isWord := (c.isWord "type" && g.dialect.types) || c.isWord "defer" || c.isWord "source"
  if isWord && marksImport c then
    let w ← anyWord
    return [w]
  else return []

def importEquals (g : Grammar) (ctx : Context) (words : List String) : Reader Tree := do
  let given ← name ctx
  mark "="
  let c ← cursor
  let reference ←
    if c.isWord "require" && c.next.isMark "(" then
      advance
      advance
      let source ← text
      mark ")"
      pure (Tree.requires source)
    else pure (Tree.reference (← g.path) [])
  endStatement
  return .importEquals words given reference

def importDeclaration (g : Grammar) (ctx : Context) : Reader Tree := do
  word "import"
  match ← token with
  | .text source =>
    advance
    let attributes ← g.importAttributes
    endStatement
    return .imports ⟨[], none, none, none, source, attributes⟩
  | _ =>
    let words ← g.importWords
    if g.dialect.types && (← cursor).next.isMark "=" then return ← g.importEquals ctx words
    let (defaultName, namespaceName, named) ← g.importNames ctx
    word "from"
    let source ← text
    let attributes ← g.importAttributes
    endStatement
    return .imports ⟨words, defaultName, namespaceName, named, source, attributes⟩

/-! ## Exports -/

def exportSpecifier (g : Grammar) : Reader ExportSpecifier := do
  let typeOnly := g.dialect.types && marksType (← cursor)
  if typeOnly then advance
  let source ← moduleName
  if ← skipWord "as" then return ⟨typeOnly, source, ← moduleName⟩
  return ⟨typeOnly, source, source⟩

def isLocal (ctx : Context) (s : ExportSpecifier) : Bool :=
  match s.source with
  | .word w => isName ctx w
  | .quoted _ => false

def exportNames (g : Grammar) (ctx : Context) (typeOnly : Bool) : Reader Tree := do
  mark "\x7b"
  let names ← g.list "\x7d" g.exportSpecifier
  let source ← if ← skipWord "from" then some <$> text else pure none
  require (source.isSome || names.all (isLocal ctx))
  let attributes ← if source.isSome then g.importAttributes else pure none
  endStatement
  return .exportNames typeOnly names source attributes

def exportAll (g : Grammar) (typeOnly : Bool) : Reader Tree := do
  mark "*"
  let exported ← if ← skipWord "as" then some <$> moduleName else pure none
  word "from"
  let source ← text
  let attributes ← g.importAttributes
  endStatement
  return .exportAll typeOnly exported source attributes

def exportDefault (g : Grammar) (ctx : Context) : Reader Tree := do
  word "default"
  let c ← cursor
  if c.isWord "function" || (c.isWord "async" && c.next.isWord "function" && !c.next.newLine) then
    return .exportDefaultDeclaration (← g.functionRule ctx [] false)
  if c.isWord "class" || c.isMark "@" ||
      (g.dialect.types && c.isWord "abstract" && c.next.isWord "class" && !c.next.newLine) then
    return .exportDefaultDeclaration (← g.classAfter ctx (← g.decorators ctx))
  if g.dialect.types && c.isWord "interface" && !c.next.newLine then
    if let some declared ← attempt (g.interface ctx []) then
      return .exportDefaultDeclaration declared
  let e ← g.assignment ctx
  endStatement
  return .exportDefault e

def namedClass (g : Grammar) (ctx : Context) (decorators : List Tree) : Reader Tree := do
  let declared ← g.classAfter ctx decorators
  require (hasName declared)
  return declared

def isResource : Tree → Bool
  | .variableDeclaration _ kind _ => kind == .resource || kind == .asyncResource
  | _ => false

def exportRule (g : Grammar) (ctx : Context) : Reader Tree := do
  word "export"
  let c ← cursor
  if c.isWord "default" then return ← g.exportDefault ctx
  if c.isMark "*" then return ← g.exportAll false
  if c.isMark "\x7b" then return ← g.exportNames ctx false
  if g.dialect.types && c.isWord "type" then
    if c.next.isMark "*" then
      advance
      return ← g.exportAll true
    if c.next.isMark "\x7b" then
      advance
      return ← g.exportNames ctx true
  if g.dialect.types then
    if ← skipMark "=" then
      let e ← g.expression ctx
      endStatement
      return .exportEquals e
    if c.isWord "as" && c.next.isWord "namespace" then
      advance
      advance
      let w ← name ctx
      endStatement
      return .exportSpace w
    if ← skipWord "import" then
      return .exportDeclaration (← g.importEquals ctx (← g.importWords))
  if c.isMark "@" then return .exportDeclaration (← g.namedClass ctx (← g.decorators ctx))
  if let some declared ← g.ambientDeclaration? ctx then return .exportDeclaration declared
  match ← g.declaration? ctx [] with
  | some declared =>
    require !(isResource declared)
    return .exportDeclaration declared
  | none => failure

def decoratedStatement (g : Grammar) (ctx : Context) : Reader Tree := do
  require !ctx.isOnly
  let decorators ← g.decorators ctx
  if ← skipWord "export" then
    require ctx.isTop
    if ← skipWord "default" then
      return .exportDefaultDeclaration (← g.classAfter ctx decorators)
    return .exportDeclaration (← g.namedClass ctx decorators)
  g.namedClass ctx decorators

def uncommented (g : Grammar) (ctx : Context) : Reader Tree := do
  let c ← cursor
  if c.isWord "export" then
    require ctx.isTop
    g.exportRule ctx
  else if c.isWord "import" && !(c.next.isMark "(" || c.next.isMark ".") then
    require ctx.isTop
    g.importDeclaration ctx
  else if c.isMark "@" then g.decoratedStatement ctx
  else g.plainStatement ctx

def statementRule (g : Grammar) (ctx : Context) : Reader Tree := do
  let isInert := (← cursor).marksInert
  let comments ← takeComments
  let statement ← g.uncommented ctx
  return withComments comments (if isInert then statement.declaredInert else statement)

/-! ## The grammar by depth -/

def ofDepth (dialect : Dialect) (bound : Nat) : Nat → Grammar
  | 0 =>
    { dialect, bound
      assignment := fun _ => failure
      unary := fun _ => failure
      leftHandSide := fun _ => failure
      constructed := fun _ => failure
      pattern := fun _ => failure
      type := fun _ => failure
      element := fun _ => failure
      statement := fun _ => failure }
  | depth + 1 =>
    { dialect, bound
      assignment := fun ctx c => (ofDepth dialect bound depth).assignmentRule ctx c
      unary := fun ctx c => (ofDepth dialect bound depth).unaryRule ctx c
      leftHandSide := fun ctx c => (ofDepth dialect bound depth).leftHandSideRule ctx c
      constructed := fun ctx c => (ofDepth dialect bound depth).constructedRule ctx c
      pattern := fun ctx c => (ofDepth dialect bound depth).patternRule ctx c
      type := fun ctx c => (ofDepth dialect bound depth).typeRule ctx c
      element := fun ctx c => (ofDepth dialect bound depth).elementRule ctx c
      statement := fun ctx c => (ofDepth dialect bound depth).statementRule ctx c }

end Grammar

/-! ## Exported names -/

def Tree.patternNames : Tree → List String
  | .name w => [w]
  | .patternField _ p => p.patternNames
  | .objectPattern fields rest => namesOfAll fields ++ namesOfRest rest
  | .arrayPattern items rest => namesOfAll items ++ namesOfRest rest
  | .withDefault p _ => p.patternNames
  | .declarator p _ _ _ => p.patternNames
  | _ => []
where
  namesOfAll : List Tree → List String
    | [] => []
    | p :: rest => p.patternNames ++ namesOfAll rest
  namesOfRest : Option Tree → List String
    | none => []
    | some p => p.patternNames

def TextLiteral.plain (literal : TextLiteral) : String :=
  String.ofList (literal.units.map fun
    | .char c => c
    | .surrogate _ => '\ufffd')

def ModuleName.plain : ModuleName → String
  | .word w => w
  | .quoted literal => literal.plain

def Tree.exportedNames : Tree → List String
  | .commented _ s => s.exportedNames
  | .inert s => s.exportedNames
  | .exportDeclaration (.variableDeclaration _ _ declarators) =>
    declarators.flatMap Tree.patternNames
  | .exportDeclaration (.function _ _ w _ _ _) => w.toList
  | .exportDeclaration (.classDefinition _ _ w _ _ _ _ _) => w.toList
  | .exportDefault _ => ["default"]
  | .exportDefaultDeclaration _ => ["default"]
  | .exportNames _ names _ _ => names.map (·.exported.plain)
  | .exportAll _ exported _ _ => (exported.map ModuleName.plain).toList
  | _ => []

/-! ## Whole modules -/

def interpreterLine : List Char → Option String × List Char
  | '#' :: '!' :: rest =>
    (some (String.ofList (rest.takeWhile fun c => !isLineEnd c)),
      rest.dropWhile fun c => !isLineEnd c)
  | cs => (none, cs)

/-- Reads a module. Without types no name may be exported twice. -/
def Program.read (dialect : Dialect) (source : String) : Option Program :=
  let (interpreter, cs) := interpreterLine source.toList
  let bound := source.length + 1
  let g := Grammar.ofDepth dialect bound (4 * bound)
  let module : Reader (List Tree) := many (do
    if (← token) == .finish then return none
    else return some (← g.statement { isTop := true })) bound
  match module.result? (Cursor.ofSource cs) with
  | some (statements, c) =>
    if c.openFields == 0 &&
        (dialect.types || decide (statements.flatMap Tree.exportedNames).Nodup) then
      some ⟨interpreter, withDirectives statements, c.comments, c.tags⟩
    else none
  | none => none

end Pagewright.Script

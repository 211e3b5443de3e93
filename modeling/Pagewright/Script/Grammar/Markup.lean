import Pagewright.Script.Grammar.Type

/-!
# Grammar of markup

Between tags the text is taken as it stands, so the reader of an element leaves the
cursor at the element's last angle bracket; whoever asked for the element knows
whether text or a token comes next.
-/

set_option autoImplicit false

namespace Pagewright.Script

/-- The name in scope that a tag refers to. Plain lower-case tags and tags with hyphens are
built in. -/
def tagReference (first : String) (hasParts : Bool) : Option String :=
  if first == "this" then none
  else if hasParts then some first
  else
    match first.toList with
    | c :: cs => if c.isLower || (c :: cs).contains '-' then none else some first
    | [] => none

namespace Grammar

open Reader

def markupName : Reader String := do
  let c ← cursor
  match c.token with
  | .word _ =>
    let isPart := fun x => Text.isIdentifierPart x || x == '-'
    set (c.moveTo (c.start.dropWhile isPart))
    return String.ofList (c.start.takeWhile isPart)
  | _ => failure

def tag (g : Grammar) : Reader (String × Option String) := do
  let first ← markupName
  if ← skipMark ":" then return (first ++ ":" ++ (← markupName), none)
  let parts ← many (do
    if ← skipMark "." then return some (← markupName) else return none) g.bound
  require (parts.all fun w => !w.contains '-')
  return (Text.join "." (first :: parts), tagReference first !parts.isEmpty)

/-- The expression between braces; the cursor is left at the closing brace. -/
def embeddedExpression (g : Grammar) (ctx : Context) : Reader Tree := do
  match ← g.expression ctx.bracketed with
  | .sequence _ _ => failure
  | e => return e

def inQuotes (text : List Char) : Tree :=
  let quote := if text.contains '"' then '\'' else '"'
  .quotedText (String.ofList (quote :: text ++ [quote]))

/-- The value of an attribute. Between quotes every character stands for itself. -/
def attributeValue (g : Grammar) (ctx : Context) : Reader Tree := do
  let c ← cursor
  let some (_, text) := skipGap {} .blank c.rest | failure
  if let quote :: rest := text then
    if quote == '"' || quote == '\'' then
      let inner := rest.takeWhile (· != quote)
      require (inner.length < rest.length)
      set (c.moveTo (rest.drop (inner.length + 1)))
      return inQuotes inner
  advance
  if ← skipMark "\x7b" then
    let e ← g.embeddedExpression ctx
    mark "\x7d"
    return .embedded e
  let element ← g.element ctx
  mark ">"
  return element

def markupAttribute (g : Grammar) (ctx : Context) : Reader Tree := do
  if ← skipMark "\x7b" then
    mark "..."
    let e ← g.assignment ctx.bracketed
    mark "\x7d"
    return .embedded (.spread e)
  let first ← markupName
  let attributeName ← if ← skipMark ":" then pure (first ++ ":" ++ (← markupName)) else pure first
  if ← atMark "=" then return .markupAttribute attributeName (some (← g.attributeValue ctx))
  return .markupAttribute attributeName none

def embeddedChild (g : Grammar) (ctx : Context) : Reader Tree := do
  if ← atMark "\x7d" then return .remark (← takeComments)
  let e ←
    if ← skipMark "..." then
      pure (Tree.embedded (.spread (← g.assignment ctx.bracketed)))
    else pure (Tree.embedded (← g.embeddedExpression ctx))
  require (← atMark "\x7d")
  return e

def isChildText (c : Char) : Bool := c != '\x7b' && c != '\x7d' && c != '<' && c != '>'

/-- The next child after the cursor's token; none before a closing tag, at whose slash the
cursor is left. -/
def child (g : Grammar) (ctx : Context) : Reader (Option Tree) := do
  let c ← cursor
  let text := c.rest.takeWhile isChildText
  if !text.isEmpty then
    -- the text ends where the token before it ends, so the cursor only skips it
    set { c with rest := c.rest.drop text.length }
    return some (.markupText (String.ofList text))
  match c.rest with
  | '\x7b' :: rest =>
    set (c.moveTo rest)
    return some (← g.embeddedChild ctx)
  | '<' :: rest =>
    set (c.moveTo c.rest)
    if (c.moveTo rest).isMark "/" then
      advance
      return none
    return some (← g.element ctx)
  | _ => failure

def elementRule (g : Grammar) (ctx : Context) : Reader Tree := do
  mark "<"
  if ← atMark ">" then
    let children ← many (g.child ctx) g.bound
    advance
    require (← atMark ">")
    return .fragment children
  let (opened, reference) ← g.tag
  noteTag reference
  let types ← g.optionalTypeArguments ctx
  let attributes ← many (do
    if (← atMark "/") || (← atMark ">") then return none
    return some (← g.markupAttribute ctx)) g.bound
  if ← skipMark "/" then
    require (← atMark ">")
    return .element opened types attributes none
  let children ← many (g.child ctx) g.bound
  advance
  let (closed, _) ← g.tag
  require (closed == opened)
  require (← atMark ">")
  return .element opened types attributes (some children)

end Grammar

end Pagewright.Script

import Pagewright.Output.File
import Pagewright.Script.Reader

/-!
# Grammar of scripts

A `Grammar` holds the readers that the rules call for the parts nested inside them.
The rules are written against it one by one, without recursion; the grammar of each
depth of nesting is then made from that of the depth below.
-/

set_option autoImplicit false

namespace Pagewright.Script

structure Context where
  /-- Imports and exports may stand here. -/
  isTop : Bool := false
  inFunction : Bool := false
  /-- Expressions may wait for promises. -/
  isAsync : Bool := true
  isGenerator : Bool := false
  /-- The word `in` ends the expression. -/
  endsAtIn : Bool := false
  /-- A colon must follow an arrow function that has a result type. -/
  inChoice : Bool := false
  /-- Brackets do not belong to the expression. -/
  inDecorator : Bool := false
  /-- A question mark after a type belongs to something else. -/
  inBound : Bool := false
  /-- Declarations describe code that stands elsewhere. -/
  ambient : Bool := false
  /-- The statement is all that another one holds, so it cannot declare names of a block. -/
  isOnly : Bool := false

namespace Context

def inBody (ctx : Context) (isAsync isGenerator : Bool) : Context :=
  { inFunction := true, isAsync, isGenerator, ambient := ctx.ambient }

def bracketed (ctx : Context) : Context :=
  { ctx with endsAtIn := false, inChoice := false, inDecorator := false, inBound := false }

def listed (ctx : Context) : Context := { ctx with isTop := false, isOnly := false }

def only (ctx : Context) : Context := { ctx with isTop := false, isOnly := true }

end Context

structure Grammar where
  dialect : Dialect
  /-- Bounds the length of every list. -/
  bound : Nat
  assignment : Context → Reader Tree
  unary : Context → Reader Tree
  /-- Accesses and calls, without operators. -/
  leftHandSide : Context → Reader Tree
  /-- Accesses alone, as after `new`. -/
  constructed : Context → Reader Tree
  pattern : Context → Reader Tree
  type : Context → Reader Tree
  /-- Leaves the cursor at the closing angle bracket. -/
  element : Context → Reader Tree
  statement : Context → Reader Tree

open Reader

def isName (ctx : Context) (w : String) : Bool :=
  !keywords.contains w && !(w == "await" && ctx.isAsync) && !(w == "yield" && ctx.isGenerator)

def name (ctx : Context) : Reader String := do
  let w ← anyWord
  require (isName ctx w)
  return w

def text : Reader TextLiteral := do
  match ← token with
  | .text literal =>
    advance
    return literal
  | _ => failure

def oneOf (words : List String) : Reader (Option String) := do
  match ← token with
  | .word w => return if words.contains w then some w else none
  | _ => return none

def withDirectives : List Tree → List Tree
  | .expression (.text literal) :: rest => .directive literal.source :: withDirectives rest
  | .commented comments (.expression (.text literal)) :: rest =>
    .commented comments (.directive literal.source) :: withDirectives rest
  | statements => statements

def withComments (comments : List Comment) (t : Tree) : Tree :=
  if comments.isEmpty then t else .commented comments t

namespace Grammar

def expression (g : Grammar) (ctx : Context) : Reader Tree := do
  match ← separated "," (g.assignment ctx) g.bound with
  | [] => failure
  | [e] => return e
  | first :: rest => return .sequence first rest

def list {α : Type} (g : Grammar) (close : String) (item : Reader α) : Reader (List α) :=
  listUntil close item g.bound

def key (g : Grammar) (ctx : Context) : Reader Tree := do
  match ← token with
  | .text literal =>
    advance
    return .text literal
  | .number value source =>
    advance
    return .number value source
  | .wholeNumber value =>
    advance
    return .wholeNumber value
  | .secret w =>
    advance
    return .secret w
  | .mark _ =>
    mark "["
    let e ← g.assignment ctx.bracketed
    mark "]"
    return .computed e
  | _ => return .name (← propertyName)

def optionally (g : Grammar) (ctx : Context) (m : String)
    (r : Grammar → Context → Reader Tree) : Reader (Option Tree) := do
  if ← skipMark m then return some (← r g ctx) else return none

def initial (g : Grammar) (ctx : Context) : Reader (Option Tree) :=
  g.optionally ctx "=" Grammar.assignment

def givenType (g : Grammar) (ctx : Context) : Reader (Option Tree) :=
  if g.dialect.types then g.optionally ctx ":" Grammar.type else return none

def optionMark (g : Grammar) : Reader Bool :=
  if g.dialect.types then skipMark "?" else return false

def statementsUntilBrace (g : Grammar) (ctx : Context) : Reader (List Tree × List Comment) := do
  let statements ← many (do
    if ← atMark "\x7d" then return none else return some (← g.statement ctx)) g.bound
  let ending ← takeComments
  mark "\x7d"
  return (statements, ending)

def block (g : Grammar) (ctx : Context) : Reader Tree := do
  mark "\x7b"
  let (statements, _) ← g.statementsUntilBrace ctx.listed
  return .block statements

def functionBody (g : Grammar) (ctx : Context) : Reader Tree := do
  mark "\x7b"
  let (statements, ending) ← g.statementsUntilBrace ctx.listed
  return .body (withDirectives statements) ending

def decorators (g : Grammar) (ctx : Context) : Reader (List Tree) :=
  many (do
    if ← skipMark "@" then
      return some (.decorator (← g.leftHandSide { ctx with inDecorator := true }))
    else return none) g.bound

end Grammar

end Pagewright.Script

import Pagewright.Script.Token

/-!
# Reading tokens

A cursor stands at a token of the text. A reader moves it and gives a result, or
fails. The cursor remembers where its token starts, so that a reader that knows
better can take the same text for a regular expression, a piece of a template or
markup, and it notes the names that tags refer to. All that a failed reader leaves is
the knowledge where no arrow function begins, so that no place is tried twice.
-/

set_option autoImplicit false

namespace Pagewright.Script

structure Cursor where
  token : Token
  /-- The text from the token on. -/
  start : List Char
  /-- The text after the token. -/
  rest : List Char
  /-- A line ends between the token and the one before it. -/
  newLine : Bool
  /-- The comments that lead the token, until someone takes them. -/
  comments : List Comment
  /-- A comment says that the call at the token has no side effects. -/
  marksPure : Bool
  /-- A comment says that the function at the token has no side effects. -/
  marksInert : Bool
  /-- The names that tags read so far refer to. -/
  tags : List String
  /-- How many fields were read that only an assignment target can hold. -/
  openFields : Nat

namespace Cursor

def ofText (gap : Gap) (tags : List String) (openFields : Nat) (cs : List Char) : Cursor :=
  match skipGap gap .blank cs with
  | some (g, start) =>
    let (token, rest) := tokenAt start
    ⟨token, start, rest, g.lineEnded, g.comments, g.marksPure, g.marksInert, tags, openFields⟩
  | none => ⟨.invalid, cs, [], false, [], false, false, tags, openFields⟩

def ofSource (source : List Char) : Cursor := ofText Gap.start [] 0 source

def moveTo (c : Cursor) (cs : List Char) : Cursor := ofText {} c.tags c.openFields cs

def isMark (c : Cursor) (m : String) : Bool := c.token == .mark m

def isWord (c : Cursor) (w : String) : Bool := c.token == .word w

def next (c : Cursor) : Cursor :=
  ofText { opensValue := c.isMark "=" || c.isMark "(" } c.tags c.openFields c.rest

def place (c : Cursor) : Nat := c.start.length

end Cursor

abbrev ArrowFree := List Nat

abbrev Reader (α : Type) := StateT Cursor (OptionT (StateM ArrowFree)) α

namespace Reader

def cursor : Reader Cursor := get

def token : Reader Token := return (← get).token

def advance : Reader Unit := modify Cursor.next

def atMark (m : String) : Reader Bool := return (← get).isMark m

def atWord (w : String) : Reader Bool := return (← get).isWord w

def require (condition : Bool) : Reader Unit := if condition then pure () else failure

def skipMark (m : String) : Reader Bool := do
  if ← atMark m then
    advance
    return true
  else return false

def skipWord (w : String) : Reader Bool := do
  if ← atWord w then
    advance
    return true
  else return false

def mark (m : String) : Reader Unit := do require (← skipMark m)

def word (w : String) : Reader Unit := do require (← skipWord w)

def anyWord : Reader String := do
  match ← token with
  | .word name =>
    advance
    return name
  | _ => failure

def propertyName : Reader String := do
  match ← token with
  | .word name =>
    advance
    return name
  | .escaped name =>
    advance
    return name
  | _ => failure

def takeComments : Reader (List Comment) := do
  let c ← get
  set { c with comments := [] }
  return c.comments

def attempt {α : Type} (r : Reader α) : Reader (Option α) := fun c => OptionT.mk do
  match ← (r c).run with
  | some (a, c') => return some (some a, c')
  | none => return some (none, c)

/-- Tries to read an arrow function, unless it is known that none begins here. -/
def attemptArrow {α : Type} (r : Reader α) : Reader (Option α) := fun c => OptionT.mk do
  let place := c.place
  if (← get).contains place then return some (none, c)
  match ← (r c).run with
  | some (a, c') => return some (some a, c')
  | none =>
    modify (place :: ·)
    return some (none, c)

def result? {α : Type} (r : Reader α) (c : Cursor) : Option (α × Cursor) := ((r c).run.run []).1

def many {α : Type} (item : Reader (Option α)) : Nat → Reader (List α)
  | 0 => failure
  | n + 1 => do
    match ← item with
    | some a => return a :: (← many item n)
    | none => return []

/-- Repeats a step as long as it gives a new state; the count bounds the repetitions. -/
def iterate {α : Type} (step : α → Reader (Option α)) : Nat → α → Reader α
  | 0, _ => failure
  | n + 1, a => do
    match ← step a with
    | some b => iterate step n b
    | none => return a

def listUntil {α : Type} (close : String) (item : Reader α) (bound : Nat) : Reader (List α) :=
  many (do
    if ← skipMark close then return none
    let a ← item
    if ← atMark close then return some a
    mark ","
    return some a) bound

def separated {α : Type} (separator : String) (item : Reader α) (bound : Nat) :
    Reader (List α) := do
  let first ← item
  let rest ← many (do
    if ← skipMark separator then return some (← item) else return none) bound
  return first :: rest

def endStatement : Reader Unit := do
  let c ← cursor
  if c.isMark ";" then advance
  else require (c.isMark "\x7d" || c.newLine || c.token == .finish)

def noteTag (reference : Option String) : Reader Unit :=
  modify fun c => { c with tags := reference.toList ++ c.tags }

end Reader

end Pagewright.Script

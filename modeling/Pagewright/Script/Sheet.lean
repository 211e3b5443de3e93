import Pagewright.Script.Token

/-!
# The sheet that code is written on

Code is written from the first character to the last. The sheet knows the depth of
indentation, and it remembers the few places behind it that decide what may come next:
where a statement began, so that parentheses keep an expression from being taken for a
declaration, and where an operator ended, so that two signs do not run together.

Comments go before what they lead. One that ends its line is followed by a new one;
after any other, the indentation that comes next shrinks to a space.
-/

set_option autoImplicit false

namespace Pagewright.Script

structure Sheet where
  /-- What was written, the last piece first. -/
  pieces : List String := []
  last : Option Char := none
  length : Nat := 0
  depth : Nat := 0
  /-- The next indentation is a single space. -/
  spaceNext : Bool := false
  /-- Where the last expression statement began. -/
  statementStart : Option Nat := none
  /-- Where the result of the last arrow function began. -/
  resultStart : Option Nat := none
  /-- Where the last exported expression began. -/
  exportStart : Option Nat := none
  /-- The operator that was written last, with where it ended. -/
  operatorEnd : Option (String × Nat) := none
  /-- Where the last whole number ended; a dot there would be its point. -/
  numberEnd : Option Nat := none

abbrev Writer := StateM Sheet Unit

def tabs (n : Nat) : String := String.ofList (List.replicate n '\t')

namespace Writer

def emit (s : String) : Writer := modify fun sheet =>
  let cs := s.toList
  if cs.isEmpty then sheet
  else
    { sheet with
      pieces := s :: sheet.pieces
      last := cs.getLast?
      length := sheet.length + cs.length }

def text (w : Writer) : String := String.join (w.run {}).2.pieces.reverse

def newLine : Writer := emit "\n"

def indent : Writer := do
  let sheet ← get
  if sheet.spaceNext then
    set { sheet with spaceNext := false }
    emit " "
  else emit (tabs sheet.depth)

def deeper (w : Writer) : Writer := do
  modify fun sheet => { sheet with depth := sheet.depth + 1 }
  w
  modify fun sheet => { sheet with depth := sheet.depth - 1 }

def parens (wrap : Bool) (w : Writer) : Writer := do
  if wrap then emit "("
  w
  if wrap then emit ")"

def braces (isEmpty : Bool) (w : Writer) : Writer := do
  emit "\x7b"
  if isEmpty then w
  else
    newLine
    deeper w
    indent
  emit "\x7d"

/-! ## Places -/

def startsStatement : StateM Sheet Bool := do
  let sheet ← get
  return sheet.statementStart == some sheet.length

def startsResult : StateM Sheet Bool := do
  let sheet ← get
  return sheet.resultStart == some sheet.length

def startsExport : StateM Sheet Bool := do
  let sheet ← get
  return sheet.exportStart == some sheet.length

def beginStatement : Writer :=
  modify fun sheet => { sheet with statementStart := some sheet.length }

def beginResult : Writer := modify fun sheet => { sheet with resultStart := some sheet.length }

def beginExport : Writer := modify fun sheet => { sheet with exportStart := some sheet.length }

def beginAgain (statement isExport : Bool) : Writer :=
  if isExport then beginExport else if statement then beginStatement else pure ()

def joins (previous next : String) : Bool :=
  (previous == "+" && (next == "+" || next == "++")) ||
    (previous == "-" && (next == "-" || next == "--"))

def spaceBefore (operator : String) : Writer := do
  let sheet ← get
  match sheet.operatorEnd with
  | some (previous, place) =>
    if place == sheet.length && joins previous operator then emit " "
  | none => pure ()

def putOperator (operator : String) : Writer := do
  emit operator
  modify fun sheet => { sheet with operatorEnd := some (operator, sheet.length) }

def putNumber (code : String) : Writer := do
  emit code
  if code.toList.all Char.isDigit then
    modify fun sheet => { sheet with numberEnd := some sheet.length }

def putDot : Writer := do
  let sheet ← get
  emit (if sheet.numberEnd == some sheet.length then " ." else ".")

/-! ## Comments -/

def withoutScriptEnd : List Char → List Char
  | [] => []
  | '<' :: '/' :: rest =>
    let isEnd := (rest.take 6).map Char.toLower == "script".toList
    (if isEnd then ['<', '\\', '/'] else ['<', '/']) ++ withoutScriptEnd rest
  | c :: rest => c :: withoutScriptEnd rest

def putSource (source : String) : Writer := emit (String.ofList (withoutScriptEnd source.toList))

def linesOf (current : List Char) : List Char → List (List Char)
  | [] => [current.reverse]
  | '\r' :: '\n' :: rest => current.reverse :: linesOf [] rest
  | c :: rest =>
    if isLineEnd c then current.reverse :: linesOf [] rest else linesOf (c :: current) rest

def commentLine (line : List Char) : Writer := do
  if !"/*".toList.isPrefixOf line then indent
  putSource (String.ofList (Text.trimStart line))
  if !"*/".toList.isSuffixOf line then newLine

def comment (c : Comment) : Writer :=
  if c.isBlock && c.text.toList.any (fun x => x == '\n' || x == '\r') then
    (linesOf [] c.text.toList).forM commentLine
  else putSource c.text

def beginComments (first : Comment) : Writer := do
  if first.startsLine then
    match (← get).last with
    | none => pure ()
    | some '\n' => indent
    | some '\t' => pure ()
    | some _ =>
      newLine
      indent
  else indent

def laterComment (c : Comment) : Writer := do
  if c.startsLine then
    newLine
    indent
  else if c.isLegal then newLine
  comment c

def endComments (last : Comment) : Writer :=
  if !last.isBlock || last.endsLine then newLine
  else modify fun sheet => { sheet with spaceNext := true }

def comments : List Comment → Writer
  | [] => pure ()
  | first :: rest => do
    beginComments first
    comment first
    rest.forM laterComment
    endComments (rest.getLast?.getD first)

def commentLines (cs : List Comment) : Writer := do
  cs.forM fun c => do
    newLine
    indent
    comment c
  newLine

end Writer

end Pagewright.Script

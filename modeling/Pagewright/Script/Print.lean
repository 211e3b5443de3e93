import Pagewright.Script.Code
import Pagewright.Script.Sheet

/-!
# Printing of trees

`Tree.write` writes a tree where it stands. A statement, a member of a class or a
member of a type is written on a line of its own, with its indentation and its end; a
part of something else is written as it is. Parentheses stand where the levels of
operators ask for them, and only there. The width of the code is never looked at, so
each construct alone decides where its lines end.
-/

set_option autoImplicit false

namespace Pagewright.Script

open Writer

/-! ## Positions -/

inductive Frame where
  /-- A part of something on the line. -/
  | inner
  /-- A statement or a member of a class, which has a line of its own. -/
  | statement
  /-- A statement whose indentation has been written. -/
  | begun
  /-- A member of a type. -/
  | member
  deriving DecidableEq, Repr

/-- Where a tree stands. An expression needs parentheses if it does not bind more tightly than
the level. -/
structure Position where
  level : Level := Level.lowest
  /-- A call would take the arguments of `new`. -/
  noCall : Bool := false
  /-- The word `in` would head a loop. -/
  noIn : Bool := false
  /-- In a type numbers are written as they were. -/
  inType : Bool := false
  frame : Frame := .inner

namespace Position

def within (level : Level) : Position := { level }

def statement : Position := { frame := .statement }

def type : Position := { inType := true }

def atLevel (p : Position) (level : Level) : Position := { p with level, frame := .inner }

def operand (p : Position) (wrapped : Bool) (level : Level) : Position :=
  { level, noIn := p.noIn && !wrapped }

def object (p : Position) : Position := { level := Level.trailing, noCall := p.noCall }

def begun (p : Position) : Position :=
  if p.frame == .statement then { p with frame := .begun } else p

end Position

def startLine (p : Position) : Writer :=
  match p.frame with
  | .statement => indent
  | .member => indent
  | _ => pure ()

def endLine (p : Position) (ending : String) : Writer :=
  match p.frame with
  | .inner => pure ()
  | .member => emit ";\n"
  | _ => emit ending

/-! ## Questions about parts -/

def Tree.ungrouped : Tree → Tree
  | .grouped e => e.ungrouped
  | e => e

def Tree.isGrouped : Tree → Bool
  | .grouped _ => true
  | _ => false

def Tree.isName (w : String) : Tree → Bool
  | .name n => n == w
  | _ => false

def isShorthand (key value : Tree) : Bool :=
  match key, value.ungrouped with
  | .name k, .name w => k == w && k != "__proto__" && !keywords.contains w
  | _, _ => false

def isPatternShorthand (key pattern : Tree) : Bool :=
  match key, pattern with
  | .name k, .name w => k == w
  | .name k, .withDefault (.name w) _ => k == w
  | _, _ => false

def Tree.isInfinite : Tree → Bool
  | .number (.infinite _) _ => true
  | _ => false

def Tree.isUnary : Tree → Bool
  | .unary _ _ => true
  | _ => false

def Tree.isObjectTarget : Tree → Bool
  | .objectTarget _ _ => true
  | _ => false

def Tree.isHole : Tree → Bool
  | .hole => true
  | _ => false

def Tree.isFunctionType : Tree → Bool
  | .functionType _ _ _ => true
  | _ => false

def Tree.uncommented : Tree → Tree
  | .commented _ t => t.uncommented
  | t => t

def Tree.isBlock (t : Tree) : Bool :=
  match t.uncommented with
  | .block _ => true
  | _ => false

def Tree.isEmpty (t : Tree) : Bool :=
  match t.uncommented with
  | .empty => true
  | _ => false

def Tree.isChoice (t : Tree) : Bool :=
  match t.uncommented with
  | .choice _ _ _ => true
  | _ => false

def Tree.takesElse : Tree → Bool
  | .choice _ _ none => true
  | .choice _ _ (some no) => no.takesElse
  | .loop _ _ _ inside => inside.takesElse
  | .loopOver _ _ _ _ inside => inside.takesElse
  | .whileLoop _ inside => inside.takesElse
  | .withScope _ inside => inside.takesElse
  | .labeled _ s => s.takesElse
  | .commented _ s => s.takesElse
  | _ => false

def Tree.indentsFirst : Tree → Bool
  | .typeAlias _ _ _ _ => true
  | .interface _ _ _ _ _ => true
  | .enumeration _ _ _ => true
  | .importEquals _ _ _ => true
  | _ => false

def Tree.isInterface : Tree → Bool
  | .interface _ _ _ _ _ => true
  | _ => false

def Tree.isPlainDecorator : Tree → Bool
  | .name _ => true
  | .member subject optional _ => !optional && subject.isPlainDecorator
  | .call callee optional _ _ _ => !optional && callee.isPlainDecorator
  | _ => false

def Tree.leadingText : Tree → Option TextLiteral
  | .commented _ t => t.leadingText
  | .expression e =>
    match e.ungrouped with
    | .text literal => some literal
    | _ => none
  | _ => none

def hasComments : List Tree → Bool
  | [] => false
  | .commented _ _ :: _ => true
  | _ :: rest => hasComments rest

def Tree.commentsBefore : Tree → List Comment
  | .commented comments _ => comments
  | .object comments _ => comments
  | _ => []

/-- The levels of the operands of a binary operator. Operators of one level group to the left,
powers to the right, and it does not matter how logical operators of one kind group. -/
def operandLevels (operator : String) (left right : Tree) : Level × Level :=
  let own := (operatorLevel operator).getD 0
  match operator with
  | "**" => (if left.ungrouped.isUnary then Level.call else own, own - 1)
  | "??" =>
    (if left.ungrouped.isLogical ["||", "&&"] then Level.unary else own - 1,
      if right.ungrouped.isLogical ["||", "&&"] then Level.unary else own - 1)
  | "||" => (own - 1, own - 1)
  | "&&" => (own - 1, own - 1)
  | _ => (own - 1, own)

/-! ## Pieces -/

def putWords (order words : List String) : Writer :=
  (order.filter words.contains).forM fun w => emit (w ++ " ")

def memberOrder : List String := [
  "declare", "public", "private", "protected", "abstract", "static", "readonly", "accessor", "get",
  "set", "async", "new"]

def declarationOrder : List String := ["declare", "abstract", "async", "const"]

def parameterOrder : List String := ["public", "private", "protected", "readonly"]

def putUnary (operator : String) : Writer := do
  if operator.toList.all Char.isAlpha then emit (operator ++ " ")
  else
    spaceBefore operator
    putOperator operator

def putBinary (operator : String) : Writer := do
  emit " "
  if operator.toList.all Char.isAlpha then emit operator
  else
    spaceBefore operator
    putOperator operator
  emit " "

def attached (s : Tree) (w : Position → Writer) : Writer :=
  if s.isBlock then do
    emit " "
    w {}
    newLine
  else if s.isEmpty then emit ";\n"
  else do
    modify fun sheet => { sheet with spaceNext := true }
    w Position.statement

/-- What follows the test of a choice. A statement that would take the alternative for its own
gets braces. -/
def consequence (s : Tree) (hasElse : Bool) (w : Position → Writer) : Writer :=
  if s.isBlock || s.takesElse then do
    emit " "
    if s.isBlock then w {} else braces false (w Position.statement)
    emit (if hasElse then " " else "\n")
  else do
    attached s w
    if hasElse then indent

def alternative (s : Tree) (w : Position → Writer) : Writer := do
  emit "else"
  if s.isChoice then
    emit " "
    w {}
  else attached s w

def repeatedBody (s : Tree) (w : Position → Writer) : Writer := do
  emit "do"
  if s.isBlock then
    emit " "
    w {}
    emit " "
  else if s.isEmpty then w Position.statement
  else
    newLine
    deeper (w Position.statement)
    indent

/-! ## Lists -/

def separatedBy (separator : String) : Bool → Tree → Writer :=
  fun isFirst _ => if isFirst then pure () else emit separator

def stacked : Bool → Tree → Writer := fun isFirst _ => do
  if !isFirst then emit ","
  newLine
  indent

def spaced : Bool → Tree → Writer := fun _ _ => emit " "

def stackedArgument : Bool → Tree → Writer := fun isFirst t => do
  if !isFirst then emit ","
  match t with
  | .commented remarks _ => commentLines remarks
  | _ => newLine
  indent

def stackedMember : Bool → Tree → Writer := fun isFirst t => do
  if !isFirst then emit ",\n"
  match t with
  | .commented remarks _ => comments remarks
  | _ => pure ()
  indent

def itemList (isStacked : Bool) (w : (Bool → Tree → Writer) → Writer) : Writer :=
  if isStacked then do
    deeper (w stacked)
    newLine
    indent
  else w (separatedBy ", ")

def angled (types : List Tree) (w : Writer) : Writer :=
  if types.isEmpty then pure ()
  else do
    emit "<"
    w
    emit ">"

/-- Type parameters: one stands on the line, several have lines of their own. A hole after the
first leaves only its comma. -/
def typeParameterList (types : List Tree) (w : (Bool → Tree → Writer) → Writer) : Writer :=
  angled types <|
    match types with
    | [_, .hole] => do
      w (separatedBy "")
      emit ","
    | _ => itemList (1 < types.length) w

def argumentList (isBroken : Bool) (ending : List Comment)
    (w : (Bool → Tree → Writer) → Writer) : Writer := do
  emit "("
  if isBroken then
    deeper do
      w stackedArgument
      if ending.isEmpty then newLine else commentLines ending
    indent
  else w (separatedBy ", ")
  emit ")"

def slotEnd (items : List Tree) (hasRest : Bool) : Writer :=
  match items.getLast? with
  | some last => if last.isHole || hasRest then emit "," else pure ()
  | none => pure ()

def parameterEnd (parameters : List Tree) : Writer :=
  match parameters with
  | [.parameter _ _ (.name "this") _ _ _] => emit " "
  | _ => pure ()

/-! ## Trees -/

mutual

def Tree.write : Tree → Position → Writer
  | .name w, _ => emit w
  | .metaProperty subject w, _ => emit (subject ++ "." ++ w)
  | .secret w, _ => emit ("#" ++ w)
  | .number x source, p => if p.inType then emit source else putNumber (numberCode x)
  | .wholeNumber n, _ => emit (Decimal.digitText n ++ "n")
  | .text literal, _ => emit (textCode literal)
  | .regex pattern flags, _ => emit ("/" ++ pattern ++ "/" ++ flags)
  | .template tag types head spans, p => do
    writeOption "" tag (.within Level.trailing)
    angled types (writeEach (separatedBy ", ") true types .type)
    emit "\x60"
    putSource head
    writeEach (separatedBy "") true spans p
    emit "\x60"
  | .span e piece, p => do
    emit "$\x7b"
    e.write { inType := p.inType }
    emit "\x7d"
    putSource piece
  | .array items, _ => do
    emit "["
    itemList (2 < items.length) fun lead => do
      writeEach lead true items (.within Level.comma)
      slotEnd items false
    emit "]"
  | .hole, _ => pure ()
  | .spread e, _ => do
    emit "..."
    e.write (.within Level.comma)
  | .withComma item, p => item.write p
  | .object remarks fields, _ => do
    let wrap := !remarks.isEmpty || (← startsStatement) || (← startsResult)
    parens wrap do
      if !remarks.isEmpty then
        comments remarks
        indent
      emit "\x7b"
      if fields.length == 1 then emit " "
      itemList (1 < fields.length) fun lead => writeEach lead true fields {}
      if fields.length == 1 then emit " "
      emit "\x7d"
  | .shorthand w, _ => emit w
  | .shorthandDefault w value, _ => do
    emit (w ++ " = ")
    value.write (.within Level.comma)
  | .pair key value, _ => do
    if !isShorthand key value then
      let wrap := key.isInfinite
      if wrap then emit "["
      key.write (.within Level.comma)
      emit (if wrap then "]: " else ": ")
    value.write (.within Level.comma)
  | .computed e, _ => do
    emit "["
    e.write (.within Level.comma)
    emit "]"
  | .method words isGenerator key optional sig inside, p => do
    startLine p
    putWords memberOrder words
    if isGenerator then emit "*"
    key.write { level := Level.comma, inType := p.inType }
    if optional then emit "?"
    sig.write {}
    writeOption " " inside {}
    endLine p (if inside.isSome then "\n" else ";\n")
  | .function words isGenerator w sig inside isolated, p => do
    let wrap := isolated || (← startsStatement) || (← startsExport)
    startLine p
    parens wrap do
      putWords declarationOrder words
      emit (if isGenerator then "function* " else if w.isSome then "function " else "function")
      emit (w.getD "")
      sig.write {}
      writeOption " " inside {}
      if inside.isNone then emit ";"
    endLine p "\n"
  | .inert function, p => do
    startLine p
    emit "/* @__NO_SIDE_EFFECTS__ */"
    emit (if p.frame == .inner then " " else "\n")
    function.write p
  | .arrow isAsync sig result isolated, p => do
    parens (isolated || Level.assign ≤ p.level) do
      if isAsync then emit "async "
      sig.write {}
      emit " => "
      beginResult
      result.write (p.atLevel Level.comma)
  | .signature typeParameters parameters result, _ => do
    typeParameterList typeParameters fun lead => writeEach lead true typeParameters .type
    emit "("
    writeEach (separatedBy ", ") true parameters {}
    parameterEnd parameters
    emit ")"
    writeOption ": " result .type
  | .parameter words isRest pattern optional type value, _ => do
    putWords parameterOrder words
    if isRest then emit "..."
    pattern.write {}
    if optional then emit "?"
    writeOption ": " type .type
    writeOption " = " value (.within Level.comma)
  | .body statements ending, _ =>
    let isLine := ending.all fun c => !c.startsLine && !c.endsLine
    braces (statements.isEmpty && isLine) do
      writeBody statements
      if !ending.isEmpty then
        comments ending
        modify fun sheet => { sheet with spaceNext := false }
  | .classDefinition decorators words w typeParameters base baseTypes interfaces members, p => do
    let wrap := (← startsStatement) || (← startsExport)
    startLine p
    parens wrap do
      writeEach (separatedBy "") true decorators {}
      putWords declarationOrder words
      emit "class"
      if w.isSome then
        emit (" " ++ w.getD "")
        typeParameterList typeParameters fun lead => writeEach lead true typeParameters .type
      writeOption " extends " base (.within Level.trailing)
      angled baseTypes (writeEach (separatedBy ", ") true baseTypes .type)
      if !interfaces.isEmpty then emit " implements "
      writeEach (separatedBy ", ") true interfaces .type
      emit " "
      braces members.isEmpty (writeEach (separatedBy "") true members .statement)
    endLine p "\n"
  | .property words key optional type value, p => do
    startLine p
    putWords memberOrder words
    key.write { level := Level.comma, inType := p.inType }
    if optional then emit "?"
    writeOption ": " type .type
    writeOption " = " value (.within Level.comma)
    endLine p ";\n"
  | .initialBlock inside, p => do
    startLine p
    emit "static "
    inside.write {}
    endLine p "\n"
  | .decorated decorators item, p => do
    startLine p
    writeEach (separatedBy "") true decorators {}
    item.write p.begun
  | .decorator e, _ => do
    emit "@"
    parens (!e.isPlainDecorator) (e.write {})
    emit " "
  | .grouped e, p => e.write p
  | .unary operator e, p =>
    parens (Level.unary ≤ p.level) do
      putUnary operator
      let isInfinite := operator == "delete" && e.isInfinite
      if isInfinite then emit "(0, "
      e.write (p.atLevel Level.power)
      if isInfinite then emit ")"
  | .update operator before e, p =>
    let own := if before then Level.unary else Level.trailing
    parens (own ≤ p.level) do
      spaceBefore operator
      if before then putOperator operator
      e.write (p.atLevel own)
      if !before then putOperator operator
  | .binary operator left right, p =>
    let wrap := (operatorLevel operator).getD 0 ≤ p.level || (operator == "in" && p.noIn)
    let (leftLevel, rightLevel) := operandLevels operator left right
    parens wrap do
      left.write (p.operand wrap leftLevel)
      putBinary operator
      right.write (p.operand wrap rightLevel)
  | .ownsSecret w subject, p =>
    parens (Level.compare ≤ p.level) do
      emit ("#" ++ w ++ " in ")
      subject.write { level := Level.equals, noIn := true }
  | .conditional test yes no, p =>
    let wrap := decide (Level.conditional ≤ p.level)
    parens wrap do
      test.write (p.operand wrap Level.conditional)
      emit " ? "
      yes.write (.within Level.yield)
      emit " : "
      no.write (p.operand wrap Level.yield)
  | .assign operator target value, p => do
    let starts := (← startsStatement) || (← startsResult)
    parens (Level.assign ≤ p.level || (starts && target.isObjectTarget)) do
      target.write (.within Level.comma)
      emit (" " ++ operator ++ " ")
      value.write (p.atLevel Level.comma)
  | .sequence first rest, p =>
    let inner : Position := { noIn := p.noIn }
    parens (Level.comma ≤ p.level) do
      first.write inner
      writeEach (separatedBy ", ") false rest inner
  | .member subject optional w, p => do
    subject.write p.object
    if optional then emit "?." else putDot
    emit w
  | .index subject optional key, p => do
    parens (subject.ungrouped.isName "let") (subject.write p.object)
    emit (if optional then "?.[" else "[")
    key.write {}
    emit "]"
  | .call callee optional types arguments ending, p => do
    let (statement, isExport) := (← startsStatement, ← startsExport)
    parens (Level.new ≤ p.level || p.noCall) do
      beginAgain statement isExport
      callee.write (.within Level.trailing)
      if optional then emit "?."
      angled types (writeEach (separatedBy ", ") true types .type)
      argumentList (hasComments arguments || !ending.isEmpty) ending fun lead =>
        writeEach lead true arguments (.within Level.comma)
  | .new callee types arguments ending, p =>
    parens (Level.call ≤ p.level) do
      emit "new "
      callee.write { level := Level.new, noCall := true }
      angled types (writeEach (separatedBy ", ") true types .type)
      argumentList (hasComments arguments || !ending.isEmpty) ending fun lead =>
        writeEach lead true arguments (.within Level.comma)
  | .pureCall call, p => do
    let (statement, isExport) := (← startsStatement, ← startsExport)
    parens (Level.trailing ≤ p.level || p.noCall) do
      emit "/* @__PURE__ */ "
      beginAgain statement isExport
      call.write {}
  | .chain e, p => parens (Level.trailing ≤ p.level) (e.write p)
  | .await e, p =>
    parens (Level.unary ≤ p.level) do
      emit "await "
      e.write (p.atLevel Level.power)
  | .yield delegate e, p =>
    parens (Level.assign ≤ p.level) do
      emit (if delegate then "yield*" else "yield")
      writeOption " " e (p.atLevel Level.yield)
  | .importCall phase source options ending, p =>
    parens (Level.new ≤ p.level || p.noCall) do
      emit ("import" ++ (phase.map ("." ++ ·)).getD "")
      let remarks := source.commentsBefore ++ (options.map Tree.commentsBefore).getD [] ++ ending
      argumentList (!remarks.isEmpty) ending fun lead => do
        lead true source
        source.write (.within Level.comma)
        if options.isSome then lead false .hole
        writeOption "" options (.within Level.comma)
  | .cast e w type, p =>
    parens (Level.compare ≤ p.level) do
      e.write (p.atLevel Level.power)
      emit (" " ++ w ++ " ")
      type.write .type
  | .assertion type e, p =>
    parens (Level.unary ≤ p.level) do
      emit (if type.isFunctionType then "< " else "<")
      type.write .type
      emit ">"
      e.write (p.atLevel Level.member)
  | .nonNull e, p => do
    parens e.isGrouped (e.write p)
    emit "!"
  | .instantiation e types, p => do
    e.write p
    angled types (writeEach (separatedBy ", ") true types .type)
  | .objectPattern fields rest, _ => do
    let isEmpty := fields.isEmpty && rest.isNone
    emit (if isEmpty then "\x7b" else "\x7b ")
    writeEach (separatedBy ", ") true fields {}
    writeOption (if fields.isEmpty then "..." else ", ...") rest {}
    emit (if isEmpty then "\x7d" else " \x7d")
  | .patternField key pattern, _ => do
    if !isPatternShorthand key pattern then
      key.write (.within Level.comma)
      emit ": "
    pattern.write {}
  | .arrayPattern items rest, _ => do
    emit "["
    writeEach (separatedBy ", ") true items {}
    slotEnd items rest.isSome
    writeOption " ..." rest {}
    emit "]"
  | .objectTarget fields rest, _ => do
    emit "\x7b"
    writeEach (separatedBy ", ") true fields {}
    writeOption (if fields.isEmpty then "..." else ", ...") rest {}
    emit "\x7d"
  | .targetField key target, _ => do
    key.write (.within Level.comma)
    emit ": "
    target.write (.within Level.comma)
  | .arrayTarget items rest, _ => do
    emit "["
    writeEach (separatedBy ", ") true items {}
    slotEnd items rest.isSome
    writeOption (if items.isEmpty then "..." else " ...") rest (.within Level.comma)
    emit "]"
  | .withDefault pattern value, _ => do
    pattern.write (.within Level.comma)
    emit " = "
    value.write (.within Level.comma)
  | .reference w arguments, _ => do
    emit w
    angled arguments (writeEach (separatedBy ", ") true arguments .type)
  | .importType source options path arguments, _ => do
    emit ("import(" ++ textCode source)
    writeOption ", " options {}
    emit ")"
    emit ((path.map ("." ++ ·)).getD "")
    angled arguments (writeEach (separatedBy ", ") true arguments .type)
  | .arrayType item, _ => do
    item.write .type
    emit "[]"
  | .tuple items, _ => do
    emit "["
    writeEach (separatedBy ", ") true items .type
    emit "]"
  | .tupleItem isRest label optional type, _ => do
    let option := if optional then "?" else ""
    if isRest then emit "..."
    if label.isSome then emit (label.getD "" ++ option ++ ": ")
    type.write .type
    if label.isNone then emit option
  | .union items, _ => writeEach (separatedBy " | ") true items .type
  | .intersection items, _ => writeEach (separatedBy " & ") true items .type
  | .functionType words sig result, _ => do
    putWords ["abstract", "new"] words
    sig.write {}
    emit " => "
    result.write .type
  | .objectType members, _ =>
    braces members.isEmpty
      (writeEach (separatedBy "") true members { frame := .member, inType := true })
  | .groupedType type, _ => do
    emit "("
    type.write .type
    emit ")"
  | .typeOperator w type, _ => do
    emit (w ++ " ")
    type.write .type
  | .indexedType type key, _ => do
    type.write .type
    emit "["
    key.write .type
    emit "]"
  | .conditionalType type bound yes no, _ => do
    type.write .type
    emit " extends "
    bound.write .type
    emit " ? "
    yes.write .type
    emit " : "
    no.write .type
  | .infer w bound, _ => do
    emit ("infer " ++ w)
    writeOption " extends " bound .type
  | .mapped readonlyMark w source rename optionalMark value, _ => do
    emit (if readonlyMark.isEmpty then "\x7b [" else "\x7b " ++ readonlyMark ++ " [")
    emit (w ++ " in ")
    source.write .type
    writeOption " as " rename .type
    emit ("]" ++ optionalMark ++ " ")
    writeOption ": " value .type
    emit " \x7d"
  | .predicate asserts w type, _ => do
    emit (if asserts then "asserts " ++ w else w)
    writeOption " is " type .type
  | .typeParameter words w bound value, _ => do
    putWords ["const", "in", "out"] words
    emit w
    writeOption " extends " bound .type
    writeOption " = " value .type
  | .indexSignature words w keyType type, p => do
    startLine p
    putWords ["readonly"] words
    emit ("[" ++ w ++ ": ")
    keyType.write .type
    emit "]: "
    type.write .type
    endLine p ";\n"
  | .element tag types attributes children, _ => do
    emit ("<" ++ tag)
    angled types (writeEach (separatedBy ", ") true types .type)
    writeEach spaced true attributes {}
    match children with
    | none => emit " />"
    | some children =>
      emit ">"
      writeEach (separatedBy "") true children {}
      emit ("</" ++ tag ++ ">")
  | .fragment children, _ => do
    emit "<>"
    writeEach (separatedBy "") true children {}
    emit "</>"
  | .markupAttribute w value, _ => do
    emit w
    writeOption "=" value {}
  | .quotedText source, _ => emit source
  | .embedded e, _ => do
    emit "\x7b"
    e.write {}
    emit "\x7d"
  | .remark remarks, _ => do
    emit "\x7b"
    comments remarks
    emit "\x7d"
  | .markupText source, _ => emit source
  | .commented remarks item, p =>
    if p.frame == .inner then item.write p
    else if item.indentsFirst then do
      startLine p
      comments remarks
      item.write p.begun
    else do
      comments remarks
      item.write p
  | .empty, p => do
    startLine p
    emit ";\n"
  | .directive source, p => do
    startLine p
    emit (directiveCode source ++ ";\n")
  | .expression e, p => do
    startLine p
    beginStatement
    e.write {}
    emit ";\n"
  | .variableDeclaration words kind declarators, p => do
    startLine p
    putWords declarationOrder words
    emit (kind.words ++ " ")
    writeEach (separatedBy ", ") true declarators { noIn := p.noIn }
    endLine p ";\n"
  | .declarator pattern definite type value, p => do
    pattern.write {}
    if definite then emit "!"
    writeOption ": " type .type
    writeOption " = " value { level := Level.comma, noIn := p.noIn }
  | .block statements, p => do
    startLine p
    braces statements.isEmpty (writeEach (separatedBy "") true statements .statement)
    endLine p "\n"
  | .choice test yes no, p => do
    startLine p
    emit "if ("
    test.write {}
    emit ")"
    consequence yes no.isSome fun p => yes.write p
    match no with
    | none => pure ()
    | some no => alternative no fun p => no.write p
  | .loop start test step inside, p => do
    startLine p
    emit "for ("
    writeOption "" start { noIn := true }
    emit ";"
    writeOption " " test {}
    emit ";"
    writeOption " " step {}
    emit ")"
    attached inside fun p => inside.write p
  | .loopOver isAsync start w source inside, p => do
    startLine p
    emit (if isAsync then "for await (" else "for (")
    parens (start.ungrouped.isName "async") (start.write (.within Level.comma))
    emit (" " ++ w ++ " ")
    source.write (.within (if w == "of" then Level.comma else Level.lowest))
    emit ")"
    attached inside fun p => inside.write p
  | .whileLoop test inside, p => do
    startLine p
    emit "while ("
    test.write {}
    emit ")"
    attached inside fun p => inside.write p
  | .doLoop inside test, p => do
    startLine p
    repeatedBody inside fun p => inside.write p
    emit "while ("
    test.write {}
    emit ");\n"
  | .withScope subject inside, p => do
    startLine p
    emit "with("
    subject.write {}
    emit ")"
    attached inside fun p => inside.write p
  | .leave w label, p => do
    startLine p
    emit (Text.join " " (w :: label.toList) ++ ";\n")
  | .returns e, p => do
    startLine p
    emit "return"
    writeOption " " e {}
    emit ";\n"
  | .throw e, p => do
    startLine p
    emit "throw "
    e.write {}
    emit ";\n"
  | .attempt inside caught final, p => do
    startLine p
    emit "try "
    inside.write {}
    writeOption " " caught {}
    writeOption " finally " final {}
    newLine
  | .handler remarks pattern bodyRemarks inside, _ => do
    comments remarks
    emit "catch"
    if pattern.isSome then emit " ("
    writeOption "" pattern {}
    if pattern.isSome then emit ")"
    emit " "
    comments bodyRemarks
    if (← get).spaceNext then indent
    inside.write {}
  | .switch subject cases, p => do
    startLine p
    emit "switch ("
    subject.write {}
    emit ") "
    braces cases.isEmpty (writeEach (separatedBy "") true cases .statement)
    newLine
  | .switchCase test statements, p => do
    startLine p
    emit (if test.isSome then "case" else "default")
    writeOption " " test {}
    emit ":"
    writeCase statements
  | .labeled label s, p => do
    startLine p
    emit (label ++ ":")
    attached s fun p => s.write p
  | .debugger, p => do
    startLine p
    emit "debugger;\n"
  | .imports declaration, p => do
    startLine p
    emit (declaration.code ++ ";\n")
  | .importEquals words w reference, p => do
    startLine p
    emit (worded ("import" :: words) w ++ " = ")
    reference.write {}
    endLine p ";\n"
  | .requires source, _ => emit ("require(" ++ textCode source ++ ")")
  | .exportNames typeOnly names source attributes, p => do
    startLine p
    emit (exportNamesCode typeOnly names source attributes ++ ";\n")
  | .exportAll typeOnly exported source attributes, p => do
    startLine p
    emit (exportAllCode typeOnly exported source attributes ++ ";\n")
  | .exportDeclaration declaration, p => do
    startLine p
    emit "export "
    declaration.write p.begun
  | .exportDefaultDeclaration declaration, p => do
    startLine p
    emit "export default "
    declaration.write (if declaration.isInterface then {} else p.begun)
  | .exportDefault e, p => do
    startLine p
    emit "export default "
    beginExport
    e.write (.within Level.comma)
    emit ";\n"
  | .exportEquals e, p => do
    startLine p
    emit "export = "
    e.write {}
    emit ";\n"
  | .exportSpace w, p => do
    startLine p
    emit ("export as namespace " ++ w ++ ";\n")
  | .interface _ w typeParameters bases members, p => do
    startLine p
    emit ("interface " ++ w)
    typeParameterList typeParameters fun lead => writeEach lead true typeParameters .type
    if !bases.isEmpty then emit " extends "
    writeEach (separatedBy ", ") true bases .type
    emit " "
    braces members.isEmpty (writeEach (separatedBy "") true members { frame := .member })
    endLine p "\n"
  | .typeAlias words w typeParameters type, p => do
    startLine p
    putWords declarationOrder words
    emit ("type " ++ w)
    typeParameterList typeParameters fun lead => writeEach lead true typeParameters .type
    emit " = "
    type.write .type
    endLine p ";\n"
  | .enumeration words w members, p => do
    startLine p
    -- a second indentation belongs to the enumeration itself
    indent
    putWords declarationOrder words
    emit ("enum " ++ w ++ " ")
    braces members.isEmpty do
      writeEach stackedMember true members {}
      if !members.isEmpty then newLine
    endLine p "\n"
  | .enumMember key value, p => do
    startLine p
    key.write (.within Level.comma)
    writeOption " = " value {}
  | .space words w inside, p => do
    startLine p
    emit (worded words w.code)
    writeOption " " inside {}
    endLine p "\n"

def writeEach (lead : Bool → Tree → Writer) : Bool → List Tree → Position → Writer
  | _, [], _ => pure ()
  | isFirst, t :: rest, p => do
    lead isFirst t
    t.write p
    writeEach lead false rest p

def writeOption (start : String) : Option Tree → Position → Writer
  | none, _ => pure ()
  | some t, p => do
    emit start
    t.write p

/-- The statements of a module or a function. A string at their head must not become a
directive. -/
def writeBody : List Tree → Writer
  | [] => pure ()
  | s :: rest => do
    match s.leadingText with
    | some literal => emit ("(" ++ textCode literal ++ ");\n")
    | none => s.write .statement
    writeEach (separatedBy "") true rest .statement

def writeCase : List Tree → Writer
  | [] => newLine
  | [s] => attached s fun p => s.write p
  | s :: rest => do
    newLine
    deeper do
      s.write .statement
      writeEach (separatedBy "") true rest .statement

end

def Program.print (program : Program) : String :=
  Writer.text do
    emit ((program.interpreter.map fun line => "#!" ++ line ++ "\n").getD "")
    writeBody program.statements
    comments program.ending

end Pagewright.Script

import Pagewright.Decimal.Binary64

/-!
# Script modules as trees

A module is a list of statements. The tree keeps what printing needs and drops the
rest: blanks are gone, while the text between tags, the text of attributes and
parentheses around a whole expression or type stay. Operators and keywords that only
have to be printed again are kept as words.

Expressions, types, patterns, markup and statements are one kind of tree. Which of
them a part is follows from its place, so the reader alone decides it.
-/

set_option autoImplicit false

namespace Pagewright.Script

/-- A character of a string literal; an escape can name half of a surrogate pair. -/
inductive TextUnit where
  | char (c : Char)
  | surrogate (code : Nat)
  deriving DecidableEq, Repr

structure TextLiteral where
  source : String
  units : List TextUnit
  deriving DecidableEq, Repr

structure Comment where
  /-- The text with the marks around it. -/
  text : String
  isBlock : Bool
  /-- It begins a line of its own. -/
  startsLine : Bool
  /-- Nothing but blanks follows it on its line. -/
  endsLine : Bool
  deriving DecidableEq, Repr

inductive VariableKind where
  | hoisted
  | mutable
  | constant
  /-- Released at the end of its block. -/
  | resource
  | asyncResource
  deriving DecidableEq, Repr

inductive ModuleName where
  | word (name : String)
  | quoted (text : TextLiteral)
  deriving DecidableEq, Repr

structure ImportSpecifier where
  typeOnly : Bool
  imported : ModuleName
  binding : String
  deriving DecidableEq, Repr

structure ExportSpecifier where
  typeOnly : Bool
  source : ModuleName
  exported : ModuleName
  deriving DecidableEq, Repr

structure ImportAttribute where
  key : ModuleName
  value : TextLiteral
  deriving DecidableEq, Repr

structure ImportAttributes where
  word : String
  entries : List ImportAttribute
  deriving DecidableEq, Repr

structure ImportDeclaration where
  /-- Words after `import` that say what is imported and when. -/
  words : List String
  defaultName : Option String
  namespaceName : Option String
  named : Option (List ImportSpecifier)
  source : TextLiteral
  attributes : Option ImportAttributes
  deriving DecidableEq, Repr

inductive Tree where
  -- expressions
  | name (name : String)
  | metaProperty (object property : String)
  | number (value : Binary64) (source : String)
  | wholeNumber (value : Nat)
  | text (literal : TextLiteral)
  | regex (pattern flags : String)
  | template (tag : Option Tree) (types : List Tree) (head : String) (spans : List Tree)
  | span (e : Tree) (text : String)
  | array (items : List Tree)
  | hole
  | spread (e : Tree)
  /-- An item of a literal after which a comma stands, where that matters. -/
  | withComma (item : Tree)
  | object (comments : List Comment) (fields : List Tree)
  | pair (key value : Tree)
  | shorthand (name : String)
  /-- Only what is assigned to can hold it. -/
  | shorthandDefault (name : String) (value : Tree)
  | secret (name : String)
  | computed (e : Tree)
  | method (words : List String) (isGenerator : Bool) (key : Tree) (optional : Bool)
      (signature : Tree) (body : Option Tree)
  | function (words : List String) (isGenerator : Bool) (name : Option String) (signature : Tree)
      (body : Option Tree) (isolated : Bool)
  | arrow (isAsync : Bool) (signature result : Tree) (isolated : Bool)
  /-- A function or a statement that declares one, marked as free of side effects. -/
  | inert (function : Tree)
  | signature (typeParameters parameters : List Tree) (returns : Option Tree)
  | parameter (words : List String) (isRest : Bool) (pattern : Tree) (optional : Bool)
      (type value : Option Tree)
  | body (statements : List Tree) (ending : List Comment)
  | classDefinition (decorators : List Tree) (words : List String) (name : Option String)
      (typeParameters : List Tree) (base : Option Tree) (baseTypes interfaces members : List Tree)
  | property (words : List String) (key : Tree) (optional : Bool) (type value : Option Tree)
  | initialBlock (block : Tree)
  /-- A member of a class or a parameter behind its decorators. -/
  | decorated (decorators : List Tree) (item : Tree)
  | decorator (e : Tree)
  | grouped (e : Tree)
  | unary (operator : String) (operand : Tree)
  | update (operator : String) (before : Bool) (operand : Tree)
  | binary (operator : String) (left right : Tree)
  | ownsSecret (name : String) (object : Tree)
  | conditional (test yes no : Tree)
  | assign (operator : String) (target value : Tree)
  | sequence (first : Tree) (rest : List Tree)
  | member (object : Tree) (optional : Bool) (name : String)
  | index (object : Tree) (optional : Bool) (key : Tree)
  | call (callee : Tree) (optional : Bool) (types arguments : List Tree) (ending : List Comment)
  | new (callee : Tree) (types arguments : List Tree) (ending : List Comment)
  /-- A call marked as free of side effects. -/
  | pureCall (call : Tree)
  | chain (e : Tree)
  | await (e : Tree)
  | yield (delegate : Bool) (e : Option Tree)
  | importCall (phase : Option String) (source : Tree) (options : Option Tree)
      (ending : List Comment)
  | cast (e : Tree) (word : String) (type : Tree)
  | assertion (type e : Tree)
  | nonNull (e : Tree)
  | instantiation (e : Tree) (types : List Tree)
  -- patterns, which declare names, and targets, which are assigned to
  | objectPattern (fields : List Tree) (rest : Option Tree)
  | arrayPattern (items : List Tree) (rest : Option Tree)
  | patternField (key pattern : Tree)
  | objectTarget (fields : List Tree) (rest : Option Tree)
  | arrayTarget (items : List Tree) (rest : Option Tree)
  | targetField (key target : Tree)
  | withDefault (pattern value : Tree)
  -- types
  | reference (name : String) (arguments : List Tree)
  | importType (source : TextLiteral) (options : Option Tree) (path : Option String)
      (arguments : List Tree)
  | arrayType (item : Tree)
  | tuple (items : List Tree)
  | tupleItem (isRest : Bool) (label : Option String) (optional : Bool) (type : Tree)
  | union (items : List Tree)
  | intersection (items : List Tree)
  | functionType (words : List String) (signature result : Tree)
  | objectType (members : List Tree)
  | groupedType (type : Tree)
  | typeOperator (word : String) (type : Tree)
  | indexedType (type key : Tree)
  | conditionalType (type bound yes no : Tree)
  | infer (name : String) (bound : Option Tree)
  | mapped (readonlyMark name : String) (source : Tree) (rename : Option Tree)
      (optionalMark : String) (value : Option Tree)
  | predicate (asserts : Bool) (name : String) (type : Option Tree)
  | typeParameter (words : List String) (name : String) (bound value : Option Tree)
  | indexSignature (words : List String) (name : String) (keyType type : Tree)
  -- markup
  | element (tag : String) (types attributes : List Tree) (children : Option (List Tree))
  | fragment (children : List Tree)
  | markupAttribute (name : String) (value : Option Tree)
  | quotedText (source : String)
  | embedded (e : Tree)
  | remark (comments : List Comment)
  | markupText (source : String)
  -- statements
  | commented (comments : List Comment) (item : Tree)
  | empty
  | directive (source : String)
  | expression (e : Tree)
  | variableDeclaration (words : List String) (kind : VariableKind) (declarators : List Tree)
  | declarator (pattern : Tree) (definite : Bool) (type value : Option Tree)
  | block (statements : List Tree)
  | choice (test yes : Tree) (no : Option Tree)
  | loop (start test step : Option Tree) (body : Tree)
  | loopOver (isAsync : Bool) (start : Tree) (word : String) (source body : Tree)
  | whileLoop (test body : Tree)
  | doLoop (body test : Tree)
  | withScope (object body : Tree)
  | leave (word : String) (label : Option String)
  | returns (e : Option Tree)
  | throw (e : Tree)
  | attempt (body : Tree) (handler : Option Tree) (final : Option Tree)
  | handler (comments : List Comment) (pattern : Option Tree) (bodyComments : List Comment)
      (body : Tree)
  | switch (subject : Tree) (cases : List Tree)
  | switchCase (test : Option Tree) (statements : List Tree)
  | labeled (label : String) (statement : Tree)
  | debugger
  | imports (declaration : ImportDeclaration)
  | importEquals (words : List String) (name : String) (reference : Tree)
  | requires (source : TextLiteral)
  | exportNames (typeOnly : Bool) (names : List ExportSpecifier) (source : Option TextLiteral)
      (attributes : Option ImportAttributes)
  | exportAll (typeOnly : Bool) (name : Option ModuleName) (source : TextLiteral)
      (attributes : Option ImportAttributes)
  | exportDeclaration (declaration : Tree)
  | exportDefault (e : Tree)
  | exportDefaultDeclaration (declaration : Tree)
  | exportEquals (e : Tree)
  | exportSpace (name : String)
  | interface (words : List String) (name : String) (typeParameters bases members : List Tree)
  | typeAlias (words : List String) (name : String) (typeParameters : List Tree) (type : Tree)
  | enumeration (words : List String) (name : String) (members : List Tree)
  | enumMember (key : Tree) (value : Option Tree)
  | space (words : List String) (name : ModuleName) (body : Option Tree)

structure Program where
  /-- The line that names an interpreter. -/
  interpreter : Option String
  statements : List Tree
  ending : List Comment
  tags : List String

end Pagewright.Script

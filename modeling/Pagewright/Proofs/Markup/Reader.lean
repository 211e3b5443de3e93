import Pagewright.Proofs.Code.Balance
import Pagewright.Proofs.Text.Blank

/-!
# Reading markup

A reader of the markup that pages are made of, independent of how it is written: one
character at a time, with the open elements on a stack. An attribute is a bare name,
a name with characters between quotes, or a name with an expression, which ends at
the first brace that closes nothing else. Text ends at the next tag or brace and
counts without the white space around it, a quoted text in braces counts as it is
meant, and no other expression can be a child. A closing tag must name the element
that is open.
-/

set_option autoImplicit false

namespace Pagewright

inductive MarkupValue where
  | flag
  /-- The characters between quotes. -/
  | text (chars : String)
  /-- The expression between braces. -/
  | code (expression : String)
  deriving DecidableEq, Repr

inductive Markup where
  | element (tag : String) (attributes : List (String × MarkupValue)) (text : String)
      (children : List Markup)

namespace Markup

structure Frame where
  tag : String
  attributes : List (String × MarkupValue)
  text : String
  children : List Markup

namespace Frame

def addText (f : Frame) (s : String) : Frame := { f with text := f.text ++ s }

def addChild (f : Frame) (m : Markup) : Frame := { f with children := f.children ++ [m] }

def close (f : Frame) : Markup := .element f.tag f.attributes f.text f.children

end Frame

structure OpenTag where
  tag : String
  attributes : List (String × MarkupValue)

def OpenTag.add (t : OpenTag) (name : String) (value : MarkupValue) : OpenTag :=
  { t with attributes := t.attributes ++ [(name, value)] }

inductive Hole where
  | child
  | value (tag : OpenTag) (name : String)

inductive Mode where
  | content (run : List Char)
  /-- After the opening angle bracket. -/
  | opening
  | tagName (name : List Char)
  | inside (tag : OpenTag)
  | attributeName (tag : OpenTag) (name : List Char)
  /-- After the equals sign. -/
  | attributeValue (tag : OpenTag) (name : String)
  | quoted (tag : OpenTag) (name : String) (chars : List Char)
  | expression (hole : Hole) (balance : Balance) (code : List Char)
  /-- After the slash that closes a tag in itself. -/
  | selfClosing (tag : OpenTag)
  | closingName (name : List Char)

structure Reader where
  frame : Frame
  /-- The elements around the open one, innermost first. -/
  outer : List Frame
  mode : Mode

def quotedText? : List Char → Option String
  | '"' :: rest =>
    match Document.readText rest with
    | some (some s, []) => some s
    | _ => none
  | _ => none

def runText (run : List Char) : String := Text.trim (String.ofList run)

def isNameChar (c : Char) : Bool := Attribute.isNamePart c || c == ':'

namespace Reader

def stepInside (r : Reader) (tag : OpenTag) (c : Char) : Option Reader :=
  if Document.isSpace c then some { r with mode := .inside tag }
  else if c = '>' then
    some ⟨⟨tag.tag, tag.attributes, "", []⟩, r.frame :: r.outer, .content []⟩
  else if c = '/' then some { r with mode := .selfClosing tag }
  else if Name.isStart c then some { r with mode := .attributeName tag [c] }
  else none

def fill (r : Reader) (code : List Char) : Hole → Option Reader
  | .child =>
    match quotedText? code with
    | some s => some { r with frame := r.frame.addText s, mode := .content [] }
    | none => none
  | .value tag name =>
    some { r with mode := .inside (tag.add name (.code (String.ofList code))) }

def close (r : Reader) (name : List Char) : Option Reader :=
  if String.ofList name = r.frame.tag then
    match r.outer with
    | parent :: outer => some ⟨parent.addChild r.frame.close, outer, .content []⟩
    | [] => none
  else none

def step (r : Reader) (c : Char) : Option Reader :=
  match r.mode with
  | .content run =>
    if c = '<' then some { r with frame := r.frame.addText (runText run), mode := .opening }
    else if c = '\x7b' then
      some { r with
        frame := r.frame.addText (runText run)
        mode := .expression .child ⟨[], .outside⟩ [] }
    else if c = '>' || c = '\x7d' then none
    else some { r with mode := .content (run ++ [c]) }
  | .opening =>
    if c = '/' then some { r with mode := .closingName [] }
    else if Name.isStart c then some { r with mode := .tagName [c] }
    else none
  | .tagName name =>
    if Name.isPart c then some { r with mode := .tagName (name ++ [c]) }
    else r.stepInside ⟨String.ofList name, []⟩ c
  | .inside tag => r.stepInside tag c
  | .attributeName tag name =>
    if isNameChar c then some { r with mode := .attributeName tag (name ++ [c]) }
    else if !Attribute.isName (String.ofList name) then none
    else if c = '=' then some { r with mode := .attributeValue tag (String.ofList name) }
    else r.stepInside (tag.add (String.ofList name) .flag) c
  | .attributeValue tag name =>
    if c = '"' then some { r with mode := .quoted tag name [] }
    else if c = '\x7b' then
      some { r with mode := .expression (.value tag name) ⟨[], .outside⟩ [] }
    else none
  | .quoted tag name chars =>
    if c = '"' then some { r with mode := .inside (tag.add name (.text (String.ofList chars))) }
    else some { r with mode := .quoted tag name (chars ++ [c]) }
  | .expression hole balance code =>
    if balance = ⟨[], .outside⟩ ∧ c = '\x7d' then r.fill code hole
    else
      match balance.step c with
      | some next => some { r with mode := .expression hole next (code ++ [c]) }
      | none => none
  | .selfClosing tag =>
    if c = '>' then
      some { r with
        frame := r.frame.addChild (.element tag.tag tag.attributes "" [])
        mode := .content [] }
    else none
  | .closingName name =>
    if Name.isPart c then some { r with mode := .closingName (name ++ [c]) }
    else if c = '>' then r.close name
    else none

def run (r : Reader) : List Char → Option Reader
  | [] => some r
  | c :: rest =>
    match r.step c with
    | some next => run next rest
    | none => none

def start : Reader := ⟨⟨"", [], "", []⟩, [], .content []⟩

def result? (r : Reader) : Option Markup :=
  match r.outer, r.mode, r.frame.children with
  | [], .content run, [m] => if r.frame.text ++ runText run = "" then some m else none
  | _, _, _ => none

end Reader

def read (s : String) : Option Markup := (Reader.start.run s.toList).bind Reader.result?

end Markup

end Pagewright

import Pagewright.Markup.Attribute

/-!
# Elements

Markup as a tree, and its one printer. An element is closed in itself, holds text
alone, or holds text and further elements; a placeholder stands for a component
defined elsewhere. An opening tag takes one line if it has no attribute or a
single short one, else one line per attribute. Every line is indented by depth.
-/

set_option autoImplicit false

namespace Pagewright

inductive Element where
  | placeholder (name : String)
  | leaf (tag : String) (attributes : List Attribute)
  | textual (tag : String) (attributes : List Attribute) (content : Json)
  | nested (tag : String) (attributes : List Attribute) (content : Option Json)
      (children : List Element)
  deriving Repr

namespace Element

def shortAttribute : Nat := 60

def isMarkupChar (c : Char) : Bool := "<>\x7b\x7d\n".toList.contains c

def contentCode : Json → String
  | .text s =>
    if s.toList.any isMarkupChar || Text.trim s ≠ s then Attribute.braced (Text.quoted s) else s
  | other => other.compact

def inlineAttribute? (attributes : List Attribute) : Option (Option String) :=
  match attributes with
  | [] => some none
  | [only] =>
    let text := only.render
    if text.utf8ByteSize ≤ shortAttribute && !Text.contains text '\n' then some (some text)
    else none
  | _ => none

def openLines (depth : Nat) (tag : String) (attributes : List Attribute)
    (shortEnding ending : String) : List String :=
  match inlineAttribute? attributes with
  | some none => [Text.indent depth ++ "<" ++ tag ++ shortEnding]
  | some (some text) => [Text.indent depth ++ "<" ++ tag ++ " " ++ text ++ shortEnding]
  | none =>
    (Text.indent depth ++ "<" ++ tag) ::
      attributes.map (fun a => Text.indent (depth + 1) ++ a.render) ++
      [Text.indent depth ++ ending]

def closeTag (tag : String) : String := "</" ++ tag ++ ">"

mutual

def lines (depth : Nat) : Element → List String
  | .placeholder name => [Text.indent depth ++ "<" ++ name ++ " />"]
  | .leaf tag attributes => openLines depth tag attributes " />" "/>"
  | .textual tag attributes content =>
    if (inlineAttribute? attributes).isSome then
      openLines depth tag attributes (">" ++ contentCode content ++ closeTag tag) ">"
    else
      openLines depth tag attributes ">" ">" ++
        [Text.indent (depth + 1) ++ contentCode content, Text.indent depth ++ closeTag tag]
  | .nested tag attributes content children =>
    openLines depth tag attributes ">" ">" ++
      (content.toList.map fun value => Text.indent (depth + 1) ++ contentCode value) ++
      childLines (depth + 1) children ++
      [Text.indent depth ++ closeTag tag]

def childLines (depth : Nat) : List Element → List String
  | [] => []
  | child :: rest => lines depth child ++ childLines depth rest

end

def render (depth : Nat) (e : Element) : String := Text.unlines (e.lines depth)

end Element

end Pagewright

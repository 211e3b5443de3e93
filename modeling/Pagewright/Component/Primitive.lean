import Pagewright.Import.Collection

/-!
# Primitives

The closed table from component kinds to the elements they render as. A
primitive fixes the tag, the framework component it imports, whether it needs
the browser whatever its properties are, whether it can hold content, and the
attributes it has unless the component declares them. Kinds outside the table
render as a plain container.
-/

set_option autoImplicit false

namespace Pagewright

inductive FrameworkComponent where
  | link
  | image
  deriving DecidableEq, Repr

def FrameworkComponent.register (f : FrameworkComponent) (imports : Imports) : Imports :=
  match f with
  | .link => imports.addLink
  | .image => imports.addImage

structure Primitive where
  tag : String
  framework : Option FrameworkComponent := none
  interactive : Bool := false
  void : Bool := false
  implicit : List (String × String) := []
  deriving DecidableEq, Repr

namespace Primitive

def table : List (String × Primitive) := [
  ("Container", { tag := "div" }),
  ("Box", { tag := "div" }),
  ("Flex", { tag := "div" }),
  ("Grid", { tag := "div" }),
  ("Row", { tag := "div" }),
  ("Column", { tag := "div" }),
  ("Card", { tag := "article" }),
  ("Section", { tag := "section" }),
  ("Header", { tag := "header" }),
  ("Footer", { tag := "footer" }),
  ("Nav", { tag := "nav" }),
  ("Main", { tag := "main" }),
  ("Article", { tag := "article" }),
  ("Aside", { tag := "aside" }),
  ("List", { tag := "ul" }),
  ("OrderedList", { tag := "ol" }),
  ("ListItem", { tag := "li" }),
  ("Table", { tag := "table" }),
  ("Divider", { tag := "hr", void := true }),
  ("Title", { tag := "h1" }),
  ("Heading", { tag := "h2" }),
  ("Subheading", { tag := "h3" }),
  ("Text", { tag := "p" }),
  ("Paragraph", { tag := "p" }),
  ("Span", { tag := "span" }),
  ("Label", { tag := "label" }),
  ("Icon", { tag := "span" }),
  ("Image", { tag := "Image", framework := some .image, void := true, implicit := [("alt", "")] }),
  ("Video", { tag := "video" }),
  ("Link", { tag := "Link", framework := some .link, implicit := [("href", "#")] }),
  ("Form", { tag := "form" }),
  ("Button", { tag := "button", interactive := true, implicit := [("type", "button")] }),
  ("Input", { tag := "input", interactive := true, void := true }),
  ("TextInput", { tag := "input", interactive := true, void := true }),
  ("TextArea", { tag := "textarea", interactive := true, void := true }),
  ("Select", { tag := "select", interactive := true }),
  ("Checkbox",
    { tag := "input", interactive := true, void := true, implicit := [("type", "checkbox")] }),
  ("Radio", { tag := "input", interactive := true, void := true, implicit := [("type", "radio")] })]

def fallback : Primitive := { tag := "div" }

def find? (kind : String) : Option Primitive := lookup kind table

def isKnown (kind : String) : Bool := (find? kind).isSome

def ofKind (kind : String) : Primitive := (find? kind).getD fallback

end Primitive

end Pagewright

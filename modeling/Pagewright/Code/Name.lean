import Pagewright.Ordered.Map
import Pagewright.Text.Lines
import Pagewright.Text.Quoted

/-!
# Names in emitted code

Identifiers are ASCII: a letter, underscore or dollar sign, then those and
digits. A name that binds something must also not be a reserved word. Free text
becomes a component name by joining its words of letters and digits, each with
its first letter raised.
-/

set_option autoImplicit false

namespace Pagewright.Name

def isStart (c : Char) : Bool := c.isAlpha || c == '_' || c == '$'

def isPart (c : Char) : Bool := isStart c || c.isDigit

def isWellFormed (name : String) : Bool :=
  match name.toList with
  | [] => false
  | c :: rest => isStart c && rest.all isPart

def reservedWords : List String := [
  "await", "break", "case", "catch", "class", "const", "continue", "debugger", "default",
  "delete", "do", "else", "enum", "export", "extends", "false", "finally", "for", "function",
  "if", "implements", "import", "in", "instanceof", "interface", "let", "new", "null",
  "package", "private", "protected", "public", "return", "static", "super", "switch", "this",
  "throw", "true", "try", "typeof", "var", "void", "while", "with", "yield"]

def isReserved (name : String) : Bool := reservedWords.contains name

def isIdentifier (name : String) : Bool := isWellFormed name && !isReserved name

def isPath (name : String) : Bool := (Text.split '.' name).all isWellFormed

def objectKey (key : String) : String := if isWellFormed key then key else Text.quoted key

def isWordPart (c : Char) : Bool := c.isAlpha || c.isDigit

def raiseWords (inWord : Bool) : List Char → List Char
  | [] => []
  | c :: rest =>
    if isWordPart c then (if inWord then c else c.toUpper) :: raiseWords true rest
    else raiseWords false rest

def pascalCase (text : String) : String := String.ofList (raiseWords false text.toList)

def ofTitle (title : String) : String :=
  match raiseWords false title.toList with
  | [] => "GeneratedPage"
  | c :: rest =>
    let base := if c.isDigit then "Page" ++ String.ofList (c :: rest) else String.ofList (c :: rest)
    if Text.endsWith base "Page" then base else base ++ "Page"

end Pagewright.Name

/-!
# Lines

Joining texts with a separator, cutting a text into lines, and indentation by
units of two spaces. A line ends at a line feed, and a carriage return just
before it belongs to the ending. A final line ending opens no further line.
-/

set_option autoImplicit false

namespace Pagewright.Text

def join (separator : String) : List String → String
  | [] => ""
  | [s] => s
  | s :: rest => s ++ separator ++ join separator rest

def unlines (ls : List String) : String := join "\n" ls

def lineChars : List Char → List (List Char)
  | [] => []
  | '\n' :: rest => [] :: lineChars rest
  | '\r' :: '\n' :: rest => [] :: lineChars rest
  | c :: rest =>
    match lineChars rest with
    | [] => [[c]]
    | l :: ls => (c :: l) :: ls

def lines (s : String) : List String := (lineChars s.toList).map String.ofList

/-- The text between occurrences of a separator; one part more than there are separators. -/
def splitChars (separator : Char) : List Char → List (List Char)
  | [] => [[]]
  | c :: rest =>
    if c = separator then [] :: splitChars separator rest
    else
      match splitChars separator rest with
      | [] => [[c]]
      | part :: parts => (c :: part) :: parts

def split (separator : Char) (s : String) : List String :=
  (splitChars separator s.toList).map String.ofList

def afterLast? (separator : Char) (s : String) : Option String :=
  match (split separator s).getLast? with
  | some last => if s.toList.contains separator then some last else none
  | none => none

def indentUnit : String := "  "

def indent : Nat → String
  | 0 => ""
  | depth + 1 => indentUnit ++ indent depth

def indentBlock (depth : Nat) (block : String) : String :=
  unlines ((lines block).map (fun line => if line.isEmpty then "" else indent depth ++ line))

def contains (s : String) (c : Char) : Bool := s.toList.contains c

def startsWith (s start : String) : Bool := start.toList.isPrefixOf s.toList

def endsWith (s ending : String) : Bool := ending.toList.isSuffixOf s.toList

def occursIn (part : List Char) : List Char → Bool
  | [] => part.isEmpty
  | c :: rest => part.isPrefixOf (c :: rest) || occursIn part rest

def cutLast? (part : List Char) : List Char → Option (List Char × List Char)
  | [] => none
  | c :: rest =>
    match cutLast? part rest with
    | some (before, after) => some (c :: before, after)
    | none => if part.isPrefixOf (c :: rest) then some ([], (c :: rest).drop part.length) else none

end Pagewright.Text

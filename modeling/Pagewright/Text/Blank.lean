import Pagewright.Text.Range

/-!
# White space

The characters with the white-space property, and what follows from them:
trimming at both ends, splitting into words, and text that is blank.
-/

set_option autoImplicit false

namespace Pagewright.Text

def blankRanges : List (Nat × Nat) := [
  (0x9, 0xd), (0x20, 0x20), (0x85, 0x85), (0xa0, 0xa0), (0x1680, 0x1680), (0x2000, 0x200a),
  (0x2028, 0x2029), (0x202f, 0x202f), (0x205f, 0x205f), (0x3000, 0x3000)]

def isBlankChar (c : Char) : Bool := inRanges blankRanges c

def trimStart (cs : List Char) : List Char := cs.dropWhile isBlankChar

def trimEnd (cs : List Char) : List Char := (cs.reverse.dropWhile isBlankChar).reverse

def trim (s : String) : String := String.ofList (trimEnd (trimStart s.toList))

def isBlank (s : String) : Bool := s.toList.all isBlankChar

def wordsFrom (word : List Char) : List Char → List String
  | [] => if word.isEmpty then [] else [String.ofList word.reverse]
  | c :: rest =>
    if isBlankChar c then
      if word.isEmpty then wordsFrom [] rest
      else String.ofList word.reverse :: wordsFrom [] rest
    else wordsFrom (c :: word) rest

def words (s : String) : List String := wordsFrom [] s.toList

end Pagewright.Text

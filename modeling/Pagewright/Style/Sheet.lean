import Pagewright.Style.Property
import Pagewright.Style.Rule

/-!
# Accumulated styles

A `StyleSheet` collects the styles of one component or of several merged ones:
the classes in first-seen order, the properties left inline, and the properties
that became classes. Every property added ends up in one of the last two.
-/

set_option autoImplicit false

namespace Pagewright

structure StyleSheet where
  classes : List String
  inline : OrderedMap StyleValue
  /-- The properties that a class stands for. -/
  covered : List String
  deriving DecidableEq, Repr

namespace StyleSheet

def empty : StyleSheet := ⟨[], OrderedMap.empty, []⟩

def add (sheet : StyleSheet) (property : String) (value : StyleValue) : StyleSheet :=
  let name := StyleProperty.camelCase property
  match Style.token name value with
  | some cls =>
    { sheet with
      classes := FirstSeen.add sheet.classes cls
      covered := FirstSeen.add sheet.covered name }
  | none => { sheet with inline := sheet.inline.insert name value }

def addAll (sheet : StyleSheet) (styles : List (String × StyleValue)) : StyleSheet :=
  styles.foldl (fun sheet style => sheet.add style.1 style.2) sheet

def ofStyles (styles : OrderedMap StyleValue) : StyleSheet := empty.addAll styles.entries

def merge (sheet other : StyleSheet) : StyleSheet where
  classes := FirstSeen.addAll sheet.classes other.classes
  inline := sheet.inline.insertAll other.inline.entries
  covered := FirstSeen.addAll sheet.covered other.covered

def className (sheet : StyleSheet) : String := Text.join " " sheet.classes

theorem addAll_append (sheet : StyleSheet) (a b : List (String × StyleValue)) :
    sheet.addAll (a ++ b) = (sheet.addAll a).addAll b := by
  simp [addAll]

end StyleSheet

end Pagewright

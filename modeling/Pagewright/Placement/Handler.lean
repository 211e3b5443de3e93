import Pagewright.Code.Name
import Pagewright.Component.Basic

/-!
# Event handlers

A property whose name is `on` followed by a capitalised word binds an event. A text
that is a path of names refers to a function, any other text is a statement to run;
an object refers to a function by the first of three keys. What cannot be executed
binds nothing.
-/

set_option autoImplicit false

namespace Pagewright

inductive HandlerBinding where
  | statement (code : String)
  | reference (name : String)
  deriving DecidableEq, Repr

namespace HandlerBinding

def isKey (key : String) : Bool :=
  match key.toList with
  | 'o' :: 'n' :: c :: rest => c.isUpper && rest.all Char.isAlpha
  | _ => false

def isFunctionPath (text : String) : Bool :=
  Name.isPath text && (Text.contains text '.' || !Name.isReserved text)

def inertTexts : List String := ["", "null", "undefined", "true", "false"]

def ofText (text : String) : Option HandlerBinding :=
  let code := Text.trim text
  if inertTexts.contains code then none
  else if isFunctionPath code then some (.reference code)
  else some (.statement code)

def referenceKeys : List String := ["function", "ref", "handler"]

def ofFields (fields : List (String × Json)) : Option HandlerBinding :=
  match referenceKeys.findSome? (fun key => (lookup key fields).bind Json.text?) with
  | some text =>
    let name := Text.trim text
    if isFunctionPath name then some (.reference name) else none
  | none => none

def ofJson : Json → Option HandlerBinding
  | .text s => ofText s
  | .object fields => ofFields fields
  | _ => none

end HandlerBinding

def Component.handlers (c : Component) : List (String × HandlerBinding) :=
  c.properties.entries.filterMap fun (key, value) =>
    if HandlerBinding.isKey key then (HandlerBinding.ofJson value).map (fun b => (key, b)) else none

def Component.handlerNames (c : Component) : List String :=
  c.handlers.filterMap fun (_, binding) =>
    match binding with
    | .reference name => if Name.isIdentifier name then some name else none
    | .statement _ => none

end Pagewright

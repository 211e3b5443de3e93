import Pagewright.Script.Grammar.Basic

/-!
# What can be assigned to

The left side of an assignment is read as an expression. An array or an object literal
there stands for a target with parts, and a field of such a literal may have a default,
which no other object has. The cursor counts the fields with defaults until they have
become part of a target.
-/

set_option autoImplicit false

namespace Pagewright.Script

def Tree.isPlace : Tree → Bool
  | .name w => !keywords.contains w
  | .member _ optional _ => !optional
  | .index _ optional _ => !optional
  | .grouped e => e.isPlace
  | .nonNull e => e.isPlace
  | .cast e _ _ => e.isPlace
  | .assertion _ e => e.isPlace
  | _ => false

mutual

/-- The target that an expression stands for. As a part of another target it may have a
default. -/
def Tree.target? (isPart : Bool) : Tree → Option Tree
  | .array items => (itemTargets? items).map fun (targets, rest) => .arrayTarget targets rest
  | .object _ fields => (fieldTargets? fields).map fun (targets, rest) => .objectTarget targets rest
  | .assign operator target value =>
    if isPart && operator == "=" then some (.withDefault target value) else none
  | e => if e.isPlace then some e else none

def itemTargets? : List Tree → Option (List Tree × Option Tree)
  | [] => some ([], none)
  | [.spread e] => (e.target? false).map fun target => ([], some target)
  | .hole :: more => (itemTargets? more).map fun (targets, rest) => (.hole :: targets, rest)
  | e :: more =>
    match e.target? true, itemTargets? more with
    | some target, some (targets, rest) => some (target :: targets, rest)
    | _, _ => none

/-- The targets of object fields; the last may take the rest, which is one place. -/
def fieldTargets? : List Tree → Option (List Tree × Option Tree)
  | [] => some ([], none)
  | [.spread e] => if e.isPlace then some ([], some e) else none
  | .shorthand w :: more =>
    (fieldTargets? more).map fun (targets, rest) => (.shorthand w :: targets, rest)
  | .shorthandDefault w value :: more =>
    (fieldTargets? more).map fun (targets, rest) => (.shorthandDefault w value :: targets, rest)
  | .pair key value :: more =>
    match value.target? true, fieldTargets? more with
    | some target, some (targets, rest) => some (.targetField key target :: targets, rest)
    | _, _ => none
  | _ :: _ => none

end

mutual

def Tree.openFields : Tree → Nat
  | .array items => openFieldsOfAll items
  | .object _ fields => openFieldsOfAll fields
  | .shorthandDefault _ _ => 1
  | .pair _ value => value.openFields
  | .spread e => e.openFields
  | .withComma item => item.openFields
  | _ => 0

def openFieldsOfAll : List Tree → Nat
  | [] => 0
  | t :: rest => t.openFields + openFieldsOfAll rest

end

namespace Reader

def noteOpenField : Reader Unit := modify fun c => { c with openFields := c.openFields + 1 }

def asTarget (e : Tree) : Reader Tree := do
  match e.target? false with
  | some target =>
    modify fun c => { c with openFields := c.openFields - e.openFields }
    return target
  | none => failure

end Reader

end Pagewright.Script

import Pagewright.Json.Document

/-!
# Reading records

A decoder reads a document as a value of some type, or refuses it, given how deep
the document may still nest. A record is an object with its fields by name, of which
unknown ones are skipped and known ones may stand only once, or a list with its
fields in declared order, where only trailing fields may be missing.
-/

set_option autoImplicit false

namespace Pagewright

abbrev Decoder (α : Type) := Nat → Document → Option α

namespace Decoder

def json : Decoder Json := fun levels doc => doc.value? levels

def text : Decoder String
  | _, .text s => s
  | _, _ => none

def bool : Decoder Bool
  | _, .bool b => some b
  | _, _ => none

def real : Decoder Binary64
  | _, .number n => n.value?.bind Json.number?
  | _, _ => none

def natural : Decoder Nat
  | _, .number n =>
    match n.value? with
    | some (.whole (.ofNat value)) => some value
    | _ => none
  | _, _ => none

def optional {α : Type} (d : Decoder α) : Decoder (Option α)
  | _, .null => some none
  | levels, doc => (d levels doc).map some

def listOf {α : Type} (d : Decoder α) : Decoder (List α)
  | levels + 1, .list items => items.mapM (d levels)
  | _, _ => none

def entry {α : Type} (d : Decoder α) (levels : Nat) (field : Option String × Document) :
    Option (String × α) := do
  let key ← field.1
  let value ← d levels field.2
  some (key, value)

def mapOf {α : Type} (d : Decoder α) : Decoder (OrderedMap α)
  | levels + 1, .object fields =>
    (fields.mapM (entry d levels)).map OrderedMap.ofList
  | _, _ => none

def choice {α : Type} (names : List (String × α)) : Decoder α
  | _, .text (some name) => lookup name names
  | _ + 1, .object [(some name, .null)] => lookup name names
  | _, _ => none

structure Record where
  levels : Nat
  positional : Bool
  fields : List (String × Document)

def namedFields (names : List String) (fields : List (Option String × Document)) :
    Option (List (String × Document)) := do
  let keyed ← fields.mapM fun field => field.1.map fun key => (key, field.2)
  let known := keyed.filter fun field => names.contains field.1
  if (known.map Prod.fst).eraseDups.length = known.length then some known else none

def record {α : Type} (names : List String) (build : Record → Option α) : Decoder α
  | levels + 1, .object fields => do build ⟨levels, false, ← namedFields names fields⟩
  | levels + 1, .list items =>
    if items.length ≤ names.length then build ⟨levels, true, names.zip items⟩ else none
  | _, _ => none

namespace Record

variable {α : Type}

def required (r : Record) (name : String) (d : Decoder α) : Option α :=
  (lookup name r.fields).bind (d r.levels)

def defaulted (r : Record) (name : String) (d : Decoder α) (default : α) : Option α :=
  match lookup name r.fields with
  | some doc => d r.levels doc
  | none => some default

def nullable (r : Record) (name : String) (d : Decoder α) : Option (Option α) :=
  match lookup name r.fields with
  | some doc => optional d r.levels doc
  | none => if r.positional then none else some none

end Record

end Decoder

end Pagewright

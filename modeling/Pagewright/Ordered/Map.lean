import Pagewright.Ordered.FirstSeen

/-!
# Insertion-ordered maps

Keys are text and keep the position of their first insertion; a later
insertion of the same key replaces the value where it stands. `put` is that
rule on a bare list of entries, `OrderedMap` the type of entry lists whose
keys are distinct.
-/

set_option autoImplicit false

namespace Pagewright

def put {α : Type} (key : String) (value : α) : List (String × α) → List (String × α)
  | [] => [(key, value)]
  | (k, v) :: rest => if k = key then (key, value) :: rest else (k, v) :: put key value rest

theorem keys_put {α : Type} (key : String) (value : α) (entries : List (String × α)) :
    (put key value entries).map Prod.fst = FirstSeen.add (entries.map Prod.fst) key := by
  induction entries with
  | nil => rfl
  | cons entry rest ih =>
    obtain ⟨k, v⟩ := entry
    by_cases h : k = key
    · simp [put, h, FirstSeen.add]
    · simp only [put, if_neg h, List.map_cons, ih, FirstSeen.add, List.mem_cons]
      by_cases hm : key ∈ rest.map Prod.fst
      · simp [hm]
      · simp [hm, Ne.symm h]

def lookup {κ α : Type} [DecidableEq κ] (key : κ) : List (κ × α) → Option α
  | [] => none
  | (k, v) :: rest => if k = key then some v else lookup key rest

theorem lookup_put {α : Type} (key other : String) (value : α) (entries : List (String × α)) :
    lookup other (put key value entries) =
      if key = other then some value else lookup other entries := by
  induction entries with
  | nil => rfl
  | cons entry rest ih =>
    obtain ⟨k, v⟩ := entry
    by_cases h : k = key
    · subst h
      by_cases ho : k = other <;> simp [put, lookup, ho]
    · by_cases ho : k = other
      · subst ho
        simp [put, lookup, h, Ne.symm h]
      · simp [put, lookup, h, ho, ih]

structure OrderedMap (α : Type) where
  entries : List (String × α)
  keys_nodup : (entries.map Prod.fst).Nodup
  deriving DecidableEq, Repr

namespace OrderedMap

variable {α β : Type}

def empty : OrderedMap α := ⟨[], .nil⟩

instance : Inhabited (OrderedMap α) := ⟨empty⟩

def keys (m : OrderedMap α) : List String := m.entries.map Prod.fst

def values (m : OrderedMap α) : List α := m.entries.map Prod.snd

def size (m : OrderedMap α) : Nat := m.entries.length

def isEmpty (m : OrderedMap α) : Bool := m.entries.isEmpty

def find? (m : OrderedMap α) (key : String) : Option α := lookup key m.entries

def contains (m : OrderedMap α) (key : String) : Bool := (m.find? key).isSome

def insert (m : OrderedMap α) (key : String) (value : α) : OrderedMap α where
  entries := put key value m.entries
  keys_nodup := by
    rw [keys_put]
    exact FirstSeen.nodup_add _ _ m.keys_nodup

def insertAll (m : OrderedMap α) (entries : List (String × α)) : OrderedMap α :=
  entries.foldl (fun m e => m.insert e.1 e.2) m

def ofList (entries : List (String × α)) : OrderedMap α := empty.insertAll entries

@[simp] theorem keys_insert (m : OrderedMap α) (key : String) (value : α) :
    (m.insert key value).keys = FirstSeen.add m.keys key := keys_put key value m.entries

@[simp] theorem find?_insert (m : OrderedMap α) (key other : String) (value : α) :
    (m.insert key value).find? other = if key = other then some value else m.find? other :=
  lookup_put key other value m.entries

end OrderedMap

end Pagewright

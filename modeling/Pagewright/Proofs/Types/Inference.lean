import Pagewright.Proofs.Component.Validity
import Pagewright.Proofs.Import.Binding
import Pagewright.Proofs.Ordered.FirstSeen
import Pagewright.Proofs.Ordered.Sorted
import Pagewright.Types.Inference

/-!
# What declarations tell of components

The declaration of a kind is told by the components of that kind alone. The same
declarations come from a single pass over all components, of whatever kinds in whatever
order, which keeps a record for each kind met: how many components there were, and for
each property on how many of them it was and which types it had. What the pass has
recorded for one kind is what it records when it meets the components of that kind only.
-/

set_option autoImplicit false

namespace Pagewright

/-! ## One pass -/

structure PropertyRecord where
  seen : Nat
  types : List String

structure KindRecord where
  instances : Nat
  properties : OrderedMap PropertyRecord

namespace PropertyRecord

def empty : PropertyRecord := ⟨0, []⟩

def add (r : PropertyRecord) (type : String) : PropertyRecord :=
  ⟨r.seen + 1, FirstSeen.add r.types type⟩

end PropertyRecord

namespace KindRecord

def empty : KindRecord := ⟨0, .empty⟩

def note (properties : OrderedMap PropertyRecord) (name : String) (value : Json) :
    OrderedMap PropertyRecord :=
  properties.insert name
    (((properties.find? name).getD .empty).add (propertyType name value))

def noteAll (properties : OrderedMap PropertyRecord) (entries : List (String × Json)) :
    OrderedMap PropertyRecord :=
  entries.foldl (fun acc entry => note acc entry.1 entry.2) properties

def add (r : KindRecord) (c : Component) : KindRecord :=
  ⟨r.instances + 1, noteAll r.properties c.properties.entries⟩

def declare (kind : String) (r : KindRecord) : TypeDeclaration :=
  ⟨kind, Name.pascalCase kind ++ "Props", r.properties.entries.map fun entry =>
    ⟨entry.1, unionType entry.2.types, entry.2.seen < r.instances⟩⟩

end KindRecord

def observe (records : List (String × KindRecord)) (c : Component) : List (String × KindRecord) :=
  Sorted.adjust c.kind (fun held => (held.getD .empty).add c) records

def observeAll (components : List Component) : List (String × KindRecord) :=
  components.foldl observe []

def declareRecords (records : List (String × KindRecord)) : List TypeDeclaration :=
  records.map fun record => record.2.declare record.1

/-! ## Records of one kind -/

namespace KindRecord

theorem find?_noteAll (properties : OrderedMap PropertyRecord) {entries : List (String × Json)}
    (hn : (entries.map Prod.fst).Nodup) (name : String) :
    ((noteAll properties entries).find? name).getD .empty =
      match lookup name entries with
      | none => (properties.find? name).getD .empty
      | some value => ((properties.find? name).getD .empty).add (propertyType name value) := by
  induction entries generalizing properties with
  | nil => rfl
  | cons entry rest ih =>
    obtain ⟨key, value⟩ := entry
    obtain ⟨hkey, hrest⟩ := List.nodup_cons.mp hn
    have later := ih (note properties key value) hrest
    rw [note, OrderedMap.find?_insert] at later
    by_cases h : key = name
    · subst h
      rw [if_pos rfl, lookup_eq_none_iff.mpr hkey, Option.getD_some] at later
      rw [lookup, if_pos rfl]
      exact later
    · rw [if_neg h] at later
      rw [lookup, if_neg h]
      exact later

theorem keys_noteAll (properties : OrderedMap PropertyRecord) (entries : List (String × Json)) :
    (noteAll properties entries).keys =
      FirstSeen.addAll properties.keys (entries.map Prod.fst) := by
  induction entries generalizing properties with
  | nil => rfl
  | cons entry rest ih =>
    rw [noteAll, List.foldl_cons, ← noteAll, ih, note, OrderedMap.keys_insert]
    rfl

def valuesOf (name : String) (instances : List Component) : List Json :=
  instances.filterMap fun c => c.properties.find? name

def ofInstances (instances : List Component) : KindRecord := instances.foldl add empty

theorem ofInstances_append_singleton (instances : List Component) (c : Component) :
    ofInstances (instances ++ [c]) = (ofInstances instances).add c := by
  rw [ofInstances, List.foldl_append]
  rfl

theorem ofInstances_instances (instances : List Component) :
    (ofInstances instances).instances = instances.length := by
  induction instances using List.reverseRecOn with
  | nil => rfl
  | append_singleton instances c ih =>
    rw [ofInstances_append_singleton, List.length_append, List.length_singleton, ← ih]
    rfl

theorem ofInstances_keys (instances : List Component) :
    (ofInstances instances).properties.keys =
      FirstSeen.ofList (instances.flatMap fun c => c.properties.keys) := by
  induction instances using List.reverseRecOn with
  | nil => rfl
  | append_singleton instances c ih =>
    rw [ofInstances_append_singleton, add, keys_noteAll, ih, List.flatMap_append,
      FirstSeen.ofList, FirstSeen.ofList, FirstSeen.addAll_append, List.flatMap_singleton]
    rfl

/-- A property is counted on each component that has it, with the type that it has there. -/
theorem ofInstances_find? (instances : List Component) (name : String) :
    ((ofInstances instances).properties.find? name).getD .empty =
      ⟨(valuesOf name instances).length,
        FirstSeen.ofList ((valuesOf name instances).map (propertyType name))⟩ := by
  induction instances using List.reverseRecOn with
  | nil => rfl
  | append_singleton instances c ih =>
    rw [ofInstances_append_singleton, add, find?_noteAll _ c.properties.keys_nodup, ih, valuesOf,
      valuesOf, List.filterMap_append]
    change (match c.properties.find? name with | none => _ | some value => _) = _
    cases hvalue : c.properties.find? name with
    | none => simp [hvalue]
    | some value =>
      simp [hvalue, PropertyRecord.add, FirstSeen.ofList_append_singleton]

theorem unionType_ofList (types : List String) :
    unionType (FirstSeen.ofList types) = unionType types := by
  rw [unionType, Sorted.ofList_congr (FirstSeen.mem_ofList types), unionType]

/-- Fewer values than components: some component has none. -/
theorem valuesOf_length_lt (name : String) (instances : List Component) :
    decide ((valuesOf name instances).length < instances.length) =
      instances.any fun c => !c.properties.contains name := by
  rw [Bool.eq_iff_iff, decide_eq_true_iff, valuesOf, List.length_filterMap_eq_countP,
    List.countP_le_length.lt_iff_ne, Ne, List.countP_eq_length, List.any_eq_true]
  simp [OrderedMap.contains]

theorem declare_ofInstances (kind : String) (instances : List Component) :
    (ofInstances instances).declare kind =
      ⟨kind, Name.pascalCase kind ++ "Props",
        (FirstSeen.ofList (instances.flatMap fun c => c.properties.keys)).map
          (declareProperty instances)⟩ := by
  have listed := map_entries_eq_map_keys (ofInstances instances).properties.keys_nodup
    PropertyRecord.empty fun name r =>
      (⟨name, unionType r.types, r.seen < (ofInstances instances).instances⟩ : PropertyDeclaration)
  rw [declare, listed, ← ofInstances_keys]
  congr 1
  apply List.map_congr_left
  intro name _
  have record := ofInstances_find? instances name
  rw [OrderedMap.find?] at record
  rw [record, ofInstances_instances, unionType_ofList, valuesOf_length_lt, declareProperty]
  rfl

end KindRecord

/-! ## Records of all kinds -/

theorem observeAll_append_singleton (components : List Component) (c : Component) :
    observeAll (components ++ [c]) = observe (observeAll components) c := by
  rw [observeAll, List.foldl_append]
  rfl

theorem observeAll_increasing (components : List Component) :
    Sorted.Increasing (observeAll components) := by
  induction components using List.reverseRecOn with
  | nil => exact .nil
  | append_singleton components c ih =>
    rw [observeAll_append_singleton]
    exact ih.adjust c.kind _

theorem observeAll_keys (components : List Component) :
    (observeAll components).map Prod.fst = Sorted.ofList (components.map Component.kind) := by
  induction components using List.reverseRecOn with
  | nil => rfl
  | append_singleton components c ih =>
    rw [observeAll_append_singleton, observe, Sorted.keys_adjust, ih, List.map_append,
      Sorted.ofList, Sorted.ofList, Sorted.insertAll_append]
    rfl

/-- The components of other kinds leave the record of a kind alone. -/
theorem observeAll_find (components : List Component) (kind : String) :
    (lookup kind (observeAll components)).getD .empty =
      KindRecord.ofInstances (components.filter (·.kind == kind)) := by
  induction components using List.reverseRecOn with
  | nil => rfl
  | append_singleton components c ih =>
    rw [observeAll_append_singleton, observe, List.filter_append]
    by_cases h : c.kind = kind
    · subst h
      rw [Sorted.lookup_adjust (observeAll_increasing components), Option.getD_some, ih,
        List.filter_cons_of_pos (by simp), List.filter_nil,
        KindRecord.ofInstances_append_singleton]
    · rw [Sorted.lookup_adjust_ne (Ne.symm h), ih, List.filter_cons_of_neg (by simpa using h),
        List.filter_nil, List.append_nil]

/-- A single pass over the components gives the same declarations. -/
theorem inferTypes_eq_declareRecords (components : List Component) :
    inferTypes components = declareRecords (observeAll components) := by
  have once : ((observeAll components).map Prod.fst).Nodup :=
    (observeAll_increasing components).nodup
  rw [declareRecords, map_entries_eq_map_keys once KindRecord.empty fun kind r => r.declare kind,
    observeAll_keys, inferTypes]
  apply List.map_congr_left
  intro kind _
  rw [observeAll_find, KindRecord.declare_ofInstances]
  rfl

/-! ## What a declaration tells -/

/-- The properties of a declaration are those of some components: each once, in the order in which
they are first met, optional if a component lacks it, and of the sorted union of the types that its
values have. -/
structure TypeDeclaration.Describes (d : TypeDeclaration) (instances : List Component) : Prop where
  names : ∀ name, name ∈ d.properties.map PropertyDeclaration.name ↔
    ∃ c ∈ instances, name ∈ c.properties.keys
  once : (d.properties.map PropertyDeclaration.name).Nodup
  first_seen : (d.properties.map PropertyDeclaration.name).Pairwise fun a b =>
    (instances.flatMap fun c => c.properties.keys).idxOf a <
      (instances.flatMap fun c => c.properties.keys).idxOf b
  optional_iff : ∀ p ∈ d.properties,
    p.optional = true ↔ ∃ c ∈ instances, p.name ∉ c.properties.keys
  type_eq : ∀ p ∈ d.properties, ∃ types : List String, p.type = Text.join " | " types ∧
    types.Pairwise (· < ·) ∧ ∀ type, type ∈ types ↔ ∃ c ∈ instances, ∃ value,
      c.properties.find? p.name = some value ∧
        type = if HandlerBinding.isKey p.name then "() => void" else value.typeText

structure TypeDeclaration.SameUpToOrder (d e : TypeDeclaration) : Prop where
  kind : d.kind = e.kind
  interfaceName : d.interfaceName = e.interfaceName
  properties : d.properties.Perm e.properties

theorem declareProperty_optional_iff (instances : List Component) (name : String) :
    (declareProperty instances name).optional = true ↔
      ∃ c ∈ instances, name ∉ c.properties.keys := by
  simp only [declareProperty, OrderedMap.contains, List.any_eq_true, Bool.not_eq_true',
    Option.isSome_eq_false_iff, Option.isNone_iff_eq_none, OrderedMap.find?_eq_none_iff]

theorem declareProperty_type (instances : List Component) (name : String) :
    ∃ types : List String, (declareProperty instances name).type = Text.join " | " types ∧
      types.Pairwise (· < ·) ∧ ∀ type, type ∈ types ↔ ∃ c ∈ instances, ∃ value,
        c.properties.find? name = some value ∧
          type = if HandlerBinding.isKey name then "() => void" else value.typeText := by
  refine ⟨_, rfl, Sorted.ofList_increasing _, fun type => ?_⟩
  rw [Sorted.mem_ofList]
  constructor
  · intro h
    obtain ⟨value, hvalue, rfl⟩ := List.mem_map.mp h
    obtain ⟨c, hc, hfound⟩ := List.mem_filterMap.mp hvalue
    exact ⟨c, hc, value, hfound, rfl⟩
  · rintro ⟨c, hc, value, hfound, rfl⟩
    exact List.mem_map.mpr ⟨value, List.mem_filterMap.mpr ⟨c, hc, hfound⟩, rfl⟩

theorem declareKind_names (components : List Component) (kind : String) :
    (declareKind components kind).properties.map PropertyDeclaration.name =
      FirstSeen.ofList
        ((components.filter (·.kind == kind)).flatMap fun c => c.properties.keys) := by
  rw [declareKind, List.map_map]
  exact List.map_id _

theorem declareKind_describes (components : List Component) (kind : String) :
    (declareKind components kind).Describes (components.filter (·.kind == kind)) := by
  have declared : ∀ p ∈ (declareKind components kind).properties,
      p = declareProperty (components.filter (·.kind == kind)) p.name := by
    intro p hp
    obtain ⟨name, _, rfl⟩ := List.mem_map.mp hp
    rfl
  refine ⟨fun name => ?_, ?_, ?_, fun p hp => ?_, fun p hp => ?_⟩
  · rw [declareKind_names, FirstSeen.mem_ofList, List.mem_flatMap]
  · rw [declareKind_names]
    exact FirstSeen.nodup_ofList _
  · rw [declareKind_names]
    exact FirstSeen.ofList_pairwise_idxOf _
  · rw [declared p hp]
    exact declareProperty_optional_iff _ p.name
  · rw [declared p hp]
    exact declareProperty_type _ p.name

theorem inferTypes_kinds (components : List Component) :
    (inferTypes components).map TypeDeclaration.kind =
      Sorted.ofList (components.map Component.kind) := by
  rw [inferTypes, List.map_map]
  exact List.map_id _

/-! ## Order of the components -/

theorem declareProperty_perm {instances others : List Component} (h : instances.Perm others)
    (name : String) : declareProperty instances name = declareProperty others name := by
  have types := (h.filterMap fun c => c.properties.find? name).map (propertyType name)
  rw [declareProperty, declareProperty, h.any_eq, unionType, unionType,
    Sorted.ofList_congr fun type => types.mem_iff]

theorem declareKind_perm {components others : List Component} (h : components.Perm others)
    (kind : String) :
    (declareKind components kind).SameUpToOrder (declareKind others kind) := by
  have instances := h.filter (·.kind == kind)
  have same : declareProperty (components.filter (·.kind == kind)) =
      declareProperty (others.filter (·.kind == kind)) :=
    funext (declareProperty_perm instances)
  refine ⟨rfl, rfl, ?_⟩
  rw [declareKind, declareKind, same]
  apply List.Perm.map
  rw [List.perm_ext_iff_of_nodup (FirstSeen.nodup_ofList _) (FirstSeen.nodup_ofList _)]
  intro name
  rw [FirstSeen.mem_ofList, FirstSeen.mem_ofList, (instances.flatMap_right _).mem_iff]

theorem inferTypes_perm {components others : List Component} (h : components.Perm others) :
    List.Forall₂ TypeDeclaration.SameUpToOrder (inferTypes components) (inferTypes others) := by
  have kinds : Sorted.ofList (components.map Component.kind) =
      Sorted.ofList (others.map Component.kind) :=
    Sorted.ofList_congr fun kind => (h.map Component.kind).mem_iff
  rw [inferTypes, inferTypes, kinds, List.forall₂_map_left_iff, List.forall₂_map_right_iff,
    List.forall₂_same]
  exact fun kind _ => declareKind_perm h kind

/-- The declarations inferred from any component list are those of a single pass over it. There is
one for each kind, by increasing kind, and it describes exactly the components of that kind; in
another order of the components only the order of properties within a declaration can differ. -/
theorem inferred_types_exact (components : List Component) :
    inferTypes components = declareRecords (observeAll components) ∧
    ((inferTypes components).map TypeDeclaration.kind).Pairwise (· < ·) ∧
    (∀ kind, kind ∈ (inferTypes components).map TypeDeclaration.kind ↔
      ∃ c ∈ components, c.kind = kind) ∧
    (∀ d ∈ inferTypes components, d.Describes (components.filter (·.kind == d.kind))) ∧
    ∀ others, components.Perm others →
      List.Forall₂ TypeDeclaration.SameUpToOrder (inferTypes components) (inferTypes others) := by
  refine ⟨inferTypes_eq_declareRecords components, ?_, fun kind => ?_, ?_, fun _ => inferTypes_perm⟩
  · rw [inferTypes_kinds]
    exact Sorted.ofList_increasing _
  · rw [inferTypes_kinds, Sorted.mem_ofList, List.mem_map]
  · intro d hd
    obtain ⟨kind, _, rfl⟩ := List.mem_map.mp hd
    exact declareKind_describes components kind

namespace Sample

def save : Component :=
  component "save" "Button" none []
    (OrderedMap.ofList [("label", .text "Save"), ("onClick", .text "save")])

def count : Component :=
  component "count" "Button" none [] (OrderedMap.ofList [("size", .null), ("label", .whole 3)])

example : inferTypes [save, box, count] =
    [⟨"Button", "ButtonProps",
      [⟨"label", "number | string", false⟩, ⟨"onClick", "() => void", true⟩,
        ⟨"size", "null", true⟩]⟩,
      ⟨"Container", "ContainerProps", []⟩] := by decide

theorem inferred_types_exact_buttons :
    [save, box, count].Perm [count, save, box] ∧
      List.Forall₂ TypeDeclaration.SameUpToOrder (inferTypes [save, box, count])
        (inferTypes [count, save, box]) := by
  have moved : [save, box, count].Perm [count, save, box] :=
    (List.perm_append_comm : ([save, box] ++ [count]).Perm _)
  exact ⟨moved, (inferred_types_exact [save, box, count]).2.2.2.2 _ moved⟩

end Sample

end Pagewright

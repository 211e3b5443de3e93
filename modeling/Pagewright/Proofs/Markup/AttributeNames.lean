import Mathlib.Data.List.Nodup
import Pagewright.Proofs.Markup.ReadBack

/-!
# Names of attributes

The names on an element come from four places: fixed names for the id, the classes and
the styles, names that the primitive implies, the names of declared properties, and
handler keys. Most of these cannot meet, whatever the properties are called: handler
keys have a form of their own, classes and styles are never declared, and a primitive
implies nothing that the component declares. Two meetings are left. A declared
property can be called like the id attribute, and `for` is renamed to what another
property may be called already.

What is declared as null or false has no attribute, and still keeps the primitive
from implying one.
-/

set_option autoImplicit false

namespace Pagewright

theorem filterMap_guarded {α β : Type} (p : α → Bool) (g : α → β) (l : List α) :
    l.filterMap (fun a => if p a then some (g a) else none) = (l.filter p).map g := by
  induction l with
  | nil => rfl
  | cons a rest ih => by_cases h : p a = true <;> simp [h, ih]

def Json.isUnset : Json → Bool
  | .null => true
  | .bool false => true
  | _ => false

namespace Attribute

def nameOf (key : String) : String := if key = "for" then "htmlFor" else key

theorem nameOf_eq_nameOf_iff {a b : String} :
    nameOf a = nameOf b ↔ a = b ∨ a = "for" ∧ b = "htmlFor" ∨ a = "htmlFor" ∧ b = "for" := by
  unfold nameOf
  by_cases ha : a = "for" <;> by_cases hb : b = "for" <;> simp [ha, hb, eq_comm]

theorem nameOf_eq_iff {key name : String} (h : name ∉ ["for", "htmlFor"]) :
    nameOf key = name ↔ key = name := by
  simp only [List.mem_cons, List.not_mem_nil, or_false, not_or] at h
  unfold nameOf
  by_cases hkey : key = "for"
  · simp [hkey, Ne.symm h.1, Ne.symm h.2]
  · simp [hkey]

theorem ofProperty_name (name : String) (value : Json) :
    (ofProperty name value).map Attribute.name = if value.isUnset then none else some name := by
  unfold ofProperty Json.isUnset
  split <;> simp_all

theorem ofHandler_name (handler : String × HandlerBinding) :
    (ofHandler handler).name = handler.1 := by
  unfold ofHandler
  cases handler.2 <;> rfl

end Attribute

namespace Component

variable (options : Options) (c : Component)

def Sets (key : String) : Prop :=
  ∃ value, c.properties.find? key = some value ∧ value.isUnset = false

def attributeNames : List String := (c.attributes options).map Attribute.name

def fixedNames : List String :=
  (if options.componentIds then [idAttribute] else []) ++
    (if (c.classes options).isEmpty then [] else ["className"]) ++
    (if (c.inlineStyles options).isEmpty then [] else ["style"])

def implicitNames : List String := c.implicitAttributes.map Attribute.name

def declaredKeys : List String :=
  (c.properties.entries.filter fun entry =>
    (c.attributeName? entry.1).isSome && !entry.2.isUnset).map Prod.fst

def handlerKeys : List String :=
  (c.properties.entries.filter fun entry =>
    HandlerBinding.isKey entry.1 && (HandlerBinding.ofJson entry.2).isSome).map Prod.fst

theorem attributeName?_eq_some {c : Component} {key name : String}
    (h : c.attributeName? key = some name) :
    HandlerBinding.isKey key = false ∧ key ∉ ["className", "class", "style"] ∧
      Attribute.nameOf key = name := by
  unfold attributeName? at h
  split at h
  · cases h
  · rename_i hspecial
    split at h
    · cases h
    · simp only [Option.ite_none_right_eq_some, Option.some.injEq] at h
      simp only [Bool.or_eq_true, not_or, Bool.not_eq_true, List.contains_eq_mem,
        decide_eq_false_iff_not] at hspecial
      exact ⟨hspecial.1, hspecial.2, h.2⟩

/-- What one property adds to the declared names. -/
theorem declared_name (key : String) (value : Json) :
    ((c.attributeName? key).bind fun name => Attribute.ofProperty name value).map Attribute.name =
      if (c.attributeName? key).isSome && !value.isUnset then some (Attribute.nameOf key)
      else none := by
  cases hname : c.attributeName? key with
  | none => rfl
  | some name =>
    rw [Option.bind_some, Attribute.ofProperty_name, ← (attributeName?_eq_some hname).2.2]
    cases value.isUnset <;> rfl

theorem declaredAttributes_names :
    c.declaredAttributes.map Attribute.name = c.declaredKeys.map Attribute.nameOf := by
  rw [declaredAttributes, List.map_filterMap, declaredKeys, List.map_map, ← filterMap_guarded]
  apply List.filterMap_congr
  intro entry _
  exact c.declared_name entry.1 entry.2

theorem handlers_names :
    (c.handlers.map Attribute.ofHandler).map Attribute.name = c.handlerKeys := by
  rw [List.map_map, handlers, List.map_filterMap, handlerKeys, ← filterMap_guarded]
  apply List.filterMap_congr
  intro entry _
  by_cases hkey : HandlerBinding.isKey entry.1 = true
  · cases hbinding : HandlerBinding.ofJson entry.2 <;>
      simp [hkey, hbinding, Attribute.ofHandler_name]
  · simp [hkey]

theorem attributeNames_eq :
    c.attributeNames options =
      c.fixedNames options ++ c.implicitNames ++ c.declaredKeys.map Attribute.nameOf ++
        c.handlerKeys := by
  have fixed : ∀ (b : Bool) (a : Attribute),
      (if b then [] else [a]).map Attribute.name = if b then [] else [a.name] := by
    intro b a
    cases b <;> rfl
  have id : (if options.componentIds then [⟨idAttribute, .text c.id⟩] else []).map Attribute.name =
      if options.componentIds then [idAttribute] else [] := by
    cases options.componentIds <;> rfl
  simp only [attributeNames, attributes, List.map_append, handlers_names, declaredAttributes_names,
    fixed, id, fixedNames, implicitNames]

/-! ## Each place for itself -/

theorem fixedNames_sublist :
    (c.fixedNames options).Sublist [idAttribute, "className", "style"] := by
  unfold fixedNames
  cases options.componentIds <;> cases (c.classes options).isEmpty <;>
    cases (c.inlineStyles options).isEmpty <;> simp

theorem idAttribute_mem_fixedNames :
    idAttribute ∈ c.fixedNames options ↔ options.componentIds = true := by
  have classes : idAttribute ≠ "className" := by decide
  have styles : idAttribute ≠ "style" := by decide
  unfold fixedNames
  cases options.componentIds <;> cases (c.classes options).isEmpty <;>
    cases (c.inlineStyles options).isEmpty <;> simp [classes, styles]

def impliedNames : List String := ["alt", "href", "type"]

theorem implicit_sublist (kind : String) :
    ((Primitive.ofKind kind).implicit.map Prod.fst).Sublist impliedNames :=
  Primitive.ofKind_all (P := fun p => (p.implicit.map Prod.fst).Sublist impliedNames)
    (by decide) (by decide) kind

theorem implicitNames_eq :
    c.implicitNames = ((Primitive.ofKind c.kind).implicit.filter fun entry =>
      !c.properties.contains entry.1).map Prod.fst := by
  rw [implicitNames, implicitAttributes, List.map_filterMap, ← filterMap_guarded]
  apply List.filterMap_congr
  intro entry _
  obtain ⟨name, value⟩ := entry
  cases hheld : c.properties.contains name <;> simp [hheld]

theorem implicitNames_sublist : c.implicitNames.Sublist impliedNames := by
  rw [implicitNames_eq]
  exact (List.filter_sublist.map _).trans (implicit_sublist c.kind)

/-- An implied name is one that no property has. -/
theorem find?_of_mem_implicitNames {c : Component} {name : String} (h : name ∈ c.implicitNames) :
    c.properties.find? name = none := by
  rw [implicitNames_eq] at h
  obtain ⟨entry, hentry, rfl⟩ := List.mem_map.mp h
  simpa [OrderedMap.contains] using (List.mem_filter.mp hentry).2

theorem declaredKeys_nodup : c.declaredKeys.Nodup :=
  c.properties.keys_nodup.sublist (List.filter_sublist.map _)

theorem handlerKeys_nodup : c.handlerKeys.Nodup :=
  c.properties.keys_nodup.sublist (List.filter_sublist.map _)

theorem isKey_of_mem_handlerKeys {c : Component} {key : String} (h : key ∈ c.handlerKeys) :
    HandlerBinding.isKey key = true := by
  obtain ⟨entry, hentry, rfl⟩ := List.mem_map.mp h
  exact (Bool.and_eq_true_iff.mp (List.mem_filter.mp hentry).2).1

theorem mem_declaredKeys {c : Component} {key : String} :
    key ∈ c.declaredKeys ↔ (c.attributeName? key).isSome = true ∧ c.Sets key := by
  simp only [declaredKeys, Sets, List.mem_map, List.mem_filter, Bool.and_eq_true,
    Bool.not_eq_true']
  constructor
  · rintro ⟨⟨key, value⟩, ⟨hmem, hname, hset⟩, rfl⟩
    exact ⟨hname, value, OrderedMap.mem_entries_iff.mp hmem, hset⟩
  · rintro ⟨hname, value, hfound, hset⟩
    exact ⟨(key, value), ⟨OrderedMap.mem_entries_iff.mpr hfound, hname, hset⟩, rfl⟩

theorem declared_of_mem {c : Component} {key : String} (h : key ∈ c.declaredKeys) :
    HandlerBinding.isKey key = false ∧ key ∉ ["className", "class", "style"] := by
  obtain ⟨name, hname⟩ := Option.isSome_iff_exists.mp (mem_declaredKeys.mp h).1
  obtain ⟨hkey, hspecial, _⟩ := attributeName?_eq_some hname
  exact ⟨hkey, hspecial⟩

def isOrdinary (key : String) : Bool :=
  !HandlerBinding.isKey key && !(["className", "class", "style"].contains key) &&
    !textKeys.contains key && Attribute.isName (Attribute.nameOf key)

theorem mem_declaredKeys_of_ordinary {c : Component} {key : String} (h : isOrdinary key = true) :
    key ∈ c.declaredKeys ↔ c.Sets key := by
  simp only [isOrdinary, Bool.and_eq_true, Bool.not_eq_true'] at h
  obtain ⟨⟨⟨hkey, hspecial⟩, htext⟩, hname⟩ := h
  have declarable : c.attributeName? key = some (Attribute.nameOf key) := by
    rw [attributeName?, hkey, hspecial, htext]
    exact if_pos hname
  rw [mem_declaredKeys, declarable]
  simp

theorem declared_nodup_iff :
    (c.declaredKeys.map Attribute.nameOf).Nodup ↔ ¬ (c.Sets "for" ∧ c.Sets "htmlFor") := by
  have first : "for" ∈ c.declaredKeys ↔ c.Sets "for" := mem_declaredKeys_of_ordinary (by decide)
  have second : "htmlFor" ∈ c.declaredKeys ↔ c.Sets "htmlFor" :=
    mem_declaredKeys_of_ordinary (by decide)
  rw [List.nodup_map_iff_inj_on c.declaredKeys_nodup]
  constructor
  · rintro injective ⟨hfor, hhtmlFor⟩
    have same := injective "for" (first.mpr hfor) "htmlFor" (second.mpr hhtmlFor) (by decide)
    exact absurd same (by decide)
  · intro apart a ha b hb hname
    rcases Attribute.nameOf_eq_nameOf_iff.mp hname with heq | ⟨rfl, rfl⟩ | ⟨rfl, rfl⟩
    · exact heq
    · exact absurd ⟨first.mp ha, second.mp hb⟩ apart
    · exact absurd ⟨first.mp hb, second.mp ha⟩ apart

/-! ## Where the places meet -/

theorem mem_declared_iff {c : Component} {name : String} (hown : name ∉ ["for", "htmlFor"])
    (h : isOrdinary name = true) :
    name ∈ c.declaredKeys.map Attribute.nameOf ↔ c.Sets name := by
  simp only [List.mem_map, Attribute.nameOf_eq_iff hown, exists_eq_right,
    mem_declaredKeys_of_ordinary h]

theorem implied_ordinary : ∀ name ∈ impliedNames,
    name ∉ ["for", "htmlFor"] ∧ isOrdinary name = true ∧
      name ∉ [idAttribute, "className", "style"] := by
  decide

theorem implicit_disjoint_declared :
    List.Disjoint c.implicitNames (c.declaredKeys.map Attribute.nameOf) := by
  intro name himplicit hdeclared
  obtain ⟨hown, hordinary, _⟩ := implied_ordinary name (c.implicitNames_sublist.subset himplicit)
  obtain ⟨value, hfound, _⟩ := (mem_declared_iff hown hordinary).mp hdeclared
  rw [find?_of_mem_implicitNames himplicit] at hfound
  cases hfound

theorem fixed_disjoint_implicit : List.Disjoint (c.fixedNames options) c.implicitNames := by
  intro name hfixed himplicit
  apply (implied_ordinary name (c.implicitNames_sublist.subset himplicit)).2.2
  exact (c.fixedNames_sublist options).subset hfixed

/-- Of the fixed names only the one for the id can be declared. -/
theorem fixed_disjoint_declared_iff :
    List.Disjoint (c.fixedNames options) (c.declaredKeys.map Attribute.nameOf) ↔
      ¬ (options.componentIds = true ∧ c.Sets idAttribute) := by
  have declaredId : idAttribute ∈ c.declaredKeys.map Attribute.nameOf ↔ c.Sets idAttribute :=
    mem_declared_iff (by decide) (by decide)
  rw [← idAttribute_mem_fixedNames, ← declaredId]
  constructor
  · rintro apart ⟨hfixed, hdeclared⟩
    exact apart hfixed hdeclared
  · intro apart name hfixed hdeclared
    have hname := (c.fixedNames_sublist options).subset hfixed
    obtain ⟨key, hkey, rfl⟩ := List.mem_map.mp hdeclared
    have hspecial := (declared_of_mem hkey).2
    simp only [List.mem_cons, List.not_mem_nil, or_false, not_or] at hname hspecial
    rcases hname with hid | hclass | hstyle
    · exact apart ⟨hid ▸ hfixed, hid ▸ hdeclared⟩
    · exact hspecial.1 ((Attribute.nameOf_eq_iff (by decide)).mp hclass)
    · exact hspecial.2.2 ((Attribute.nameOf_eq_iff (by decide)).mp hstyle)

/-- No other name has the form of a handler key. -/
theorem disjoint_handlerKeys :
    List.Disjoint (c.fixedNames options ++ c.implicitNames ++ c.declaredKeys.map Attribute.nameOf)
      c.handlerKeys := by
  have fixed : ∀ name ∈ [idAttribute, "className", "style"], HandlerBinding.isKey name = false := by
    decide
  have implied : ∀ name ∈ impliedNames, HandlerBinding.isKey name = false := by decide
  have other : ∀ name ∈ c.fixedNames options ++ c.implicitNames ++
      c.declaredKeys.map Attribute.nameOf, HandlerBinding.isKey name = false := by
    intro name hname
    simp only [List.mem_append] at hname
    rcases hname with (hfixed | himplicit) | hdeclared
    · exact fixed name ((c.fixedNames_sublist options).subset hfixed)
    · exact implied name (c.implicitNames_sublist.subset himplicit)
    · obtain ⟨key, hkey, rfl⟩ := List.mem_map.mp hdeclared
      by_cases hfor : key = "for"
      · rw [hfor]
        decide
      · simpa [Attribute.nameOf, hfor] using (declared_of_mem hkey).1
  intro name hname hhandler
  have differ := other name hname
  rw [isKey_of_mem_handlerKeys hhandler] at differ
  cases differ

/-- The names on an element are distinct exactly if no property repeats the id attribute that the
generator writes, and no two properties share a name because one of them is renamed. -/
theorem attribute_names_distinct_iff :
    (c.attributeNames options).Nodup ↔
      ¬ (options.componentIds = true ∧ c.Sets idAttribute) ∧
        ¬ (c.Sets "for" ∧ c.Sets "htmlFor") := by
  have fixed : (c.fixedNames options).Nodup :=
    (show [idAttribute, "className", "style"].Nodup by decide).sublist
      (c.fixedNames_sublist options)
  have implied : c.implicitNames.Nodup :=
    (show impliedNames.Nodup by decide).sublist c.implicitNames_sublist
  have declared : List.Disjoint (c.fixedNames options ++ c.implicitNames)
      (c.declaredKeys.map Attribute.nameOf) ↔
      ¬ (options.componentIds = true ∧ c.Sets idAttribute) := by
    rw [List.disjoint_append_left, fixed_disjoint_declared_iff]
    exact and_iff_left c.implicit_disjoint_declared
  rw [attributeNames_eq, List.nodup_append', List.nodup_append', declared_nodup_iff, declared]
  constructor
  · rintro ⟨⟨_, hrenamed, hid⟩, _, _⟩
    exact ⟨hid, hrenamed⟩
  · rintro ⟨hid, hrenamed⟩
    have front := fixed.append implied (c.fixed_disjoint_implicit options)
    exact ⟨⟨front, hrenamed, hid⟩, c.handlerKeys_nodup, c.disjoint_handlerKeys options⟩

/-- A label that names its control in both ways. -/
example :
    let label := Sample.component "label" "Label" none []
      (OrderedMap.ofList [("for", .text "a"), ("htmlFor", .text "b")])
    label.attributeNames {} = [idAttribute, "htmlFor", "htmlFor"] := by
  decide

/-- A name that the primitive implies stands on the element exactly if the component does not
declare it as null or false. -/
theorem implied_attribute_present_iff :
    ∀ entry ∈ (Primitive.ofKind c.kind).implicit, entry.1 ∈ c.attributeNames options ↔
      ∀ value, c.properties.find? entry.1 = some value → value.isUnset = false := by
  rintro ⟨name, text⟩ hentry
  have himplied : name ∈ impliedNames :=
    (implicit_sublist c.kind).subset (List.mem_map_of_mem hentry)
  obtain ⟨hown, hordinary, hfixed⟩ := implied_ordinary name himplied
  have fixed : name ∉ c.fixedNames options :=
    fun h => hfixed ((c.fixedNames_sublist options).subset h)
  have implicit : name ∈ c.implicitNames ↔ c.properties.find? name = none := by
    constructor
    · exact find?_of_mem_implicitNames
    · intro hnone
      rw [implicitNames_eq]
      refine List.mem_map.mpr ⟨(name, text), List.mem_filter.mpr ⟨hentry, ?_⟩, rfl⟩
      simp [OrderedMap.contains, hnone]
  have handler : name ∉ c.handlerKeys := by
    intro h
    have hkey := isKey_of_mem_handlerKeys h
    simp [isOrdinary, hkey] at hordinary
  rw [attributeNames_eq, List.mem_append, List.mem_append, List.mem_append,
    mem_declared_iff hown hordinary, implicit]
  simp only [fixed, handler, false_or, or_false, Sets]
  cases hfound : c.properties.find? name with
  | none => simp
  | some value => simp

end Component

namespace Sample

def link : Component := component "link" "Link" none [] (OrderedMap.ofList [("href", .null)])

theorem implied_attribute_present_iff_link :
    ("href", "#") ∈ (Primitive.ofKind link.kind).implicit ∧
      link.properties.find? "href" = some .null ∧ "href" ∉ link.attributeNames {} := by
  have implied : ("href", "#") ∈ (Primitive.ofKind link.kind).implicit := by decide
  have declared : link.properties.find? "href" = some .null := rfl
  refine ⟨implied, declared, fun present => ?_⟩
  have shown := (link.implied_attribute_present_iff {} ("href", "#") implied).mp present
  exact absurd (shown .null declared) (by decide)

end Sample

end Pagewright

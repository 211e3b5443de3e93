import Pagewright.Proofs.Markup.Coverage

/-!
# References of handlers

A rendered handler may refer to a function by its name. An emitter collects these
names while it renders, and asks for a stub where no import binds the name. The
attributes of a body are those of its components, so that the stubs of a body are
exactly the names its own attributes refer to: each once, none in addition.
-/

set_option autoImplicit false

namespace Pagewright

/-! ## The attributes of a body -/

namespace Element

mutual

def allAttributes : Element → List Attribute
  | .placeholder _ => []
  | .leaf _ attributes => attributes
  | .textual _ attributes _ => attributes
  | .nested _ attributes _ children => attributes ++ attributesOf children

def attributesOf : List Element → List Attribute
  | [] => []
  | e :: rest => allAttributes e ++ attributesOf rest

end

end Element

namespace View

/-- An element prints its own attributes and those of its children, provided that it has no
children where it can show none. -/
theorem allAttributes_elementOf (options : Options) (c : Component) (nested : Bool)
    (children : List Element)
    (h : (Primitive.ofKind c.kind).void = true ∨ nested = false → children = []) :
    (elementOf options c nested children).allAttributes =
      c.attributes options ++ Element.attributesOf children := by
  by_cases hvoid : (Primitive.ofKind c.kind).void = true
  · simp [elementOf, hvoid, h (.inl hvoid), Element.allAttributes, Element.attributesOf]
  · cases nested with
    | true => simp [elementOf, hvoid, Element.allAttributes]
    | false =>
      rw [h (.inr rfl)]
      cases hcontent : c.content? <;>
        simp [elementOf, hvoid, hcontent, Element.allAttributes, Element.attributesOf]

theorem attributesOf_elements (options : Options) {views : List View}
    (h : ∀ view ∈ views, (view.element options).allAttributes =
      view.components.flatMap (Component.attributes options)) :
    Element.attributesOf (elements options views) =
      (componentsOf views).flatMap (Component.attributes options) := by
  induction views with
  | nil => rfl
  | cons view rest ih =>
    rw [elements, Element.attributesOf, componentsOf, List.flatMap_append, h view (by simp),
      ih fun v hv => h v (by simp [hv])]

end View

namespace Forest

theorem childViews_eq_nil (forest : Forest) (substitutions : Substitutions) (path : List String)
    (c : Component) (h : (forest.children c).isEmpty = true) :
    c.childIds.filterMap (forest.viewBelow substitutions path) = [] := by
  rw [List.isEmpty_iff, children, List.filterMap_eq_nil_iff] at h
  rw [List.filterMap_eq_nil_iff]
  exact fun id hid => viewBelow_missing (h id hid)

theorem allAttributes_viewBelow (forest : Forest) (options : Options)
    (substitutions : Substitutions) (path : List String) (id : String) (view : View)
    (hview : forest.viewBelow substitutions path id = some view) :
    (view.element options).allAttributes =
      view.components.flatMap (Component.attributes options) := by
  induction path, id using viewBelow.induct forest substitutions generalizing view with
  | case1 path id hfind =>
    rw [viewBelow_missing hfind] at hview
    cases hview
  | case2 path id c hfind name hname =>
    simp only [viewBelow_found hfind, hname, Option.some.injEq] at hview
    subst hview
    rfl
  | case3 path id c hfind hfree hold => simp [viewBelow_found hfind, hfree, hold] at hview
  | case4 path id c hfind hfree hnew hvoid =>
    simp only [viewBelow_found hfind, hfree, hnew, hvoid, if_false, if_true,
      Option.some.injEq] at hview
    subst hview
    rw [View.element, View.elements,
      View.allAttributes_elementOf options c false [] fun _ => rfl]
    simp [Element.attributesOf, View.components, View.componentsOf]
  | case5 path id c hfind hfree hnew hvoid ih =>
    simp only [viewBelow_found hfind, hfree, hnew, hvoid, Bool.false_eq_true, if_false,
      Option.some.injEq] at hview
    subst hview
    have bare : (Primitive.ofKind c.kind).void = true ∨ (!(forest.children c).isEmpty) = false →
        View.elements options
          (c.childIds.filterMap (forest.viewBelow substitutions (id :: path))) = [] := by
      rintro (hholds | hempty)
      · exact absurd hholds hvoid
      · rw [forest.childViews_eq_nil substitutions (id :: path) c (by simpa using hempty)]
        rfl
    rw [View.element, View.allAttributes_elementOf options c _ _ bare,
      View.attributesOf_elements options]
    · rfl
    · intro below hbelow
      obtain ⟨child, _, hchild⟩ := List.mem_filterMap.mp hbelow
      exact ih child below hchild

end Forest

def Body.attributes (options : Options) (body : Body) : List Attribute :=
  Element.attributesOf (View.elements options body.views)

theorem Forest.body_attributes (forest : Forest) (options : Options)
    (substitutions : Substitutions) (ids : List String) :
    (forest.body substitutions ids).attributes options =
      (forest.body substitutions ids).components.flatMap (Component.attributes options) := by
  apply View.attributesOf_elements
  intro view hview
  obtain ⟨id, _, hview⟩ := List.mem_filterMap.mp hview
  exact forest.allAttributes_viewBelow options substitutions [] id view hview

/-! ## References -/

theorem Attribute.ofProperty_ne_reference {key : String} {value : Json} {a : Attribute}
    (h : ofProperty key value = some a) (name : String) : a.value ≠ .reference name := by
  unfold ofProperty at h
  split at h <;> cases h <;> exact nofun

namespace Component

/-- Only a handler refers to a function. -/
theorem mem_attributes_reference (options : Options) (c : Component) (key name : String) :
    ⟨key, .reference name⟩ ∈ c.attributes options ↔ (key, .reference name) ∈ c.handlers := by
  have implied : ⟨key, .reference name⟩ ∉ c.implicitAttributes := by
    intro h
    obtain ⟨entry, _, h⟩ := List.mem_filterMap.mp h
    cases (Option.ite_none_left_eq_some.mp h).2
  have declared : ⟨key, .reference name⟩ ∉ c.declaredAttributes := by
    intro h
    obtain ⟨entry, _, h⟩ := List.mem_filterMap.mp h
    obtain ⟨_, _, h⟩ := Option.bind_eq_some_iff.mp h
    exact Attribute.ofProperty_ne_reference h name rfl
  have handled : ⟨key, .reference name⟩ ∈ c.handlers.map Attribute.ofHandler ↔
      (key, .reference name) ∈ c.handlers := by
    rw [List.mem_map]
    constructor
    · rintro ⟨⟨other, binding⟩, hmem, heq⟩
      cases binding with
      | statement code => cases heq
      | reference target =>
        cases heq
        exact hmem
    · exact fun h => ⟨_, h, rfl⟩
  simp [attributes, handled, implied, declared]

theorem mem_handlerNames (c : Component) (name : String) :
    name ∈ c.handlerNames ↔
      Name.isIdentifier name = true ∧ ∃ key, (key, .reference name) ∈ c.handlers := by
  rw [handlerNames, List.mem_filterMap]
  constructor
  · rintro ⟨⟨key, binding⟩, hmem, h⟩
    cases binding with
    | statement code => cases h
    | reference target =>
      obtain ⟨hname, heq⟩ := Option.ite_none_right_eq_some.mp h
      cases heq
      exact ⟨hname, key, hmem⟩
  · rintro ⟨hname, key, hmem⟩
    exact ⟨_, hmem, if_pos hname⟩

end Component

def Body.Refers (options : Options) (body : Body) (name : String) : Prop :=
  ∃ key, ⟨key, .reference name⟩ ∈ body.attributes options

theorem Forest.mem_handlerNames_body (forest : Forest) (options : Options)
    (substitutions : Substitutions) (ids : List String) (name : String) :
    name ∈ (forest.body substitutions ids).components.flatMap Component.handlerNames ↔
      (forest.body substitutions ids).Refers options name ∧ Name.isIdentifier name = true := by
  simp only [Body.Refers, forest.body_attributes, List.mem_flatMap,
    Component.mem_attributes_reference, Component.mem_handlerNames]
  constructor
  · rintro ⟨c, hc, hname, key, hkey⟩
    exact ⟨⟨key, c, hc, hkey⟩, hname⟩
  · rintro ⟨⟨key, c, hc, hkey⟩, hname⟩
    exact ⟨c, hc, hname, key, hkey⟩

/-! ## Stubs -/

/-- The stubs of a body beside some imports: one for each function that its handlers refer to by
an identifier, unless it is imported. -/
structure Body.StubbedBy (options : Options) (imports : Imports) (body : Body)
    (stubNames : List String) : Prop where
  distinct : stubNames.Nodup
  mem_iff : ∀ name, name ∈ stubNames ↔
    body.Refers options name ∧ Name.isIdentifier name = true ∧ name ∉ imports.bindings

namespace Emitter

theorem noteAll_handlerNames (e : Emitter) (components : List Component) :
    (e.noteAll components).handlerNames =
      FirstSeen.addAll e.handlerNames (components.flatMap Component.handlerNames) := by
  induction components generalizing e with
  | nil => rfl
  | cons c rest ih =>
    have step : (e.note c).handlerNames = FirstSeen.addAll e.handlerNames c.handlerNames := rfl
    rw [List.flatMap_cons, FirstSeen.addAll_append, ← step]
    exact ih (e.note c)

/-- An emitter that has collected no name yet asks for the stubs of the body alone. -/
theorem stubbedBy_noteAll (options : Options) (e : Emitter) (ids : List String)
    (h : e.handlerNames = []) :
    (e.body ids).StubbedBy options (e.noteAll (e.body ids).components).imports
      (e.noteAll (e.body ids).components).stubNames := by
  have collected : (e.noteAll (e.body ids).components).handlerNames =
      FirstSeen.ofList ((e.body ids).components.flatMap Component.handlerNames) := by
    rw [noteAll_handlerNames, h]
    rfl
  constructor
  · rw [stubNames, collected]
    exact (FirstSeen.nodup_addAll [] _ .nil).filter _
  · intro name
    have referred := e.forest.mem_handlerNames_body options e.substitutions ids name
    simp only [stubNames, collected, List.mem_filter, FirstSeen.ofList, FirstSeen.mem_addAll,
      List.not_mem_nil, false_or, Bool.not_eq_true', List.contains_eq_mem, decide_eq_false_iff_not]
    rw [← and_assoc]
    exact and_congr_left' referred

end Emitter

theorem Forest.emit_stubbedBy (forest : Forest) (options : Options) (substitutions : Substitutions)
    (ids : List String) :
    (forest.emit options substitutions ids).body.StubbedBy options
      (forest.emit options substitutions ids).imports
      (forest.emit options substitutions ids).stubNames :=
  Emitter.stubbedBy_noteAll options (Emitter.analyze { forest, options, substitutions } ids) ids rfl

/-- Where nothing needs the browser, nothing is referred to. -/
theorem Forest.emit_silent {forest : Forest} {options : Options} {substitutions : Substitutions}
    {ids : List String} (h : (forest.emit options substitutions ids).Quiet) :
    (forest.emit options substitutions ids).stubNames = [] ∧
      ∀ name, ¬ (forest.emit options substitutions ids).body.Refers options name := by
  refine ⟨h.stubless, ?_⟩
  rintro name ⟨key, hkey⟩
  have attributes : (forest.emit options substitutions ids).body.attributes options =
      (forest.emit options substitutions ids).body.components.flatMap
        (Component.attributes options) := forest.body_attributes options substitutions ids
  rw [attributes, List.mem_flatMap] at hkey
  obtain ⟨c, hc, hkey⟩ := hkey
  rw [Component.mem_attributes_reference, (h.inert c hc).handlers] at hkey
  exact List.not_mem_nil hkey

end Pagewright

import Pagewright.Proofs.Component.Arrangement
import Pagewright.Proofs.Markup.View

/-!
# Markup of alike forests

Alike forests have the same views, apart from what only the editor shows, and so the
same markup. An emitter over one of them remembers what it would over the other:
replacing its forest commutes with the analysis and with rendering.
-/

set_option autoImplicit false

namespace Pagewright

/-! ## Views -/

namespace View

mutual

def bare : View → View
  | .placeholder name => .placeholder name
  | .node root nested children => .node root.bare nested (bareAll children)

def bareAll : List View → List View
  | [] => []
  | view :: rest => bare view :: bareAll rest

end

theorem bareAll_eq_map (views : List View) : bareAll views = views.map bare := by
  induction views with
  | nil => rfl
  | cons view rest ih => rw [bareAll, ih, List.map_cons]

mutual

theorem element_bare (options : Options) :
    ∀ view : View, element options view.bare = element options view
  | .placeholder _ => rfl
  | .node root nested children => by
    rw [bare, element, elements_bareAll options children, element]
    rfl

theorem elements_bareAll (options : Options) :
    ∀ views : List View, elements options (bareAll views) = elements options views
  | [] => rfl
  | view :: rest => by
    rw [bareAll, elements, element_bare options view, elements_bareAll options rest, elements]

end

mutual

theorem components_bare : ∀ view : View, components view.bare = (components view).map Component.bare
  | .placeholder _ => rfl
  | .node root nested children => by
    rw [bare, components, componentsOf_bareAll children, components, List.map_cons]

theorem componentsOf_bareAll : ∀ views : List View,
    componentsOf (bareAll views) = (componentsOf views).map Component.bare
  | [] => rfl
  | view :: rest => by
    rw [bareAll, componentsOf, components_bare view, componentsOf_bareAll rest, componentsOf,
      List.map_append]

end

end View

namespace Forest

variable {f g : Forest}

theorem Alike.viewBelow (h : f.Alike g) (substitutions : Substitutions) (path : List String)
    (id : String) :
    (f.viewBelow substitutions path id).map View.bare =
      (g.viewBelow substitutions path id).map View.bare := by
  induction path, id using viewBelow.induct f substitutions with
  | case1 path id hfind => rw [viewBelow_missing hfind, viewBelow_missing (h.missing hfind)]
  | case2 path id c hfind name hname =>
    obtain ⟨d, hd, _⟩ := h.exists_found hfind
    simp only [viewBelow_found hfind, viewBelow_found hd, hname]
  | case3 path id c hfind hfree hold =>
    obtain ⟨d, hd, _⟩ := h.exists_found hfind
    simp only [viewBelow_found hfind, viewBelow_found hd, hfree, hold, if_true]
  | case4 path id c hfind hfree hnew hvoid =>
    obtain ⟨d, hd, hbare⟩ := h.exists_found hfind
    have hkind : d.kind = c.kind := Component.read_eq (fun _ => rfl) hbare
    simp only [viewBelow_found hfind, viewBelow_found hd, hfree, hnew, hkind, hvoid, if_true,
      if_false, Option.map_some, View.bare, hbare]
  | case5 path id c hfind hfree hnew hvoid ih =>
    -- the same children by id, and below each of them the views agree by induction
    obtain ⟨d, hd, hbare⟩ := h.exists_found hfind
    have hkind : d.kind = c.kind := Component.read_eq (fun _ => rfl) hbare
    have hids : d.childIds = c.childIds := Component.read_eq (fun _ => rfl) hbare
    have hnested : (g.children d).isEmpty = (f.children c).isEmpty := by
      rw [h.children_isEmpty, children, children, hids]
    have below : View.bareAll (d.childIds.filterMap (g.viewBelow substitutions (id :: path))) =
        View.bareAll (c.childIds.filterMap (f.viewBelow substitutions (id :: path))) := by
      rw [View.bareAll_eq_map, View.bareAll_eq_map, List.map_filterMap, List.map_filterMap, hids]
      simp only [ih]
    simp only [viewBelow_found hfind, viewBelow_found hd, hfree, hnew, hkind, hvoid,
      Bool.false_eq_true, if_false, Option.map_some, View.bare, hbare, hnested, below]

end Forest

def Body.bare (body : Body) : Body := ⟨body.fragment, View.bareAll body.views⟩

namespace Body

theorem render_bare (options : Options) (depth : Nat) (body : Body) :
    body.bare.render options depth = body.render options depth := by
  simp only [render, lines, bare, View.elements_bareAll]

theorem components_bare (body : Body) :
    body.bare.components = body.components.map Component.bare :=
  View.componentsOf_bareAll body.views

end Body

namespace Forest

variable {f g : Forest}

theorem Alike.body (h : f.Alike g) (substitutions : Substitutions) (ids : List String) :
    (f.body substitutions ids).bare = (g.body substitutions ids).bare := by
  have views : View.bareAll (f.views substitutions ids) =
      View.bareAll (g.views substitutions ids) := by
    rw [View.bareAll_eq_map, View.bareAll_eq_map, views, views, List.map_filterMap,
      List.map_filterMap]
    exact congrArg (List.filterMap · ids) (funext fun id => h.viewBelow substitutions [] id)
  exact congrArg (Body.mk _) views

theorem Alike.render (h : f.Alike g) (options : Options) (substitutions : Substitutions)
    (ids : List String) (depth : Nat) :
    (f.body substitutions ids).render options depth =
      (g.body substitutions ids).render options depth := by
  rw [← Body.render_bare, h.body, Body.render_bare]

theorem Alike.components (h : f.Alike g) (substitutions : Substitutions) (ids : List String) :
    (f.body substitutions ids).components.map Component.bare =
      (g.body substitutions ids).components.map Component.bare := by
  rw [← Body.components_bare, h.body, Body.components_bare]

end Forest

/-! ## Emission -/

namespace Emitter

def withForest (e : Emitter) (g : Forest) : Emitter := { e with forest := g }

variable {e : Emitter} {g : Forest}

theorem noteAll_bare (e : Emitter) {components others : List Component}
    (h : components.map Component.bare = others.map Component.bare) :
    e.noteAll components = e.noteAll others := by
  have read : ∀ list : List Component, e.noteAll (list.map Component.bare) = e.noteAll list := by
    intro list
    rw [noteAll, List.foldl_map]
    rfl
  rw [← read, h, read]

theorem note_withForest (h : e.forest.Alike g) (c : Component) :
    (e.withForest g).note c = (e.note c).withForest g := by
  have nested : (g.children c).isEmpty = (e.forest.children c).isEmpty :=
    (h.children_isEmpty c).symm
  simp only [note, withForest, nested]

theorem noteAll_withForest (h : e.forest.Alike g) (components : List Component) :
    (e.withForest g).noteAll components = (e.noteAll components).withForest g := by
  induction components generalizing e with
  | nil => rfl
  | cons c rest ih =>
    have step : (e.withForest g).noteAll (c :: rest) = ((e.withForest g).note c).noteAll rest := rfl
    rw [step, note_withForest h]
    exact ih (e := e.note c) h

/-- Over either forest the components of a body leave the emitter with the same to remember. -/
theorem noteBody_withForest (h : e.forest.Alike g) (ids : List String) :
    (e.withForest g).noteAll ((e.withForest g).body ids).components =
      (e.noteAll (e.body ids).components).withForest g := by
  rw [noteAll_withForest h]
  exact congrArg (withForest · g) (e.noteAll_bare (h.components e.substitutions ids).symm)

theorem analyze_withForest (h : e.forest.Alike g) (ids : List String) :
    (e.withForest g).analyze ids = (e.analyze ids).withForest g := by
  have read : ∀ list : List Component,
      (list.map Component.bare).foldl (fun imports c => c.registerImports imports) e.imports =
        list.foldl (fun imports c => c.registerImports imports) e.imports := by
    intro list
    rw [List.foldl_map]
    rfl
  have imports : (g.walkFrom e.substitutions.keys ids).foldl
        (fun imports c => c.registerImports imports) e.imports =
      (e.forest.walkFrom e.substitutions.keys ids).foldl
        (fun imports c => c.registerImports imports) e.imports := by
    rw [← read, ← h.walkFrom, read]
  exact congrArg (fun imports => { e.withForest g with imports }) imports

theorem renderScoped_withForest (h : e.forest.Alike g) (id : String) (options : Options) :
    ((e.withForest g).renderScoped id).1.render options 2 = (e.renderScoped id).1.render options 2 ∧
    ((e.withForest g).renderScoped id).2.1 = (e.renderScoped id).2.1 ∧
    ((e.withForest g).renderScoped id).2.2 = (e.renderScoped id).2.2.withForest g := by
  have inner := noteBody_withForest (e := { e with handlerNames := [] }) h [id]
  have names := congrArg stubNames inner
  have after := congrArg (fun inner : Emitter =>
    { inner with handlerNames := FirstSeen.addAll e.handlerNames inner.handlerNames }) inner
  exact ⟨(h.render options e.substitutions [id] 2).symm, names, after⟩

end Emitter

structure EmittedBody.SameText (options : Options) (a b : EmittedBody) : Prop where
  text : a.body.render options 2 = b.body.render options 2
  imports : a.imports = b.imports
  stubNames : a.stubNames = b.stubNames
  fallbacks : a.fallbacks = b.fallbacks
  voidParents : a.voidParents = b.voidParents

theorem Forest.Alike.emit {f g : Forest} (h : f.Alike g) (options : Options)
    (substitutions : Substitutions) (ids : List String) :
    (f.emit options substitutions ids).SameText options (g.emit options substitutions ids) := by
  have analyzed := Emitter.analyze_withForest (e := { forest := f, options, substitutions }) h ids
  have noted := Emitter.noteBody_withForest
    (e := Emitter.analyze { forest := f, options, substitutions } ids) h ids
  rw [← analyzed] at noted
  exact ⟨h.render options substitutions ids 2, (congrArg Emitter.imports noted).symm,
    (congrArg Emitter.stubNames noted).symm, (congrArg Emitter.fallbacks noted).symm,
    (congrArg Emitter.voidParents noted).symm⟩

end Pagewright

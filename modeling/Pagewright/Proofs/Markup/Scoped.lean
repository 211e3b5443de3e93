import Pagewright.Proofs.Markup.Reference
import Pagewright.Proofs.Markup.Session
import Pagewright.Proofs.Ordered.FirstSeen

/-!
# Stubs of one component

A component that is rendered on its own terms asks for the stubs of the functions that its
own markup refers to, whatever was rendered before, and the names are added to those that
were recorded. The imports stay as they are if they were analysed before: this is so at any
later point of a session that does not replace the imports themselves.
-/

set_option autoImplicit false

namespace Pagewright

/-! ## References in order -/

def Attribute.identifier? (a : Attribute) : Option String :=
  match a.value with
  | .reference name => if Name.isIdentifier name then some name else none
  | _ => none

/-- The attributes of a component refer to functions in the order of its handlers. -/
theorem Component.attributes_identifiers (options : Options) (c : Component) :
    (c.attributes options).filterMap Attribute.identifier? = c.handlerNames := by
  have implied : c.implicitAttributes.filterMap Attribute.identifier? = [] := by
    rw [List.filterMap_eq_nil_iff]
    intro a ha
    obtain ⟨entry, _, ha⟩ := List.mem_filterMap.mp ha
    obtain ⟨_, ha⟩ := Option.ite_none_left_eq_some.mp ha
    cases ha
    rfl
  have declared : c.declaredAttributes.filterMap Attribute.identifier? = [] := by
    rw [List.filterMap_eq_nil_iff]
    intro a ha
    obtain ⟨entry, _, ha⟩ := List.mem_filterMap.mp ha
    obtain ⟨name, _, ha⟩ := Option.bind_eq_some_iff.mp ha
    unfold Attribute.identifier?
    split
    · rename_i target htarget
      exact absurd htarget (Attribute.ofProperty_ne_reference ha target)
    · rfl
  have handled : (c.handlers.map Attribute.ofHandler).filterMap Attribute.identifier? =
      c.handlerNames := by
    rw [List.filterMap_map, handlerNames]
    apply List.filterMap_congr
    rintro ⟨key, binding⟩ _
    cases binding <;> rfl
  have own : ∀ (shown : Bool) (a : Attribute), a.identifier? = none →
      (if shown then [] else [a]).filterMap Attribute.identifier? = [] := by
    intro shown a ha
    cases shown <;> simp [ha]
  have id : (if options.componentIds then [⟨idAttribute, .text c.id⟩] else []).filterMap
      Attribute.identifier? = [] := by
    cases options.componentIds <;> rfl
  simp only [attributes, List.filterMap_append, implied, declared, handled, id, List.nil_append]
  rw [own _ _ rfl, own _ _ rfl]
  rfl

theorem Forest.attributes_viewOf {forest : Forest} (options : Options)
    {substitutions : Substitutions} {path : List String} {c : Component} {view : View}
    (hview : forest.viewOf substitutions path c = some view) :
    (view.element options).allAttributes =
      view.components.flatMap (Component.attributes options) := by
  unfold viewOf at hview
  split at hview
  · cases hview
    rfl
  · obtain ⟨_, hview⟩ := Option.ite_none_left_eq_some.mp hview
    cases hview
    have bare : (Primitive.ofKind (forest.adopt c).kind).void = true ∨
        (!(forest.within c).isEmpty) = false →
        View.elements options ((forest.within c).filterMap fun d =>
          forest.viewBelow substitutions (c.id :: path) d.id) = [] := by
      have empty : forest.within c = [] → View.elements options ((forest.within c).filterMap
          fun d => forest.viewBelow substitutions (c.id :: path) d.id) = [] := by
        intro h
        rw [h]
        rfl
      rintro (hvoid | hnone)
      · exact empty (if_pos hvoid)
      · exact empty (by simpa using hnone)
    rw [View.element, View.allAttributes_elementOf options _ _ _ bare,
      View.attributesOf_elements options]
    · rfl
    · intro below hbelow
      obtain ⟨d, _, hd⟩ := List.mem_filterMap.mp hbelow
      exact forest.allAttributes_viewBelow options substitutions _ d.id below hd

namespace Emitter

def bodyOf (e : Emitter) (c : Component) : Body :=
  ⟨false, (e.forest.viewOf e.substitutions [] c).toList⟩

def referredBy (e : Emitter) (c : Component) : List String :=
  (((e.bodyOf c).attributes e.options).filterMap Attribute.identifier?).eraseDups

theorem referredBy_eq (e : Emitter) (c : Component) :
    e.referredBy c = FirstSeen.ofList ((e.bodyOf c).components.flatMap Component.handlerNames) := by
  have attributes : (e.bodyOf c).attributes e.options =
      (e.bodyOf c).components.flatMap (Component.attributes e.options) := by
    apply View.attributesOf_elements
    intro view hview
    exact Forest.attributes_viewOf e.options (Option.mem_toList.mp hview)
  rw [referredBy, attributes, List.filterMap_flatMap, FirstSeen.ofList_eq_eraseDups]
  simp only [Component.attributes_identifiers]

end Emitter

/-! ## Imports during a session -/

structure Imports.Inherited (P : Imports → Prop) : Prop where
  framework : ∀ imports, P imports → ∀ c : Component, P (c.registerFramework imports)
  named : ∀ imports, P imports → ∀ names module, P (imports.addNamed names module)

namespace Imports.Inherited

variable {P : Imports → Prop}

theorem registerImports (h : Inherited P) {imports : Imports} (himports : P imports)
    (c : Component) : P (c.registerImports imports) := by
  rw [Component.registerImports_eq]
  generalize c.properties.values.flatMap Hook.calls = hooks
  have start := h.framework imports himports c
  generalize c.registerFramework imports = collected at start
  induction hooks generalizing collected with
  | nil => exact start
  | cons hook rest ih => exact ih _ (h.named _ start [hook.name] hook.module)

theorem noteAll (h : Inherited P) {e : Emitter} (he : P e.imports) (components : List Component) :
    P (e.noteAll components).imports := by
  induction components generalizing e with
  | nil => exact he
  | cons c rest ih => exact ih (e := e.note c) (h.framework _ he c)

theorem analyze (h : Inherited P) {e : Emitter} (he : P e.imports) (ids : List String) :
    P (e.analyze ids).imports := by
  unfold Emitter.analyze
  generalize e.forest.walkFrom e.substitutions.keys ids = components
  generalize e.imports = imports at he
  induction components generalizing imports with
  | nil => exact he
  | cons c rest ih => exact ih _ (h.registerImports he c)

/-- A call keeps it, unless it replaces the imports by others. -/
theorem perform (h : Inherited P) {e : Emitter} (he : P e.imports) (call : EmitterCall)
    (hgiven : ∀ imports reachable, call = .withImports imports reachable → P imports) :
    P (e.perform call).imports := by
  cases call with
  | substitute id component => exact he
  | analyze ids => exact h.analyze he ids
  | withImports imports reachable => exact hgiven imports reachable rfl
  | tree ids depth => exact h.noteAll he _
  | root ids depth => exact h.noteAll he _
  | component c depth => exact h.noteAll he _
  | isolated c depth => exact h.noteAll (e := e.setAside) he _

theorem run (h : Inherited P) {e : Emitter} (he : P e.imports) (calls : List EmitterCall)
    (hgiven : ∀ imports reachable, .withImports imports reachable ∈ calls → P imports) :
    P (e.run calls).imports := by
  induction calls generalizing e with
  | nil => exact he
  | cons call rest ih =>
    apply ih
    · exact h.perform he call fun imports reachable heq =>
        hgiven imports reachable (heq ▸ List.mem_cons_self)
    · exact fun imports reachable hmem =>
        hgiven imports reachable (List.mem_cons_of_mem call hmem)

end Imports.Inherited

theorem Imports.inherited_reachable : Inherited Reachable where
  framework imports h c := by
    cases hf : (Primitive.ofKind c.kind).framework with
    | none =>
      rw [Component.registerFramework_none hf]
      exact h
    | some f =>
      rw [Component.registerFramework_some hf]
      exact h.apply (.addDefault f.name f.module)
  named _ h names module := h.apply (.addNamed names module)

theorem Component.inherited_registered (c : Component) :
    Imports.Inherited fun imports => c.Registered imports where
  framework _ h d := h.registerFramework d
  named _ h names module f hf := (h f hf).addNamed names module

namespace Imports

variable {imports : Imports} {name module : String}

def States (name module : String) (imports : Imports) : Prop :=
  ∃ s ∈ imports.statements, s.module = module ∧ s.defaultName = some name

theorem HoldsDefault.states (h : imports.HoldsDefault name module) :
    imports.States name module := by
  obtain ⟨entry, hentry, hname⟩ := Option.bind_eq_some_iff.mp h.bound
  exact ⟨statementOf module entry,
    (mem_statements_iff _ _).mpr ⟨_, mem_of_lookup hentry, rfl⟩, rfl, hname⟩

/-- In sorted imports, what a statement says need not be said again. -/
theorem States.holdsDefault (h : imports.States name module)
    (hsorted : Sorted.Increasing imports.modules) : imports.HoldsDefault name module := by
  obtain ⟨s, hs, rfl, hname⟩ := h
  obtain ⟨⟨module, entry⟩, hentry, rfl⟩ := (mem_statements_iff _ _).mp hs
  have held : entry.defaultName = some name := hname
  have same : ((some entry).getD {}).withDefault name = entry := by
    rw [Option.getD_some, ModuleImports.withDefault, ← held]
  exact hsorted.adjust_self hentry same

end Imports

namespace Emitter

def Declares (e : Emitter) (c : Component) : Prop :=
  ∀ d ∈ (e.bodyOf c).components, ∀ f, (Primitive.ofKind d.kind).framework = some f →
    e.imports.States f.name f.module

variable {e : Emitter} {c : Component}

theorem Declares.registered (h : e.Declares c) (hsorted : Sorted.Increasing e.imports.modules) :
    ∀ d ∈ (e.bodyOf c).components, d.Registered e.imports :=
  fun d hd f hf => (h d hd f hf).holdsDefault hsorted

theorem noteNodes_one (e : Emitter) (c : Component) :
    e.noteNodes [] [c] = e.noteAll (e.bodyOf c).components := by
  rw [noteNodes, bodyOf, Body.components]
  cases hview : e.forest.viewOf e.substitutions [] c <;> simp [hview]

theorem setAside_imports (h : ∀ d ∈ (e.bodyOf c).components, d.Registered e.imports) :
    (e.setAside.noteNodes [] [c]).imports = e.imports := by
  rw [noteNodes_one]
  exact noteAll_imports (e := e.setAside) h

theorem setAside_handlerNames (e : Emitter) (c : Component) :
    (e.setAside.noteNodes [] [c]).handlerNames = e.referredBy c := by
  rw [noteNodes_one, noteAll_handlerNames, referredBy_eq]
  rfl

theorem setAside_stubs (h : ∀ d ∈ (e.bodyOf c).components, d.Registered e.imports) :
    (e.setAside.noteNodes [] [c]).stubs =
      ((e.referredBy c).filter (· ∉ e.imports.bindings)).map stub := by
  rw [stubs, stubNames, setAside_imports h, setAside_handlerNames]
  congr 1
  apply List.filter_congr
  intro name _
  simp

theorem noteScoped_handlerNames (e : Emitter) (c : Component) :
    (e.noteScoped c).handlerNames =
      e.handlerNames ++ (e.referredBy c).filter (· ∉ e.handlerNames) := by
  have taken : (e.noteScoped c).handlerNames =
      FirstSeen.addAll e.handlerNames (e.setAside.noteNodes [] [c]).handlerNames := rfl
  have distinct : (e.referredBy c).Nodup := e.referredBy_eq c ▸ FirstSeen.nodup_ofList _
  rw [taken, setAside_handlerNames, FirstSeen.addAll_of_nodup e.handlerNames distinct]

end Emitter

/-- What is shown of a component within reach is within reach. -/
theorem Forest.Reaches.viewOf {forest : Forest} {avoid ids : List String} {c : Component}
    (hc : forest.Reaches avoid ids c) (hkeyed : forest.Keyed) {substitutions : Substitutions}
    (havoid : avoid ⊆ substitutions.keys) :
    ∀ d ∈ View.componentsOf (forest.viewOf substitutions [] c).toList,
      forest.Reaches avoid ids d := by
  have found : forest.find? c.id = some c := by
    obtain ⟨id, _, hid⟩ := hc.exists_found
    rwa [hkeyed id c hid]
  rw [viewOf_of_found hkeyed found]
  intro d hd
  obtain ⟨view, hview, hd⟩ := View.mem_componentsOf.mp hd
  refine viewBelow_all (P := forest.Reaches avoid ids) ?_ [] c.id view (Option.mem_toList.mp hview)
    ?_ d hd
  · exact fun _ above id listed free _ child =>
      .child above listed (fun hmem => free (havoid hmem)) child
  · intro _ other hother
    rw [found] at hother
    exact Option.some.inj hother ▸ hc

namespace Emitter

variable {e : Emitter} {c : Component}

/-- What an analysis met is declared at any later point, unless the imports were replaced:
placeholders that came later only hide some of it. -/
theorem declares_of_analyzed (hkeyed : e.forest.Keyed) (ids : List String)
    (after : List EmitterCall)
    (hafter : ∀ imports reachable, .withImports imports reachable ∉ after)
    (hc : e.forest.Reaches e.substitutions.keys ids c) :
    ((e.analyze ids).run after).Declares c := by
  obtain ⟨last, hlast⟩ : ∃ last, (e.analyze ids).run after = last := ⟨_, rfl⟩
  have forest : last.forest = e.forest := hlast ▸ run_forest after
  have grown : e.substitutions.keys ⊆ last.substitutions.keys := by
    intro key hkey
    rw [← hlast, run_substitutions, OrderedMap.keys_insertAll]
    exact (FirstSeen.mem_addAll _ _ key).mpr (.inl hkey)
  rw [hlast]
  intro d hd f hf
  have reached : e.forest.Reaches e.substitutions.keys ids d := by
    rw [bodyOf, forest] at hd
    exact hc.viewOf hkeyed grown d hd
  have kept := d.inherited_registered.run (e.registered_of_reaches ids reached) after
    fun imports reachable hmem => absurd hmem (hafter imports reachable)
  rw [hlast] at kept
  exact (kept f hf).states

/-- A component that was found is rendered on its own as its id is. -/
theorem renderScoped_found (hkeyed : e.forest.Keyed) {id : String}
    (hfound : e.forest.find? id = some c) (depth : Nat) :
    (e.renderScoped id).1.render e.options depth =
        e.forest.nodeText e.options e.substitutions [] depth c ∧
      (e.renderScoped id).2.1.map stub = (e.setAside.noteNodes [] [c]).stubs ∧
      (e.renderScoped id).2.2 = e.noteScoped c := by
  have body : e.body [id] = e.bodyOf c :=
    congrArg (Body.mk false) (Forest.views_one hkeyed _ hfound)
  have inner : e.setAside.noteAll (e.body [id]).components = e.setAside.noteNodes [] [c] := by
    rw [noteNodes_one, body]
    rfl
  refine ⟨congrArg (Body.render e.options depth) body, ?_, ?_⟩
  · rw [← inner]
    rfl
  · rw [noteScoped, ← inner]
    rfl

end Emitter

def Rendering.YieldsScoped (s : Rendering) (c : Component) (depth : Nat) (text : String)
    (stubs : List String) (t : Rendering) : Prop :=
  ∀ body names u, RendersScoped s c depth body names u ↔ body = text ∧ names = stubs ∧ u = t

/-- Once an analysis has met a component, its framework components stay declared. Then rendering
it on its own gives the text that it has in any case, and a stub for each function its markup
refers to that is not imported, whatever was recorded before. Those names that are new come after
the recorded ones, and the imports stay as they are. -/
theorem scoped_rendering_isolated {components : List Component} {options : Options}
    {calls : List EmitterCall} {s : Rendering}
    (session : Session ⟨.fresh components options, []⟩ calls s) (c : Component) (depth : Nat) :
    (∀ before ids after, calls = before ++ .analyze ids :: after →
      (∀ imports reachable, .withImports imports reachable ∉ after) →
      s.emitter.forest.Reaches (placedBy before).keys ids c → s.emitter.Declares c) ∧
    (s.emitter.Declares c → ∃ text t u,
      s.Yields c depth text t ∧
      s.YieldsScoped c depth text
        (((s.emitter.referredBy c).filter (· ∉ s.emitter.imports.bindings)).map Emitter.stub) u ∧
      u.emitter.handlerNames = s.emitter.handlerNames ++
        (s.emitter.referredBy c).filter (· ∉ s.emitter.handlerNames) ∧
      u.emitter.imports = s.emitter.imports ∧
      ∀ id, s.emitter.forest.find? id = some c →
        (s.emitter.renderScoped id).1.render options depth = text ∧
        (s.emitter.renderScoped id).2.1.map Emitter.stub =
          ((s.emitter.referredBy c).filter (· ∉ s.emitter.imports.bindings)).map Emitter.stub ∧
        (s.emitter.renderScoped id).2.2 = u.emitter) := by
  have keyed : (Emitter.fresh components options).forest.Keyed :=
    Forest.keyed_ofComponents components
  obtain rfl := (session_iff keyed).mp session
  constructor
  · rintro before ids after rfl hafter hc
    obtain ⟨e, he⟩ : ∃ e, (Emitter.fresh components options).run before = e := ⟨_, rfl⟩
    obtain ⟨forest, _, placed⟩ := Emitter.run_fresh components options before he
    rw [Emitter.run_append, Emitter.run_cons, he]
    apply Emitter.declares_of_analyzed (forest ▸ keyed) ids after hafter
    rw [placed, forest]
    rwa [Emitter.run_forest] at hc
  · intro declared
    obtain ⟨e, he⟩ : ∃ e, (Emitter.fresh components options).run calls = e := ⟨_, rfl⟩
    obtain ⟨forest, kept, _⟩ := Emitter.run_fresh components options calls he
    have reachable : e.imports.Reachable := he ▸ Imports.inherited_reachable.run .empty calls
      fun _ given _ => given
    have afterKeyed : e.forest.Keyed := forest ▸ keyed
    rw [he] at declared
    have registered := declared.registered reachable.kept.increasing
    simp only [he]
    refine ⟨_, _, ⟨e.noteScoped c, []⟩, fun _ _ => renders_one afterKeyed, ?_,
      e.noteScoped_handlerNames c, Emitter.setAside_imports registered, ?_⟩
    · intro body names u
      rw [← Emitter.setAside_stubs registered]
      exact rendersScoped_iff afterKeyed
    · intro id hfound
      rw [← Emitter.setAside_stubs registered, ← kept]
      exact Emitter.renderScoped_found afterKeyed hfound depth

namespace Sample

/-! Two links share a handler, and the second refers to a function by the name of the imported
link itself. -/

def menu : Component := component "menu" "Link" none [] (.ofList [("onClick", .text "save")])

def entry : Component :=
  component "entry" "Link" none []
    (.ofList [("onClick", .text "save"), ("onBlur", .text "Link"), ("onFocus", .text "load")])

def menuCalls : List EmitterCall := [.analyze ["menu", "entry"], .isolated menu 0]

def menuEmitter : Emitter := (Emitter.fresh [menu, entry] {}).run menuCalls

theorem menu_bindings : menuEmitter.imports.bindings = ["Link"] := by
  have walk : (Forest.ofComponents [menu, entry]).walkFrom [] ["menu", "entry"] =
      [menu, entry] := by
    rw [Forest.walkFrom_found (c := menu) (by simp) rfl]
    change menu :: (Forest.ofComponents [menu, entry]).walkFrom ["menu"] ["entry"] = _
    rw [Forest.walkFrom_found (c := entry) (by decide) rfl]
    change menu :: entry :: (Forest.ofComponents [menu, entry]).walkFrom ["entry", "menu"] [] = _
    rw [Forest.walkFrom]
  have analyzed : ((Emitter.fresh [menu, entry] {}).analyze ["menu", "entry"]).imports =
      entry.registerImports (menu.registerImports .empty) :=
    congrArg (List.foldl (fun imports c => Component.registerImports c imports) .empty) walk
  have again : menuEmitter.imports = menu.registerFramework
      ((Emitter.fresh [menu, entry] {}).analyze ["menu", "entry"]).imports := rfl
  rw [again, analyzed]
  decide +kernel

theorem scoped_rendering_isolated_entry :
    Session ⟨.fresh [menu, entry] {}, []⟩ menuCalls ⟨menuEmitter, []⟩ ∧
    menuEmitter.handlerNames = ["save"] ∧ menuEmitter.Declares entry ∧
    ∃ text t u, Rendering.Yields ⟨menuEmitter, []⟩ entry 1 text t ∧
      Rendering.YieldsScoped ⟨menuEmitter, []⟩ entry 1 text
        [Emitter.stub "save", Emitter.stub "load"] u ∧
      u.emitter.handlerNames = ["save", "Link", "load"] ∧
      u.emitter.imports = menuEmitter.imports ∧
      (menuEmitter.renderScoped "entry").2.1.map Emitter.stub =
        [Emitter.stub "save", Emitter.stub "load"] := by
  have session : Session ⟨.fresh [menu, entry] {}, []⟩ menuCalls ⟨menuEmitter, []⟩ :=
    (session_iff (Forest.keyed_ofComponents [menu, entry])).mpr rfl
  have recorded : menuEmitter.handlerNames = ["save"] := by decide +kernel
  have referred : menuEmitter.referredBy entry = ["save", "Link", "load"] := by decide +kernel
  obtain ⟨analyzed, isolated⟩ := scoped_rendering_isolated session entry 1
  have declared : menuEmitter.Declares entry :=
    analyzed [] ["menu", "entry"] [.isolated menu 0] rfl (by simp)
      (.start (show "entry" ∈ ["menu", "entry"] by simp) (by decide) rfl)
  obtain ⟨text, t, u, yields, alone, names, imports, run⟩ := isolated declared
  simp only [referred, menu_bindings, recorded] at alone names run
  exact ⟨session, recorded, declared, text, t, u, yields, alone, names, imports,
    (run "entry" rfl).2.1⟩

end Sample

end Pagewright

import Pagewright.Page.Plan
import Pagewright.Proofs.Import.Binding
import Pagewright.Proofs.Markup.View

/-!
# Emission without the browser

Where every component within reach renders on the server, an emitter has nothing to
remember that belongs to the browser: no handler is referred to, so that no stub is
needed, and only framework components are imported. `Quiet` is the invariant; each
registered or rendered component keeps it.
-/

set_option autoImplicit false

namespace Pagewright

theorem FirstSeen.ofList_eq_nil_iff {α : Type} [DecidableEq α] (xs : List α) :
    FirstSeen.ofList xs = [] ↔ xs = [] := by
  constructor
  · intro h
    apply List.eq_nil_iff_forall_not_mem.mpr
    intro x hx
    have hmem : x ∈ FirstSeen.ofList xs := (FirstSeen.mem_addAll [] xs x).mpr (.inr hx)
    simp [h] at hmem
  · rintro rfl
    rfl

namespace Component

structure Inert (c : Component) : Prop where
  handlers : c.handlers = []
  interactive : (Primitive.ofKind c.kind).interactive = false
  calls : c.properties.values.flatMap Hook.calls = []

theorem placement_eq_server_iff (c : Component) : c.placement = .server ↔ c.Inert := by
  have reasons : c.placement = .server ↔ c.placementReasons = [] := by
    unfold placement
    cases c.placementReasons <;> simp
  rw [reasons]
  constructor
  · intro h
    simp only [placementReasons, List.append_eq_nil_iff, List.map_eq_nil_iff, ite_eq_right_iff,
      reduceCtorEq, imp_false, Bool.not_eq_true] at h
    exact ⟨h.1.1, h.1.2, (FirstSeen.ofList_eq_nil_iff _).mp h.2⟩
  · rintro ⟨hhandlers, hinteractive, hcalls⟩
    simp [placementReasons, hhandlers, hinteractive, hooks, hcalls, FirstSeen.ofList]

theorem inert_iff_not_client (c : Component) : c.Inert ↔ c.isClient = false := by
  rw [← placement_eq_server_iff, isClient]
  cases c.placement <;> simp [Placement.isClient]

end Component

def frameworkNames : List String := ["Link", "Image"]

def frameworkModules : List String := ["next/link", "next/image"]

structure Imports.FrameworkOnly (imports : Imports) : Prop where
  binds : imports.Binds (· ∈ frameworkNames)
  modules : ∀ module, module ∉ frameworkModules → imports.find? module = none

theorem Imports.FrameworkOnly.addDefault {imports : Imports} (h : imports.FrameworkOnly)
    {name module : String} (hname : name ∈ frameworkNames) (hmodule : module ∈ frameworkModules) :
    (imports.addDefault name module).FrameworkOnly := by
  refine ⟨h.binds.addDefault hname module, fun other hother => ?_⟩
  have hne : other ≠ module := fun heq => hother (heq ▸ hmodule)
  rw [← h.modules other hother]
  exact Imports.find?_update_ne hne fun entry => { entry with defaultName := some name }

theorem Imports.FrameworkOnly.register {imports : Imports} (h : imports.FrameworkOnly)
    (f : FrameworkComponent) : (f.register imports).FrameworkOnly := by
  cases f with
  | link => exact h.addDefault (by decide) (by decide)
  | image => exact h.addDefault (by decide) (by decide)

namespace Emitter

/-- Rendering leaves what decides the text as it is. -/
theorem noteAll_source (e : Emitter) (components : List Component) :
    (e.noteAll components).forest = e.forest ∧
      (e.noteAll components).substitutions = e.substitutions := by
  induction components generalizing e with
  | nil => exact ⟨rfl, rfl⟩
  | cons c rest ih => exact ih (e.note c)

theorem renderScoped_source (e : Emitter) (id : String) :
    (e.renderScoped id).2.2.forest = e.forest ∧
      (e.renderScoped id).2.2.substitutions = e.substitutions :=
  noteAll_source { e with handlerNames := [] } (e.body [id]).components

structure Quiet (e : Emitter) : Prop where
  handlers : e.handlerNames = []
  imports : e.imports.FrameworkOnly

theorem Quiet.note {e : Emitter} (h : e.Quiet) {c : Component} (hc : c.Inert) :
    (e.note c).Quiet := by
  constructor
  · have hnames : c.handlerNames = [] := by simp [Component.handlerNames, hc.handlers]
    simp [Emitter.note, hnames, h.handlers]
  · simp only [Emitter.note]
    cases (Primitive.ofKind c.kind).framework with
    | none => exact h.imports
    | some f => exact h.imports.register f

theorem Quiet.noteAll {e : Emitter} (h : e.Quiet) {components : List Component}
    (hc : ∀ c ∈ components, c.Inert) : (e.noteAll components).Quiet := by
  induction components generalizing e with
  | nil => exact h
  | cons c rest ih => exact ih (h.note (hc c (by simp))) fun d hd => hc d (by simp [hd])

theorem frameworkOnly_registerImports {imports : Imports} (h : imports.FrameworkOnly)
    {c : Component} (hc : c.Inert) : (c.registerImports imports).FrameworkOnly := by
  simp only [Component.registerImports, hc.calls, List.foldl_nil]
  cases (Primitive.ofKind c.kind).framework with
  | none => exact h
  | some f => exact h.register f

theorem Quiet.analyze {e : Emitter} (h : e.Quiet) {ids : List String}
    (hc : ∀ c, e.forest.Reaches e.substitutions.keys ids c → c.Inert) : (e.analyze ids).Quiet := by
  have run : ∀ (components : List Component) (imports : Imports),
      imports.FrameworkOnly → (∀ c ∈ components, c.Inert) →
      (components.foldl (fun imports c => c.registerImports imports) imports).FrameworkOnly := by
    intro components
    induction components with
    | nil => exact fun _ hi _ => hi
    | cons c rest ih =>
      intro imports hi hall
      exact ih _ (frameworkOnly_registerImports hi (hall c (by simp))) fun d hd =>
        hall d (by simp [hd])
  refine ⟨h.handlers, run _ _ h.imports ?_⟩
  intro c hmem
  exact hc c ((Forest.mem_walkFrom_iff _ _ _ c).mp hmem)

theorem Quiet.stubNames {e : Emitter} (h : e.Quiet) : e.stubNames = [] := by
  simp [Emitter.stubNames, h.handlers]

end Emitter

structure EmittedBody.Quiet (emitted : EmittedBody) : Prop where
  inert : ∀ c ∈ emitted.body.components, c.Inert
  stubless : emitted.stubNames = []
  imports : emitted.imports.FrameworkOnly

theorem Forest.emit_quiet (forest : Forest) (options : Options) (substitutions : Substitutions)
    (ids : List String)
    (h : ∀ c, forest.Reaches substitutions.keys ids c → c.isClient = false) :
    (forest.emit options substitutions ids).Quiet := by
  have inert : ∀ c, forest.Reaches substitutions.keys ids c → c.Inert :=
    fun c hc => c.inert_iff_not_client.mpr (h c hc)
  have shown : ∀ c ∈ (forest.body substitutions ids).components, c.Inert :=
    fun c hc => inert c (Forest.body_reaches hc)
  have start : ({ forest, options, substitutions } : Emitter).Quiet :=
    ⟨rfl, Imports.binds_empty, fun _ _ => rfl⟩
  have analyzed : (Emitter.analyze { forest, options, substitutions } ids).Quiet :=
    start.analyze inert
  have final := analyzed.noteAll shown
  exact ⟨shown, final.stubNames, final.imports⟩

/-- A page that is not a client page reaches no browser component. -/
theorem Forest.classify_server {forest : Forest} {ids : List String} {preferServer : Bool}
    (h : (forest.classify ids preferServer).page = .server) {c : Component}
    (hc : forest.Reaches [] ids c) : c.isClient = false := by
  have hwalk := (Forest.mem_walk_iff forest ids c).mpr hc
  have hany : (forest.walk ids).any Component.isClient = false := by
    cases hcase : (forest.walk ids).any Component.isClient with
    | false => rfl
    | true => simp [Forest.classify, hcase] at h
  exact List.any_eq_false.mp hany c hwalk |> Bool.eq_false_iff.mpr

end Pagewright

import Pagewright.Proofs.Markup.Emission
import Pagewright.Proofs.Ordered.Sorted

/-!
# Analysis covers rendering

The imports of a module are collected before its markup is rendered, by a walk that
visits each id once; rendering unfolds the graph along its paths and stops where no
content is held. Both stay within reach of the same ids, so that every framework
component that is rendered has been declared before, and declaring it again changes
nothing. This holds for every graph and whatever was imported to begin with.
-/

set_option autoImplicit false

namespace Pagewright

namespace FrameworkComponent

def name : FrameworkComponent → String
  | .link => "Link"
  | .image => "Image"

def module : FrameworkComponent → String
  | .link => "next/link"
  | .image => "next/image"

theorem register_eq (f : FrameworkComponent) (imports : Imports) :
    f.register imports = imports.addDefault f.name f.module := by
  cases f <;> rfl

theorem module_injective : ∀ {f g : FrameworkComponent}, f.module = g.module → f = g
  | .link, .link, _ => rfl
  | .image, .image, _ => rfl

end FrameworkComponent

/-! ## Declared defaults -/

def ModuleImports.withDefault (name : String) (entry : ModuleImports) : ModuleImports :=
  { entry with defaultName := some name }

namespace Imports

variable {imports : Imports} {name module : String}

/-- The name is the default of the module, so that giving it again changes no entry. -/
def HoldsDefault (name module : String) (imports : Imports) : Prop :=
  (imports.update module (ModuleImports.withDefault name)).modules = imports.modules

theorem HoldsDefault.bound (h : imports.HoldsDefault name module) :
    (imports.find? module).bind ModuleImports.defaultName = some name := by
  obtain ⟨held, hheld⟩ := Sorted.exists_lookup_adjust module
    (fun entry : Option ModuleImports => (entry.getD {}).withDefault name) imports.modules
  have hmodules : Sorted.adjust module (fun entry => (entry.getD {}).withDefault name)
      imports.modules = imports.modules := h
  rw [hmodules] at hheld
  rw [find?, hheld]
  rfl

theorem HoldsDefault.addDefault_self (h : imports.HoldsDefault name module) :
    imports.addDefault name module = imports := by
  have hmodules : (imports.update module fun entry =>
      { entry with defaultName := some name }).modules = imports.modules := h
  simp only [addDefault, hmodules, h.bound, conflictOf, if_true, List.append_nil]
  rfl

theorem holdsDefault_addDefault (imports : Imports) (name module : String) :
    (imports.addDefault name module).HoldsDefault name module :=
  Sorted.adjust_adjust module _ _ imports.modules

/-- A change keeps the default of a module if it is made elsewhere or leaves defaults alone. -/
theorem HoldsDefault.update (h : imports.HoldsDefault name module) (other : String)
    (f : ModuleImports → ModuleImports)
    (hf : other = module → ∀ entry, (f entry).withDefault name = f (entry.withDefault name)) :
    (imports.update other f).HoldsDefault name module := by
  have hmodules : Sorted.adjust module (fun entry => (entry.getD {}).withDefault name)
      imports.modules = imports.modules := h
  have swapped : Sorted.adjust module (fun entry => (entry.getD {}).withDefault name)
      (Sorted.adjust other (fun entry => f (entry.getD {})) imports.modules) =
      Sorted.adjust other (fun entry => f (entry.getD {}))
        (Sorted.adjust module (fun entry => (entry.getD {}).withDefault name) imports.modules) := by
    by_cases hother : other = module
    · subst hother
      simp only [Sorted.adjust_adjust, Option.getD_some, hf rfl]
    · exact Sorted.adjust_comm (Ne.symm hother) _ _ _
  rw [hmodules] at swapped
  exact swapped

theorem HoldsDefault.addNamed (h : imports.HoldsDefault name module) (names : List String)
    (other : String) : (imports.addNamed names other).HoldsDefault name module :=
  h.update other _ fun _ _ => rfl

theorem HoldsDefault.addDefault_ne (h : imports.HoldsDefault name module) {other : String}
    (hne : other ≠ module) (replacement : String) :
    (imports.addDefault replacement other).HoldsDefault name module :=
  h.update other (ModuleImports.withDefault replacement) fun heq => absurd heq hne

end Imports

/-! ## Registered components -/

namespace Component

def registerFramework (c : Component) (imports : Imports) : Imports :=
  match (Primitive.ofKind c.kind).framework with
  | some f => f.register imports
  | none => imports

theorem registerImports_eq (c : Component) (imports : Imports) :
    c.registerImports imports = (c.properties.values.flatMap Hook.calls).foldl
      (fun imports hook => imports.addNamed [hook.name] hook.module)
      (c.registerFramework imports) := rfl

def Registered (imports : Imports) (c : Component) : Prop :=
  ∀ f, (Primitive.ofKind c.kind).framework = some f → imports.HoldsDefault f.name f.module

variable {imports : Imports} {c : Component}

theorem registerFramework_some {f : FrameworkComponent}
    (hf : (Primitive.ofKind c.kind).framework = some f) (imports : Imports) :
    c.registerFramework imports = imports.addDefault f.name f.module := by
  rw [registerFramework, hf]
  exact f.register_eq imports

theorem registerFramework_none (hf : (Primitive.ofKind c.kind).framework = none)
    (imports : Imports) : c.registerFramework imports = imports := by
  rw [registerFramework, hf]

theorem registered_registerFramework (c : Component) (imports : Imports) :
    c.Registered (c.registerFramework imports) := by
  intro f hf
  rw [registerFramework_some hf]
  exact Imports.holdsDefault_addDefault _ _ _

theorem Registered.registerFramework_self (h : c.Registered imports) :
    c.registerFramework imports = imports := by
  cases hf : (Primitive.ofKind c.kind).framework with
  | none => exact registerFramework_none hf imports
  | some f => rw [registerFramework_some hf, (h f hf).addDefault_self]

theorem Registered.registerFramework (h : c.Registered imports) (d : Component) :
    c.Registered (d.registerFramework imports) := by
  intro f hf
  cases hg : (Primitive.ofKind d.kind).framework with
  | none =>
    rw [registerFramework_none hg]
    exact h f hf
  | some g =>
    rw [registerFramework_some hg]
    -- either the same name once more, or another module
    by_cases hmodule : g.module = f.module
    · rw [FrameworkComponent.module_injective hmodule]
      exact Imports.holdsDefault_addDefault _ _ _
    · exact (h f hf).addDefault_ne hmodule _

theorem Registered.hooks (h : c.Registered imports) (hooks : List Hook) :
    c.Registered (hooks.foldl (fun imports hook => imports.addNamed [hook.name] hook.module)
      imports) := by
  induction hooks generalizing imports with
  | nil => exact h
  | cons hook rest ih => exact ih fun f hf => (h f hf).addNamed _ _

theorem registered_registerImports (c : Component) (imports : Imports) :
    c.Registered (c.registerImports imports) := by
  rw [registerImports_eq]
  exact (registered_registerFramework c imports).hooks _

theorem Registered.registerImports (h : c.Registered imports) (d : Component) :
    c.Registered (d.registerImports imports) := by
  rw [registerImports_eq]
  exact (h.registerFramework d).hooks _

theorem Registered.registerAll (h : c.Registered imports) (components : List Component) :
    c.Registered (components.foldl (fun imports c => c.registerImports imports) imports) := by
  induction components generalizing imports with
  | nil => exact h
  | cons d rest ih => exact ih (h.registerImports d)

/-- Whatever comes before and after it, a visited component is registered in the end. -/
theorem registered_of_mem (imports : Imports) {components : List Component} (hc : c ∈ components) :
    c.Registered (components.foldl (fun imports c => c.registerImports imports) imports) := by
  induction components generalizing imports with
  | nil => simp at hc
  | cons d rest ih =>
    rcases List.mem_cons.mp hc with rfl | hrest
    · exact (registered_registerImports c imports).registerAll rest
    · exact ih _ hrest

end Component

/-! ## Rendering -/

namespace Emitter

theorem note_imports (e : Emitter) (c : Component) :
    (e.note c).imports = c.registerFramework e.imports := rfl

theorem noteAll_imports {e : Emitter} {components : List Component}
    (h : ∀ c ∈ components, c.Registered e.imports) :
    (e.noteAll components).imports = e.imports := by
  induction components generalizing e with
  | nil => rfl
  | cons c rest ih =>
    have step : (e.note c).imports = e.imports :=
      (note_imports e c).trans (h c (by simp)).registerFramework_self
    have later := ih (e := e.note c) fun d hd => step ▸ h d (by simp [hd])
    exact later.trans step

/-- The walk of the analysis meets whatever is reached outside the placeholders. -/
theorem registered_of_reaches (e : Emitter) (ids : List String) {c : Component}
    (hc : e.forest.Reaches e.substitutions.keys ids c) : c.Registered (e.analyze ids).imports :=
  Component.registered_of_mem e.imports ((Forest.mem_walkFrom_iff _ _ _ c).mpr hc)

theorem registered_of_shown (e : Emitter) {ids shown : List String} (hshown : shown ⊆ ids)
    {c : Component} (hc : c ∈ ((e.analyze ids).body shown).components) :
    c.Registered (e.analyze ids).imports :=
  e.registered_of_reaches ids ((Forest.body_reaches hc).mono fun _ hid => hshown hid)

/-- After the analysis of some ids, rendering them leaves the imports as they are, and every
framework component that is rendered is the default name of a statement for its module. -/
theorem analyze_covers_rendering (e : Emitter) (ids : List String) (depth : Nat) :
    (((e.analyze ids).renderRoot ids depth).2.imports = (e.analyze ids).imports) ∧
    ∀ c ∈ ((e.analyze ids).body ids).components, ∀ f,
      (Primitive.ofKind c.kind).framework = some f →
      ∃ s ∈ (e.analyze ids).imports.statements,
        s.module = f.module ∧ s.defaultName = some f.name := by
  refine ⟨noteAll_imports fun c hc => e.registered_of_shown (List.Subset.refl ids) hc, ?_⟩
  intro c hc f hf
  have hbound := (e.registered_of_shown (List.Subset.refl ids) hc f hf).bound
  obtain ⟨entry, hentry, hname⟩ := Option.bind_eq_some_iff.mp hbound
  exact ⟨Imports.statementOf f.module entry,
    (Imports.mem_statements_iff _ _).mpr ⟨_, mem_of_lookup hentry, rfl⟩, rfl, hname⟩

end Emitter

namespace Sample

/-! A box and a link list one another, the box even itself, and the link has been imported under
another name before. -/

def ring : Component := component "ring" "Container" none ["way", "ring"] .empty

def way : Component := component "way" "Link" (some "ring") ["ring"] .empty

def ringEmitter : Emitter where
  forest := Forest.ofComponents [ring, way]
  options := {}
  imports := Imports.empty.addDefault "Anchor" "next/link"

/-- The box holds the link once; the way back to the box is cut. -/
theorem ring_view : ringEmitter.forest.view .empty "ring" =
    some (.node ring true [.node way true []]) := by
  have ring_found : ringEmitter.forest.find? "ring" = some ring := rfl
  have way_found : ringEmitter.forest.find? "way" = some way := rfl
  have back : ringEmitter.forest.viewBelow .empty ["way", "ring"] "ring" = none :=
    Forest.viewBelow_found ring_found
  have self : ringEmitter.forest.viewBelow .empty ["ring"] "ring" = none :=
    Forest.viewBelow_found ring_found
  have below : ringEmitter.forest.viewBelow .empty ["ring"] "way" = some (.node way true []) := by
    refine (Forest.viewBelow_found way_found).trans ?_
    change some (View.node way true ((["ring"]).filterMap _)) = _
    simp [back]
  refine (Forest.viewBelow_found ring_found).trans ?_
  change some (View.node ring true ((["way", "ring"]).filterMap _)) = _
  simp [below, self]

theorem way_shown : way ∈ ((ringEmitter.analyze ["ring"]).body ["ring"]).components :=
  View.mem_componentsOf.mpr ⟨_, List.mem_filterMap.mpr ⟨"ring", by simp, ring_view⟩,
    by simp [View.components, View.componentsOf]⟩

theorem analyze_covers_rendering_ring :
    way ∈ ((ringEmitter.analyze ["ring"]).body ["ring"]).components ∧
    (Primitive.ofKind way.kind).framework = some .link ∧
    ((ringEmitter.analyze ["ring"]).renderRoot ["ring"] 2).2.imports =
      (ringEmitter.analyze ["ring"]).imports ∧
    ∃ s ∈ (ringEmitter.analyze ["ring"]).imports.statements,
      s.module = "next/link" ∧ s.defaultName = some "Link" := by
  obtain ⟨hkept, hnamed⟩ := Emitter.analyze_covers_rendering ringEmitter ["ring"] 2
  have framework : (Primitive.ofKind way.kind).framework = some .link := by decide
  exact ⟨way_shown, framework, hkept, hnamed way way_shown .link framework⟩

end Sample

end Pagewright

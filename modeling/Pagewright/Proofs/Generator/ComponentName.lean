import Pagewright.Generator.Basic
import Pagewright.Proofs.Import.ReadBack
import Pagewright.Proofs.Page.FileSet

/-!
# The name of a standalone component

A component module exports one function, under a name of the caller's choice, next to the
imports of what its markup uses. Hooks have small initials and component names have capital
ones, so the two can only meet at a framework component: the exported name is imported as
well exactly if it is the name of such a component and a component of this kind is rendered.
-/

set_option autoImplicit false

namespace Pagewright

/-! ## Names bound by a body -/

/-- A kind is rendered with a framework component exactly if it is named like it. -/
theorem Primitive.framework_ofKind_iff {kind : String} {f : FrameworkComponent} :
    (ofKind kind).framework = some f ↔ kind = f.name := by
  have entries : ∀ entry ∈ table, ∀ g ∈ entry.2.framework, entry.1 = g.name := by decide
  constructor
  · intro h
    cases hfind : find? kind with
    | none =>
      rw [ofKind, hfind] at h
      cases h
    | some p =>
      rw [ofKind, hfind] at h
      exact entries (kind, p) (mem_of_lookup hfind) f h
  · rintro rfl
    cases f <;> rfl

theorem FrameworkComponent.exists_name_iff {name : String} :
    (∃ f : FrameworkComponent, f.name = name) ↔ name ∈ frameworkNames := by
  constructor
  · rintro ⟨f, rfl⟩
    cases f <;> decide
  · intro h
    rcases List.mem_pair.mp h with rfl | rfl
    · exact ⟨.link, rfl⟩
    · exact ⟨.image, rfl⟩

namespace Imports.Binds

variable {P : String → Prop} {imports : Imports}

theorem registerHooks (h : imports.Binds P) {hooks : List Hook}
    (hhooks : ∀ hook ∈ hooks, P hook.name) (hclient : ∀ hook ∈ hooks, hook ∈ Hook.client) :
    (hooks.foldl (fun imports hook => imports.addNamed [hook.name] hook.module) imports).Binds
      P := by
  induction hooks generalizing imports with
  | nil => exact h
  | cons hook rest ih =>
    have unbroken := (bodyOrigin?_hook hook (hclient hook (by simp))).2
    refine ih (h.addNamed ?_ hook.module) (fun other hother => hhooks other (by simp [hother]))
      fun other hother => hclient other (by simp [hother])
    rw [specifiers_unbroken (by simpa using unbroken), List.forall_mem_singleton,
      (specifier_unbroken unbroken).2]
    exact hhooks hook (by simp)

/-- A step: one component adds the framework component it is rendered with, and hooks. -/
theorem registerImports (h : imports.Binds P) (hhooks : ∀ hook ∈ Hook.client, P hook.name)
    {c : Component} (hc : ∀ f, (Primitive.ofKind c.kind).framework = some f → P f.name) :
    (c.registerImports imports).Binds P := by
  have framework : (c.registerFramework imports).Binds P := by
    cases hf : (Primitive.ofKind c.kind).framework with
    | some f =>
      rw [Component.registerFramework_some hf]
      exact h.addDefault (hc f hf) f.module
    | none =>
      rw [Component.registerFramework_none hf]
      exact h
  have client : ∀ hook ∈ c.properties.values.flatMap Hook.calls, hook ∈ Hook.client := by
    intro hook hhook
    obtain ⟨value, _, hcall⟩ := List.mem_flatMap.mp hhook
    exact Hook.calls_client value hook hcall
  rw [Component.registerImports_eq]
  exact framework.registerHooks (fun hook hhook => hhooks hook (client hook hhook)) client

theorem registerAll (h : imports.Binds P) (hhooks : ∀ hook ∈ Hook.client, P hook.name)
    {components : List Component}
    (hc : ∀ c ∈ components, ∀ f, (Primitive.ofKind c.kind).framework = some f → P f.name) :
    (components.foldl (fun imports c => c.registerImports imports) imports).Binds P := by
  induction components generalizing imports with
  | nil => exact h
  | cons c rest ih =>
    exact ih (h.registerImports hhooks (hc c (by simp))) fun d hd => hc d (by simp [hd])

end Imports.Binds

theorem Imports.HoldsDefault.mem_bindings {imports : Imports} {name module : String}
    (h : imports.HoldsDefault name module) : name ∈ imports.bindings := by
  obtain ⟨entry, hentry, hname⟩ := Option.bind_eq_some_iff.mp h.bound
  refine (mem_bindings_iff imports name).mpr ⟨(module, entry), mem_of_lookup hentry, ?_⟩
  simp [statementOf, ImportStatement.bindings, hname]

/-- Of the names that are none of hooks, a body imports those that components below its ids have as
kinds and framework components have as names. -/
theorem Forest.mem_bindings_emit_iff (forest : Forest) (options : Options) (ids : List String)
    {name : String} (hname : IsNoHook name) :
    name ∈ (forest.emit options OrderedMap.empty ids).imports.bindings ↔
      name ∈ frameworkNames ∧ ∃ c, forest.Reaches [] ids c ∧ c.kind = name := by
  rw [forest.emit_imports]
  constructor
  · intro hbound
    have start : Imports.empty.Binds fun bound => (∃ hook ∈ Hook.client, hook.name = bound) ∨
        bound ∈ frameworkNames ∧ ∃ c, forest.Reaches [] ids c ∧ c.kind = bound :=
      Imports.binds_empty
    have framework : ∀ c ∈ forest.walk ids, ∀ f, (Primitive.ofKind c.kind).framework = some f →
        f.name ∈ frameworkNames ∧ ∃ d, forest.Reaches [] ids d ∧ d.kind = f.name :=
      fun c hc f hf => ⟨FrameworkComponent.exists_name_iff.mp ⟨f, rfl⟩, c,
        (forest.mem_walk_iff ids c).mp hc, Primitive.framework_ofKind_iff.mp hf⟩
    have binds := start.registerAll (fun hook hhook => .inl ⟨hook, hhook, rfl⟩)
      fun c hc f hf => .inr (framework c hc f hf)
    rcases binds name hbound with ⟨hook, hhook, heq⟩ | named
    · exact absurd heq (hname hook hhook)
    · exact named
  · rintro ⟨hframework, c, hc, rfl⟩
    obtain ⟨f, hf⟩ := FrameworkComponent.exists_name_iff.mpr hframework
    have registered := Component.registered_of_mem Imports.empty
      ((Forest.mem_walk_iff forest ids c).mpr hc) f (Primitive.framework_ofKind_iff.mpr hf.symm)
    rw [← hf]
    exact registered.mem_bindings

/-! ## Import lines -/

def importedNames? (lines : List String) : Option (List String) :=
  (ImportStatement.readLines lines).map (List.flatMap ImportStatement.bindings)

theorem bodyOrigin?_isWellFormed {name : String} {origin : Origin}
    (h : bodyOrigin? name = some origin) : Name.isWellFormed name = true := by
  have names : ∀ entry ∈ bodyOrigins, Name.isWellFormed entry.1 = true := by decide
  exact names (name, origin) (mem_of_lookup h)

namespace Imports.Placed

variable {imports : Imports}

theorem spelled (h : imports.Placed bodyOrigin?) : ∀ s ∈ imports.statements, s.Spelled := by
  intro s hs
  obtain ⟨entry, hentry, rfl⟩ := (mem_statements_iff imports s).mp hs
  have placed := h.entries entry hentry
  constructor
  · exact fun name hname => bodyOrigin?_isWellFormed (placed.default name hname)
  · intro name hname
    have none : name ∈ entry.2.namespaceName := hname
    rw [placed.noNamespace] at none
    cases none
  · exact fun name hname => .inl (bodyOrigin?_isWellFormed (placed.named.placed name hname))
  · exact fun name hname => .inl (bodyOrigin?_isWellFormed (placed.types.placed name hname))

theorem importedNames?_lines (h : imports.Placed bodyOrigin?) :
    importedNames? imports.lines = some (imports.statements.flatMap ImportStatement.bindings) := by
  have modules : (imports.statements.map ImportStatement.module).Nodup := by
    rw [List.Nodup, List.pairwise_map]
    exact (statements_ordered h.increasing).imp ImportStatement.Before.module_ne
  rw [importedNames?, Imports.lines, ImportStatement.readLines_lines h.spelled modules]
  rfl

end Imports.Placed

/-! ## The exported name -/

/-- A component name is none of a hook: its initial is a capital. -/
theorem Toolchain.noHook_of_isComponentName {name : String} (h : isComponentName name = true) :
    IsNoHook name := by
  have hooks : ∀ hook ∈ Hook.client, isComponentName hook.name = false := by decide
  rintro hook hhook rfl
  rw [hooks hook hhook] at h
  cases h

namespace Toolchain

theorem isComponentName_of_generateComponent {t : Toolchain} {components : List Component}
    {ids : List String} {name : String} {file : OutputFile}
    (h : t.generateComponent components ids name = .ok file) : isComponentName name = true := by
  by_contra hname
  rw [Bool.not_eq_true] at hname
  simp only [generateComponent, hname, Bool.not_false, if_true] at h
  cases h

/-- A standalone component exports one function under the given name. The names that its import
lines bind hold this name exactly if it is that of a framework component and one of the components
below the ids is of this kind. -/
theorem exported_name_unimported_iff {t : Toolchain} {components : List Component}
    {ids : List String} {name : String} {file : OutputFile}
    (h : t.generateComponent components ids name = .ok file) :
    let forest := Forest.ofComponents components
    let m := componentModule t.options forest ids name
    file = (t.finish ⟨.component, "components/" ++ name ++ "." ++ t.options.componentExtension,
      m.render t.options⟩).file ∧
    m.blocks.map (fun b => (Text.startsWith (b.render t.options) "export default ",
      Scope.declarationName (b.render t.options))) = [(true, name)] ∧
    ∃ imported, importedNames? m.imports.lines = some imported ∧
      (name ∉ imported ↔
        ∀ c, forest.Reaches [] ids c → c.kind = name → name ∉ frameworkNames) := by
  intro forest m
  have hname := isComponentName_of_generateComponent h
  have wellFormed : Name.isWellFormed name = true :=
    Name.isWellFormed_of_isIdentifier (Bool.and_eq_true_iff.mp hname).1
  have placed := forest.emit_placed t.options OrderedMap.empty ids
  have bound := forest.mem_bindings_emit_iff t.options ids (noHook_of_isComponentName hname)
  rw [Imports.bindings, Sorted.mem_ofList] at bound
  refine ⟨file_of_generateComponent h, ?_, _, placed.importedNames?_lines, ?_⟩
  · exact congrArg (fun entry => [entry])
      (ComponentFunction.export_render t.options rfl fun _ hc => Name.isPart_of_mem wellFormed hc)
  · rw [bound]
    constructor
    · exact fun apart c hc hkind hframework => apart ⟨hframework, c, hc, hkind⟩
    · rintro apart ⟨hframework, c, hc, hkind⟩
      exact apart c hc hkind hframework

end Toolchain

namespace Sample

/-- The box with the link to itself, under the name of the link. -/
theorem exported_name_unimported_iff_way :
    ∃ file, toolchain.generateComponent [ring, way] ["ring"] "Link" = .ok file ∧
      let m := Toolchain.componentModule toolchain.options (Forest.ofComponents [ring, way])
        ["ring"] "Link"
      file = (toolchain.finish ⟨.component, "components/Link.tsx",
        m.render toolchain.options⟩).file ∧
      ∃ imported, importedNames? m.imports.lines = some imported ∧ "Link" ∈ imported := by
  obtain ⟨file, hfile⟩ : ∃ file,
      toolchain.generateComponent [ring, way] ["ring"] "Link" = .ok file := ⟨_, rfl⟩
  obtain ⟨content, _, imported, hread, apart⟩ := Toolchain.exported_name_unimported_iff hfile
  have listed : "way" ∈ ring.childIds := by decide
  have start : (Forest.ofComponents [ring, way]).Reaches [] ["ring"] ring :=
    .start (List.mem_singleton_self _) List.not_mem_nil rfl
  have reached : (Forest.ofComponents [ring, way]).Reaches [] ["ring"] way :=
    .child start listed List.not_mem_nil rfl
  refine ⟨file, hfile, content, imported, hread, ?_⟩
  by_contra hfree
  exact apart.mp hfree way reached rfl (by decide)

end Sample

end Pagewright

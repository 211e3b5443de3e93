import Mathlib.Data.List.Nodup
import Pagewright.Proofs.Import.History

/-!
# Where imported names come from

Each name that a module imports has one origin: the module that offers it, and whether
it is the default name there, a specifier or a type. Imports that keep to such an
assignment bind every name once, because a name that is bound twice would have two
origins.
-/

set_option autoImplicit false

namespace Pagewright

inductive ImportRole where
  | default
  | named
  | type
  deriving DecidableEq, Repr

structure Origin where
  module : String
  role : ImportRole
  deriving DecidableEq, Repr

structure Origin.Lists (origin? : String → Option Origin) (origin : Origin)
    (names : List String) : Prop where
  placed : ∀ name ∈ names, origin? name = some origin
  unbroken : ∀ name ∈ names, Text.Unbroken name
  increasing : names.Pairwise (· < ·)

namespace Origin.Lists

variable {origin? : String → Option Origin} {origin : Origin} {names : List String}

theorem nil : Lists origin? origin [] := by
  constructor <;> simp

theorem map_localName (h : Lists origin? origin names) : names.map localName = names := by
  rw [List.map_congr_left fun name hname => (specifier_unbroken (h.unbroken name hname)).2,
    List.map_id']

theorem insertAll (h : Lists origin? origin names) {new : List String}
    (hplaced : ∀ name ∈ new, origin? name = some origin)
    (hunbroken : ∀ name ∈ new, Text.Unbroken name) :
    Lists origin? origin (Sorted.insertAll names (specifiers new)) := by
  rw [specifiers_unbroken hunbroken]
  constructor
  · intro name hname
    rcases (Sorted.mem_insertAll _ _ _).mp hname with hold | hnew
    · exact h.placed name hold
    · exact hplaced name hnew
  · intro name hname
    rcases (Sorted.mem_insertAll _ _ _).mp hname with hold | hnew
    · exact h.unbroken name hold
    · exact hunbroken name hnew
  · exact Sorted.insertAll_increasing h.increasing new

theorem mono {other? : String → Option Origin} (h : Lists origin? origin names)
    (hmono : ∀ name o, origin? name = some o → other? name = some o) :
    Lists other? origin names :=
  ⟨fun name hname => hmono name _ (h.placed name hname), h.unbroken, h.increasing⟩

end Origin.Lists

structure ModuleImports.Placed (origin? : String → Option Origin) (module : String)
    (entry : ModuleImports) : Prop where
  noNamespace : entry.namespaceName = none
  default : ∀ name ∈ entry.defaultName, origin? name = some ⟨module, .default⟩
  named : Origin.Lists origin? ⟨module, .named⟩ entry.named
  types : Origin.Lists origin? ⟨module, .type⟩ entry.types

namespace ModuleImports

variable {origin? : String → Option Origin} {module : String} {entry : ModuleImports}

theorem placed_empty (origin? : String → Option Origin) (module : String) :
    Placed origin? module {} :=
  ⟨rfl, by simp, .nil, .nil⟩

theorem Placed.bindings_eq (h : entry.Placed origin? module) :
    (Imports.statementOf module entry).bindings =
      entry.defaultName.toList ++ (entry.named ++ entry.types) := by
  simp only [Imports.statementOf, ImportStatement.bindings, h.noNamespace, List.map_append,
    h.named.map_localName, h.types.map_localName, Option.toList_none, List.append_nil]

/-- What the statement binds has its origin in the module. -/
theorem Placed.origin (h : entry.Placed origin? module) {name : String}
    (hname : name ∈ (Imports.statementOf module entry).bindings) :
    ∃ role, origin? name = some ⟨module, role⟩ := by
  rw [h.bindings_eq, List.mem_append, List.mem_append, Option.mem_toList] at hname
  rcases hname with hname | hname | hname
  · exact ⟨_, h.default name hname⟩
  · exact ⟨_, h.named.placed name hname⟩
  · exact ⟨_, h.types.placed name hname⟩

theorem Placed.bindings_nodup (h : entry.Placed origin? module) :
    (Imports.statementOf module entry).bindings.Nodup := by
  have specifiers : (entry.named ++ entry.types).Nodup := by
    rw [List.nodup_append]
    refine ⟨h.named.increasing.imp String.ne_of_lt, h.types.increasing.imp String.ne_of_lt, ?_⟩
    rintro name hnamed _ htypes rfl
    cases (h.named.placed name hnamed).symm.trans (h.types.placed name htypes)
  rw [h.bindings_eq, List.nodup_append]
  refine ⟨?_, specifiers, ?_⟩
  · cases entry.defaultName <;> simp
  · rintro name hdefault _ hspecifier rfl
    have first := h.default name (Option.mem_toList.mp hdefault)
    rcases List.mem_append.mp hspecifier with hnamed | htypes
    · cases first.symm.trans (h.named.placed name hnamed)
    · cases first.symm.trans (h.types.placed name htypes)

end ModuleImports

structure Imports.Placed (origin? : String → Option Origin) (imports : Imports) : Prop where
  increasing : Sorted.Increasing imports.modules
  entries : ∀ entry ∈ imports.modules, entry.2.Placed origin? entry.1

namespace Imports

variable {origin? : String → Option Origin} {imports : Imports}

theorem placed_empty (origin? : String → Option Origin) : Placed origin? empty :=
  ⟨.nil, by simp [empty]⟩

theorem Placed.mono {other? : String → Option Origin} (h : Placed origin? imports)
    (hmono : ∀ name origin, origin? name = some origin → other? name = some origin) :
    Placed other? imports := by
  refine ⟨h.increasing, fun entry hentry => ?_⟩
  have placed := h.entries entry hentry
  exact { placed with
    default := fun name hname => hmono _ _ (placed.default name hname)
    named := placed.named.mono hmono
    types := placed.types.mono hmono }

/-! ## Distinct names -/

theorem Placed.origin (h : Placed origin? imports) {name : String}
    (hname : name ∈ imports.statements.flatMap ImportStatement.bindings) :
    (origin? name).isSome = true := by
  obtain ⟨s, hs, hname⟩ := List.mem_flatMap.mp hname
  obtain ⟨entry, hentry, rfl⟩ := (mem_statements_iff imports s).mp hs
  obtain ⟨role, horigin⟩ := (h.entries entry hentry).origin hname
  rw [horigin]
  rfl

/-- No name is bound twice, neither by one statement nor by two. -/
theorem Placed.bindings_nodup (h : Placed origin? imports) :
    (imports.statements.flatMap ImportStatement.bindings).Nodup := by
  rw [List.nodup_flatMap]
  constructor
  · intro s hs
    obtain ⟨entry, hentry, rfl⟩ := (mem_statements_iff imports s).mp hs
    exact (h.entries entry hentry).bindings_nodup
  · apply (statements_ordered h.increasing).imp_of_mem
    intro a b ha hb hbefore
    obtain ⟨first, hfirst, rfl⟩ := (mem_statements_iff imports a).mp ha
    obtain ⟨second, hsecond, rfl⟩ := (mem_statements_iff imports b).mp hb
    refine List.disjoint_left.mpr ?_
    intro name hname hother
    obtain ⟨_, horigin⟩ := (h.entries first hfirst).origin hname
    obtain ⟨_, horigin'⟩ := (h.entries second hsecond).origin hother
    rw [horigin, Option.some.injEq, Origin.mk.injEq] at horigin'
    -- both statements would be those of one module, which does not come before itself
    have same : first.1 = second.1 := horigin'.1
    rcases hbefore with hlt | ⟨_, hlt⟩
    · simp [ImportStatement.tier, statementOf, same] at hlt
    · simp [statementOf, same] at hlt

/-! ## Declarations -/

theorem Placed.update (h : Placed origin? imports) {module : String}
    {f : ModuleImports → ModuleImports}
    (hf : ∀ entry : ModuleImports, entry.Placed origin? module → (f entry).Placed origin? module) :
    Placed origin? (imports.update module f) := by
  refine ⟨h.increasing.adjust module _, fun entry hentry => ?_⟩
  rcases Sorted.mem_adjust hentry with hold | rfl | ⟨v, hv, rfl⟩
  · exact h.entries entry hold
  · exact hf _ (ModuleImports.placed_empty origin? module)
  · exact hf v (h.entries _ hv)

theorem Placed.addDefault (h : Placed origin? imports) {name module : String}
    (hname : origin? name = some ⟨module, .default⟩) :
    Placed origin? (imports.addDefault name module) := by
  have updated : Placed origin?
      (imports.update module fun entry => { entry with defaultName := some name }) := by
    apply h.update
    intro entry placed
    exact { placed with default := by simpa using hname }
  exact ⟨updated.increasing, updated.entries⟩

theorem Placed.addNamed (h : Placed origin? imports) {names : List String} {module : String}
    (hplaced : ∀ name ∈ names, origin? name = some ⟨module, .named⟩)
    (hunbroken : ∀ name ∈ names, Text.Unbroken name) :
    Placed origin? (imports.addNamed names module) := by
  apply h.update
  intro entry placed
  exact { placed with named := placed.named.insertAll hplaced hunbroken }

theorem Placed.addTypes (h : Placed origin? imports) {names : List String} {module : String}
    (hplaced : ∀ name ∈ names, origin? name = some ⟨module, .type⟩)
    (hunbroken : ∀ name ∈ names, Text.Unbroken name) :
    Placed origin? (imports.addTypes names module) := by
  apply h.update
  intro entry placed
  exact { placed with types := placed.types.insertAll hplaced hunbroken }

end Imports

end Pagewright

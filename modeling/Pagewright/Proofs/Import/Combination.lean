import Mathlib.Data.List.Sort
import Pagewright.Proofs.Import.History
import Pagewright.Proofs.Text.Words

/-!
# Combining imports module by module

Merging declares again, module after module, what another collection holds. For one
module the outcome is `combine`: names bound to the module as a whole are those of the
second collection where it has any, and specifiers are united. Specifiers are kept
sorted and in normal form, so that declaring them again changes nothing; on such
declarations combining is associative and idempotent, and declaring something after it
is the same as combining with one declaration more.
-/

set_option autoImplicit false

namespace Pagewright

theorem normalSpecifier_normalSpecifier (name : String) :
    normalSpecifier (normalSpecifier name) = normalSpecifier name := by
  rw [normalSpecifier, normalSpecifier,
    Text.words_join fun _ hword => Text.unbroken_of_mem_words hword]

structure KeptNames (names : List String) : Prop where
  increasing : names.Pairwise (· < ·)
  normal : ∀ name ∈ names, normalSpecifier name = name
  nonempty : ∀ name ∈ names, name ≠ ""

namespace KeptNames

variable {names others : List String}

theorem nil : KeptNames [] := by
  constructor <;> simp

theorem specifiers_eq (h : KeptNames names) : specifiers names = names := by
  rw [specifiers, List.map_congr_left h.normal, List.map_id', List.filter_eq_self]
  simpa using h.nonempty

theorem insertAll (h : KeptNames names) (new : List String) :
    KeptNames (Sorted.insertAll names (specifiers new)) := by
  have added : ∀ name ∈ specifiers new, normalSpecifier name = name ∧ name ≠ "" := by
    intro name hname
    obtain ⟨hmem, hne⟩ := List.mem_filter.mp hname
    obtain ⟨written, -, rfl⟩ := List.mem_map.mp hmem
    exact ⟨normalSpecifier_normalSpecifier written, by simpa using hne⟩
  refine ⟨Sorted.insertAll_increasing h.increasing _, fun name hname => ?_, fun name hname => ?_⟩
  · rcases (Sorted.mem_insertAll _ _ _).mp hname with hold | hnew
    · exact h.normal name hold
    · exact (added name hnew).1
  · rcases (Sorted.mem_insertAll _ _ _).mp hname with hold | hnew
    · exact h.nonempty name hold
    · exact (added name hnew).2

/-- Kept specifiers are told by which they are. -/
theorem eq_of_mem_iff (h : KeptNames names) (hothers : KeptNames others)
    (hmem : ∀ name, name ∈ names ↔ name ∈ others) : names = others :=
  h.increasing.eq_of_mem_iff hothers.increasing hmem

end KeptNames

namespace ModuleImports

structure Kept (entry : ModuleImports) : Prop where
  named : KeptNames entry.named
  types : KeptNames entry.types

def combine (entry other : ModuleImports) : ModuleImports where
  defaultName := other.defaultName.or entry.defaultName
  namespaceName := other.namespaceName.or entry.namespaceName
  named := Sorted.insertAll entry.named (specifiers other.named)
  types := Sorted.insertAll entry.types (specifiers other.types)

variable {x y z : ModuleImports}

theorem kept_empty : Kept {} := ⟨.nil, .nil⟩

theorem Kept.declare (h : x.Kept) (d : Declaration) : (x.declare d).Kept := by
  cases d with
  | named names => exact ⟨h.named.insertAll names, h.types⟩
  | types names => exact ⟨h.named, h.types.insertAll names⟩
  | _ => exact ⟨h.named, h.types⟩

theorem Kept.combine (h : x.Kept) (y : ModuleImports) : (x.combine y).Kept :=
  ⟨h.named.insertAll y.named, h.types.insertAll y.types⟩

theorem mem_names_combine (hy : y.Kept) (typeOnly : Bool) (name : String) :
    name ∈ (x.combine y).names typeOnly ↔ name ∈ x.names typeOnly ∨ name ∈ y.names typeOnly := by
  cases typeOnly with
  | false =>
    change name ∈ Sorted.insertAll x.named (specifiers y.named) ↔ _
    rw [hy.named.specifiers_eq, Sorted.mem_insertAll]
    rfl
  | true =>
    change name ∈ Sorted.insertAll x.types (specifiers y.types) ↔ _
    rw [hy.types.specifiers_eq, Sorted.mem_insertAll]
    rfl

theorem name?_combine (x y : ModuleImports) (kind : ImportKind) :
    (x.combine y).name? kind = (y.name? kind).or (x.name? kind) := by
  cases kind <;> rfl

/-- Kept declarations are told by the names bound to the module and by which specifiers there
are. -/
theorem Kept.eq_of_names (hx : x.Kept) (hy : y.Kept) (hnames : ∀ kind, x.name? kind = y.name? kind)
    (hmem : ∀ typeOnly name, name ∈ x.names typeOnly ↔ name ∈ y.names typeOnly) : x = y := by
  have hdefault : x.defaultName = y.defaultName := hnames .default
  have hnamespace : x.namespaceName = y.namespaceName := hnames .namespaced
  have hnamed : x.named = y.named := hx.named.eq_of_mem_iff hy.named (hmem false)
  have htypes : x.types = y.types := hx.types.eq_of_mem_iff hy.types (hmem true)
  cases x
  cases y
  simp_all

theorem combine_assoc (hx : x.Kept) (hy : y.Kept) (hz : z.Kept) :
    (x.combine y).combine z = x.combine (y.combine z) := by
  apply ((hx.combine y).combine z).eq_of_names (hx.combine _)
  · intro kind
    simp only [name?_combine, Option.or_assoc]
  · intro typeOnly name
    rw [mem_names_combine hz, mem_names_combine hy, mem_names_combine (hy.combine z),
      mem_names_combine hz, or_assoc]

theorem combine_self (hx : x.Kept) : x.combine x = x := by
  apply (hx.combine x).eq_of_names hx
  · intro kind
    rw [name?_combine, Option.or_self]
  · intro typeOnly name
    rw [mem_names_combine hx, or_self]

theorem empty_combine (hx : x.Kept) : combine {} x = x := by
  apply (kept_empty.combine x).eq_of_names hx
  · intro kind
    rw [name?_combine]
    cases kind <;> simp [name?]
  · intro typeOnly name
    rw [mem_names_combine hx]
    cases typeOnly <;> simp [names]

theorem combine_empty (x : ModuleImports) : x.combine {} = x := rfl

theorem combine_declare (hx : x.Kept) (hy : y.Kept) (d : Declaration) :
    x.combine (y.declare d) = (x.combine y).declare d := by
  apply (hx.combine _).eq_of_names ((hx.combine y).declare d)
  · intro kind
    simp only [name?_combine, name?_declare, Option.or_assoc]
  · intro typeOnly name
    rw [mem_names_combine (hy.declare d), names_declare, names_declare, Sorted.mem_insertAll,
      Sorted.mem_insertAll, mem_names_combine hy, or_assoc]

def combine? (held other : Option ModuleImports) : Option ModuleImports :=
  match other with
  | some entry => some ((held.getD {}).combine entry)
  | none => held

end ModuleImports

namespace Imports

variable {a b : Imports}

/-! ## One module -/

def clashes (held : Option ModuleImports) (module : String) (entry : ModuleImports) :
    List ImportConflict :=
  [ImportKind.default, .namespaced].flatMap fun kind =>
    (entry.name? kind).toList.flatMap fun name =>
      conflictOf module kind name (held.bind (ModuleImports.name? kind))

theorem find?_update (h : Sorted.Increasing a.modules) (module : String)
    (f : ModuleImports → ModuleImports) :
    (a.update module f).find? module = some (f ((a.find? module).getD {})) :=
  Sorted.lookup_adjust h module _

theorem modules_mergeModule (a : Imports) (module : String) (entry : ModuleImports) :
    (a.mergeModule module entry).modules = (a.update module (·.combine entry)).modules := by
  obtain ⟨d, n, named, types⟩ := entry
  cases d <;> cases n <;>
    simp [mergeModule, addDefault, addNamespace, addNamed, addTypes, update, Sorted.adjust_adjust,
      ModuleImports.combine]

/-- A default name leaves the namespace as it is. -/
theorem namespace_addDefault (h : Sorted.Increasing a.modules) (name module : String) :
    ((a.addDefault name module).find? module).bind (ModuleImports.name? .namespaced) =
      (a.find? module).bind (ModuleImports.name? .namespaced) := by
  have found : (a.addDefault name module).find? module =
      some (((a.find? module).getD {}).declare (.default name)) :=
    find?_update h module (·.declare (.default name))
  rw [found, Option.bind_some, ModuleImports.name?_declare]
  cases a.find? module <;> rfl

theorem conflicts_mergeModule (h : Sorted.Increasing a.modules) (module : String)
    (entry : ModuleImports) :
    (a.mergeModule module entry).conflicts =
      a.conflicts ++ clashes (a.find? module) module entry := by
  obtain ⟨d, n, named, types⟩ := entry
  cases d with
  | none =>
    cases n with
    | none => simp [mergeModule, addNamed, addTypes, update, clashes, ModuleImports.name?]
    | some n =>
      change a.conflicts ++ conflictOf module .namespaced n
        ((a.find? module).bind (ModuleImports.name? .namespaced)) = _
      simp [clashes, ModuleImports.name?]
  | some d =>
    cases n with
    | none =>
      change a.conflicts ++ conflictOf module .default d
        ((a.find? module).bind (ModuleImports.name? .default)) = _
      simp [clashes, ModuleImports.name?]
    | some n =>
      change a.conflicts ++ conflictOf module .default d
        ((a.find? module).bind (ModuleImports.name? .default)) ++ conflictOf module .namespaced n
          (((a.addDefault d module).find? module).bind (ModuleImports.name? .namespaced)) = _
      rw [namespace_addDefault h, List.append_assoc]
      simp [clashes, ModuleImports.name?]

theorem find?_mergeModule (h : Sorted.Increasing a.modules) (module : String)
    (entry : ModuleImports) (other : String) :
    (a.mergeModule module entry).find? other =
      ModuleImports.combine? (a.find? other) (if module = other then some entry else none) := by
  have found : (a.mergeModule module entry).find? other =
      (a.update module (·.combine entry)).find? other :=
    congrArg (lookup other) (modules_mergeModule a module entry)
  rw [found]
  by_cases hm : module = other
  · subst hm
    rw [if_pos rfl]
    exact find?_update h module _
  · rw [if_neg hm]
    exact find?_update_ne (Ne.symm hm) _

theorem increasing_mergeModule (h : Sorted.Increasing a.modules) (module : String)
    (entry : ModuleImports) : Sorted.Increasing (a.mergeModule module entry).modules := by
  rw [modules_mergeModule]
  exact h.adjust module _

/-! ## All modules -/

def mergeModules (imports : Imports) (entries : List (String × ModuleImports)) : Imports :=
  entries.foldl (fun acc entry => acc.mergeModule entry.1 entry.2) imports

theorem increasing_mergeModules (h : Sorted.Increasing a.modules)
    (entries : List (String × ModuleImports)) :
    Sorted.Increasing (a.mergeModules entries).modules := by
  induction entries generalizing a with
  | nil => exact h
  | cons entry rest ih => exact ih (increasing_mergeModule h entry.1 entry.2)

theorem find?_mergeModules (h : Sorted.Increasing a.modules)
    {entries : List (String × ModuleImports)} (hn : (entries.map Prod.fst).Nodup)
    (module : String) :
    (a.mergeModules entries).find? module =
      ModuleImports.combine? (a.find? module) (lookup module entries) := by
  induction entries generalizing a with
  | nil => rfl
  | cons entry rest ih =>
    obtain ⟨m, e⟩ := entry
    obtain ⟨hm, hn⟩ := List.nodup_cons.mp hn
    have later := ih (increasing_mergeModule h m e) hn
    rw [find?_mergeModule h] at later
    by_cases hmodule : m = module
    · subst hmodule
      have absent : lookup m rest = none := lookup_eq_none_iff.mpr hm
      rw [absent, if_pos rfl] at later
      rwa [lookup, if_pos rfl]
    · rw [if_neg hmodule] at later
      rwa [lookup, if_neg hmodule]

theorem conflicts_mergeModules (h : Sorted.Increasing a.modules)
    {entries : List (String × ModuleImports)} (hn : (entries.map Prod.fst).Nodup) :
    (a.mergeModules entries).conflicts =
      a.conflicts ++ entries.flatMap fun entry => clashes (a.find? entry.1) entry.1 entry.2 := by
  induction entries generalizing a with
  | nil => exact (List.append_nil _).symm
  | cons entry rest ih =>
    obtain ⟨m, e⟩ := entry
    obtain ⟨hm, hn⟩ := List.nodup_cons.mp hn
    -- what follows clashes with what was there before, since it is about other modules
    have unchanged : ∀ entry ∈ rest,
        clashes ((a.mergeModule m e).find? entry.1) entry.1 entry.2 =
          clashes (a.find? entry.1) entry.1 entry.2 := by
      intro entry hentry
      have hkey : entry.1 ∈ rest.map Prod.fst := List.mem_map_of_mem hentry
      have hne : m ≠ entry.1 := fun heq => hm (heq ▸ hkey)
      rw [find?_mergeModule h, if_neg hne]
      rfl
    have later := ih (increasing_mergeModule h m e) hn
    rw [conflicts_mergeModule h, List.append_assoc, List.flatMap_congr unchanged] at later
    exact later

theorem increasing_merge (ha : Sorted.Increasing a.modules) (b : Imports) :
    Sorted.Increasing (a.merge b).modules := increasing_mergeModules ha b.modules

theorem find?_merge (ha : Sorted.Increasing a.modules) (hb : Sorted.Increasing b.modules)
    (module : String) :
    (a.merge b).find? module = ModuleImports.combine? (a.find? module) (b.find? module) :=
  find?_mergeModules ha (hb.imp LT.lt.ne) module

theorem conflicts_merge (ha : Sorted.Increasing a.modules) (hb : Sorted.Increasing b.modules) :
    (a.merge b).conflicts = a.conflicts ++
      (b.modules.flatMap fun entry => clashes (a.find? entry.1) entry.1 entry.2) ++
      b.conflicts :=
  congrArg (· ++ b.conflicts) (conflicts_mergeModules ha (hb.imp LT.lt.ne))

end Imports

end Pagewright

import Mathlib.Data.List.DropRight
import Pagewright.Proofs.Import.Binding
import Pagewright.Proofs.Ordered.Sorted
import Pagewright.Proofs.Text.Words

/-!
# Imports as a function of their history

A collection of imports is the outcome of a sequence of operations. What it holds for a
module is decided by what was declared for that module since it was last forgotten: the
last default and namespace names, and all specifiers. Its conflicts are the operations
since the last clearing that put one name in the place of another. `Records` says so
for the printed statements; one operation at the end of a history changes both sides
alike.
-/

set_option autoImplicit false

namespace Pagewright

def ImportTier.rank : ImportTier → Nat
  | .frameworkCore => 0
  | .frameworkExtension => 1
  | .thirdParty => 2
  | .internal => 3
  | .relative => 4

def ImportStatement.Before (a b : ImportStatement) : Prop :=
  a.tier.rank < b.tier.rank ∨ a.tier = b.tier ∧ a.module < b.module

/-! ## Histories -/

inductive Declaration where
  | default (name : String)
  | namespaced (name : String)
  | named (names : List String)
  | types (names : List String)
  | sideEffect
  deriving DecidableEq, Repr

namespace Declaration

def binding? : Declaration → Option (ImportKind × String)
  | .default name => some (.default, name)
  | .namespaced name => some (.namespaced, name)
  | _ => none

def name? (kind : ImportKind) (d : Declaration) : Option String :=
  (d.binding?.filter (·.1 = kind)).map Prod.snd

def names (typeOnly : Bool) : Declaration → List String
  | .named names => if typeOnly then [] else names
  | .types names => if typeOnly then names else []
  | _ => []

end Declaration

namespace ImportOperation

def declares : ImportOperation → Option (String × Declaration)
  | .addDefault name module => some (module, .default name)
  | .addNamespace name module => some (module, .namespaced name)
  | .addNamed names module => some (module, .named names)
  | .addTypes names module => some (module, .types names)
  | .addSideEffect module => some (module, .sideEffect)
  | .addReact names => some ("react", .named names)
  | .addNavigation names => some ("next/navigation", .named names)
  | .addLink => some ("next/link", .default "Link")
  | .addImage => some ("next/image", .default "Image")
  | .remove _ => none
  | .clear => none

def declarationFor? (module : String) (op : ImportOperation) : Option Declaration :=
  (op.declares.filter (·.1 = module)).map Prod.snd

def forgets (module : String) : ImportOperation → Bool
  | .remove other => module == other
  | .clear => true
  | _ => false

theorem forgets_of_declares {op : ImportOperation} {declaration : String × Declaration}
    (h : op.declares = some declaration) (module : String) : op.forgets module = false := by
  cases op <;> simp_all [declares, forgets]

end ImportOperation

def declared (module : String) (ops : List ImportOperation) : List Declaration :=
  (ops.rtakeWhile fun op => !op.forgets module).filterMap (·.declarationFor? module)

def lastName (kind : ImportKind) (ds : List Declaration) : Option String :=
  (ds.filterMap (Declaration.name? kind)).getLast?

def replacement? (before : List ImportOperation) (op : ImportOperation) :
    Option ImportConflict := do
  let (module, declaration) ← op.declares
  let (kind, name) ← declaration.binding?
  let previous ← lastName kind (declared module before)
  if previous = name then none else some ⟨module, kind, previous, name⟩

/-- The conflict caused by the operation at an index, unless everything was cleared since. -/
def conflictAt? (ops : List ImportOperation) (index : Nat) : Option ImportConflict :=
  if .clear ∈ ops.drop index then none else ops[index]?.bind (replacement? (ops.take index))

structure ListsNames (names listed : List String) : Prop where
  increasing : listed.Pairwise (· < ·)
  /-- A name is listed as its words with one blank between them, unless it has none. -/
  mem_iff : ∀ name, name ∈ listed ↔
    ∃ written ∈ names, Text.words written ≠ [] ∧ name = Text.join " " (Text.words written)

structure Imports.Records (ops : List ImportOperation) (imports : Imports) : Prop where
  ordered : imports.statements.Pairwise ImportStatement.Before
  modules : ∀ module,
    module ∈ imports.statements.map ImportStatement.module ↔ declared module ops ≠ []
  defaults : ∀ s ∈ imports.statements, s.defaultName = lastName .default (declared s.module ops)
  namespaces : ∀ s ∈ imports.statements,
    s.namespaceName = lastName .namespaced (declared s.module ops)
  named : ∀ s ∈ imports.statements,
    ListsNames ((declared s.module ops).flatMap (Declaration.names false)) s.named
  types : ∀ s ∈ imports.statements,
    ListsNames ((declared s.module ops).flatMap (Declaration.names true)) s.types
  conflicts : imports.conflicts = (List.range ops.length).filterMap (conflictAt? ops)

theorem declared_append_singleton (module : String) (ops : List ImportOperation)
    (op : ImportOperation) :
    declared module (ops ++ [op]) =
      if op.forgets module then []
      else declared module ops ++ (op.declarationFor? module).toList := by
  rw [declared, List.rtakeWhile_concat]
  cases op.forgets module with
  | true => rfl
  | false => cases h : op.declarationFor? module <;> simp [declared, h]

theorem lastName_append_singleton (kind : ImportKind) (ds : List Declaration) (d : Declaration) :
    lastName kind (ds ++ [d]) = (d.name? kind).or (lastName kind ds) := by
  cases h : d.name? kind <;> simp [lastName, List.filterMap_append, h]

/-! ## One module -/

def ModuleImports.declare (entry : ModuleImports) : Declaration → ModuleImports
  | .default name => { entry with defaultName := some name }
  | .namespaced name => { entry with namespaceName := some name }
  | .named names => { entry with named := Sorted.insertAll entry.named (specifiers names) }
  | .types names => { entry with types := Sorted.insertAll entry.types (specifiers names) }
  | .sideEffect => entry

def ModuleImports.ofDeclarations (ds : List Declaration) : ModuleImports :=
  ds.foldl ModuleImports.declare {}

namespace ModuleImports

def name? (kind : ImportKind) (entry : ModuleImports) : Option String :=
  match kind with
  | .default => entry.defaultName
  | .namespaced => entry.namespaceName
  | _ => none

def names (typeOnly : Bool) (entry : ModuleImports) : List String :=
  if typeOnly then entry.types else entry.named

theorem ofDeclarations_append_singleton (ds : List Declaration) (d : Declaration) :
    ofDeclarations (ds ++ [d]) = (ofDeclarations ds).declare d := by
  simp [ofDeclarations]

theorem name?_declare (entry : ModuleImports) (d : Declaration) (kind : ImportKind) :
    (entry.declare d).name? kind = (d.name? kind).or (entry.name? kind) := by
  cases d <;> cases kind <;> rfl

theorem names_declare (entry : ModuleImports) (d : Declaration) (typeOnly : Bool) :
    (entry.declare d).names typeOnly =
      Sorted.insertAll (entry.names typeOnly) (specifiers (d.names typeOnly)) := by
  cases d <;> cases typeOnly <;> rfl

theorem name?_ofDeclarations (ds : List Declaration) (kind : ImportKind) :
    (ofDeclarations ds).name? kind = lastName kind ds := by
  induction ds using List.reverseRecOn with
  | nil => cases kind <;> rfl
  | append_singleton ds d ih =>
    rw [ofDeclarations_append_singleton, name?_declare, lastName_append_singleton, ih]

theorem names_ofDeclarations (ds : List Declaration) (typeOnly : Bool) :
    (ofDeclarations ds).names typeOnly =
      Sorted.ofList (specifiers (ds.flatMap (Declaration.names typeOnly))) := by
  induction ds using List.reverseRecOn with
  | nil => cases typeOnly <;> rfl
  | append_singleton ds d ih =>
    rw [Sorted.ofList] at ih ⊢
    rw [ofDeclarations_append_singleton, names_declare, ih, ← Sorted.insertAll_append]
    simp [specifiers]

theorem listsNames_ofDeclarations (ds : List Declaration) (typeOnly : Bool) :
    ListsNames (ds.flatMap (Declaration.names typeOnly)) ((ofDeclarations ds).names typeOnly) := by
  rw [names_ofDeclarations]
  refine ⟨Sorted.insertAll_increasing .nil _, fun name => ?_⟩
  simp only [Sorted.mem_ofList, specifiers, normalSpecifier, List.mem_filter, List.mem_map,
    Bool.not_eq_true', String.isEmpty_eq_false_iff]
  constructor
  · rintro ⟨⟨written, hwritten, rfl⟩, hne⟩
    exact ⟨written, hwritten, mt Text.join_words_eq_empty_iff.mpr hne, rfl⟩
  · rintro ⟨written, hwritten, hne, rfl⟩
    exact ⟨⟨written, hwritten, rfl⟩, mt Text.join_words_eq_empty_iff.mp hne⟩

end ModuleImports

/-! ## One operation -/

namespace Imports

variable {imports : Imports}

theorem modules_apply (imports : Imports) (op : ImportOperation) :
    (imports.apply op).modules =
      match op.declares with
      | some (module, d) => (imports.update module (·.declare d)).modules
      | none => imports.modules.filter fun entry => !op.forgets entry.1 := by
  cases op with
  | clear => simp [apply, ImportOperation.declares, ImportOperation.forgets, empty]
  | _ => rfl

theorem increasing_apply (h : Sorted.Increasing imports.modules) (op : ImportOperation) :
    Sorted.Increasing (imports.apply op).modules := by
  rw [modules_apply]
  split
  · exact h.adjust _ _
  · exact h.filter _

theorem lookup_filter_keys (p : String → Bool) (entries : List (String × ModuleImports))
    (module : String) :
    lookup module (entries.filter fun entry => p entry.1) =
      if p module then lookup module entries else none := by
  induction entries with
  | nil => simp [lookup]
  | cons entry rest ih =>
    obtain ⟨k, v⟩ := entry
    by_cases hk : k = module
    · subst hk
      cases hp : p k <;> simp [hp, lookup, ih]
    · cases hp : p k <;> simp [hp, lookup, hk, ih]

/-- After an operation a module holds what the operation leaves of it. -/
theorem find?_apply (h : Sorted.Increasing imports.modules) (op : ImportOperation)
    (module : String) :
    (imports.apply op).find? module =
      if op.forgets module then none
      else match op.declarationFor? module with
        | some d => some (((imports.find? module).getD {}).declare d)
        | none => imports.find? module := by
  rw [find?, modules_apply]
  cases hd : op.declares with
  | none =>
    have none_for : op.declarationFor? module = none := by
      simp [ImportOperation.declarationFor?, hd]
    rw [none_for, lookup_filter_keys fun m => !op.forgets m]
    cases op.forgets module <;> rfl
  | some declaration =>
    obtain ⟨m, d⟩ := declaration
    rw [ImportOperation.forgets_of_declares hd module]
    by_cases hm : m = module
    · have some_for : op.declarationFor? module = some d := by
        simp [ImportOperation.declarationFor?, hd, hm]
      subst hm
      rw [some_for]
      exact Sorted.lookup_adjust h m _
    · have none_for : op.declarationFor? module = none := by
        simp [ImportOperation.declarationFor?, hd, hm]
      rw [none_for]
      exact Sorted.lookup_adjust_ne (Ne.symm hm) _ _

theorem conflictOf_eq (module : String) (kind : ImportKind) (name : String)
    (previous : Option String) :
    conflictOf module kind name previous = (previous.bind fun p =>
      if p = name then none else some (⟨module, kind, p, name⟩ : ImportConflict)).toList := by
  cases previous with
  | none => rfl
  | some p => by_cases hp : p = name <;> simp [conflictOf, hp]

/-- An operation other than clearing adds the conflict it causes. -/
theorem conflicts_apply {ops : List ImportOperation} {op : ImportOperation} (hop : op ≠ .clear)
    (hheld : ∀ kind module, (imports.find? module).bind (ModuleImports.name? kind) =
      lastName kind (declared module ops)) :
    (imports.apply op).conflicts = imports.conflicts ++ (replacement? ops op).toList := by
  have replaced : ∀ module kind name,
      imports.conflicts ++ conflictOf module kind name
          ((imports.find? module).bind (ModuleImports.name? kind)) =
        imports.conflicts ++ ((lastName kind (declared module ops)).bind fun previous =>
          if previous = name then none
          else some (⟨module, kind, previous, name⟩ : ImportConflict)).toList := by
    intro module kind name
    rw [hheld, conflictOf_eq]
  cases op with
  | clear => exact absurd rfl hop
  | addDefault name module => exact replaced module .default name
  | addNamespace name module => exact replaced module .namespaced name
  | addLink => exact replaced "next/link" .default "Link"
  | addImage => exact replaced "next/image" .default "Image"
  | _ => exact (List.append_nil _).symm

/-! ## Whole histories -/

theorem run_append_singleton (ops : List ImportOperation) (op : ImportOperation) :
    imports.run (ops ++ [op]) = (imports.run ops).apply op := by
  simp [run]

theorem increasing_run (ops : List ImportOperation) :
    Sorted.Increasing (empty.run ops).modules := by
  induction ops using List.reverseRecOn with
  | nil => exact .nil
  | append_singleton ops op ih =>
    rw [run_append_singleton]
    exact increasing_apply ih op

theorem find?_run (ops : List ImportOperation) (module : String) :
    (empty.run ops).find? module =
      if declared module ops = [] then none
      else some (ModuleImports.ofDeclarations (declared module ops)) := by
  induction ops using List.reverseRecOn with
  | nil => rfl
  | append_singleton ops op ih =>
    rw [run_append_singleton, find?_apply (increasing_run ops), declared_append_singleton, ih]
    cases op.forgets module with
    | true => rfl
    | false =>
      cases op.declarationFor? module with
      | none => simp
      | some d =>
        by_cases hempty : declared module ops = []
        · simp [hempty, ModuleImports.ofDeclarations]
        · simp [hempty, ModuleImports.ofDeclarations_append_singleton]

theorem name?_run (ops : List ImportOperation) (kind : ImportKind) (module : String) :
    ((empty.run ops).find? module).bind (ModuleImports.name? kind) =
      lastName kind (declared module ops) := by
  rw [find?_run]
  split
  · rename_i hempty
    rw [hempty]
    rfl
  · exact ModuleImports.name?_ofDeclarations _ kind

theorem conflictAt?_cleared (ops : List ImportOperation) {index : Nat}
    (hindex : index ≤ ops.length) : conflictAt? (ops ++ [.clear]) index = none := by
  have cleared : ImportOperation.clear ∈ (ops ++ [ImportOperation.clear]).drop index := by
    rw [List.drop_append_of_le_length hindex]
    simp
  rw [conflictAt?, if_pos cleared]

theorem conflictAt?_earlier (ops : List ImportOperation) {op : ImportOperation}
    (hop : op ≠ .clear) {index : Nat} (hindex : index < ops.length) :
    conflictAt? (ops ++ [op]) index = conflictAt? ops index := by
  have clear_iff : .clear ∈ (ops ++ [op]).drop index ↔ .clear ∈ ops.drop index := by
    rw [List.drop_append_of_le_length hindex.le, List.mem_append, List.mem_singleton]
    exact or_iff_left hop.symm
  simp only [conflictAt?, clear_iff, List.getElem?_append_left hindex,
    List.take_append_of_le_length hindex.le]

theorem conflictAt?_last (ops : List ImportOperation) {op : ImportOperation} (hop : op ≠ .clear) :
    conflictAt? (ops ++ [op]) ops.length = replacement? ops op := by
  simp [conflictAt?, hop.symm]

theorem conflicts_run (ops : List ImportOperation) :
    (empty.run ops).conflicts = (List.range ops.length).filterMap (conflictAt? ops) := by
  induction ops using List.reverseRecOn with
  | nil => rfl
  | append_singleton ops op ih =>
    rw [run_append_singleton, List.length_append, List.length_singleton]
    by_cases hop : op = .clear
    · have none_left :
          (List.range (ops.length + 1)).filterMap (conflictAt? (ops ++ [op])) = [] := by
        rw [List.filterMap_eq_nil_iff, hop]
        intro index hindex
        exact conflictAt?_cleared ops (Nat.lt_succ_iff.mp (List.mem_range.mp hindex))
      rw [none_left, hop]
      rfl
    · have earlier : (List.range ops.length).filterMap (conflictAt? (ops ++ [op])) =
          (List.range ops.length).filterMap (conflictAt? ops) :=
        List.filterMap_congr fun index hindex =>
          conflictAt?_earlier ops hop (List.mem_range.mp hindex)
      rw [conflicts_apply hop (name?_run ops), ih, List.range_succ, List.filterMap_append, earlier]
      cases hlast : replacement? ops op <;> simp [conflictAt?_last ops hop, hlast]

/-! ## Statements -/

theorem mem_statements_iff_find? (h : Sorted.Increasing imports.modules) (s : ImportStatement) :
    s ∈ imports.statements ↔
      ∃ entry, imports.find? s.module = some entry ∧ s = statementOf s.module entry := by
  have distinct : (imports.modules.map Prod.fst).Nodup := h.imp LT.lt.ne
  rw [mem_statements_iff]
  constructor
  · rintro ⟨⟨module, entry⟩, hentry, rfl⟩
    exact ⟨entry, lookup_of_mem distinct hentry, rfl⟩
  · rintro ⟨entry, hfound, hs⟩
    exact ⟨(s.module, entry), mem_of_lookup hfound, hs.symm⟩

theorem statements_ordered (h : Sorted.Increasing imports.modules) :
    imports.statements.Pairwise ImportStatement.Before := by
  have byModule : (imports.modules.map fun entry => statementOf entry.1 entry.2).Pairwise
      fun a b => a.module < b.module := by
    rw [List.pairwise_map]
    exact List.pairwise_map.mp h
  rw [statements, List.pairwise_flatMap]
  constructor
  · intro tier _
    refine (byModule.filter _).imp_of_mem ?_
    intro a b ha hb hlt
    have hta : a.tier = tier := by simpa using List.of_mem_filter ha
    have htb : b.tier = tier := by simpa using List.of_mem_filter hb
    exact .inr ⟨hta.trans htb.symm, hlt⟩
  · have ranks : ImportTier.all.Pairwise fun a b => a.rank < b.rank := by decide
    refine ranks.imp ?_
    intro t u hlt a ha b hb
    have hta : a.tier = t := by simpa using List.of_mem_filter ha
    have htb : b.tier = u := by simpa using List.of_mem_filter hb
    exact .inl (by rwa [hta, htb])

/-- The statement of a module is that of its declarations since it was last forgotten. -/
theorem mem_statements_run_iff (ops : List ImportOperation) (s : ImportStatement) :
    s ∈ (empty.run ops).statements ↔ declared s.module ops ≠ [] ∧
      s = statementOf s.module (ModuleImports.ofDeclarations (declared s.module ops)) := by
  rw [mem_statements_iff_find? (increasing_run ops), find?_run]
  by_cases hempty : declared s.module ops = [] <;> simp [hempty]

/-- Whatever the operations, the collection is the one that its history describes. -/
theorem run_records (ops : List ImportOperation) : (empty.run ops).Records ops := by
  have held : ∀ s ∈ (empty.run ops).statements,
      s = statementOf s.module (ModuleImports.ofDeclarations (declared s.module ops)) :=
    fun s hs => ((mem_statements_run_iff ops s).mp hs).2
  refine ⟨statements_ordered (increasing_run ops), ?_, ?_, ?_, ?_, ?_, conflicts_run ops⟩
  · intro module
    rw [List.mem_map]
    constructor
    · rintro ⟨s, hs, rfl⟩
      exact ((mem_statements_run_iff ops s).mp hs).1
    · intro hne
      exact ⟨statementOf module (ModuleImports.ofDeclarations (declared module ops)),
        (mem_statements_run_iff ops _).mpr ⟨hne, rfl⟩, rfl⟩
  · intro s hs
    rw [held s hs]
    exact ModuleImports.name?_ofDeclarations _ .default
  · intro s hs
    rw [held s hs]
    exact ModuleImports.name?_ofDeclarations _ .namespaced
  · intro s hs
    rw [held s hs]
    exact ModuleImports.listsNames_ofDeclarations _ false
  · intro s hs
    rw [held s hs]
    exact ModuleImports.listsNames_ofDeclarations _ true

-- removing a module forgets its name but not the conflict, so that the third name replaces nothing
example : (empty.run [.addDefault "A" "m", .addDefault "B" "m", .remove "m",
    .addDefault "C" "m"]).conflicts = [⟨"m", .default, "A", "B"⟩] := by decide

end Imports

end Pagewright

import Pagewright.Proofs.Import.Combination

/-!
# Merging imports

`Merges` says what merging one collection of imports into another gives, in terms of
the statements of the two and of their conflicts: the modules of both, a name of the
second where it has one, all specifiers, and one more conflict for each name of the
first that a different one replaces. It holds of all collections that operations and
merging can lead to. The statements are told by what is found under each module, so
that the laws of combining declarations are laws of merging.
-/

set_option autoImplicit false

namespace Pagewright

def ImportStatement.name? (kind : ImportKind) (s : ImportStatement) : Option String :=
  match kind with
  | .default => s.defaultName
  | .namespaced => s.namespaceName
  | _ => none

def ImportStatement.names (typeOnly : Bool) (s : ImportStatement) : List String :=
  if typeOnly then s.types else s.named

structure ListsUnion (first second listed : List String) : Prop where
  increasing : listed.Pairwise (· < ·)
  mem_iff : ∀ name, name ∈ listed ↔ name ∈ first ∨ name ∈ second

def ImportConflict.Before (c d : ImportConflict) : Prop :=
  c.module < d.module ∨ c.module = d.module ∧ c.kind = .default ∧ d.kind = .namespaced

namespace Imports

variable {a b c imports : Imports}

inductive Reachable : Imports → Prop where
  | empty : Reachable empty
  | apply {imports : Imports} (h : Reachable imports) (op : ImportOperation) :
      Reachable (imports.apply op)
  | merge {a b : Imports} (ha : Reachable a) (hb : Reachable b) : Reachable (a.merge b)

def statementFor? (imports : Imports) (module : String) : Option ImportStatement :=
  imports.statements.find? (·.module = module)

def boundName? (imports : Imports) (kind : ImportKind) (module : String) : Option String :=
  (imports.statementFor? module).bind (ImportStatement.name? kind)

def specifiersFor (imports : Imports) (typeOnly : Bool) (module : String) : List String :=
  (imports.statementFor? module).elim [] (ImportStatement.names typeOnly)

def Clash (a b : Imports) (conflict : ImportConflict) : Prop :=
  a.boundName? conflict.kind conflict.module = some conflict.previous ∧
    b.boundName? conflict.kind conflict.module = some conflict.replacement ∧
    conflict.previous ≠ conflict.replacement

structure Merges (a b merged : Imports) : Prop where
  ordered : merged.statements.Pairwise ImportStatement.Before
  modules : ∀ module, (merged.statementFor? module).isSome ↔
    (a.statementFor? module).isSome ∨ (b.statementFor? module).isSome
  bound : ∀ kind module, merged.boundName? kind module =
    (b.boundName? kind module).or (a.boundName? kind module)
  specifiers : ∀ typeOnly module, ListsUnion (a.specifiersFor typeOnly module)
    (b.specifiersFor typeOnly module) (merged.specifiersFor typeOnly module)
  conflicts : ∃ between : List ImportConflict,
    merged.conflicts = a.conflicts ++ between ++ b.conflicts ∧
    between.Pairwise ImportConflict.Before ∧ ∀ conflict, conflict ∈ between ↔ Clash a b conflict

/-! ## What a collection keeps -/

structure Kept (imports : Imports) : Prop where
  increasing : Sorted.Increasing imports.modules
  entry : ∀ {module : String} {entry : ModuleImports},
    imports.find? module = some entry → entry.Kept

theorem kept_empty : Kept empty := ⟨.nil, fun h => by simp [find?, empty, lookup] at h⟩

theorem Kept.getD (h : imports.Kept) (module : String) :
    ((imports.find? module).getD {}).Kept := by
  cases hfound : imports.find? module with
  | none => exact ModuleImports.kept_empty
  | some entry => exact h.entry hfound

theorem Kept.apply (h : imports.Kept) (op : ImportOperation) : (imports.apply op).Kept := by
  refine ⟨increasing_apply h.increasing op, ?_⟩
  intro module entry hentry
  rw [find?_apply h.increasing] at hentry
  cases hforgets : op.forgets module with
  | true => simp [hforgets] at hentry
  | false =>
    cases hdeclares : op.declarationFor? module with
    | none => exact h.entry (by simpa [hforgets, hdeclares] using hentry)
    | some d =>
      have declared : ((imports.find? module).getD {}).declare d = entry := by
        simpa [hforgets, hdeclares] using hentry
      exact declared ▸ (h.getD module).declare d

theorem Kept.merge (ha : a.Kept) (hb : b.Kept) : (a.merge b).Kept := by
  refine ⟨increasing_merge ha.increasing b, ?_⟩
  intro module entry hentry
  rw [find?_merge ha.increasing hb.increasing] at hentry
  cases hfound : b.find? module with
  | none =>
    rw [hfound] at hentry
    exact ha.entry hentry
  | some other =>
    rw [hfound] at hentry
    exact Option.some.inj hentry ▸ (ha.getD module).combine other

theorem Reachable.kept (h : imports.Reachable) : imports.Kept := by
  induction h with
  | empty => exact kept_empty
  | apply _ op ih => exact ih.apply op
  | merge _ _ iha ihb => exact iha.merge ihb

theorem Reachable.run (h : imports.Reachable) (ops : List ImportOperation) :
    (imports.run ops).Reachable := by
  induction ops generalizing imports with
  | nil => exact h
  | cons op rest ih => exact ih (h.apply op)

theorem Kept.run (h : imports.Kept) (ops : List ImportOperation) : (imports.run ops).Kept := by
  induction ops generalizing imports with
  | nil => exact h
  | cons op rest ih => exact ih (h.apply op)

/-! ## Statements -/

theorem statementFor?_eq (h : Sorted.Increasing imports.modules) (module : String) :
    imports.statementFor? module = (imports.find? module).map (statementOf module) := by
  cases hfound : imports.find? module with
  | none =>
    rw [Option.map_none, statementFor?, List.find?_eq_none]
    intro s hs hmodule
    obtain ⟨entry, hentry, -⟩ := (mem_statements_iff_find? h s).mp hs
    rw [of_decide_eq_true hmodule, hfound] at hentry
    cases hentry
  | some entry =>
    have held : statementOf module entry ∈ imports.statements :=
      (mem_statements_iff_find? h _).mpr ⟨entry, hfound, rfl⟩
    obtain ⟨s, hs⟩ : ∃ s, imports.statementFor? module = some s := by
      rw [← Option.isSome_iff_exists, statementFor?, List.find?_isSome]
      exact ⟨_, held, decide_eq_true rfl⟩
    have hmodule : s.module = module := by simpa using List.find?_some hs
    obtain ⟨other, hother, hstatement⟩ :=
      (mem_statements_iff_find? h s).mp (List.mem_of_find?_eq_some hs)
    rw [hmodule] at hother hstatement
    rw [hs, hstatement, Option.some.inj (hfound.symm.trans hother)]
    rfl

theorem boundName?_eq (h : Sorted.Increasing imports.modules) (kind : ImportKind)
    (module : String) :
    imports.boundName? kind module = (imports.find? module).bind (ModuleImports.name? kind) := by
  rw [boundName?, statementFor?_eq h]
  cases imports.find? module with
  | none => rfl
  | some entry => cases kind <;> rfl

theorem specifiersFor_eq (h : Sorted.Increasing imports.modules) (typeOnly : Bool)
    (module : String) :
    imports.specifiersFor typeOnly module =
      ((imports.find? module).getD {}).names typeOnly := by
  rw [specifiersFor, statementFor?_eq h]
  cases imports.find? module with
  | none => cases typeOnly <;> rfl
  | some entry => cases typeOnly <;> rfl

/-- The statements are told by what is found under each module. -/
theorem statements_eq_of_find? (ha : Sorted.Increasing a.modules)
    (hb : Sorted.Increasing b.modules) (h : ∀ module, a.find? module = b.find? module) :
    a.statements = b.statements := by
  have keys : a.modules.map Prod.fst = b.modules.map Prod.fst := by
    refine List.Pairwise.eq_of_mem_iff ha hb fun module => ?_
    rw [← not_iff_not, ← lookup_eq_none_iff, ← lookup_eq_none_iff]
    exact Eq.congr_left (h module)
  have modules : a.modules = b.modules := entries_eq_of_lookup (ha.imp LT.lt.ne) keys h
  rw [statements, statements, modules]

/-! ## Conflicts -/

theorem mem_conflictOf {module : String} {kind : ImportKind} {name : String}
    {previous : Option String} {conflict : ImportConflict} :
    conflict ∈ conflictOf module kind name previous ↔
      ∃ replaced, previous = some replaced ∧ replaced ≠ name ∧
        conflict = ⟨module, kind, replaced, name⟩ := by
  cases previous with
  | none => simp [conflictOf]
  | some replaced => by_cases h : replaced = name <;> simp [conflictOf, h]

theorem mem_clashes {held : Option ModuleImports} {module : String} {entry : ModuleImports}
    {conflict : ImportConflict} :
    conflict ∈ clashes held module entry ↔ conflict.module = module ∧
      held.bind (ModuleImports.name? conflict.kind) = some conflict.previous ∧
      entry.name? conflict.kind = some conflict.replacement ∧
      conflict.previous ≠ conflict.replacement := by
  simp only [clashes, List.mem_flatMap, mem_conflictOf, Option.mem_toList]
  constructor
  · rintro ⟨kind, -, name, hname, replaced, hheld, hne, rfl⟩
    exact ⟨rfl, hheld, hname, hne⟩
  · rintro ⟨rfl, hheld, hname, hne⟩
    have bindingKind : conflict.kind ∈ [ImportKind.default, .namespaced] := by
      cases hkind : conflict.kind <;> simp [hkind, ModuleImports.name?] at hname ⊢
    exact ⟨conflict.kind, bindingKind, conflict.replacement, hname, conflict.previous, hheld, hne,
      rfl⟩

theorem clashes_ordered (held : Option ModuleImports) (module : String) (entry : ModuleImports) :
    (clashes held module entry).Pairwise ImportConflict.Before := by
  rw [clashes, List.pairwise_flatMap]
  constructor
  · intro kind _
    cases entry.name? kind with
    | none => exact .nil
    | some name =>
      rw [Option.toList_some, List.flatMap_singleton, conflictOf_eq]
      cases held.bind (ModuleImports.name? kind) with
      | none => exact .nil
      | some replaced => by_cases h : replaced = name <;> simp [h]
  · simp only [List.pairwise_cons, List.mem_singleton, List.mem_flatMap, mem_conflictOf]
    refine ⟨?_, by simp⟩
    rintro _ rfl _ ⟨name, -, replaced, -, -, rfl⟩ _ ⟨other, -, former, -, -, rfl⟩
    exact .inr ⟨rfl, rfl, rfl⟩

/-- All conflicts between what is declared and what is held, by module. -/
theorem all_clashes_ordered (a : Imports) {entries : List (String × ModuleImports)}
    (h : Sorted.Increasing entries) :
    (entries.flatMap fun entry => clashes (a.find? entry.1) entry.1 entry.2).Pairwise
      ImportConflict.Before := by
  rw [List.pairwise_flatMap]
  refine ⟨fun entry _ => clashes_ordered _ _ _, (List.pairwise_map.mp h).imp ?_⟩
  intro entry other hlt first hfirst second hsecond
  left
  rw [(mem_clashes.mp hfirst).1, (mem_clashes.mp hsecond).1]
  exact hlt

theorem mem_all_clashes_iff (ha : Sorted.Increasing a.modules) (hb : Sorted.Increasing b.modules)
    (conflict : ImportConflict) :
    (conflict ∈ b.modules.flatMap fun entry => clashes (a.find? entry.1) entry.1 entry.2) ↔
      Clash a b conflict := by
  rw [List.mem_flatMap, Clash, boundName?_eq ha, boundName?_eq hb]
  constructor
  · rintro ⟨⟨module, entry⟩, hentry, hconflict⟩
    obtain ⟨hmodule, hheld, hname, hne⟩ := mem_clashes.mp hconflict
    have found : b.find? module = some entry := lookup_of_mem (hb.imp LT.lt.ne) hentry
    rw [hmodule, found]
    exact ⟨hheld, hname, hne⟩
  · rintro ⟨hheld, hname, hne⟩
    obtain ⟨entry, hentry, hname⟩ := Option.bind_eq_some_iff.mp hname
    exact ⟨(conflict.module, entry), mem_of_lookup hentry, mem_clashes.mpr ⟨rfl, hheld, hname, hne⟩⟩

/-! ## Laws -/

theorem merge_merges (ha : a.Kept) (hb : b.Kept) : Merges a b (a.merge b) := by
  have hmerged := increasing_merge ha.increasing b
  have found := find?_merge ha.increasing hb.increasing
  refine ⟨statements_ordered hmerged, ?_, ?_, ?_, ?_⟩
  · intro module
    rw [statementFor?_eq hmerged, statementFor?_eq ha.increasing, statementFor?_eq hb.increasing,
      found]
    cases b.find? module <;> simp [ModuleImports.combine?]
  · intro kind module
    rw [boundName?_eq hmerged, boundName?_eq ha.increasing, boundName?_eq hb.increasing, found]
    cases b.find? module with
    | none => rfl
    | some entry =>
      rw [ModuleImports.combine?, Option.bind_some, Option.bind_some, ModuleImports.name?_combine]
      cases a.find? module with
      | none => cases kind <;> rfl
      | some held => rfl
  · intro typeOnly module
    rw [specifiersFor_eq hmerged, specifiersFor_eq ha.increasing, specifiersFor_eq hb.increasing]
    have kept := (ha.merge hb).getD module
    refine ⟨?_, fun name => ?_⟩
    · cases typeOnly with
      | false => exact kept.named.increasing
      | true => exact kept.types.increasing
    · rw [found]
      cases hentry : b.find? module with
      | none => cases typeOnly <;> simp [ModuleImports.combine?, ModuleImports.names]
      | some entry => exact ModuleImports.mem_names_combine (hb.entry hentry) typeOnly name
  · exact ⟨_, conflicts_merge ha.increasing hb.increasing, all_clashes_ordered a hb.increasing,
      mem_all_clashes_iff ha.increasing hb.increasing⟩

theorem statements_merge_assoc (ha : a.Kept) (hb : b.Kept) (hc : c.Kept) :
    ((a.merge b).merge c).statements = (a.merge (b.merge c)).statements := by
  apply statements_eq_of_find? ((ha.merge hb).merge hc).increasing
    (ha.merge (hb.merge hc)).increasing
  intro module
  rw [find?_merge (ha.merge hb).increasing hc.increasing, find?_merge ha.increasing hb.increasing,
    find?_merge ha.increasing (hb.merge hc).increasing, find?_merge hb.increasing hc.increasing]
  cases hz : c.find? module with
  | none => rfl
  | some z =>
    cases hy : b.find? module with
    | none =>
      simp only [ModuleImports.combine?, Option.getD_none]
      rw [ModuleImports.empty_combine (hc.entry hz)]
    | some y =>
      simp only [ModuleImports.combine?, Option.getD_some]
      rw [ModuleImports.combine_assoc (ha.getD module) (hb.entry hy) (hc.entry hz)]

theorem statements_merge_self (ha : a.Kept) : (a.merge a).statements = a.statements := by
  apply statements_eq_of_find? (ha.merge ha).increasing ha.increasing
  intro module
  rw [find?_merge ha.increasing ha.increasing]
  cases hx : a.find? module with
  | none => rfl
  | some x =>
    rw [ModuleImports.combine?, Option.getD_some, ModuleImports.combine_self (ha.entry hx)]

theorem statements_empty_merge (ha : a.Kept) : (empty.merge a).statements = a.statements := by
  apply statements_eq_of_find? (kept_empty.merge ha).increasing ha.increasing
  intro module
  rw [find?_merge kept_empty.increasing ha.increasing]
  cases hx : a.find? module with
  | none => rfl
  | some x => exact congrArg some (ModuleImports.empty_combine (ha.entry hx))

/-- To merge what additions lead to is to make the additions. -/
theorem find?_merge_run (ha : a.Kept) {ops : List ImportOperation}
    (hops : ∀ op ∈ ops, op.declares.isSome = true) (module : String) :
    (a.merge (empty.run ops)).find? module = (a.run ops).find? module := by
  rw [find?_merge ha.increasing (kept_empty.run ops).increasing]
  induction ops using List.reverseRecOn with
  | nil => rfl
  | append_singleton ops op ih =>
    obtain ⟨declaration, hdeclares⟩ := Option.isSome_iff_exists.mp (hops op (by simp))
    have keeps := ImportOperation.forgets_of_declares hdeclares module
    have earlier := ih fun other hother => hops other (by simp [hother])
    have hrun := kept_empty.run ops
    rw [run_append_singleton, run_append_singleton, find?_apply hrun.increasing,
      find?_apply (ha.run ops).increasing, ← earlier, keeps]
    cases op.declarationFor? module with
    | none => rfl
    | some d =>
      simp only [Bool.false_eq_true, if_false]
      rw [ModuleImports.combine?, ModuleImports.combine_declare (ha.getD module) (hrun.getD module)]
      cases hy : (empty.run ops).find? module with
      | none => rw [Option.getD_none, ModuleImports.combine_empty, ModuleImports.combine?]
      | some y => rfl

theorem statements_merge_run (first : List ImportOperation) {second : List ImportOperation}
    (hsecond : ∀ op ∈ second, op.declares.isSome = true) :
    ((empty.run first).merge (empty.run second)).statements =
      (empty.run (first ++ second)).statements := by
  have hfirst := kept_empty.run first
  have run_append : empty.run (first ++ second) = (empty.run first).run second := by simp [run]
  rw [run_append]
  exact statements_eq_of_find? (hfirst.merge (kept_empty.run second)).increasing
    (hfirst.run second).increasing (find?_merge_run hfirst hsecond)

/-- Merging combines the statements module by module and adds the conflicts between the two
collections. On statements it is therefore associative and idempotent, the empty collection
changes nothing on either side, and merging what some additions lead to is making them. -/
theorem merge_laws (ha : a.Reachable) (hb : b.Reachable) (hc : c.Reachable)
    (first second : List ImportOperation) (hsecond : ∀ op ∈ second, op.declares.isSome = true) :
    Merges a b (a.merge b) ∧
    ((a.merge b).merge c).statements = (a.merge (b.merge c)).statements ∧
    (a.merge a).statements = a.statements ∧
    (a.merge empty).statements = a.statements ∧
    (empty.merge a).statements = a.statements ∧
    ((empty.run first).merge (empty.run second)).statements =
      (empty.run (first ++ second)).statements :=
  ⟨merge_merges ha.kept hb.kept, statements_merge_assoc ha.kept hb.kept hc.kept,
    statements_merge_self ha.kept, rfl, statements_empty_merge ha.kept,
    statements_merge_run first hsecond⟩

end Imports

namespace Sample

open Imports

def styledIcons : Imports :=
  empty.run [.addDefault "icons" "./icons", .addNamed ["Star"] "./icons", .addSideEffect "./page.css"]

def namedIcons : Imports :=
  empty.run [.addNamespace "Icons" "./icons", .addDefault "iconSet" "./icons",
    .addTypes ["  Glyph "] "./icons", .remove "./page.css"]

def linkedIcons : Imports := empty.run [.addLink, .addNamespace "All" "./icons"]

/-- Each collection binds a name of `./icons` that an earlier one binds differently. -/
theorem merge_laws_icons :
    Merges styledIcons namedIcons (styledIcons.merge namedIcons) ∧
    (styledIcons.merge namedIcons).conflicts = [⟨"./icons", .default, "icons", "iconSet"⟩] ∧
    ((styledIcons.merge namedIcons).merge linkedIcons).statements =
      (styledIcons.merge (namedIcons.merge linkedIcons)).statements ∧
    (empty.run [.addLink, .addNamed ["Star"] "./icons", .addTypes ["Glyph"] "./icons"]).statements =
      ((empty.run [.addLink, .addNamed ["Star"] "./icons"]).merge
        (empty.run [.addTypes ["Glyph"] "./icons"])).statements := by
  have reached := fun ops => Reachable.empty.run ops
  have laws := merge_laws (reached _ : styledIcons.Reachable) (reached _ : namedIcons.Reachable)
    (reached _ : linkedIcons.Reachable) [.addLink, .addNamed ["Star"] "./icons"]
    [.addTypes ["Glyph"] "./icons"] (by simp [ImportOperation.declares])
  exact ⟨laws.1, by decide +kernel, laws.2.1, laws.2.2.2.2.2.symm⟩

end Sample

end Pagewright

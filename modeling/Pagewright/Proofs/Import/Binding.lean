import Mathlib.Data.List.Perm.Basic
import Pagewright.Import.Collection
import Pagewright.Proofs.Ordered.Lookup
import Pagewright.Proofs.Text.Blank

/-!
# What imports bind

The local names of a collection are those that its modules declare, one by one. A
declaration adds the names it spells out and nothing else, and leaves the other
modules as they are.
-/

set_option autoImplicit false

namespace Pagewright

/-! ## Sorted entries and sets -/

namespace Sorted

variable {α : Type}

theorem mem_adjust {key : String} {f : Option α → α} {entries : List (String × α)}
    {entry : String × α} (h : entry ∈ adjust key f entries) :
    entry ∈ entries ∨ entry = (key, f none) ∨ ∃ v, (key, v) ∈ entries ∧ entry = (key, f (some v)) := by
  induction entries with
  | nil => exact .inr (.inl (by simpa [adjust] using h))
  | cons head rest ih =>
    obtain ⟨k, v⟩ := head
    by_cases hlt : key < k
    · rw [adjust, if_pos hlt] at h
      rcases List.mem_cons.mp h with rfl | h
      · exact .inr (.inl rfl)
      · exact .inl h
    · rw [adjust, if_neg hlt] at h
      by_cases heq : key = k
      · subst heq
        rw [if_pos rfl] at h
        rcases List.mem_cons.mp h with rfl | h
        · exact .inr (.inr ⟨v, by simp, rfl⟩)
        · exact .inl (List.mem_cons_of_mem _ h)
      · rw [if_neg heq] at h
        rcases List.mem_cons.mp h with rfl | h
        · exact .inl (by simp)
        · rcases ih h with h | h | ⟨w, hw, h⟩
          · exact .inl (List.mem_cons_of_mem _ h)
          · exact .inr (.inl h)
          · exact .inr (.inr ⟨w, List.mem_cons_of_mem _ hw, h⟩)

theorem lookup_adjust_ne {key other : String} (hne : other ≠ key) (f : Option α → α)
    (entries : List (String × α)) : lookup other (adjust key f entries) = lookup other entries := by
  induction entries with
  | nil => simp [adjust, lookup, hne.symm]
  | cons head rest ih =>
    obtain ⟨k, v⟩ := head
    by_cases hlt : key < k
    · rw [adjust, if_pos hlt, lookup, if_neg hne.symm]
    · by_cases heq : key = k
      · subst heq
        rw [adjust, if_neg hlt, if_pos rfl, lookup, if_neg hne.symm, lookup, if_neg hne.symm]
      · simp [adjust, hlt, heq, lookup, ih]

theorem lookup_adjust_new {key : String} (f : Option α → α) {entries : List (String × α)}
    (h : lookup key entries = none) : lookup key (adjust key f entries) = some (f none) := by
  induction entries with
  | nil => simp [adjust, lookup]
  | cons head rest ih =>
    obtain ⟨k, v⟩ := head
    have hk : k ≠ key := by
      rintro rfl
      simp [lookup] at h
    rw [lookup, if_neg hk] at h
    by_cases hlt : key < k
    · simp [adjust, hlt, lookup]
    · simp [adjust, hlt, hk.symm, lookup, hk, ih h]

theorem mem_insertAll (xs ys : List String) (y : String) :
    y ∈ insertAll xs ys ↔ y ∈ xs ∨ y ∈ ys := by
  induction ys generalizing xs with
  | nil => simp [insertAll]
  | cons z zs ih =>
    have step : insertAll xs (z :: zs) = insertAll (insert z xs) zs := rfl
    rw [step, ih, mem_insert, List.mem_cons, or_assoc, or_left_comm]

theorem insert_perm {x : String} {xs : List String} (h : x ∉ xs) :
    (insert x xs).Perm (x :: xs) := by
  induction xs with
  | nil => exact .refl _
  | cons y rest ih =>
    simp only [List.mem_cons, not_or] at h
    by_cases hlt : x < y
    · rw [insert, if_pos hlt]
    · rw [insert, if_neg hlt, if_neg h.1]
      exact ((ih h.2).cons y).trans (.swap x y rest)

theorem insertAll_perm {xs ys : List String} (h : (xs ++ ys).Nodup) :
    (insertAll xs ys).Perm (xs ++ ys) := by
  induction ys generalizing xs with
  | nil => simp [insertAll]
  | cons y rest ih =>
    have hmiddle : (xs ++ y :: rest).Perm (y :: (xs ++ rest)) := List.perm_middle
    have hn := hmiddle.nodup_iff.mp h
    have hy : y ∉ xs := fun hx => (List.nodup_cons.mp hn).1 (List.mem_append_left _ hx)
    have hstep : (insert y xs ++ rest).Perm (y :: (xs ++ rest)) := (insert_perm hy).append_right rest
    have step : insertAll xs (y :: rest) = insertAll (insert y xs) rest := rfl
    rw [step]
    exact (ih (hstep.nodup_iff.mpr hn)).trans (hstep.trans hmiddle.symm)

end Sorted

/-! ## Specifiers -/

theorem Text.wordsFrom_unbroken (word cs : List Char) (h : ∀ c ∈ cs, Text.isBlankChar c = false)
    (hne : word ≠ [] ∨ cs ≠ []) :
    Text.wordsFrom word cs = [String.ofList (word.reverse ++ cs)] := by
  induction cs generalizing word with
  | nil =>
    have hword : word.isEmpty = false := by simpa using hne
    simp [Text.wordsFrom, hword]
  | cons c rest ih =>
    rw [Text.wordsFrom, h c (by simp), if_neg (by decide),
      ih (c :: word) (fun d hd => h d (by simp [hd])) (.inl (by simp))]
    simp

theorem Text.mem_of_cutLast? {part cs : List Char} {halves : List Char × List Char}
    (h : Text.cutLast? part cs = some halves) : ∀ c ∈ part, c ∈ cs := by
  induction cs generalizing halves with
  | nil => simp [Text.cutLast?] at h
  | cons d rest ih =>
    intro c hc
    rw [Text.cutLast?] at h
    cases hrest : Text.cutLast? part rest with
    | some inner => exact List.mem_cons_of_mem _ (ih hrest c hc)
    | none =>
      rw [hrest] at h
      by_cases hp : part.isPrefixOf (d :: rest) = true
      · exact (List.isPrefixOf_iff_prefix.mp hp).subset hc
      · simp [hp] at h

/-- A name without white space is its own specifier and binds itself. -/
theorem specifier_unbroken {name : String} (h : Text.Unbroken name) :
    normalSpecifier name = name ∧ localName name = name := by
  have hchars : name.toList ≠ [] := fun hnil => h.1 (String.toList_eq_nil_iff.mp hnil)
  constructor
  · rw [normalSpecifier, Text.words,
      Text.wordsFrom_unbroken [] _ (fun _ hc => h.not_blank hc) (.inr hchars)]
    simp [Text.join]
  · have hcut : Text.cutLast? " as ".toList name.toList = none := by
      cases hc : Text.cutLast? " as ".toList name.toList with
      | none => rfl
      | some halves =>
        have hspace := Text.mem_of_cutLast? hc ' ' (by decide)
        exact absurd (h.not_blank hspace) (by decide)
    rw [localName, hcut]
    exact Text.trim_unbroken fun _ hc => h.not_blank hc

theorem specifiers_unbroken {names : List String}
    (h : ∀ name ∈ names, Text.Unbroken name) : specifiers names = names := by
  induction names with
  | nil => rfl
  | cons name rest ih =>
    have hname := h name (by simp)
    have hrest := ih fun n hn => h n (by simp [hn])
    rw [specifiers] at hrest ⊢
    simp [(specifier_unbroken hname).1, hname.1, hrest]

/-! ## Bindings -/

namespace Imports

theorem mem_statements_iff (imports : Imports) (s : ImportStatement) :
    s ∈ imports.statements ↔ ∃ entry ∈ imports.modules, statementOf entry.1 entry.2 = s := by
  have tiers : ∀ tier : ImportTier, tier ∈ ImportTier.all := by
    intro tier
    cases tier <;> decide
  rw [statements, List.mem_flatMap]
  constructor
  · rintro ⟨tier, _, hs⟩
    exact List.mem_map.mp (List.mem_of_mem_filter hs)
  · rintro ⟨entry, hentry, rfl⟩
    refine ⟨_, tiers (statementOf entry.1 entry.2).tier, ?_⟩
    exact List.mem_filter.mpr ⟨List.mem_map_of_mem hentry, by simp⟩

theorem mem_bindings_iff (imports : Imports) (name : String) :
    name ∈ imports.bindings ↔
      ∃ entry ∈ imports.modules, name ∈ (statementOf entry.1 entry.2).bindings := by
  rw [bindings, Sorted.mem_ofList, List.mem_flatMap]
  constructor
  · rintro ⟨s, hs, hname⟩
    obtain ⟨entry, hentry, rfl⟩ := (mem_statements_iff imports s).mp hs
    exact ⟨entry, hentry, hname⟩
  · rintro ⟨entry, hentry, hname⟩
    exact ⟨_, (mem_statements_iff imports _).mpr ⟨entry, hentry, rfl⟩, hname⟩

def Binds (P : String → Prop) (imports : Imports) : Prop := ∀ name ∈ imports.bindings, P name

variable {P : String → Prop} {imports : Imports}

theorem binds_empty : Binds P empty := by
  intro name h
  simp [mem_bindings_iff, empty] at h

/-- A change to one module is harmless if it adds only harmless names to any declarations. -/
theorem Binds.update (h : Binds P imports) (module : String) (f : ModuleImports → ModuleImports)
    (hf : ∀ entry : ModuleImports, (∀ name ∈ (statementOf module entry).bindings, P name) →
      ∀ name ∈ (statementOf module (f entry)).bindings, P name) :
    Binds P (imports.update module f) := by
  intro name hname
  obtain ⟨entry, hentry, hname⟩ := (mem_bindings_iff _ _).mp hname
  rcases Sorted.mem_adjust hentry with hold | rfl | ⟨v, hv, rfl⟩
  · exact h name ((mem_bindings_iff _ _).mpr ⟨entry, hold, hname⟩)
  · exact hf {} (by simp [statementOf, ImportStatement.bindings]) name hname
  · exact hf v (fun n hn => h n ((mem_bindings_iff _ _).mpr ⟨_, hv, hn⟩)) name hname

theorem Binds.addDefault (h : Binds P imports) {name : String} (hname : P name) (module : String) :
    Binds P (imports.addDefault name module) := by
  have hupdate : Binds P (imports.update module fun entry =>
      { entry with defaultName := some name }) := by
    apply h.update
    intro entry hentry n hn
    simp only [statementOf, ImportStatement.bindings, Option.toList_some, List.mem_append,
      List.mem_singleton] at hentry hn
    rcases hn with (rfl | hn) | hn
    · exact hname
    · exact hentry n (.inl (.inr hn))
    · exact hentry n (.inr hn)
  exact hupdate

theorem Binds.addNamed (h : Binds P imports) {names : List String}
    (hnames : ∀ name ∈ specifiers names, P (localName name)) (module : String) :
    Binds P (imports.addNamed names module) := by
  apply h.update
  intro entry hentry n hn
  simp only [statementOf, ImportStatement.bindings, List.map_append, List.mem_append, List.mem_map,
    Sorted.mem_insertAll] at hentry hn
  rcases hn with hn | ⟨m, hm | hm, rfl⟩ | hn
  · exact hentry n (.inl hn)
  · exact hentry _ (.inr (.inl ⟨m, hm, rfl⟩))
  · exact hnames m hm
  · exact hentry n (.inr (.inr hn))

theorem Binds.addTypes (h : Binds P imports) {names : List String}
    (hnames : ∀ name ∈ specifiers names, P (localName name)) (module : String) :
    Binds P (imports.addTypes names module) := by
  apply h.update
  intro entry hentry n hn
  simp only [statementOf, ImportStatement.bindings, List.map_append, List.mem_append, List.mem_map,
    Sorted.mem_insertAll] at hentry hn
  rcases hn with hn | hn | ⟨m, hm | hm, rfl⟩
  · exact hentry n (.inl hn)
  · exact hentry n (.inr (.inl hn))
  · exact hentry _ (.inr (.inr ⟨m, hm, rfl⟩))
  · exact hnames m hm

/-! ## Single modules -/

theorem find?_update_ne {module other : String} (hne : other ≠ module)
    (f : ModuleImports → ModuleImports) :
    (imports.update module f).find? other = imports.find? other :=
  Sorted.lookup_adjust_ne hne _ _

theorem find?_update_new {module : String} (h : imports.find? module = none)
    (f : ModuleImports → ModuleImports) :
    (imports.update module f).find? module = some (f {}) :=
  Sorted.lookup_adjust_new _ h

end Imports

end Pagewright

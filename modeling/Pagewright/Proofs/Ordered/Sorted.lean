import Mathlib.Data.List.Perm.Basic
import Mathlib.Data.List.Sort
import Mathlib.Data.String.Basic
import Pagewright.Ordered.Sorted
import Pagewright.Proofs.Ordered.Lookup

/-!
# Laws of sorted maps and sets

Where an entry goes is decided by its key alone: two changes under one key are one
change, and changes under different keys can be made in either order, in every list of
entries. From lists with increasing keys changes lead to such lists again, and there
a lookup reads back what was put in.
-/

set_option autoImplicit false

namespace Pagewright.Sorted

variable {α : Type}

theorem adjust_before {key k : String} (h : key < k) (f : Option α → α) (v : α)
    (rest : List (String × α)) :
    adjust key f ((k, v) :: rest) = (key, f none) :: (k, v) :: rest := by
  rw [adjust, if_pos h]

theorem adjust_here (key : String) (f : Option α → α) (v : α) (rest : List (String × α)) :
    adjust key f ((key, v) :: rest) = (key, f (some v)) :: rest := by
  rw [adjust, if_neg (String.lt_irrefl key), if_pos rfl]

theorem adjust_after {key k : String} (h : k < key) (f : Option α → α) (v : α)
    (rest : List (String × α)) :
    adjust key f ((k, v) :: rest) = (k, v) :: adjust key f rest := by
  rw [adjust, if_neg (String.lt_asymm h), if_neg h.ne']

theorem adjust_adjust (key : String) (f g : Option α → α) (entries : List (String × α)) :
    adjust key g (adjust key f entries) = adjust key (fun held => g (some (f held))) entries := by
  induction entries with
  | nil => exact adjust_here key g (f none) []
  | cons entry rest ih =>
    obtain ⟨k, v⟩ := entry
    rcases lt_trichotomy key k with h | rfl | h
    · rw [adjust_before h, adjust_before h, adjust_here]
    · rw [adjust_here, adjust_here, adjust_here]
    · rw [adjust_after h, adjust_after h, adjust_after h, ih]

theorem adjust_comm_of_lt {key other : String} (h : key < other) (f g : Option α → α)
    (entries : List (String × α)) :
    adjust key f (adjust other g entries) = adjust other g (adjust key f entries) := by
  induction entries with
  | nil =>
    simp only [adjust]
    simp [h, String.lt_asymm h, h.ne']
  | cons entry rest ih =>
    obtain ⟨k, v⟩ := entry
    rcases lt_trichotomy key k with hk | rfl | hk
    · -- the smaller key goes to the front, whatever happens behind it
      rw [adjust_before hk, adjust_after h]
      rcases lt_trichotomy other k with ho | rfl | ho
      · rw [adjust_before ho, adjust_before h]
      · rw [adjust_here, adjust_before h]
      · rw [adjust_after ho, adjust_before hk]
    · rw [adjust_here, adjust_after h, adjust_after h, adjust_here]
    · rw [adjust_after hk, adjust_after (hk.trans h), adjust_after (hk.trans h), adjust_after hk,
        ih]

/-- Changes under different keys do not disturb each other. -/
theorem adjust_comm {key other : String} (hne : key ≠ other) (f g : Option α → α)
    (entries : List (String × α)) :
    adjust key f (adjust other g entries) = adjust other g (adjust key f entries) := by
  rcases lt_or_gt_of_ne hne with h | h
  · exact adjust_comm_of_lt h f g entries
  · exact (adjust_comm_of_lt h g f entries).symm

/-- A changed key holds the outcome of the change. -/
theorem exists_lookup_adjust (key : String) (f : Option α → α) (entries : List (String × α)) :
    ∃ held, lookup key (adjust key f entries) = some (f held) := by
  induction entries with
  | nil => exact ⟨none, by simp [adjust, lookup]⟩
  | cons entry rest ih =>
    obtain ⟨k, v⟩ := entry
    rcases lt_trichotomy key k with h | rfl | h
    · exact ⟨none, by rw [adjust_before h, lookup, if_pos rfl]⟩
    · exact ⟨some v, by rw [adjust_here, lookup, if_pos rfl]⟩
    · rwa [adjust_after h, lookup, if_neg h.ne]

/-! ## Increasing keys -/

def Increasing (entries : List (String × α)) : Prop := (entries.map Prod.fst).Pairwise (· < ·)

theorem mem_keys_adjust (key other : String) (f : Option α → α) (entries : List (String × α)) :
    other ∈ (adjust key f entries).map Prod.fst ↔ other = key ∨ other ∈ entries.map Prod.fst := by
  induction entries with
  | nil => simp [adjust]
  | cons entry rest ih =>
    obtain ⟨k, v⟩ := entry
    rcases lt_trichotomy key k with h | rfl | h
    · simp [adjust_before h]
    · simp [adjust_here]
    · rw [adjust_after h, List.map_cons, List.mem_cons, ih, List.map_cons, List.mem_cons,
        or_left_comm]

theorem Increasing.adjust {entries : List (String × α)} (h : Increasing entries) (key : String)
    (f : Option α → α) : Increasing (adjust key f entries) := by
  induction entries with
  | nil => simp [Increasing, Sorted.adjust]
  | cons entry rest ih =>
    obtain ⟨k, v⟩ := entry
    obtain ⟨hk, hrest⟩ := List.pairwise_cons.mp h
    rcases lt_trichotomy key k with hlt | rfl | hlt
    · rw [adjust_before hlt]
      refine List.pairwise_cons.mpr ⟨?_, h⟩
      intro other hother
      rcases List.mem_cons.mp hother with rfl | hother
      · exact hlt
      · exact hlt.trans (hk other hother)
    · rw [adjust_here]
      exact List.pairwise_cons.mpr ⟨hk, hrest⟩
    · rw [adjust_after hlt]
      refine List.pairwise_cons.mpr ⟨?_, ih hrest⟩
      intro other hother
      rcases (mem_keys_adjust key other f rest).mp hother with rfl | hother
      · exact hlt
      · exact hk other hother

theorem Increasing.filter {entries : List (String × α)} (h : Increasing entries)
    (p : String × α → Bool) : Increasing (entries.filter p) :=
  h.sublist (List.filter_sublist.map Prod.fst)

/-- Under increasing keys, a change to what is there already is none. -/
theorem Increasing.adjust_self {entries : List (String × α)} (h : Increasing entries)
    {key : String} {value : α} (hmem : (key, value) ∈ entries) {f : Option α → α}
    (hf : f (some value) = value) : Sorted.adjust key f entries = entries := by
  induction entries with
  | nil => simp at hmem
  | cons entry rest ih =>
    obtain ⟨k, v⟩ := entry
    obtain ⟨hk, hrest⟩ := List.pairwise_cons.mp h
    rcases List.mem_cons.mp hmem with heq | hlater
    · cases heq
      rw [adjust_here, hf]
    · have hlt : k < key := hk key (List.mem_map_of_mem hlater)
      rw [adjust_after hlt, ih hrest hlater]

theorem lookup_adjust {entries : List (String × α)} (h : Increasing entries) (key : String)
    (f : Option α → α) : lookup key (adjust key f entries) = some (f (lookup key entries)) := by
  induction entries with
  | nil => simp [adjust, lookup]
  | cons entry rest ih =>
    obtain ⟨k, v⟩ := entry
    obtain ⟨hk, hrest⟩ := List.pairwise_cons.mp h
    rcases lt_trichotomy key k with hlt | rfl | hlt
    · have absent : lookup key ((k, v) :: rest) = none := by
        rw [lookup_eq_none_iff]
        intro hmem
        rcases List.mem_cons.mp hmem with heq | hmem
        · exact hlt.ne heq
        · exact String.lt_asymm hlt (hk key hmem)
      rw [adjust_before hlt, lookup, if_pos rfl, absent]
    · rw [adjust_here, lookup, if_pos rfl, lookup, if_pos rfl]
    · rw [adjust_after hlt, lookup, if_neg hlt.ne, ih hrest, lookup, if_neg hlt.ne]

theorem insert_increasing {xs : List String} (h : xs.Pairwise (· < ·)) (x : String) :
    (insert x xs).Pairwise (· < ·) := by
  induction xs with
  | nil => simp [insert]
  | cons y rest ih =>
    obtain ⟨hy, hrest⟩ := List.pairwise_cons.mp h
    rcases lt_trichotomy x y with hlt | rfl | hlt
    · rw [insert, if_pos hlt]
      refine List.pairwise_cons.mpr ⟨?_, h⟩
      intro z hz
      rcases List.mem_cons.mp hz with rfl | hz
      · exact hlt
      · exact hlt.trans (hy z hz)
    · rw [insert, if_neg (String.lt_irrefl x), if_pos rfl]
      exact h
    · rw [insert, if_neg (String.lt_asymm hlt), if_neg hlt.ne']
      refine List.pairwise_cons.mpr ⟨?_, ih hrest⟩
      intro z hz
      rcases (mem_insert x z rest).mp hz with rfl | hz
      · exact hlt
      · exact hy z hz

theorem insertAll_increasing {xs : List String} (h : xs.Pairwise (· < ·)) (ys : List String) :
    (insertAll xs ys).Pairwise (· < ·) := by
  induction ys generalizing xs with
  | nil => exact h
  | cons y rest ih => exact ih (insert_increasing h y)

theorem insertAll_append (xs ys zs : List String) :
    insertAll xs (ys ++ zs) = insertAll (insertAll xs ys) zs := by
  simp [insertAll]

theorem ofList_increasing (ys : List String) : (ofList ys).Pairwise (· < ·) :=
  insertAll_increasing .nil ys

/-- A set is told by its members. -/
theorem ofList_congr {xs ys : List String} (h : ∀ y, y ∈ xs ↔ y ∈ ys) : ofList xs = ofList ys := by
  refine (ofList_increasing xs).eq_of_mem_iff (ofList_increasing ys) fun y => ?_
  rw [mem_ofList, mem_ofList, h]

/-- A change under a key puts the key into the set of keys. -/
theorem keys_adjust (key : String) (f : Option α → α) (entries : List (String × α)) :
    (adjust key f entries).map Prod.fst = insert key (entries.map Prod.fst) := by
  induction entries with
  | nil => rfl
  | cons entry rest ih =>
    obtain ⟨k, v⟩ := entry
    by_cases hlt : key < k
    · simp [adjust, insert, hlt]
    · by_cases heq : key = k
      · simp [adjust, insert, heq]
      · simp [adjust, insert, hlt, heq, ih]

/-- Counts do not depend on the order in which names are met. -/
theorem tally_perm {names others : List String} (h : names.Perm others) :
    tally names = tally others := by
  have step : RightCommutative fun (acc : List (String × Nat)) name => count name acc := by
    constructor
    intro acc a b
    by_cases hab : b = a
    · rw [hab]
    · exact adjust_comm hab _ _ acc
  exact h.foldl_eq []

end Pagewright.Sorted

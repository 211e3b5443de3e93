import Mathlib.Data.List.Nodup
import Pagewright.Ordered.Map

/-!
# Reading ordered maps back

What a map built from a list of entries holds: under each key the last entry of
that key, and the keys by first appearance. With distinct keys a lookup finds
exactly the entries of the list.
-/

set_option autoImplicit false

namespace Pagewright

variable {α : Type}

theorem mem_of_lookup {κ : Type} [DecidableEq κ] {key : κ} {value : α} {entries : List (κ × α)}
    (h : lookup key entries = some value) : (key, value) ∈ entries := by
  induction entries with
  | nil => simp [lookup] at h
  | cons entry rest ih =>
    obtain ⟨k, v⟩ := entry
    by_cases hk : k = key
    · simp only [lookup, hk, if_true, Option.some.injEq] at h
      simp [hk, h]
    · rw [lookup, if_neg hk] at h
      exact List.mem_cons_of_mem _ (ih h)

theorem lookup_of_mem {key : String} {value : α} {entries : List (String × α)}
    (hn : (entries.map Prod.fst).Nodup) (h : (key, value) ∈ entries) :
    lookup key entries = some value := by
  induction entries with
  | nil => simp at h
  | cons entry rest ih =>
    obtain ⟨k, v⟩ := entry
    obtain ⟨hk, hr⟩ := List.nodup_cons.mp hn
    rcases List.mem_cons.mp h with heq | hrest
    · obtain ⟨rfl, rfl⟩ := Prod.mk.inj heq
      simp [lookup]
    · have hne : k ≠ key := by
        rintro rfl
        exact hk (List.mem_map.mpr ⟨_, hrest, rfl⟩)
      rw [lookup, if_neg hne]
      exact ih hr hrest

theorem lookup_eq_none_iff {key : String} {entries : List (String × α)} :
    lookup key entries = none ↔ key ∉ entries.map Prod.fst := by
  induction entries with
  | nil => simp [lookup]
  | cons entry rest ih =>
    obtain ⟨k, v⟩ := entry
    by_cases hk : k = key
    · simp [lookup, hk]
    · simp [lookup, hk, Ne.symm hk, ih]

theorem lookup_append (key : String) (a b : List (String × α)) :
    lookup key (a ++ b) = (lookup key a).or (lookup key b) := by
  induction a with
  | nil => simp [lookup]
  | cons entry rest ih =>
    obtain ⟨k, v⟩ := entry
    by_cases hk : k = key <;> simp [lookup, hk, ih]

/-- A lookup from the end finds the last of the values under a key. -/
theorem lookup_reverse (key : String) (entries : List (String × α)) :
    lookup key entries.reverse =
      ((entries.filter fun entry => entry.1 = key).map Prod.snd).getLast? := by
  induction entries with
  | nil => rfl
  | cons entry rest ih =>
    rw [List.reverse_cons, lookup_append, ih]
    by_cases hk : entry.1 = key
    · simp only [hk, lookup, if_true, decide_true, List.filter_cons_of_pos, List.map_cons]
      cases (rest.filter fun e => e.1 = key).map Prod.snd with
      | nil => rfl
      | cons v vs => simp [List.getLast?_eq_some_getLast]
    · simp [lookup, hk]

/-- Entries with distinct keys are told by the order of the keys and the values found under them. -/
theorem entries_eq_of_lookup {a b : List (String × α)} (hn : (a.map Prod.fst).Nodup)
    (hkeys : a.map Prod.fst = b.map Prod.fst) (h : ∀ key, lookup key a = lookup key b) : a = b := by
  induction a generalizing b with
  | nil => exact (List.map_eq_nil_iff.mp hkeys.symm).symm
  | cons entry rest ih =>
    cases b with
    | nil => simp at hkeys
    | cons other others =>
      obtain ⟨k, v⟩ := entry
      obtain ⟨k', w⟩ := other
      obtain ⟨rfl, hrest⟩ := List.cons.inj hkeys
      obtain ⟨hk, hn⟩ := List.nodup_cons.mp hn
      have value : v = w := by simpa [lookup] using h k
      have later : ∀ key, lookup key rest = lookup key others := by
        intro key
        by_cases hkey : k = key
        · subst hkey
          rw [lookup_eq_none_iff.mpr hk, lookup_eq_none_iff.mpr fun hmem => hk (hrest ▸ hmem)]
        · simpa [lookup, hkey] using h key
      rw [value, ih hn hrest later]

/-- Entries with distinct keys are the keys with what is found under them. -/
theorem map_entries_eq_map_keys {β : Type} {entries : List (String × α)}
    (hn : (entries.map Prod.fst).Nodup) (absent : α) (f : String → α → β) :
    entries.map (fun entry => f entry.1 entry.2) =
      (entries.map Prod.fst).map fun key => f key ((lookup key entries).getD absent) := by
  rw [List.map_map]
  apply List.map_congr_left
  intro entry hentry
  rw [Function.comp_apply, lookup_of_mem hn hentry, Option.getD_some]

theorem put_new {key : String} {value : α} {entries : List (String × α)}
    (h : key ∉ entries.map Prod.fst) : put key value entries = entries ++ [(key, value)] := by
  induction entries with
  | nil => rfl
  | cons entry rest ih =>
    obtain ⟨k, v⟩ := entry
    simp only [List.map_cons, List.mem_cons, not_or] at h
    rw [put, if_neg (Ne.symm h.1), ih h.2]
    rfl

namespace OrderedMap

theorem find?_eq_none_iff {m : OrderedMap α} {key : String} :
    m.find? key = none ↔ key ∉ m.keys := lookup_eq_none_iff

theorem mem_entries_iff {m : OrderedMap α} {key : String} {value : α} :
    (key, value) ∈ m.entries ↔ m.find? key = some value :=
  ⟨lookup_of_mem m.keys_nodup, mem_of_lookup⟩

/-- Of the entries with one key the last one counts. -/
theorem find?_insertAll (m : OrderedMap α) (entries : List (String × α)) (key : String) :
    (m.insertAll entries).find? key = (lookup key entries.reverse).or (m.find? key) := by
  induction entries generalizing m with
  | nil => simp [insertAll, lookup]
  | cons entry rest ih =>
    have step : m.insertAll (entry :: rest) = (m.insert entry.1 entry.2).insertAll rest := rfl
    rw [step, ih, List.reverse_cons, lookup_append, find?_insert]
    by_cases hk : entry.1 = key <;> simp [lookup, hk]

theorem find?_ofList (entries : List (String × α)) (key : String) :
    (ofList entries).find? key = lookup key entries.reverse := by
  rw [ofList, find?_insertAll]
  simp [find?, empty, lookup]

theorem keys_insertAll (m : OrderedMap α) (entries : List (String × α)) :
    (m.insertAll entries).keys = FirstSeen.addAll m.keys (entries.map Prod.fst) := by
  induction entries generalizing m with
  | nil => rfl
  | cons entry rest ih =>
    have step : m.insertAll (entry :: rest) = (m.insert entry.1 entry.2).insertAll rest := rfl
    rw [step, ih, keys_insert]
    rfl

theorem keys_ofList (entries : List (String × α)) :
    (ofList entries).keys = FirstSeen.ofList (entries.map Prod.fst) :=
  keys_insertAll empty entries

theorem mem_keys_ofList (entries : List (String × α)) (key : String) :
    key ∈ (ofList entries).keys ↔ key ∈ entries.map Prod.fst := by
  rw [keys_ofList, FirstSeen.ofList, FirstSeen.mem_addAll]
  simp

theorem find?_ofList_of_mem {entries : List (String × α)} {key : String} {value : α}
    (hn : (entries.map Prod.fst).Nodup) (h : (key, value) ∈ entries) :
    (ofList entries).find? key = some value := by
  rw [find?_ofList]
  apply lookup_of_mem
  · rw [List.map_reverse]
    exact List.nodup_reverse.mpr hn
  · exact List.mem_reverse.mpr h

theorem eq_of_find? {m n : OrderedMap α} (hkeys : m.keys = n.keys)
    (h : ∀ key, m.find? key = n.find? key) : m = n := by
  obtain ⟨entries, hn⟩ := m
  obtain ⟨others, hothers⟩ := n
  obtain rfl : entries = others := entries_eq_of_lookup hn hkeys h
  rfl

/-- With distinct keys nothing is replaced. -/
theorem entries_ofList {entries : List (String × α)} (hn : (entries.map Prod.fst).Nodup) :
    (ofList entries).entries = entries := by
  have general : ∀ m : OrderedMap α, ((m.entries ++ entries).map Prod.fst).Nodup →
      (m.insertAll entries).entries = m.entries ++ entries := by
    induction entries with
    | nil => intro m _; simp [insertAll]
    | cons entry rest ih =>
      intro m hm
      have hnew : entry.1 ∉ m.entries.map Prod.fst := by
        rw [List.map_append, List.nodup_append] at hm
        exact fun hmem => hm.2.2 _ hmem entry.1 (by simp) rfl
      have step : (m.insert entry.1 entry.2).entries = m.entries ++ [entry] := put_new hnew
      have later := ih (List.nodup_cons.mp hn).2 (m.insert entry.1 entry.2)
      rw [step, List.append_assoc, List.singleton_append] at later
      exact later hm
  exact general empty hn

end OrderedMap

end Pagewright

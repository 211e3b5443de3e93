import Mathlib.Algebra.Ring.Nat
import Mathlib.Data.List.Induction
import Pagewright.Proofs.Import.Binding
import Pagewright.Proofs.Ordered.Sorted

/-!
# Adding tallies

A tally tells how often each name occurs. Raising the counts of one tally by those of
another is done name by name; no two raises disturb each other, so that adding is
associative on all lists of entries, sorted or not. On sorted ones every count of the
sum is the sum of the counts, and the names are those of either tally.
-/

set_option autoImplicit false

namespace Pagewright.Sorted

def countOf (name : String) (tally : List (String × Nat)) : Nat := (lookup name tally).getD 0

def raise (name : String) (more : Nat) (tally : List (String × Nat)) : List (String × Nat) :=
  adjust name (fun held => held.getD 0 + more) tally

theorem addTallies_cons (a b : List (String × Nat)) (name : String) (more : Nat) :
    addTallies a ((name, more) :: b) = addTallies (raise name more a) b := rfl

/-! ## Order and grouping -/

theorem raise_raise (name : String) (m n : Nat) (tally : List (String × Nat)) :
    raise name n (raise name m tally) = raise name (m + n) tally := by
  simp only [raise, adjust_adjust, Option.getD_some, Nat.add_assoc]

theorem raise_comm (name other : String) (m n : Nat) (tally : List (String × Nat)) :
    raise name m (raise other n tally) = raise other n (raise name m tally) := by
  by_cases h : name = other
  · rw [h, raise_raise, raise_raise, Nat.add_comm]
  · exact adjust_comm h _ _ tally

theorem addTallies_raise (name : String) (more : Nat) (a b : List (String × Nat)) :
    addTallies (raise name more a) b = raise name more (addTallies a b) := by
  induction b generalizing a with
  | nil => rfl
  | cons entry rest ih =>
    obtain ⟨other, n⟩ := entry
    rw [addTallies_cons, addTallies_cons, raise_comm, ih]

/-- A raise may as well be made before the addition. -/
theorem addTallies_raise_right (name : String) (more : Nat) (a b : List (String × Nat)) :
    addTallies a (raise name more b) = raise name more (addTallies a b) := by
  induction b generalizing a with
  | nil =>
    have opened : raise name more [] = [(name, 0 + more)] := rfl
    rw [opened, Nat.zero_add]
    rfl
  | cons entry rest ih =>
    obtain ⟨other, n⟩ := entry
    rw [raise]
    rcases lt_trichotomy name other with h | rfl | h
    · rw [adjust_before h, addTallies_cons, Option.getD_none, Nat.zero_add, addTallies_raise]
    · rw [adjust_here, addTallies_cons, Option.getD_some, ← raise_raise, addTallies_raise,
        addTallies_cons]
    · rw [adjust_after h, addTallies_cons, addTallies_cons]
      exact ih (raise other n a)

theorem addTallies_assoc (a b c : List (String × Nat)) :
    addTallies (addTallies a b) c = addTallies a (addTallies b c) := by
  induction c generalizing b with
  | nil => rfl
  | cons entry rest ih =>
    obtain ⟨name, n⟩ := entry
    rw [addTallies_cons, addTallies_cons, ← addTallies_raise_right, ih]

/-! ## Counts -/

theorem Increasing.raise {tally : List (String × Nat)} (h : Increasing tally) (name : String)
    (more : Nat) : Increasing (raise name more tally) :=
  h.adjust name _

theorem Increasing.addTallies {a : List (String × Nat)} (h : Increasing a)
    (b : List (String × Nat)) : Increasing (addTallies a b) := by
  induction b generalizing a with
  | nil => exact h
  | cons entry rest ih => exact ih (h.raise entry.1 entry.2)

theorem tally_increasing (names : List String) : Increasing (tally names) := by
  have run : ∀ acc : List (String × Nat), Increasing acc →
      Increasing (names.foldl (fun acc name => count name acc) acc) := by
    induction names with
    | nil => exact fun _ h => h
    | cons name rest ih => exact fun acc h => ih _ (h.adjust name _)
  exact run [] .nil

theorem mem_keys_addTallies (name : String) (a b : List (String × Nat)) :
    name ∈ (addTallies a b).map Prod.fst ↔ name ∈ a.map Prod.fst ∨ name ∈ b.map Prod.fst := by
  induction b generalizing a with
  | nil => simp [addTallies]
  | cons entry rest ih =>
    obtain ⟨other, n⟩ := entry
    rw [addTallies_cons, ih, raise, mem_keys_adjust, List.map_cons, List.mem_cons, or_assoc,
      or_left_comm]

theorem countOf_raise {tally : List (String × Nat)} (h : Increasing tally) (name other : String)
    (more : Nat) :
    countOf name (raise other more tally) =
      countOf name tally + if other = name then more else 0 := by
  unfold countOf raise
  by_cases heq : other = name
  · rw [heq, lookup_adjust h, Option.getD_some, if_pos rfl]
  · rw [lookup_adjust_ne (Ne.symm heq), if_neg heq, Nat.add_zero]

theorem countOf_cons {other : String} {n : Nat} {rest : List (String × Nat)}
    (h : Increasing ((other, n) :: rest)) (name : String) :
    countOf name ((other, n) :: rest) = (if other = name then n else 0) + countOf name rest := by
  unfold countOf
  by_cases heq : other = name
  · have absent : lookup name rest = none := by
      rw [lookup_eq_none_iff]
      intro hmem
      exact String.lt_irrefl name (heq ▸ (List.pairwise_cons.mp h).1 name hmem)
    simp [lookup, heq, absent]
  · simp [lookup, heq]

/-- Every count of the sum is the sum of the counts. -/
theorem countOf_addTallies {a b : List (String × Nat)} (ha : Increasing a) (hb : Increasing b)
    (name : String) : countOf name (addTallies a b) = countOf name a + countOf name b := by
  induction b generalizing a with
  | nil => rfl
  | cons entry rest ih =>
    obtain ⟨other, n⟩ := entry
    rw [addTallies_cons, ih (ha.raise other n) (List.pairwise_cons.mp hb).2, countOf_raise ha,
      countOf_cons hb, Nat.add_assoc]

/-! ## Totals -/

theorem tally_append_singleton (names : List String) (name : String) :
    tally (names ++ [name]) = raise name 1 (tally names) := by
  rw [tally, List.foldl_append]
  rfl

/-- A tally counts each name as often as it occurs. -/
theorem countOf_tally (name : String) (names : List String) :
    countOf name (tally names) = names.count name := by
  induction names using List.reverseRecOn with
  | nil => rfl
  | append_singleton names last ih =>
    rw [tally_append_singleton, countOf_raise (tally_increasing names), ih, List.count_append,
      List.count_singleton]
    simp only [beq_iff_eq]

theorem sum_raise (name : String) (more : Nat) (tally : List (String × Nat)) :
    ((raise name more tally).map Prod.snd).sum = (tally.map Prod.snd).sum + more := by
  induction tally with
  | nil => simp [raise, adjust]
  | cons entry rest ih =>
    obtain ⟨other, n⟩ := entry
    rw [raise]
    rcases lt_trichotomy name other with h | rfl | h
    · rw [adjust_before h]
      simp only [List.map_cons, List.sum_cons, Option.getD_none]
      omega
    · rw [adjust_here]
      simp only [List.map_cons, List.sum_cons, Option.getD_some]
      omega
    · rw [adjust_after h, List.map_cons, List.map_cons, List.sum_cons, List.sum_cons,
        Nat.add_assoc, ← ih]
      rfl

/-- The counts of a tally add up to the number of names. -/
theorem sum_tally (names : List String) :
    ((tally names).map Prod.snd).sum = names.length := by
  induction names using List.reverseRecOn with
  | nil => rfl
  | append_singleton names last ih =>
    rw [tally_append_singleton, sum_raise, ih, List.length_append, List.length_singleton]

/-! ## Names in order -/

/-- Names in order are added one after the other at the end. -/
theorem addTallies_increasing {a b : List (String × Nat)} (h : Increasing (a ++ b)) :
    addTallies a b = a ++ b := by
  induction b generalizing a with
  | nil => simp [addTallies]
  | cons entry rest ih =>
    obtain ⟨name, n⟩ := entry
    have last : raise name n a = a ++ [(name, n)] := by
      have before : ∀ k ∈ a.map Prod.fst, k < name := by
        rw [Increasing, List.map_append, List.pairwise_append] at h
        exact fun k hk => h.2.2 k hk name (by simp)
      clear h ih
      induction a with
      | nil => simp [raise, adjust]
      | cons first others ih =>
        rw [raise, adjust_after (before first.1 (by simp)), List.cons_append]
        exact congrArg (List.cons first) (ih fun k hk => before k (List.mem_cons_of_mem _ hk))
    rw [addTallies_cons, last, ih (by simpa using h), List.append_assoc, List.singleton_append]

theorem addTallies_nil {b : List (String × Nat)} (h : Increasing b) : addTallies [] b = b :=
  addTallies_increasing (a := []) h

end Pagewright.Sorted

import Mathlib.Data.List.Basic
import Mathlib.Data.List.Induction
import Pagewright.Ordered.FirstSeen

/-!
# Laws of first-seen sequences

Growing a sequence keeps of each value its first occurrence. The outcome is therefore
told by the additions alone, and adding a sequence that was grown is adding all that it
was grown from.
-/

set_option autoImplicit false

namespace Pagewright.FirstSeen

variable {α : Type} [DecidableEq α]

/-- What is added to a sequence is what it does not hold yet, each value at its first place. -/
theorem addAll_eq_append_eraseDups (xs ys : List α) :
    addAll xs ys = xs ++ (ys.filter (· ∉ xs)).eraseDups := by
  induction ys generalizing xs with
  | nil => simp
  | cons y ys ih =>
    by_cases hy : y ∈ xs
    · simp [add, hy, ih]
    · have later : ys.filter (· ∉ xs ++ [y]) = (ys.filter (· ∉ xs)).filter (fun z => !z == y) := by
        rw [List.filter_filter]
        apply List.filter_congr
        intro z _
        simp [Bool.and_comm, beq_eq_decide]
      rw [addAll_cons, add, if_neg hy, ih, later, List.filter_cons_of_pos (by simpa using hy),
        List.eraseDups_cons]
      simp

theorem ofList_eq_eraseDups (ys : List α) : ofList ys = ys.eraseDups := by
  simp [ofList, addAll_eq_append_eraseDups]

theorem mem_ofList (ys : List α) (y : α) : y ∈ ofList ys ↔ y ∈ ys := by
  rw [ofList, mem_addAll]
  simp

theorem nodup_ofList (ys : List α) : (ofList ys).Nodup := nodup_addAll [] ys List.nodup_nil

theorem addAll_add (xs ys : List α) (z : α) : addAll xs (add ys z) = add (addAll xs ys) z := by
  by_cases hz : z ∈ ys
  · have held : z ∈ addAll xs ys := (mem_addAll xs ys z).mpr (.inr hz)
    simp [add, hz, held]
  · rw [add, if_neg hz, addAll_append]
    rfl

/-- To add a sequence that was itself grown is to add all that it was grown from. -/
theorem addAll_addAll (xs ys zs : List α) :
    addAll xs (addAll ys zs) = addAll (addAll xs ys) zs := by
  induction zs generalizing ys with
  | nil => rfl
  | cons z zs ih => rw [addAll_cons, addAll_cons, ih, addAll_add]

theorem addAll_ofList (xs ys : List α) : addAll (ofList xs) (ofList ys) = ofList (xs ++ ys) := by
  rw [ofList, ofList, ofList, addAll_addAll, addAll_nil, addAll_append]

/-- Distinct values are added in their order, less those that were seen. -/
theorem addAll_of_nodup (xs : List α) {ys : List α} (h : ys.Nodup) :
    addAll xs ys = xs ++ ys.filter (· ∉ xs) := by
  induction ys generalizing xs with
  | nil => simp
  | cons y ys ih =>
    obtain ⟨hy, hys⟩ := List.nodup_cons.mp h
    rw [addAll_cons, ih _ hys, add]
    split
    · rename_i hseen
      simp [hseen]
    · rename_i hnew
      have later : ys.filter (· ∉ xs ++ [y]) = ys.filter (· ∉ xs) := by
        apply List.filter_congr
        intro z hz
        have hne : z ≠ y := fun heq => hy (heq ▸ hz)
        simp [hne]
      rw [later]
      simp [hnew]

theorem ofList_append_singleton (ys : List α) (y : α) :
    ofList (ys ++ [y]) = add (ofList ys) y := by
  rw [ofList, addAll_append]
  rfl

/-- The outcomes of a function are kept as the outcomes of some of the arguments. -/
theorem exists_ofList_map {β : Type} (f : β → α) (values : List β) :
    ∃ kept : List β, kept.Sublist values ∧ ofList (values.map f) = kept.map f := by
  induction values using List.reverseRecOn with
  | nil => exact ⟨[], List.Sublist.refl _, rfl⟩
  | append_singleton values value ih =>
    obtain ⟨kept, hsublist, hkept⟩ := ih
    rw [List.map_append, List.map_singleton, ofList_append_singleton, add]
    split
    · exact ⟨kept, hsublist.trans (List.sublist_append_left _ _), hkept⟩
    · refine ⟨kept ++ [value], hsublist.append (List.Sublist.refl _), ?_⟩
      rw [hkept, List.map_append, List.map_singleton]

/-- The order is that of first places. -/
theorem ofList_pairwise_idxOf (ys : List α) :
    (ofList ys).Pairwise fun a b => ys.idxOf a < ys.idxOf b := by
  induction ys using List.reverseRecOn with
  | nil => exact .nil
  | append_singleton ys y ih =>
    have before : ∀ a ∈ ofList ys, (ys ++ [y]).idxOf a = ys.idxOf a :=
      fun a ha => List.idxOf_append_of_mem ((mem_ofList ys a).mp ha)
    have kept : (ofList ys).Pairwise fun a b => (ys ++ [y]).idxOf a < (ys ++ [y]).idxOf b := by
      refine ih.imp_of_mem fun {a b} ha hb hlt => ?_
      rwa [before a ha, before b hb]
    rw [ofList_append_singleton, add]
    split
    · exact kept
    · rename_i hnew
      refine List.pairwise_append.mpr ⟨kept, List.pairwise_singleton _ y, ?_⟩
      intro a ha b hb
      rw [List.mem_singleton.mp hb, before a ha,
        List.idxOf_append_of_notMem fun hy => hnew ((mem_ofList ys y).mpr hy)]
      exact Nat.lt_add_right _ (List.idxOf_lt_length_iff.mpr ((mem_ofList ys a).mp ha))

end Pagewright.FirstSeen

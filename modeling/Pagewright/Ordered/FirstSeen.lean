/-!
# Sequences in first-seen order

A sequence grows at its end and never holds a value twice: adding a value
that is already present changes nothing. The order is that of first
appearance, so the sequence is a function of the additions alone.
-/

set_option autoImplicit false

namespace Pagewright.FirstSeen

variable {α : Type} [DecidableEq α]

def add (xs : List α) (x : α) : List α := if x ∈ xs then xs else xs ++ [x]

def addAll (xs ys : List α) : List α := ys.foldl add xs

def ofList (ys : List α) : List α := addAll [] ys

@[simp] theorem mem_add (xs : List α) (x y : α) : y ∈ add xs x ↔ y ∈ xs ∨ y = x := by
  unfold add
  split
  · constructor
    · exact Or.inl
    · rintro (h | rfl)
      · exact h
      · assumption
  · simp

theorem nodup_add (xs : List α) (x : α) (h : xs.Nodup) : (add xs x).Nodup := by
  unfold add
  split
  · exact h
  · rename_i hx
    rw [List.nodup_append]
    refine ⟨h, by simp, ?_⟩
    intro a ha b hb heq
    rw [List.mem_singleton] at hb
    exact hx (hb ▸ heq ▸ ha)

@[simp] theorem addAll_nil (xs : List α) : addAll xs [] = xs := rfl

@[simp] theorem addAll_cons (xs ys : List α) (y : α) :
    addAll xs (y :: ys) = addAll (add xs y) ys := rfl

theorem addAll_append (xs ys zs : List α) :
    addAll xs (ys ++ zs) = addAll (addAll xs ys) zs := by
  simp [addAll]

theorem mem_addAll (xs ys : List α) (y : α) : y ∈ addAll xs ys ↔ y ∈ xs ∨ y ∈ ys := by
  induction ys generalizing xs with
  | nil => simp
  | cons z zs ih => simp [ih, or_assoc]

theorem nodup_addAll (xs ys : List α) (h : xs.Nodup) : (addAll xs ys).Nodup := by
  induction ys generalizing xs with
  | nil => exact h
  | cons y ys ih => exact ih _ (nodup_add xs y h)

end Pagewright.FirstSeen

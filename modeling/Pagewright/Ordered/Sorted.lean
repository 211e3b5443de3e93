/-!
# Sorted text sets and maps

Text is ordered by code point. A set is a strictly increasing list, a map a
list of entries with strictly increasing keys; both are grown one insertion
at a time, so equal contents give equal lists.
-/

set_option autoImplicit false

namespace Pagewright.Sorted

def insert (x : String) : List String → List String
  | [] => [x]
  | y :: rest => if x < y then x :: y :: rest else if x = y then y :: rest else y :: insert x rest

def insertAll (xs ys : List String) : List String := ys.foldl (fun acc y => insert y acc) xs

def ofList (ys : List String) : List String := insertAll [] ys

theorem mem_insert (x y : String) (xs : List String) : y ∈ insert x xs ↔ y = x ∨ y ∈ xs := by
  induction xs with
  | nil => simp [insert]
  | cons z rest ih =>
    by_cases hlt : x < z
    · simp [insert, hlt]
    · by_cases heq : x = z
      · simp [insert, heq]
      · simp [insert, hlt, heq, ih, or_left_comm]

theorem mem_ofList (ys : List String) (y : String) : y ∈ ofList ys ↔ y ∈ ys := by
  have general : ∀ xs : List String, y ∈ insertAll xs ys ↔ y ∈ xs ∨ y ∈ ys := by
    induction ys with
    | nil => simp [insertAll]
    | cons z zs ih =>
      intro xs
      have step : insertAll xs (z :: zs) = insertAll (insert z xs) zs := rfl
      rw [step, ih, mem_insert, List.mem_cons]
      constructor
      · rintro ((h | h) | h)
        · exact .inr (.inl h)
        · exact .inl h
        · exact .inr (.inr h)
      · rintro (h | h | h)
        · exact .inl (.inr h)
        · exact .inl (.inl h)
        · exact .inr h
  simpa [ofList] using general []

def adjust {α : Type} (key : String) (f : Option α → α) : List (String × α) → List (String × α)
  | [] => [(key, f none)]
  | (k, v) :: rest =>
    if key < k then (key, f none) :: (k, v) :: rest
    else if key = k then (k, f (some v)) :: rest
    else (k, v) :: adjust key f rest

def count (name : String) (tally : List (String × Nat)) : List (String × Nat) :=
  adjust name (fun n => n.getD 0 + 1) tally

def tally (names : List String) : List (String × Nat) :=
  names.foldl (fun acc name => count name acc) []

def addTallies (a b : List (String × Nat)) : List (String × Nat) :=
  b.foldl (fun acc entry => adjust entry.1 (fun n => n.getD 0 + entry.2) acc) a

end Pagewright.Sorted

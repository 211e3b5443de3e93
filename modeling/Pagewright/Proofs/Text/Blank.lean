import Mathlib.Data.List.TakeWhile
import Pagewright.Text.Blank

/-!
# Trimming

What trimming leaves of a text: nothing exactly when the text is blank, and the same
whatever white space is put around the text.
-/

set_option autoImplicit false

namespace Pagewright.Text

theorem trimStart_eq_nil_iff (cs : List Char) : trimStart cs = [] ↔ ∀ c ∈ cs, isBlankChar c :=
  List.dropWhile_eq_nil_iff

theorem trimEnd_eq_nil_iff (cs : List Char) : trimEnd cs = [] ↔ ∀ c ∈ cs, isBlankChar c := by
  simp [trimEnd, List.dropWhile_eq_nil_iff]

theorem trimStart_append (a cs : List Char) (ha : ∀ c ∈ a, isBlankChar c) :
    trimStart (a ++ cs) = trimStart cs :=
  List.dropWhile_append_of_pos ha

theorem trimEnd_append (cs b : List Char) (hb : ∀ c ∈ b, isBlankChar c) :
    trimEnd (cs ++ b) = trimEnd cs := by
  rw [trimEnd, List.reverse_append, List.dropWhile_append_of_pos (by simpa using hb), trimEnd]

/-- The white space around a text does not matter. -/
theorem trim_pad (a cs b : List Char) (ha : ∀ c ∈ a, isBlankChar c)
    (hb : ∀ c ∈ b, isBlankChar c) :
    trimEnd (trimStart (a ++ cs ++ b)) = trimEnd (trimStart cs) := by
  rw [List.append_assoc, trimStart_append a _ ha]
  by_cases hcs : trimStart cs = []
  · have hblank := (trimStart_eq_nil_iff cs).mp hcs
    rw [trimStart_append cs b hblank, hcs, (trimStart_eq_nil_iff b).mpr hb]
  · have hsplit : trimStart (cs ++ b) = trimStart cs ++ b := by
      have hne : (cs.dropWhile isBlankChar).isEmpty = false := by simpa [trimStart] using hcs
      rw [trimStart, List.dropWhile_append, hne, if_neg (by decide), trimStart]
    rw [hsplit, trimEnd_append _ b hb]

theorem trim_eq_empty_iff (s : String) : trim s = "" ↔ isBlank s = true := by
  rw [trim, String.ofList_eq_empty_iff, trimEnd_eq_nil_iff, isBlank, List.all_eq_true]
  constructor
  · intro h
    rw [← trimStart_eq_nil_iff]
    by_contra hne
    have hhead := List.head_dropWhile_not isBlankChar hne
    exact absurd (h _ (List.head_mem hne)) (by simp [trimStart, hhead])
  · intro h
    rw [(trimStart_eq_nil_iff _).mpr h]
    simp

theorem trim_unbroken {s : String} (h : ∀ c ∈ s.toList, isBlankChar c = false) :
    trim s = s := by
  have keep : ∀ cs : List Char, (∀ c ∈ cs, isBlankChar c = false) →
      cs.dropWhile isBlankChar = cs := by
    intro cs hcs
    cases cs with
    | nil => rfl
    | cons c rest => simp [hcs c (by simp)]
  rw [trim, trimStart, keep _ h, trimEnd, keep _ (by simpa using h),
    List.reverse_reverse, String.ofList_toList]

def Unbroken (s : String) : Prop := s ≠ "" ∧ s.toList.all (fun c => !isBlankChar c) = true

instance (s : String) : Decidable (Unbroken s) :=
  inferInstanceAs (Decidable (s ≠ "" ∧ s.toList.all (fun c => !isBlankChar c) = true))

theorem Unbroken.not_blank {s : String} (h : Unbroken s) {c : Char} (hc : c ∈ s.toList) :
    isBlankChar c = false := by
  simpa using List.all_eq_true.mp h.2 c hc

theorem Unbroken.append {s t : String} (hs : Unbroken s) (ht : Unbroken t) : Unbroken (s ++ t) := by
  refine ⟨fun h => ?_, ?_⟩
  · exact hs.1 (String.append_eq_empty_iff.mp h).1
  · rw [String.toList_append, List.all_append, hs.2, ht.2, Bool.and_true]

/-- Printable characters of the basic range are no white space. -/
theorem isBlankChar_printable {c : Char} (low : 0x21 ≤ c.toNat) (high : c.toNat ≤ 0x7e) :
    isBlankChar c = false := by
  simp only [isBlankChar, inRanges, blankRanges, List.any_cons, List.any_nil, Bool.or_false,
    Bool.or_eq_false_iff, Bool.and_eq_false_iff, decide_eq_false_iff_not]
  omega

end Pagewright.Text

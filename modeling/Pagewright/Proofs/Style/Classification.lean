import Mathlib.Data.List.Basic
import Pagewright.Style.Sheet

/-!
# Where style properties go

A style sheet files every style under the camel-case name of its property: with the
covered properties where the style has a class, with the inline ones where it has
none. What a sheet holds after a run is told by the styles alone, whatever their
order. No property of the map is lost, but a property that the map spells in two ways
is filed twice if one of its values has a class and the other has none.
-/

set_option autoImplicit false

namespace Pagewright.StyleSheet

def nameOf (style : String × StyleValue) : String := StyleProperty.camelCase style.1

def HasClass (style : String × StyleValue) : Prop :=
  (Style.token (nameOf style) style.2).isSome = true

instance (style : String × StyleValue) : Decidable (HasClass style) :=
  inferInstanceAs (Decidable ((Style.token (nameOf style) style.2).isSome = true))

variable (sheet : StyleSheet) (name : String)

theorem add_of_token {property cls : String} {value : StyleValue}
    (h : Style.token (StyleProperty.camelCase property) value = some cls) :
    sheet.add property value = { sheet with
      classes := FirstSeen.add sheet.classes cls
      covered := FirstSeen.add sheet.covered (StyleProperty.camelCase property) } := by
  unfold add
  simp only [h]

theorem add_of_no_token {property : String} {value : StyleValue}
    (h : Style.token (StyleProperty.camelCase property) value = none) :
    sheet.add property value =
      { sheet with inline := sheet.inline.insert (StyleProperty.camelCase property) value } := by
  unfold add
  simp only [h]

/-- One style more is filed as covered or as inline, as it has a class or not. -/
theorem mem_add (style : String × StyleValue) :
    (name ∈ (sheet.add style.1 style.2).covered ↔
      name ∈ sheet.covered ∨ name = nameOf style ∧ HasClass style) ∧
    (name ∈ (sheet.add style.1 style.2).inline.keys ↔
      name ∈ sheet.inline.keys ∨ name = nameOf style ∧ ¬ HasClass style) := by
  unfold HasClass nameOf
  cases h : Style.token (StyleProperty.camelCase style.1) style.2 with
  | some cls => simp [add_of_token sheet h]
  | none => simp [add_of_no_token sheet h]

theorem addAll_cons (style : String × StyleValue) (rest : List (String × StyleValue)) :
    sheet.addAll (style :: rest) = (sheet.add style.1 style.2).addAll rest := by
  rw [addAll, List.foldl_cons, addAll]

theorem mem_addAll (styles : List (String × StyleValue)) :
    (name ∈ (sheet.addAll styles).covered ↔
      name ∈ sheet.covered ∨ ∃ style ∈ styles, name = nameOf style ∧ HasClass style) ∧
    (name ∈ (sheet.addAll styles).inline.keys ↔
      name ∈ sheet.inline.keys ∨ ∃ style ∈ styles, name = nameOf style ∧ ¬ HasClass style) := by
  induction styles generalizing sheet with
  | nil => simp [addAll]
  | cons style rest ih =>
    obtain ⟨covered, inline⟩ := sheet.mem_add name style
    obtain ⟨later, laterInline⟩ := ih (sheet.add style.1 style.2)
    rw [addAll_cons, later, laterInline, covered, inline, List.exists_mem_cons_iff,
      List.exists_mem_cons_iff, or_assoc, or_assoc]
    exact ⟨Iff.rfl, Iff.rfl⟩

/-- A sheet made from a map covers the properties with a style that has a class. -/
theorem mem_covered_ofStyles (styles : OrderedMap StyleValue) :
    name ∈ (ofStyles styles).covered ↔
      ∃ style ∈ styles.entries, name = nameOf style ∧ HasClass style := by
  rw [ofStyles, (mem_addAll _ _ _).1]
  simp [empty]

theorem mem_inline_ofStyles (styles : OrderedMap StyleValue) :
    name ∈ (ofStyles styles).inline.keys ↔
      ∃ style ∈ styles.entries, name = nameOf style ∧ ¬ HasClass style := by
  rw [ofStyles, (mem_addAll _ _ _).2]
  simp [empty, OrderedMap.empty, OrderedMap.keys]

/-- Every property is classified, and nothing else is. -/
theorem classified_iff (styles : OrderedMap StyleValue) (name : String) :
    name ∈ (ofStyles styles).covered ∨ name ∈ (ofStyles styles).inline.keys ↔
      name ∈ styles.keys.map StyleProperty.camelCase := by
  have names : styles.keys.map StyleProperty.camelCase = styles.entries.map nameOf := by
    simp only [OrderedMap.keys, List.map_map, Function.comp_def]
    rfl
  rw [mem_covered_ofStyles, mem_inline_ofStyles, names, List.mem_map]
  constructor
  · rintro (⟨style, hstyle, hname, -⟩ | ⟨style, hstyle, hname, -⟩)
    · exact ⟨style, hstyle, hname.symm⟩
    · exact ⟨style, hstyle, hname.symm⟩
  · rintro ⟨style, hstyle, hname⟩
    by_cases hclass : HasClass style
    · exact .inl ⟨style, hstyle, hname.symm, hclass⟩
    · exact .inr ⟨style, hstyle, hname.symm, hclass⟩

theorem covered_disjoint_iff (styles : OrderedMap StyleValue) :
    List.Disjoint (ofStyles styles).covered (ofStyles styles).inline.keys ↔
      ∀ a ∈ styles.entries, ∀ b ∈ styles.entries,
        nameOf a = nameOf b → (HasClass a ↔ HasClass b) := by
  rw [List.disjoint_left]
  simp only [mem_covered_ofStyles, mem_inline_ofStyles]
  constructor
  · intro apart a ha b hb hname
    by_cases hclass : HasClass a
    · -- `a` covers the property, so that `b` cannot leave it inline
      have covered : HasClass b := by
        by_contra hnone
        exact apart ⟨a, ha, rfl, hclass⟩ ⟨b, hb, hname, hnone⟩
      exact iff_of_true hclass covered
    · have uncovered : ¬ HasClass b := by
        intro hsome
        exact apart ⟨b, hb, rfl, hsome⟩ ⟨a, ha, hname.symm, hclass⟩
      exact iff_of_false hclass uncovered
  · rintro alike name ⟨a, ha, hname, hclass⟩ ⟨b, hb, hother, hnone⟩
    exact hnone ((alike a ha b hb (hname.symm.trans hother)).mp hclass)

/-- The properties of a style map, in camel case, are those that become classes and those that stay
inline. The two are apart exactly if any two styles of the map for one property both have a class
or both have none. -/
theorem classified_once_iff (styles : OrderedMap StyleValue) :
    (∀ name, name ∈ (ofStyles styles).covered ∨ name ∈ (ofStyles styles).inline.keys ↔
      name ∈ styles.keys.map StyleProperty.camelCase) ∧
    (List.Disjoint (ofStyles styles).covered (ofStyles styles).inline.keys ↔
      ∀ a ∈ styles.entries, ∀ b ∈ styles.entries,
        nameOf a = nameOf b → (HasClass a ↔ HasClass b)) :=
  ⟨classified_iff styles, covered_disjoint_iff styles⟩

/-- One property in two spellings becomes a class and stays inline as well. -/
example :
    let sheet := ofStyles
      (OrderedMap.ofList [("text-align", .text "center"), ("textAlign", .text "match-parent")])
    "textAlign" ∈ sheet.covered ∧ "textAlign" ∈ sheet.inline.keys := by
  decide

end Pagewright.StyleSheet

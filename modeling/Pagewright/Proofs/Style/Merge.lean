import Pagewright.Proofs.Ordered.FirstSeen
import Pagewright.Proofs.Ordered.Lookup
import Pagewright.Proofs.Style.Classification

/-!
# Merging style sheets

Merging a sheet that took in some styles is taking in these styles: one style more on
the right is one style more on the merged sheet, and the rest is induction on the run.
`Records` says what a sheet holds after a run: the classes, the covered and the inline
properties each by first appearance, and under an inline property the value given last.
-/

set_option autoImplicit false

namespace Pagewright

/-- A change of the map that is put in is a change of the map it is put into. -/
theorem OrderedMap.insertAll_insert {α : Type} (m n : OrderedMap α) (key : String) (value : α) :
    m.insertAll (n.insert key value).entries = (m.insertAll n.entries).insert key value := by
  have latest : ∀ (n : OrderedMap α) (other : String),
      lookup other n.entries.reverse = n.find? other := by
    intro n other
    rw [← find?_ofList, find?, entries_ofList n.keys_nodup, find?]
  apply eq_of_find?
  · have grown : (n.insert key value).entries.map Prod.fst =
        FirstSeen.add (n.entries.map Prod.fst) key := keys_insert n key value
    rw [keys_insertAll, keys_insert, keys_insertAll, grown, FirstSeen.addAll_add]
  · intro other
    rw [find?_insertAll, find?_insert, find?_insertAll, latest, latest, find?_insert]
    by_cases hkey : key = other <;> simp [hkey]

namespace StyleSheet

/-! ## Merging is adding -/

theorem merge_add (sheet other : StyleSheet) (style : String × StyleValue) :
    sheet.merge (other.add style.1 style.2) = (sheet.merge other).add style.1 style.2 := by
  cases h : Style.token (StyleProperty.camelCase style.1) style.2 with
  | some cls => simp only [add_of_token _ h, merge, FirstSeen.addAll_add]
  | none => simp only [add_of_no_token _ h, merge, OrderedMap.insertAll_insert]

theorem merge_addAll (sheet other : StyleSheet) (styles : List (String × StyleValue)) :
    sheet.merge (other.addAll styles) = (sheet.merge other).addAll styles := by
  induction styles generalizing other with
  | nil => rfl
  | cons style rest ih =>
    rw [addAll_cons, addAll_cons, ih, merge_add]

theorem merge_empty (sheet : StyleSheet) : sheet.merge empty = sheet := rfl

theorem merge_run (a b : List (String × StyleValue)) :
    (empty.addAll a).merge (empty.addAll b) = empty.addAll (a ++ b) := by
  rw [merge_addAll, merge_empty, addAll_append]

/-! ## What a run leaves -/

def class? (style : String × StyleValue) : Option String := Style.token (nameOf style) style.2

theorem hasClass_iff {style : String × StyleValue} :
    HasClass style ↔ (class? style).isSome = true := Iff.rfl

structure Records (styles : List (String × StyleValue)) (sheet : StyleSheet) : Prop where
  classes : sheet.classes = (styles.filterMap class?).eraseDups
  nodup : sheet.classes.Nodup
  covered : sheet.covered = ((styles.filter (HasClass ·)).map nameOf).eraseDups
  inline_keys : sheet.inline.keys = ((styles.filter (¬ HasClass ·)).map nameOf).eraseDups
  inline_values : ∀ name, sheet.inline.find? name =
    ((styles.filter fun style => ¬ HasClass style ∧ nameOf style = name).map Prod.snd).getLast?

/-- The three parts of a sheet grow apart from each other. -/
theorem addAll_parts (sheet : StyleSheet) (styles : List (String × StyleValue)) :
    sheet.addAll styles =
      ⟨FirstSeen.addAll sheet.classes (styles.filterMap class?),
        sheet.inline.insertAll
          ((styles.filter (¬ HasClass ·)).map fun style => (nameOf style, style.2)),
        FirstSeen.addAll sheet.covered ((styles.filter (HasClass ·)).map nameOf)⟩ := by
  induction styles generalizing sheet with
  | nil => rfl
  | cons style rest ih =>
    rw [addAll_cons, ih]
    cases h : class? style with
    | some cls =>
      have hclass : HasClass style := hasClass_iff.mpr (by rw [h, Option.isSome_some])
      rw [add_of_token sheet h]
      simp [h, hclass, nameOf]
    | none =>
      have hclass : ¬ HasClass style := by simp [hasClass_iff, h]
      rw [add_of_no_token sheet h]
      simp [h, hclass, nameOf, OrderedMap.insertAll]

theorem empty_addAll (styles : List (String × StyleValue)) :
    empty.addAll styles =
      ⟨FirstSeen.ofList (styles.filterMap class?),
        OrderedMap.ofList ((styles.filter (¬ HasClass ·)).map fun style => (nameOf style, style.2)),
        FirstSeen.ofList ((styles.filter (HasClass ·)).map nameOf)⟩ :=
  addAll_parts empty styles

theorem addAll_records (styles : List (String × StyleValue)) :
    (empty.addAll styles).Records styles := by
  rw [empty_addAll]
  refine ⟨FirstSeen.ofList_eq_eraseDups _, FirstSeen.nodup_ofList _,
    FirstSeen.ofList_eq_eraseDups _, ?_, fun name => ?_⟩
  · rw [OrderedMap.keys_ofList, FirstSeen.ofList_eq_eraseDups, List.map_map]
    simp only [Function.comp_def]
  · have kept : (styles.filter fun style => ¬ HasClass style ∧ nameOf style = name) =
        (styles.filter (¬ HasClass ·)).filter (nameOf · = name) := by
      rw [List.filter_filter]
      apply List.filter_congr
      intro style _
      rw [Bool.eq_iff_iff]
      simp [and_comm]
    rw [OrderedMap.find?_ofList, lookup_reverse, List.filter_map, List.map_map, kept]
    simp only [Function.comp_def]

/-- Merging the sheet of one run into that of another is running both, so that merging is
associative and the empty sheet changes nothing; what is then held is told by the styles. -/
theorem merge_replays (a b c : List (String × StyleValue)) :
    (empty.addAll a).merge (empty.addAll b) = empty.addAll (a ++ b) ∧
    ((empty.addAll a).merge (empty.addAll b)).merge (empty.addAll c) =
      (empty.addAll a).merge ((empty.addAll b).merge (empty.addAll c)) ∧
    (empty.addAll a).merge empty = empty.addAll a ∧
    empty.merge (empty.addAll a) = empty.addAll a ∧
    ((empty.addAll a).merge (empty.addAll b)).Records (a ++ b) := by
  refine ⟨merge_run a b, ?_, merge_empty _, merge_run [] a, ?_⟩
  · rw [merge_run, merge_run, merge_run, merge_run, List.append_assoc]
  · rw [merge_run]
    exact addAll_records (a ++ b)

end StyleSheet

end Pagewright

import Pagewright.Proofs.Markup.AttributeNames
import Pagewright.Proofs.Style.Token

/-!
# Class lists

The class attribute of an element is written as one text, and its classes are the words
of that text: first those that stand for styles, then what the component gives under
`className` and after that under `class`, each class at its first place only. Since all
of them are words, none is lost, cut or joined to the next one on the way.
-/

set_option autoImplicit false

namespace Pagewright

/-- Two lists are added one after the other, each less what is there already. -/
theorem FirstSeen.addAll_append_eraseDups {α : Type} [DecidableEq α] (xs ys zs : List α) :
    addAll xs (ys ++ zs) =
      xs ++ (ys.filter (· ∉ xs)).eraseDups ++ (zs.filter (· ∉ xs ++ ys)).eraseDups := by
  have seen : zs.filter (· ∉ addAll xs ys) = zs.filter (· ∉ xs ++ ys) := by
    simp only [mem_addAll, List.mem_append]
  rw [addAll_append, addAll_eq_append_eraseDups, seen, addAll_eq_append_eraseDups]

namespace Component

variable (options : Options) (c : Component)

def wordsOf (key : String) : List String :=
  match c.properties.find? key with
  | some (.text s) => Text.words s
  | _ => []

/-- The classes of an element: those of its styles, the words of `className` that are none of
these, and the words of `class` that are none of either. -/
def listedClasses : List String :=
  (c.sheet options).classes ++
    ((c.wordsOf "className").filter (· ∉ (c.sheet options).classes)).eraseDups ++
    ((c.wordsOf "class").filter
      (· ∉ (c.sheet options).classes ++ c.wordsOf "className")).eraseDups

theorem declaredClasses_eq : c.declaredClasses = c.wordsOf "className" ++ c.wordsOf "class" := by
  rw [declaredClasses, List.flatMap_cons, List.flatMap_singleton]
  rfl

theorem classes_eq : c.classes options = c.listedClasses options := by
  rw [classes, declaredClasses_eq, FirstSeen.addAll_append_eraseDups, listedClasses]

/-! ## Classes of a component are words -/

theorem sheet_built : (c.sheet options).Built := by
  unfold sheet
  split
  · exact StyleSheet.Built.empty.addAll _
  · exact .empty

theorem wordsOf_unbroken {c : Component} {key word : String} (h : word ∈ c.wordsOf key) :
    Text.Unbroken word := by
  unfold wordsOf at h
  split at h
  · exact Text.unbroken_of_mem_words h
  · cases h

theorem classes_unbroken : ∀ cls ∈ c.classes options, Text.Unbroken cls := by
  intro cls hcls
  rw [classes, FirstSeen.mem_addAll, declaredClasses_eq, List.mem_append] at hcls
  rcases hcls with hown | hfirst | hsecond
  · exact (c.sheet_built options).wellSpaced.words cls hown
  · exact wordsOf_unbroken hfirst
  · exact wordsOf_unbroken hsecond

theorem classes_nodup : (c.classes options).Nodup :=
  FirstSeen.nodup_addAll _ _ (c.sheet_built options).wellSpaced.nodup

/-! ## The class attribute -/

/-- Neither a primitive nor a property nor a handler gives an attribute this name. -/
theorem className_unshared :
    "className" ∉ c.implicitNames ++ c.declaredKeys.map Attribute.nameOf ++ c.handlerKeys := by
  simp only [List.mem_append, not_or]
  refine ⟨⟨fun himplicit => ?_, fun hdeclared => ?_⟩, fun hhandler => ?_⟩
  · have other := (implied_ordinary _ (c.implicitNames_sublist.subset himplicit)).2.2
    exact other (by decide)
  · obtain ⟨key, hkey, hname⟩ := List.mem_map.mp hdeclared
    have special := (declared_of_mem hkey).2
    rw [(Attribute.nameOf_eq_iff (by decide)).mp hname] at special
    exact special (by decide)
  · exact absurd (isKey_of_mem_handlerKeys hhandler) (by decide)

theorem count_className :
    (c.attributeNames options).count "className" =
      if c.classes options = [] then 0 else 1 := by
  have fixed : (c.fixedNames options).count "className" =
      if c.classes options = [] then 0 else 1 := by
    have id : (if options.componentIds then [idAttribute] else []).count "className" = 0 := by
      cases options.componentIds <;> decide
    have style : (if (c.inlineStyles options).isEmpty then [] else ["style"]).count "className" =
        0 := by
      cases (c.inlineStyles options).isEmpty <;> decide
    rw [fixedNames, List.count_append, List.count_append, id, style]
    cases c.classes options <;> simp
  rw [attributeNames_eq, List.append_assoc, List.append_assoc, List.count_append, fixed,
    ← List.append_assoc, List.count_eq_zero_of_not_mem c.className_unshared, Nat.add_zero]

theorem value_className {options : Options} {c : Component} {a : Attribute}
    (h : a ∈ c.attributes options) (hname : a.name = "className") :
    a.value = .text (Text.join " " (c.classes options)) := by
  have unshared := c.className_unshared
  simp only [attributes, List.mem_append] at h
  simp only [List.mem_append, not_or, ← declaredAttributes_names, ← handlers_names, implicitNames,
    ← hname] at unshared
  obtain ⟨⟨implicit, declared⟩, handler⟩ := unshared
  rcases h with ((((hid | hclass) | hstyle) | himplicit) | hdeclared) | hhandler
  · split at hid
    · rw [List.mem_singleton.mp hid] at hname
      exact absurd hname (show idAttribute ≠ "className" by decide)
    · cases hid
  · split at hclass
    · cases hclass
    · rw [List.mem_singleton.mp hclass]
  · split at hstyle
    · cases hstyle
    · rw [List.mem_singleton.mp hstyle] at hname
      exact absurd hname (show "style" ≠ "className" by decide)
  · exact absurd (List.mem_map_of_mem himplicit) implicit
  · exact absurd (List.mem_map_of_mem hdeclared) declared
  · exact absurd (List.mem_map_of_mem hhandler) handler

end Component

/-- The classes of every sheet that is built from styles are words, and cutting the class list at
its blanks gives them back in order. An element has one class attribute if there are any classes and
none otherwise, and the words of its value are distinct: the classes of the styles in order, then
the new words of `className`, then those of `class`. -/
theorem class_lists_survive_joining :
    (∀ sheet : StyleSheet, sheet.Built →
      (∀ cls ∈ sheet.classes, Text.Unbroken cls) ∧
      Text.words sheet.className = sheet.classes ∧
      (sheet.classes ≠ [] → Text.split ' ' sheet.className = sheet.classes)) ∧
    ∀ (options : Options) (c : Component),
      (c.attributeNames options).count "className" =
        (if c.listedClasses options = [] then 0 else 1) ∧
      ∀ a ∈ c.attributes options, a.name = "className" → ∃ s, a.value = .text s ∧
        a.written.denoted? = some s ∧ (Text.words s).Nodup ∧
        Text.words s = c.listedClasses options := by
  refine ⟨fun sheet hsheet => ?_, fun options c => ⟨?_, fun a ha hname => ?_⟩⟩
  · have spaced := hsheet.wellSpaced
    exact ⟨spaced.words, spaced.words_className, spaced.split_className⟩
  · rw [← c.classes_eq options]
    exact c.count_className options
  · have value := Component.value_className ha hname
    have words : Text.words (Text.join " " (c.classes options)) = c.classes options :=
      Text.words_join (c.classes_unbroken options)
    refine ⟨_, value, Attribute.denoted_text value, ?_, ?_⟩
    · rw [words]
      exact c.classes_nodup options
    · rw [words, c.classes_eq options]

namespace Sample

def spaced : StyleSheet :=
  (StyleSheet.empty.add "cursor" (.text " zoom-in ")).merge
    (StyleSheet.empty.add "margin-top" (.text "-8px"))

def styled : Component :=
  { component "styled" "Button" none [] (OrderedMap.ofList
      [("class", .text "p-2 wide"), ("className", .text "  big\tp-2 \"big\" big")]) with
    styles := OrderedMap.ofList [("padding", .number (Binary64.ofInt 8))] }

theorem class_lists_survive_joining_styled :
    spaced.Built ∧ Text.split ' ' spaced.className = ["cursor-zoom-in", "-mt-2"] ∧
      ∃ s, (⟨"className", .text s⟩ : Attribute) ∈ styled.attributes {} ∧
        Text.words s = ["p-2", "big", "\"big\"", "wide"] := by
  have built : spaced.Built :=
    (StyleSheet.Built.empty.add _ _).merge (StyleSheet.Built.empty.add _ _)
  have classes : spaced.classes = ["cursor-zoom-in", "-mt-2"] := by decide
  have listed : styled.listedClasses {} = ["p-2", "big", "\"big\"", "wide"] := by decide
  obtain ⟨sheets, elements⟩ := class_lists_survive_joining
  refine ⟨built, classes ▸ (sheets spaced built).2.2 (by simp [classes]), ?_⟩
  have present : "className" ∈ styled.attributeNames {} := by
    rw [← List.count_pos_iff, (elements {} styled).1, listed]
    decide
  obtain ⟨a, ha, hname⟩ := List.mem_map.mp present
  obtain ⟨s, hvalue, _, _, hwords⟩ := (elements {} styled).2 a ha hname
  refine ⟨s, ?_, hwords.trans listed⟩
  rwa [← hname, ← hvalue]

end Sample

end Pagewright

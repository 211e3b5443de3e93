import Pagewright.Proofs.Code.Balance
import Pagewright.Proofs.Generator.Outcome
import Pagewright.Proofs.Markup.Emission
import Pagewright.Proofs.Placement.Island

/-!
# Islands and the page around them

Islands are numbered from one in rendering order. Their names hold no blank, so that
importing them by a list of specifiers binds them as they are, and no two of them
are equal. The page around the islands shows a placeholder in the place of each.
-/

set_option autoImplicit false

namespace Pagewright

def islandName (number : Nat) : String := "ClientIsland" ++ Decimal.digitText number

theorem islandName_unbroken (number : Nat) : Text.Unbroken (islandName number) := by
  apply Plain.unbroken
  · intro h
    have hchars := congrArg String.toList h
    simp [islandName] at hchars
  · rw [islandName, String.toList_append]
    exact Plain.append (by decide) (Plain.digitText number)

theorem islandName_injective : Function.Injective islandName := by
  intro m n h
  have hdigits : Nat.toDigits 10 m = Nat.toDigits 10 n := by
    simpa [islandName, Decimal.digitText] using congrArg String.toList h
  calc
    m = Nat.ofDigitChars 10 (Nat.toDigits 10 m) 0 := Nat.ofDigitChars_ten_toDigits.symm
    _ = Nat.ofDigitChars 10 (Nat.toDigits 10 n) 0 := by rw [hdigits]
    _ = n := Nat.ofDigitChars_ten_toDigits

theorem mem_islandNames {roots : List String} {entry : String × String}
    (h : entry ∈ PageRequest.islandNames roots) :
    entry.1 ∈ roots ∧ ∃ number, entry.2 = islandName number := by
  obtain ⟨⟨id, i⟩, hid, rfl⟩ := List.mem_map.mp h
  exact ⟨(List.mem_zipIdx' hid).2 ▸ List.getElem_mem _, i + 1, rfl⟩

theorem keys_islandNames (roots : List String) :
    (PageRequest.islandNames roots).map Prod.fst = roots := by
  rw [PageRequest.islandNames, List.map_map]
  exact List.zipIdx_map_fst 0 roots

theorem values_islandNames (roots : List String) :
    (PageRequest.islandNames roots).map Prod.snd =
      (List.range roots.length).map fun index => islandName (index + 1) := by
  rw [PageRequest.islandNames, List.map_map, List.range_eq_range', ← List.zipIdx_map_snd 0 roots,
    List.map_map]
  rfl

theorem values_islandNames_nodup (roots : List String) :
    ((PageRequest.islandNames roots).map Prod.snd).Nodup := by
  rw [values_islandNames]
  exact List.nodup_range.map fun m n h => Nat.succ_injective (islandName_injective h)

/-- Among distinct ids, an id is numbered by where it stands. -/
theorem idxOf?_eq_some_iff_getElem? {ids : List String} (hn : ids.Nodup) {id : String}
    {index : Nat} : ids.idxOf? id = some index ↔ ids[index]? = some id := by
  rw [List.idxOf?_eq_some_iff, List.getElem?_eq_some_iff]
  constructor
  · rintro ⟨hlt, heq, _⟩
    exact ⟨hlt, heq⟩
  · rintro ⟨hlt, heq⟩
    refine ⟨hlt, heq, fun j hj hsame => ?_⟩
    exact absurd (hn.getElem_inj_iff.mp (hsame.trans heq.symm)) (Nat.ne_of_lt hj)

theorem find?_islandNames {roots : List String} (hn : roots.Nodup) (id : String) :
    (OrderedMap.ofList (PageRequest.islandNames roots)).find? id =
      (roots.idxOf? id).map fun index => islandName (index + 1) := by
  cases hindex : roots.idxOf? id with
  | none =>
    rw [Option.map_none, OrderedMap.find?_eq_none_iff, OrderedMap.mem_keys_ofList,
      keys_islandNames]
    exact List.idxOf?_eq_none_iff.mp hindex
  | some index =>
    apply OrderedMap.find?_ofList_of_mem
    · rwa [keys_islandNames]
    · have hat := (idxOf?_eq_some_iff_getElem? hn).mp hindex
      exact List.mem_map.mpr ⟨(id, index), List.mem_zipIdx_iff_getElem?.mpr hat, rfl⟩

theorem specifiers_islandNames (roots : List String) :
    specifiers ((PageRequest.islandNames roots).map Prod.snd) =
      (PageRequest.islandNames roots).map Prod.snd := by
  apply specifiers_unbroken
  intro name hname
  obtain ⟨entry, hentry, rfl⟩ := List.mem_map.mp hname
  obtain ⟨_, number, hnumber⟩ := mem_islandNames hentry
  rw [hnumber]
  exact islandName_unbroken number

namespace PageRequest

def emitted (page : PageRequest) (options : Options) : EmittedBody :=
  (Forest.ofComponents page.components).emit options OrderedMap.empty
    (Forest.ofComponents page.components).roots

def splitNames (page : PageRequest) : List (String × String) :=
  islandNames (Forest.ofComponents page.components).islandRoots

def splitEmitted (page : PageRequest) (options : Options) : EmittedBody :=
  let forest := Forest.ofComponents page.components
  let emitted := forest.emit options (OrderedMap.ofList page.splitNames) forest.roots
  if page.splitNames.isEmpty then emitted else
    { emitted with
      imports := emitted.imports.addNamed (page.splitNames.map Prod.snd) ("./" ++ islandsStem) }

@[simp] theorem needsCompanion_server (page : PageRequest) :
    page.needsCompanion .server = false := by
  simp [needsCompanion, Placement.isClient]

theorem splitPlan_page (page : PageRequest) (options : Options) :
    (page.splitPlan options).page =
      (page.modules options .server (page.splitEmitted options)).1 := rfl

theorem splitPlan_companion (page : PageRequest) (options : Options) :
    (page.splitPlan options).companion = none := by
  change (page.modules options .server (page.splitEmitted options)).2 = none
  simp [modules]

/-- A split page is cut at its islands, so that nothing of the browser is left in its own body. -/
theorem split_quiet (page : PageRequest) (options : Options)
    (h : componentViolations page.components = []) :
    ((Forest.ofComponents page.components).emit options (OrderedMap.ofList page.splitNames)
      (Forest.ofComponents page.components).roots).Quiet := by
  obtain ⟨trees, hspells, hroots⟩ := exists_trees_of_no_violations h
  apply Forest.emit_quiet
  intro c hc
  apply hspells.server_outside_islands hroots _ hc
  intro id hid
  rw [OrderedMap.mem_keys_ofList, splitNames, keys_islandNames]
  exact hid

end PageRequest

namespace Sample

def page : PageRequest where
  title := "Home"
  description := ""
  path := "/"
  metadata := some {}
  dataFetching := none
  components := components

theorem page_valid : page.violations = [] := by
  have request : Text.isBlank page.path = false ∧ Text.isBlank page.title = false := by decide
  simp only [PageRequest.violations, request, Bool.false_eq_true, if_false, List.nil_append]
  exact valid

def toolchain : Toolchain := ⟨{}, fun source _ => .ok source, fun _ _ => []⟩

end Sample

end Pagewright

import Pagewright.Proofs.Component.Validity
import Pagewright.Proofs.Markup.Emission

/-!
# Reports, and how they grow

A report holds the components that some ids lead to, each once, and tells of each where
it runs. A component list may be enlarged by components, roots, children and properties,
as long as what was there stays as it was. The three rules that send a component to the
browser all look for something that is present, and a walk visits whatever listings lead
to. So in an enlarged list nothing that ran in the browser has stopped running there.
-/

set_option autoImplicit false

namespace Pagewright

/-! ## Reading a report -/

theorem Component.isClient_iff {c : Component} : c.isClient = true ↔ c.placement = .client := by
  unfold isClient
  cases c.placement <;> simp [Placement.isClient]

theorem find?_id_iff {components : List Component} (hn : (components.map Component.id).Nodup)
    {id : String} {c : Component} :
    components.find? (fun d => d.id == id) = some c ↔ c ∈ components ∧ c.id = id := by
  constructor
  · intro h
    exact ⟨List.mem_of_find?_eq_some h, by simpa using List.find?_some h⟩
  · rintro ⟨hc, rfl⟩
    cases hfind : components.find? (fun d => d.id == c.id) with
    | none => exact absurd (List.find?_eq_none.mp hfind c hc) (by simp)
    | some d =>
      have hid : d.id = c.id := by simpa using List.find?_some hfind
      rw [ComponentTree.eq_of_id hn (List.mem_of_find?_eq_some hfind) hc hid]

namespace Forest

variable {components : List Component} {ids : List String} {preferServer : Bool}

/-- A report tells of every component on the walk where it runs. -/
theorem placementOf?_classify {id : String} {placement : Placement} :
    ((ofComponents components).classify ids preferServer).placementOf? id = some placement ↔
      ∃ c ∈ (ofComponents components).walk ids, c.id = id ∧ c.placement = placement := by
  have hn := walkFrom_ids_nodup components [] ids
  simp only [PlacementReport.placementOf?, Option.map_eq_some_iff]
  constructor
  · rintro ⟨c, hfind, hplacement⟩
    obtain ⟨hc, hid⟩ := (find?_id_iff hn).mp hfind
    exact ⟨c, hc, hid, hplacement⟩
  · rintro ⟨c, hc, hid, hplacement⟩
    exact ⟨c, (find?_id_iff hn).mpr ⟨hc, hid⟩, hplacement⟩

theorem classify_page_iff (forest : Forest) :
    (forest.classify ids preferServer).page = .client ↔
      (∃ c ∈ forest.walk ids, c.placement = .client) ∨ preferServer = false := by
  simp only [← Component.isClient_iff, classify]
  cases preferServer <;> simp [List.any_eq_true]

end Forest

/-! ## Larger component lists -/

namespace Component

structure Extends (d c : Component) : Prop where
  id : d.id = c.id
  kind : d.kind = c.kind
  properties : ∀ key value, c.properties.find? key = some value →
    d.properties.find? key = some value
  children : ∀ k ∈ c.childIds, k ∈ d.childIds

namespace Extends

variable {c d : Component}

theorem entries (h : d.Extends c) : c.properties.entries ⊆ d.properties.entries := by
  rintro ⟨key, value⟩ hentry
  apply OrderedMap.mem_entries_iff.mpr
  exact h.properties key value (OrderedMap.mem_entries_iff.mp hentry)

theorem handlers (h : d.Extends c) : c.handlers ⊆ d.handlers := by
  intro handler hhandler
  obtain ⟨entry, hentry, hbound⟩ := List.mem_filterMap.mp hhandler
  exact List.mem_filterMap.mpr ⟨entry, h.entries hentry, hbound⟩

theorem calls (h : d.Extends c) :
    c.properties.values.flatMap Hook.calls ⊆ d.properties.values.flatMap Hook.calls := by
  intro hook hhook
  obtain ⟨value, hvalue, hcall⟩ := List.mem_flatMap.mp hhook
  obtain ⟨entry, hentry, rfl⟩ := List.mem_map.mp hvalue
  exact List.mem_flatMap.mpr ⟨entry.2, List.mem_map_of_mem (h.entries hentry), hcall⟩

/-- With fewer properties nothing is added that needs the browser. -/
theorem inert (h : d.Extends c) (hd : d.Inert) : c.Inert := by
  constructor
  · apply List.subset_nil.mp
    rw [← hd.handlers]
    exact h.handlers
  · rw [← h.kind]
    exact hd.interactive
  · apply List.subset_nil.mp
    rw [← hd.calls]
    exact h.calls

theorem client (h : d.Extends c) (hc : c.placement = .client) : d.placement = .client := by
  cases hd : d.placement with
  | client => rfl
  | server =>
    have server := (placement_eq_server_iff c).mpr (h.inert ((placement_eq_server_iff d).mp hd))
    rw [hc] at server
    cases server

end Extends

end Component

structure Enlarges (more fewer : List Component) : Prop where
  extended : ∀ c ∈ fewer, ∃ d ∈ more, d.Extends c
  roots : ∀ id ∈ rootIds fewer, id ∈ rootIds more

namespace Enlarges

variable {more fewer : List Component}

theorem exists_found (h : Enlarges more fewer) (hn : (more.map Component.id).Nodup) {id : String}
    {c : Component} (hc : (Forest.ofComponents fewer).find? id = some c) :
    ∃ d, (Forest.ofComponents more).find? id = some d ∧ d.Extends c := by
  obtain ⟨hmem, rfl⟩ := Forest.mem_of_find?_ofComponents hc
  obtain ⟨d, hd, hextends⟩ := h.extended c hmem
  exact ⟨d, (Forest.find?_ofComponents_iff hn).mpr ⟨hd, hextends.id⟩, hextends⟩

/-- The walk of the larger list passes by every component of the smaller one. -/
theorem walk (h : Enlarges more fewer) (hn : (more.map Component.id).Nodup) {c : Component}
    (hc : c ∈ (Forest.ofComponents fewer).walk (rootIds fewer)) :
    ∃ d ∈ (Forest.ofComponents more).walk (rootIds more), d.Extends c := by
  simp only [Forest.mem_walk_iff] at hc ⊢
  induction hc with
  | start listed free found =>
    obtain ⟨d, hd, hextends⟩ := h.exists_found hn found
    exact ⟨d, .start (h.roots _ listed) free hd, hextends⟩
  | child _ listed free found ih =>
    obtain ⟨e, hreached, habove⟩ := ih
    obtain ⟨d, hd, hextends⟩ := h.exists_found hn found
    exact ⟨d, .child hreached (habove.children _ listed) free hd, hextends⟩

end Enlarges

/-- What the report of a component list places in the browser, components and the page alike, the
report of a larger list places there as well. -/
theorem placement_monotone {fewer more : List Component} (hn : (more.map Component.id).Nodup)
    (h : Enlarges more fewer) (preferServer : Bool) :
    let before := (Forest.ofComponents fewer).classify (rootIds fewer) preferServer
    let after := (Forest.ofComponents more).classify (rootIds more) preferServer
    (∀ id, before.placementOf? id = some .client → after.placementOf? id = some .client) ∧
      (before.page = .client → after.page = .client) := by
  intro before after
  constructor
  · intro id hbefore
    obtain ⟨c, hc, rfl, hclient⟩ := Forest.placementOf?_classify.mp hbefore
    obtain ⟨d, hd, hextends⟩ := h.walk hn hc
    exact Forest.placementOf?_classify.mpr ⟨d, hd, hextends.id, hextends.client hclient⟩
  · intro hbefore
    rcases (Forest.classify_page_iff _).mp hbefore with ⟨c, hc, hclient⟩ | hprefer
    · obtain ⟨d, hd, hextends⟩ := h.walk hn hc
      exact (Forest.classify_page_iff _).mpr (.inl ⟨d, hd, hextends.client hclient⟩)
    · exact (Forest.classify_page_iff _).mpr (.inr hprefer)

namespace Sample

def wideBox : Component :=
  component "box" "Container" none ["note", "picture", "\"ask\""]
    (OrderedMap.ofList [("title", .text "Questions")])

def note : Component := component "note" "Text" (some "box") [] .empty

def footer : Component := component "footer" "Footer" none [] .empty

def widened : List Component := [footer, wideBox, note, picture, lost, ask]

theorem widened_enlarges : Enlarges widened components where
  extended := by
    have kept : ∀ c : Component, c.Extends c := fun c => ⟨rfl, rfl, fun _ _ h => h, fun _ h => h⟩
    have wide : wideBox.Extends box := ⟨rfl, rfl, fun _ _ h => (by cases h), by decide⟩
    intro c hc
    simp only [components, List.mem_cons, List.not_mem_nil, or_false] at hc
    rcases hc with rfl | rfl | rfl | rfl
    · exact ⟨ask, by simp [widened], kept ask⟩
    · exact ⟨wideBox, by simp [widened], wide⟩
    · exact ⟨picture, by simp [widened], kept picture⟩
    · exact ⟨lost, by simp [widened], kept lost⟩
  roots := by decide

theorem placement_monotone_widened :
    (widened.map Component.id).Nodup ∧ Enlarges widened components ∧
      ((Forest.ofComponents components).classify (rootIds components) true).placementOf?
        "\"ask\"" = some .client ∧
      ((Forest.ofComponents widened).classify (rootIds widened) true).placementOf?
        "\"ask\"" = some .client := by
  have distinct : (widened.map Component.id).Nodup := by decide
  have walked : ask ∈ (Forest.ofComponents components).walk (rootIds components) := by
    apply (Forest.mem_walk_iff _ _ _).mpr
    exact spells.reached (by simp [tree])
  have before : ((Forest.ofComponents components).classify (rootIds components) true).placementOf?
      "\"ask\"" = some .client :=
    Forest.placementOf?_classify.mpr ⟨ask, walked, rfl, by decide⟩
  exact ⟨distinct, widened_enlarges, before,
    (placement_monotone distinct widened_enlarges true).1 _ before⟩

end Sample

end Pagewright

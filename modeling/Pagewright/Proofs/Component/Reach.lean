import Pagewright.Component.Forest
import Pagewright.Proofs.Ordered.Lookup

/-!
# Reachability in the component graph

A component is reached from some ids when listings lead to it from one of them,
never through an avoided id. This is the one relation behind the traversals of the
graph: a walk that starts with some ids already seen visits exactly the components
reached while avoiding those, on every graph, whether or not it is a forest.
-/

set_option autoImplicit false

namespace Pagewright.Forest

theorem find?_ofComponents (components : List Component) (id : String) :
    (ofComponents components).find? id =
      lookup id (components.map fun c => (c.id, c)).reverse :=
  OrderedMap.find?_ofList _ id

theorem mem_of_find?_ofComponents {components : List Component} {id : String} {c : Component}
    (h : (ofComponents components).find? id = some c) : c ∈ components ∧ c.id = id := by
  rw [find?_ofComponents] at h
  have hm := List.mem_reverse.mp (mem_of_lookup h)
  obtain ⟨d, hd, heq⟩ := List.mem_map.mp hm
  obtain ⟨rfl, rfl⟩ := Prod.mk.inj heq
  exact ⟨hd, rfl⟩

theorem find?_ofComponents_iff {components : List Component}
    (hn : (components.map Component.id).Nodup) {id : String} {c : Component} :
    (ofComponents components).find? id = some c ↔ c ∈ components ∧ c.id = id := by
  constructor
  · exact mem_of_find?_ofComponents
  · rintro ⟨hc, rfl⟩
    apply OrderedMap.find?_ofList_of_mem
    · simpa [List.map_map, Function.comp_def] using hn
    · exact List.mem_map.mpr ⟨c, hc, rfl⟩

inductive Reaches (forest : Forest) (avoid ids : List String) : Component → Prop
  | start {id : String} {c : Component} (listed : id ∈ ids) (free : id ∉ avoid)
      (found : forest.find? id = some c) : Reaches forest avoid ids c
  | child {c d : Component} {id : String} (above : Reaches forest avoid ids c)
      (listed : id ∈ c.childIds) (free : id ∉ avoid)
      (found : forest.find? id = some d) : Reaches forest avoid ids d

/-- What holds at the start and passes from a component to its children holds wherever one
can get. -/
theorem Reaches.all {forest : Forest} {avoid ids : List String} {P : Component → Prop}
    (hstart : ∀ id ∈ ids, id ∉ avoid → ∀ c, forest.find? id = some c → P c)
    (hchild : ∀ c, P c → ∀ id ∈ c.childIds, id ∉ avoid → ∀ d, forest.find? id = some d → P d)
    {c : Component} (h : forest.Reaches avoid ids c) : P c := by
  induction h with
  | start listed free found => exact hstart _ listed free _ found
  | child _ listed free found ih => exact hchild _ ih _ listed free _ found

theorem Reaches.mono {forest : Forest} {avoid ids more : List String} {c : Component}
    (hsub : ∀ id ∈ ids, id ∈ more) (h : forest.Reaches avoid ids c) :
    forest.Reaches avoid more c :=
  h.all (fun _ hi free _ found => .start (hsub _ hi) free found)
    (fun _ above _ hi free _ found => .child above hi free found)

theorem walkFrom_seen {forest : Forest} {seen pending : List String} {id : String}
    (h : id ∈ seen) : forest.walkFrom seen (id :: pending) = forest.walkFrom seen pending := by
  rw [walkFrom, dif_pos h]

theorem walkFrom_missing {forest : Forest} {seen pending : List String} {id : String}
    (h : forest.find? id = none) :
    forest.walkFrom seen (id :: pending) = forest.walkFrom seen pending := by
  rw [walkFrom]
  split
  · rfl
  · split
    · rfl
    · rename_i c hc
      rw [h] at hc
      cases hc

theorem walkFrom_found {forest : Forest} {seen pending : List String} {id : String} {c : Component}
    (hnew : id ∉ seen) (h : forest.find? id = some c) :
    forest.walkFrom seen (id :: pending) =
      c :: forest.walkFrom (id :: seen) (c.childIds ++ pending) := by
  rw [walkFrom, dif_neg hnew]
  split
  · rename_i hnone
    rw [h] at hnone
    cases hnone
  · rename_i d hd
    rw [h] at hd
    cases hd
    rfl

theorem reaches_of_mem_walkFrom (forest : Forest) (seen ids : List String) (c : Component)
    (h : c ∈ forest.walkFrom seen ids) : forest.Reaches seen ids c := by
  fun_induction walkFrom forest seen ids with
  | case1 => simp at h
  | case2 seen id pending old ih => exact (ih h).mono (by simp +contextual)
  | case3 seen id pending new found ih => exact (ih h).mono (by simp +contextual)
  | case4 seen id pending new d found ih =>
    have here : forest.Reaches seen (id :: pending) d := .start (by simp) new found
    rcases List.mem_cons.mp h with rfl | hrest
    · exact here
    · apply (ih hrest).all
      · intro k hk free e he
        have hfree : k ∉ seen := fun hs => free (List.mem_cons_of_mem _ hs)
        rcases List.mem_append.mp hk with hchild | hpending
        · exact .child here hchild hfree he
        · exact .start (List.mem_cons_of_mem _ hpending) hfree he
      · intro e above k hk free f hf
        exact .child above hk (fun hs => free (List.mem_cons_of_mem _ hs)) hf

/-- A walk visits the ids it starts from, and with a component its children. -/
theorem walkFrom_closed (forest : Forest) (seen ids : List String) :
    (∀ id ∈ ids, id ∉ seen → ∀ c, forest.find? id = some c → c ∈ forest.walkFrom seen ids) ∧
    ∀ c ∈ forest.walkFrom seen ids, ∀ id ∈ c.childIds, id ∉ seen → ∀ d,
      forest.find? id = some d → d ∈ forest.walkFrom seen ids := by
  fun_induction walkFrom forest seen ids with
  | case1 => simp
  | case2 seen id pending old ih =>
    refine ⟨?_, ih.2⟩
    intro k hk free
    rcases List.mem_cons.mp hk with rfl | hp
    · exact absurd old free
    · exact ih.1 k hp free
  | case3 seen id pending new found ih =>
    refine ⟨?_, ih.2⟩
    intro k hk free c hc
    rcases List.mem_cons.mp hk with rfl | hp
    · rw [found] at hc
      cases hc
    · exact ih.1 k hp free c hc
  | case4 seen id pending new e found ih =>
    -- the id just seen is the only one that the rest of the walk leaves out in addition
    have again : ∀ k c, k = id → forest.find? k = some c → c = e := by
      rintro k c rfl hc
      exact Option.some.inj (hc.symm.trans found)
    have later : ∀ k ∈ e.childIds ++ pending, k ∉ seen → ∀ c, forest.find? k = some c →
        c ∈ e :: forest.walkFrom (id :: seen) (e.childIds ++ pending) := by
      intro k hk free c hc
      by_cases hid : k = id
      · simp [again k c hid hc]
      · exact List.mem_cons_of_mem _ (ih.1 k hk (by simp [hid, free]) c hc)
    constructor
    · intro k hk free c hc
      rcases List.mem_cons.mp hk with rfl | hp
      · simp [again _ c rfl hc]
      · exact later k (List.mem_append_right _ hp) free c hc
    · intro c hc k hk free d hd
      rcases List.mem_cons.mp hc with rfl | hrest
      · exact later k (List.mem_append_left _ hk) free d hd
      · by_cases hid : k = id
        · simp [again k d hid hd]
        · exact List.mem_cons_of_mem _ (ih.2 c hrest k hk (by simp [hid, free]) d hd)

theorem mem_walkFrom_iff (forest : Forest) (seen ids : List String) (c : Component) :
    c ∈ forest.walkFrom seen ids ↔ forest.Reaches seen ids c := by
  constructor
  · exact reaches_of_mem_walkFrom forest seen ids c
  · obtain ⟨hstart, hchild⟩ := walkFrom_closed forest seen ids
    exact fun h => h.all hstart hchild

/-- What is reached is found under an id that is not avoided. -/
theorem Reaches.exists_found {forest : Forest} {avoid ids : List String} {c : Component}
    (h : forest.Reaches avoid ids c) : ∃ id, id ∉ avoid ∧ forest.find? id = some c := by
  cases h with
  | start _ free found => exact ⟨_, free, found⟩
  | child _ _ free found => exact ⟨_, free, found⟩

/-- A walk meets no id twice. -/
theorem walkFrom_ids_nodup (components : List Component) (seen ids : List String) :
    (((ofComponents components).walkFrom seen ids).map Component.id).Nodup := by
  fun_induction walkFrom (ofComponents components) seen ids with
  | case1 => exact List.nodup_nil
  | case2 seen id pending old ih => exact ih
  | case3 seen id pending new found ih => exact ih
  | case4 seen id pending new c found ih =>
    rw [List.map_cons, List.nodup_cons]
    refine ⟨?_, ih⟩
    intro hmem
    -- the rest of the walk avoids the id, and whatever it finds has the id it is found under
    obtain ⟨d, hd, hid⟩ := List.mem_map.mp hmem
    obtain ⟨other, free, hother⟩ := (reaches_of_mem_walkFrom _ _ _ d hd).exists_found
    apply free
    rw [← (mem_of_find?_ofComponents hother).2, hid, (mem_of_find?_ofComponents found).2]
    exact List.mem_cons_self

theorem mem_walk_iff (forest : Forest) (ids : List String) (c : Component) :
    c ∈ forest.walk ids ↔ forest.Reaches [] ids c :=
  mem_walkFrom_iff forest [] ids c

end Pagewright.Forest

import Mathlib.Data.List.Chain
import Pagewright.Proofs.Placement.Island

/-!
# Depths and ancestors

The depth of a graph is the length of a longest path down its listings that starts at a
root and repeats no id. It is found by trying the children of every component on the way.
`measure` is the account of it that keeps a single set of the ids under way: what is put
into the set before the children are tried is taken out afterwards, so that siblings and
roots find it as it was. On a valid list a path down to a component is the chain of its
ancestors read from the other end, and the depth is told by the longest of those chains.
-/

set_option autoImplicit false

namespace Pagewright

namespace Forest

/-! ## Longest paths -/

def Lists (forest : Forest) (id child : String) : Prop :=
  ∃ c, forest.find? id = some c ∧ child ∈ c.childIds

structure PathDown (forest : Forest) (avoid starts path : List String) : Prop where
  start : ∃ id ∈ starts, path.head? = some id
  found : ∀ id ∈ path, forest.contains id = true
  listed : path.IsChain forest.Lists
  distinct : path.Nodup
  free : ∀ id ∈ path, id ∉ avoid

structure IsLongest (forest : Forest) (avoid starts : List String) (n : Nat) : Prop where
  bound : ∀ path, forest.PathDown avoid starts path → path.length ≤ n
  attained : n = 0 ∨ ∃ path, forest.PathDown avoid starts path ∧ path.length = n

variable {forest : Forest} {avoid : List String}

theorem contains_iff {id : String} : forest.contains id = true ↔ ∃ c, forest.find? id = some c :=
  Option.isSome_iff_exists

namespace PathDown

/-- A path consists of its first id and, unless it ends there, a path from the children listed
there that avoids it. -/
theorem exists_first {starts path : List String} (h : forest.PathDown avoid starts path) :
    ∃ id ∈ starts, ∃ c rest, forest.find? id = some c ∧ id ∉ avoid ∧ path = id :: rest ∧
      (rest = [] ∨ forest.PathDown (id :: avoid) c.childIds rest) := by
  obtain ⟨id, hid, hhead⟩ := h.start
  obtain ⟨rest, rfl⟩ := List.head?_eq_some_iff.mp hhead
  obtain ⟨c, hc⟩ := contains_iff.mp (h.found id (by simp))
  obtain ⟨hnew, hdistinct⟩ := List.nodup_cons.mp h.distinct
  refine ⟨id, hid, c, rest, hc, h.free id (by simp), rfl, ?_⟩
  cases rest with
  | nil => exact .inl rfl
  | cons child rest =>
    obtain ⟨⟨d, hd, hlisted⟩, hchain⟩ := List.isChain_cons_cons.mp h.listed
    obtain rfl : d = c := Option.some.inj (hd.symm.trans hc)
    refine .inr ⟨⟨child, hlisted, rfl⟩, fun k hk => h.found k (by simp [hk]), hchain, hdistinct, ?_⟩
    intro k hk
    simp only [List.mem_cons, not_or]
    exact ⟨fun heq => hnew (heq ▸ hk), h.free k (List.mem_cons_of_mem _ hk)⟩

theorem single {id : String} {c : Component} (hfound : forest.find? id = some c)
    (hfree : id ∉ avoid) : forest.PathDown avoid [id] [id] :=
  ⟨⟨id, by simp, rfl⟩, by simp [contains_iff, hfound], .singleton id, by simp, by simpa using hfree⟩

theorem cons {id : String} {c : Component} {rest : List String}
    (hfound : forest.find? id = some c) (hfree : id ∉ avoid)
    (h : forest.PathDown (id :: avoid) c.childIds rest) :
    forest.PathDown avoid [id] (id :: rest) := by
  obtain ⟨child, hchild, hhead⟩ := h.start
  obtain ⟨later, rfl⟩ := List.head?_eq_some_iff.mp hhead
  have apart : ∀ k ∈ child :: later, k ≠ id ∧ k ∉ avoid := by
    intro k hk
    simpa using h.free k hk
  refine ⟨⟨id, by simp, rfl⟩, ?_, .cons_cons ⟨c, hfound, hchild⟩ h.listed, ?_, ?_⟩
  · exact List.forall_mem_cons.mpr ⟨contains_iff.mpr ⟨c, hfound⟩, h.found⟩
  · exact List.nodup_cons.mpr ⟨fun hmem => (apart id hmem).1 rfl, h.distinct⟩
  · exact List.forall_mem_cons.mpr ⟨hfree, fun k hk => (apart k hk).2⟩

theorem mono {starts more path : List String} (hsub : starts ⊆ more)
    (h : forest.PathDown avoid starts path) : forest.PathDown avoid more path := by
  obtain ⟨id, hid, hhead⟩ := h.start
  exact { h with start := ⟨id, hsub hid, hhead⟩ }

/-- Only the first id has to do with the starts. -/
theorem of_first {starts rest : List String} {id : String}
    (h : forest.PathDown avoid starts (id :: rest)) : forest.PathDown avoid [id] (id :: rest) :=
  { h with start := ⟨id, by simp, rfl⟩ }

end PathDown

theorem le_foldl_max {values : List Nat} {value : Nat} (h : value ∈ values) :
    value ≤ values.foldl max 0 := by
  cases hmax : values.max? with
  | none => simp [List.max?_eq_none_iff.mp hmax] at h
  | some greatest =>
    rw [List.foldl_max, hmax, Option.getD_some]
    exact ((List.max?_eq_some_iff.mp hmax).2 value h).trans (Nat.le_max_right 0 greatest)

theorem foldl_max_attained (values : List Nat) :
    values.foldl max 0 = 0 ∨ values.foldl max 0 ∈ values := by
  rw [List.foldl_max, Nat.zero_max]
  cases hmax : values.max? with
  | none => exact .inl rfl
  | some greatest => exact .inr (List.max?_eq_some_iff.mp hmax).1

/-- Of several starts the one with the longest path counts. -/
theorem isLongest_foldl_max {starts : List String} {longest : String → Nat}
    (h : ∀ id ∈ starts, forest.IsLongest avoid [id] (longest id)) :
    forest.IsLongest avoid starts ((starts.map longest).foldl max 0) := by
  constructor
  · intro path hpath
    obtain ⟨id, hid, c, rest, _, _, rfl, _⟩ := hpath.exists_first
    exact ((h id hid).bound _ hpath.of_first).trans
      (le_foldl_max (List.mem_map_of_mem hid))
  · rcases foldl_max_attained (starts.map longest) with hzero | hmem
    · exact .inl hzero
    · obtain ⟨id, hid, heq⟩ := List.mem_map.mp hmem
      rw [← heq]
      refine (h id hid).attained.imp_right ?_
      rintro ⟨path, hpath, hlength⟩
      exact ⟨path, hpath.mono (by simpa using hid), hlength⟩

theorem isLongest_zero {starts : List String}
    (h : ∀ id ∈ starts, id ∈ avoid ∨ forest.find? id = none) : forest.IsLongest avoid starts 0 := by
  refine ⟨fun path hpath => ?_, .inl rfl⟩
  obtain ⟨id, hid, c, rest, hfound, hfree, _, _⟩ := hpath.exists_first
  rcases h id hid with hold | hmissing
  · exact absurd hold hfree
  · rw [hmissing] at hfound
    cases hfound

/-- One more id than on a longest path from the children. -/
theorem IsLongest.succ {id : String} {c : Component} {n : Nat} (hfound : forest.find? id = some c)
    (hfree : id ∉ avoid) (h : forest.IsLongest (id :: avoid) c.childIds n) :
    forest.IsLongest avoid [id] (n + 1) := by
  constructor
  · intro path hpath
    obtain ⟨k, hk, d, rest, hd, _, rfl, hrest⟩ := hpath.exists_first
    obtain rfl : k = id := List.mem_singleton.mp hk
    obtain rfl : d = c := Option.some.inj (hd.symm.trans hfound)
    rcases hrest with rfl | hrest
    · simp
    · simpa using h.bound rest hrest
  · refine .inr ?_
    rcases h.attained with rfl | ⟨path, hpath, rfl⟩
    · exact ⟨[id], .single hfound hfree, rfl⟩
    · exact ⟨id :: path, .cons hfound hfree hpath, rfl⟩

theorem depthBelow_isLongest (forest : Forest) (avoid : List String) (id : String) :
    forest.IsLongest avoid [id] (forest.depthBelow avoid id) := by
  fun_induction depthBelow forest avoid id with
  | case1 avoid id old => exact isLongest_zero (by simp [old])
  | case2 avoid id new missing => exact isLongest_zero (by simp [missing])
  | case3 avoid id new c found ih =>
    exact .succ found new (isLongest_foldl_max fun child _ => ih child)

theorem maxDepth_isLongest (forest : Forest) : forest.IsLongest [] forest.roots forest.maxDepth :=
  isLongest_foldl_max fun id _ => forest.depthBelow_isLongest [] id

/-! ## One set of ids under way -/

structure Measurement where
  depth : Nat
  underWay : List String

def measure (forest : Forest) (underWay : List String) :
    List String → { m : Measurement // m.underWay = underWay }
  | [] => ⟨⟨0, underWay⟩, rfl⟩
  | id :: rest =>
    match _found : forest.find? id with
    | none => measure forest underWay rest
    | some c =>
      if _old : id ∈ underWay then measure forest underWay rest
      else
        match measure forest (id :: underWay) c.childIds with
        | ⟨below, entered⟩ =>
          match measure forest (below.underWay.erase id) rest with
          | ⟨beside, left⟩ =>
            ⟨⟨max (below.depth + 1) beside.depth, beside.underWay⟩, by
              rw [left, entered, List.erase_cons_head]⟩
termination_by ids => (forest.unseen underWay, ids.length)
decreasing_by
  · exact Prod.Lex.right _ (by simp)
  · exact Prod.Lex.right _ (by simp)
  · exact Prod.Lex.left _ _ (unseen_cons_lt forest underWay id c _found _old)
  · rw [entered, List.erase_cons_head]
    exact Prod.Lex.right _ (by simp)

theorem depthBelow_seen {id : String} (h : id ∈ avoid) : forest.depthBelow avoid id = 0 := by
  rw [depthBelow, dif_pos h]

theorem depthBelow_missing {id : String} (h : forest.find? id = none) :
    forest.depthBelow avoid id = 0 := by
  fun_cases depthBelow forest avoid id with
  | case1 => rfl
  | case2 => rfl
  | case3 _ c found => rw [h] at found; cases found

theorem depthBelow_found {id : String} {c : Component} (hnew : id ∉ avoid)
    (h : forest.find? id = some c) :
    forest.depthBelow avoid id =
      (c.childIds.map (forest.depthBelow (id :: avoid))).foldl max 0 + 1 := by
  fun_cases depthBelow forest avoid id with
  | case1 old => exact absurd old hnew
  | case2 _ missing => rw [h] at missing; cases missing
  | case3 _ d found =>
    obtain rfl : d = c := Option.some.inj (found.symm.trans h)
    rfl

theorem foldl_max_cons (value : Nat) (values : List Nat) :
    (value :: values).foldl max 0 = max value (values.foldl max 0) := by
  rw [List.foldl_cons, Nat.zero_max, ← Nat.max_zero value, List.foldl_assoc, Nat.max_zero]

/-- Below each of the ids the set under way is the one that there was at the start. -/
theorem measure_depth (forest : Forest) (underWay ids : List String) :
    (forest.measure underWay ids).val.depth =
      (ids.map (forest.depthBelow underWay)).foldl max 0 := by
  fun_induction measure forest underWay ids with
  | case1 underWay => rfl
  | case2 underWay id rest missing ih =>
    rw [List.map_cons, foldl_max_cons, depthBelow_missing missing, Nat.zero_max, ih]
  | case3 underWay id rest c found old ih =>
    rw [List.map_cons, foldl_max_cons, depthBelow_seen old, Nat.zero_max, ih]
  | case4 underWay id rest c found new below entered hbelow beside left hbeside ihbelow ihbeside =>
    have restored : below.underWay.erase id = underWay := by rw [entered, List.erase_cons_head]
    have aside : beside.depth = (rest.map (forest.depthBelow underWay)).foldl max 0 := by
      rw [hbeside] at ihbeside
      rw [← restored]
      exact ihbeside
    rw [hbelow] at ihbelow
    rw [List.map_cons, foldl_max_cons, depthBelow_found new found, ← ihbelow, ← aside]

theorem maxDepth_eq_measure (forest : Forest) :
    forest.maxDepth = (forest.measure [] forest.roots).val.depth :=
  (forest.measure_depth [] forest.roots).symm

end Forest

/-! ## Chains of ancestors -/

open ComponentTree

structure WayUp (components : List Component) (c : Component) (above : List Component) : Prop where
  members : ∀ a ∈ above, a ∈ components
  parents : Ascends (c :: above)
  listed : (c :: above).IsChain fun child parent => child.id ∈ parent.childIds
  ends : ∃ root, (c :: above).getLast? = some root ∧ root.id ∈ rootIds components

theorem ascends_last {a : List Component} (h : Ascends a) {last : Component}
    (hlast : a.getLast? = some last) : last.parentId = none := by
  obtain ⟨front, rfl⟩ := List.getLast?_eq_some_iff.mp hlast
  exact (h.suffix (List.suffix_append front [last])).1

namespace Spells

variable {trees : List ComponentTree} {components : List Component}

theorem wayUp (h : Spells trees components) {p : Place} (hp : p ∈ placesOf [] trees) :
    WayUp components p.component p.above := by
  have up := place_ascends (show Ascends [] from trivial) h.linked hp
  have above : ∀ a ∈ p.above, a ∈ componentsOf trees :=
    place_above_components hp (by simp) fun _ ha => ha
  have chain : ∀ a ∈ p.component :: p.above, a ∈ componentsOf trees :=
    List.forall_mem_cons.mpr ⟨place_mem hp, above⟩
  refine ⟨fun a ha => h.listed.mem_iff.mpr (above a ha), up, ?_, ?_⟩
  · generalize p.component :: p.above = a at up chain
    induction a with
    | nil => exact .nil
    | cons child rest ih =>
      cases rest with
      | nil => exact .singleton child
      | cons parent rest =>
        refine .cons_cons ?_ (ih up.2 fun a ha => chain a (List.mem_cons_of_mem _ ha))
        -- the one that lists a component is the one that it points to
        rcases linked_owner h.linked (chain child (by simp)) with
          ⟨_, hroot⟩ | ⟨owner, howner, hpoints, hlisted⟩
        · rw [up.1] at hroot
          cases hroot
        · have hid : parent.id = owner.id := Option.some.inj (up.1.symm.trans hpoints)
          rwa [eq_of_id h.distinct (chain parent (by simp)) howner hid]
  · have hlast := List.getLast?_eq_some_getLast (List.cons_ne_nil p.component p.above)
    refine ⟨_, hlast, mem_rootIds.mpr ⟨_, ?_, ascends_last up hlast, rfl⟩⟩
    exact h.listed.mem_iff.mpr (chain _ (List.getLast_mem _))

/-- A path that starts at a place ends at one that is as much further down as the path is long. -/
theorem place_of_path (h : Spells trees components) {avoid : List String} {path : List String}
    {p : Place} (hp : p ∈ placesOf [] trees)
    (hpath : (Forest.ofComponents components).PathDown avoid [p.id] path) :
    ∃ q ∈ placesOf [] trees, p.above.length + path.length = q.above.length + 1 := by
  induction path generalizing p avoid with
  | nil =>
    obtain ⟨id, _, hhead⟩ := hpath.start
    cases hhead
  | cons first rest ih =>
    obtain ⟨id, hid, c, later, hfound, _, heq, hrest⟩ := hpath.exists_first
    obtain ⟨rfl, rfl⟩ := List.cons.inj heq
    obtain rfl := List.mem_singleton.mp hid
    rcases hrest with rfl | hrest
    · exact ⟨p, hp, rfl⟩
    · obtain ⟨hmem, hcid⟩ := h.find?_iff.mp hfound
      obtain rfl : p.component = c := eq_of_id h.distinct (place_mem hp) hmem hcid.symm
      obtain ⟨child, hchild, hhead⟩ := hrest.start
      obtain ⟨further, rfl⟩ := List.head?_eq_some_iff.mp hhead
      obtain ⟨d, rfl, hd⟩ := place_child h.linked hp hchild
      obtain ⟨q, hq, hlength⟩ := ih hd hrest.of_first
      refine ⟨q, hq, ?_⟩
      simp only [List.length_cons] at hlength ⊢
      omega

/-- The way up to a place, read downwards, is a path from a root. -/
theorem path_of_place (h : Spells trees components) {p : Place} (hp : p ∈ placesOf [] trees) :
    (Forest.ofComponents components).PathDown [] (rootIds components)
      ((p.component :: p.above).map Component.id).reverse := by
  have up := h.wayUp hp
  have chain : ∀ a ∈ p.component :: p.above, a ∈ componentsOf trees :=
    List.forall_mem_cons.mpr ⟨place_mem hp, fun a ha => h.listed.mem_iff.mp (up.members a ha)⟩
  have found : ∀ a ∈ p.component :: p.above,
      (Forest.ofComponents components).find? a.id = some a :=
    fun a ha => h.find?_iff.mpr ⟨chain a ha, rfl⟩
  refine ⟨?_, ?_, ?_, ?_, by simp⟩
  · obtain ⟨root, hlast, hroot⟩ := up.ends
    exact ⟨root.id, hroot, by rw [List.head?_reverse, List.getLast?_map, hlast]; rfl⟩
  · intro id hid
    obtain ⟨a, ha, rfl⟩ := List.mem_map.mp (List.mem_reverse.mp hid)
    exact Forest.contains_iff.mpr ⟨a, found a ha⟩
  · rw [List.isChain_reverse, List.isChain_map]
    refine up.listed.imp_of_mem_imp ?_
    intro child parent _ hparent hlisted
    exact ⟨parent, found parent hparent, hlisted⟩
  · rw [List.nodup_reverse]
    exact (up.parents.nodup h.distinct chain).map_on fun a ha b hb =>
      eq_of_id h.distinct (chain a ha) (chain b hb)

theorem place_of_component (h : Spells trees components) {c : Component} (hc : c ∈ components) :
    ⟨c, (Forest.ofComponents components).ancestors c.id⟩ ∈ placesOf [] trees := by
  obtain ⟨p, hp, rfl⟩ := exists_place [] (h.listed.mem_iff.mp hc)
  have above : (Forest.ofComponents components).ancestors p.component.id = p.above :=
    h.ancestors hp
  rwa [above]

theorem place_of_rootId (h : Spells trees components) {id : String}
    (hid : id ∈ rootIds components) : ∃ c, c.id = id ∧ ⟨c, []⟩ ∈ placesOf [] trees := by
  obtain ⟨c, hc, hroot, rfl⟩ := mem_rootIds.mp hid
  have hp := h.place_of_component hc
  have parent : c.parentId =
      ((Forest.ofComponents components).ancestors c.id).head?.map Component.id :=
    (h.wayUp hp).parents.1
  rw [hroot, eq_comm, Option.map_eq_none_iff, List.head?_eq_none_iff] at parent
  exact ⟨c, rfl, parent ▸ hp⟩

/-- The depth is that of the component which is furthest down. -/
theorem max?_ancestors (h : Spells trees components) :
    (components.map fun c => 1 + ((Forest.ofComponents components).ancestors c.id).length).max? =
      some (Forest.ofComponents components).maxDepth := by
  have longest := (Forest.ofComponents components).maxDepth_isLongest
  have bound : ∀ c ∈ components, 1 + ((Forest.ofComponents components).ancestors c.id).length ≤
      (Forest.ofComponents components).maxDepth := by
    intro c hc
    have hpath := longest.bound _ (h.path_of_place (h.place_of_component hc))
    simp only [List.length_reverse, List.length_map, List.length_cons] at hpath
    omega
  rw [List.max?_eq_some_iff]
  constructor
  · rcases longest.attained with hzero | ⟨path, hpath, hlength⟩
    · obtain ⟨t, ht⟩ := List.exists_mem_of_ne_nil trees h.nonempty
      have hroot := bound t.root (h.listed.mem_iff.mpr (linked_root h.linked ht).1)
      omega
    · obtain ⟨id, hid, c, rest, _, _, rfl, _⟩ := hpath.exists_first
      obtain ⟨d, rfl, hd⟩ := h.place_of_rootId hid
      obtain ⟨q, hq, hdepth⟩ := h.place_of_path hd hpath.of_first
      refine List.mem_map.mpr ⟨q.component, h.listed.mem_iff.mpr (place_mem hq), ?_⟩
      rw [← hlength, show q.component.id = q.id from rfl, h.ancestors hq]
      simp only [List.length_nil] at hdepth
      omega
  · intro n hn
    obtain ⟨c, hc, rfl⟩ := List.mem_map.mp hn
    exact bound c hc

end Spells

/-- On every component list the depth is found with one set of ids under way, and it is the number
of ids on a longest path down from a root that repeats none. On a valid list it is one more than the
greatest number of ancestors of a component, and the ancestors of a component are its way up. -/
theorem depth_of_ancestors (components : List Component) :
    let forest := Forest.ofComponents components
    forest.maxDepth = (forest.measure [] (rootIds components)).val.depth ∧
    forest.IsLongest [] (rootIds components) forest.maxDepth ∧
    (componentViolations components = [] →
      (components.map fun c => 1 + (forest.ancestors c.id).length).max? = some forest.maxDepth ∧
      ∀ c ∈ components, WayUp components c (forest.ancestors c.id)) := by
  intro forest
  refine ⟨forest.maxDepth_eq_measure, forest.maxDepth_isLongest, ?_⟩
  intro valid
  obtain ⟨trees, hspells, _⟩ := exists_trees_of_no_violations valid
  exact ⟨hspells.max?_ancestors, fun c hc => hspells.wayUp (hspells.place_of_component hc)⟩

namespace Sample

theorem depth_of_ancestors_box :
    componentViolations components = [] ∧
      let forest := Forest.ofComponents components
      WayUp components lost (forest.ancestors "lost") ∧ forest.maxDepth = 3 := by
  obtain ⟨deepest, wayUp⟩ := (depth_of_ancestors components).2.2 valid
  have above : ∀ p ∈ placesOf [] [tree],
      (Forest.ofComponents components).ancestors p.component.id = p.above :=
    fun _ hp => spells.ancestors hp
  have heights : (components.map fun c =>
      1 + ((Forest.ofComponents components).ancestors c.id).length) = [2, 1, 2, 3] := by
    generalize Forest.ofComponents components = forest at above ⊢
    simp [components, above ⟨ask, [box]⟩ (by simp [tree]), above ⟨box, []⟩ (by simp [tree]),
      above ⟨picture, [box]⟩ (by simp [tree]), above ⟨lost, [picture, box]⟩ (by simp [tree])]
  rw [heights] at deepest
  exact ⟨valid, wayUp lost (by simp [components]), (Option.some.inj deepest).symm⟩

end Sample

end Pagewright

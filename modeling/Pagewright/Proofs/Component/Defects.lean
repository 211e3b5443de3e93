import Pagewright.Proofs.Component.Validity

/-!
# What violations point at

The rules of a component list are checked one after the other, and some leave a defect
to another rule: a listing that leads nowhere is not looked at for its owner, and a
component that nobody lists is not reported as cut off. Nothing falls between them. On
every component list, however malformed, each listing that leads nowhere and each
repeated id has its own violation, and a component that no root leads to is named by one.
-/

set_option autoImplicit false

namespace Pagewright

def Names (components : List Component) (id : String) : Prop :=
  ∃ c ∈ components, Text.isBlank c.id = false ∧ c.id = id

instance (components : List Component) : DecidablePred (Names components) :=
  fun id => inferInstanceAs (Decidable (∃ c ∈ components, Text.isBlank c.id = false ∧ c.id = id))

/-- From the id of a root one comes to the id by listings of components that can be named; of those
with equal ids the last one counts. -/
def Leads (components : List Component) (id : String) : Prop :=
  ∃ c, (namedForest components).Reaches [] (rootIds components) c ∧ c.id = id

structure Pinpoints (violations : List Violation) (components : List Component) : Prop where
  /-- One for each listing of a child that does not exist, with owner and child, in order. -/
  dangling : (violations.filter fun v => v.code = "PG-ERR-DANGLING-001").map
      (fun v => (v.componentId?, v.relatedId?)) =
    components.flatMap fun c => (c.childIds.filter fun child => ¬ Names components child).map
      fun child => (some c.id, some child)
  /-- One for each further occurrence of an id. -/
  duplicates : ∀ id, Text.isBlank id = false →
    violations.countP (fun v => v.code = "PG-ERR-DUPLICATE-001" ∧ v.componentId? = some id) =
      (components.map Component.id).count id - 1
  /-- At least one that names a component to which no root leads. -/
  unreached : ∀ c ∈ components, Text.isBlank c.id = false → ¬ Leads components c.id →
    ∃ v ∈ violations, v.componentId? = some c.id ∧
      v.code ∈ ["PG-ERR-PARENT-002", "PG-ERR-PARENT-003", "PG-ERR-CYCLE-001"]
  /-- No cycle is reported but on a listed component to which no root leads. -/
  cycles : ∀ v ∈ violations, v.code = "PG-ERR-CYCLE-001" →
    ∃ c ∈ components, v.componentId? = some c.id ∧ Text.isBlank c.id = false ∧
      (∃ owner ∈ components, c.id ∈ owner.childIds) ∧ ¬ Leads components c.id

section Resolution

variable {components : List Component} {id : String}

theorem namedForest_contains_iff :
    (namedForest components).contains id = true ↔ Names components id := by
  have hkeys : id ∈ (namedForest components).nodes.keys ↔ Names components id := by
    rw [namedForest, Forest.ofComponents, OrderedMap.mem_keys_ofList]
    simp [Names, and_assoc]
  rw [← hkeys, Forest.contains, OrderedMap.contains, ← not_iff_not, ← OrderedMap.find?_eq_none_iff]
  simp

theorem namedForest_find?_eq_none_iff :
    (namedForest components).find? id = none ↔ ¬ Names components id := by
  rw [← namedForest_contains_iff, Forest.contains, OrderedMap.contains]
  simp [Forest.find?]

theorem mem_owned_named_iff :
    id ∈ owned (namedForest components) components ↔
      (∃ owner ∈ components, id ∈ owner.childIds) ∧ Names components id := by
  rw [owned, listings_children, List.mem_filter, List.mem_flatMap, namedForest_contains_iff]

theorem mem_reached_iff :
    id ∈ ((namedForest components).walk (rootIds components)).map Component.id ↔
      Leads components id := by
  simp only [List.mem_map, Forest.mem_walk_iff, Leads]

/-- A root leads to its own id. -/
theorem leads_of_root {c : Component} (hc : c ∈ components) (hnamed : Text.isBlank c.id = false)
    (hroot : c.parentId = none) : Leads components c.id := by
  have known : (namedForest components).contains c.id = true :=
    namedForest_contains_iff.mpr ⟨c, hc, hnamed, rfl⟩
  obtain ⟨d, hd⟩ := Option.isSome_iff_exists.mp known
  exact ⟨d, .start (mem_rootIds.mpr ⟨c, hc, hroot, rfl⟩) (by simp) hd,
    (Forest.mem_of_find?_ofComponents hd).2⟩

end Resolution

/-! ## The single rules -/

/-- A rule has no violation of a kind whose code is not among its own. -/
theorem filter_eq_nil_of_code {violations : List Violation} {codes : List String}
    {kind : Violation → Bool} {code : String} (h : ∀ v ∈ violations, v.code ∈ codes)
    (hkind : ∀ v, kind v = true → v.code = code) (hcode : code ∉ codes) :
    violations.filter kind = [] := by
  apply List.filter_eq_nil_iff.mpr
  intro v hv hv'
  exact hcode (hkind v hv' ▸ h v hv)

theorem code_of_mem_idViolations {seen : List String} {components : List Component} {v : Violation}
    (h : v ∈ idViolations seen components) :
    v.code ∈ ["PG-ERR-ID-001", "PG-ERR-DUPLICATE-001"] := by
  induction components generalizing seen with
  | nil => simp [idViolations] at h
  | cons c rest ih =>
    rw [idViolations] at h
    split at h
    · rcases List.mem_cons.mp h with rfl | h
      · simp [Violation.code]
      · exact ih h
    · split at h
      · rcases List.mem_cons.mp h with rfl | h
        · simp [Violation.code]
        · exact ih h
      · exact ih h

theorem code_of_mem_pointerViolations {entry : Listing} {child : Component} {v : Violation}
    (h : v ∈ pointerViolations entry child) :
    v.code ∈ ["PG-ERR-ROOT-002", "PG-ERR-PARENT-001"] := by
  unfold pointerViolations at h
  split at h
  · rw [List.mem_singleton.mp h]
    simp [Violation.code]
  · split at h
    · simp at h
    · rw [List.mem_singleton.mp h]
      simp [Violation.code]

theorem code_of_mem_ownerViolations {forest : Forest} {owners : List (String × String)}
    {entries : List Listing} {v : Violation} (h : v ∈ ownerViolations forest owners entries) :
    v.code ∈
      ["PG-ERR-DANGLING-001", "PG-ERR-OWNER-001", "PG-ERR-ROOT-002", "PG-ERR-PARENT-001"] := by
  induction entries generalizing owners with
  | nil => simp [ownerViolations] at h
  | cons entry rest ih =>
    rw [ownerViolations] at h
    split at h
    · rcases List.mem_cons.mp h with rfl | h
      · simp [Violation.code]
      · exact ih h
    · split at h
      · rcases List.mem_cons.mp h with rfl | h
        · simp [Violation.code]
        · exact ih h
      · rcases List.mem_append.mp h with h | h
        · exact List.mem_cons_of_mem _ (List.mem_cons_of_mem _ (code_of_mem_pointerViolations h))
        · exact ih h

theorem code_of_parentViolation {forest : Forest} {owned : List String} {c : Component}
    {v : Violation} (h : parentViolation forest owned c = some v) :
    v.code ∈ ["PG-ERR-PARENT-002", "PG-ERR-PARENT-003"] ∧ v.componentId? = some c.id := by
  unfold parentViolation at h
  split at h
  · cases h
  · split at h
    · cases h
      simp [Violation.code, Violation.componentId?]
    · split at h
      · cases h
        simp [Violation.code, Violation.componentId?]
      · cases h

/-- A component that can be named and is listed is reported unless a root leads to it. -/
theorem reachViolation_eq_some_iff {components : List Component} {c : Component} {v : Violation}
    (hc : c ∈ components) :
    reachViolation (((namedForest components).walk (rootIds components)).map Component.id)
        (owned (namedForest components) components) c = some v ↔
      Text.isBlank c.id = false ∧ ¬ Leads components c.id ∧
        (∃ owner ∈ components, c.id ∈ owner.childIds) ∧ v = .unreachable c.id := by
  cases hblank : Text.isBlank c.id with
  | true => simp [reachViolation, hblank]
  | false =>
    have known : Names components c.id := ⟨c, hc, hblank, rfl⟩
    by_cases hleads : Leads components c.id <;>
      by_cases howned : ∃ owner ∈ components, c.id ∈ owner.childIds <;>
      simp [reachViolation, mem_reached_iff, mem_owned_named_iff, -List.mem_map, hblank, known,
        hleads, howned, eq_comm]

theorem dangling_ownerViolations (forest : Forest) (owners : List (String × String))
    (entries : List Listing) :
    (ownerViolations forest owners entries).filter (fun v => v.code = "PG-ERR-DANGLING-001") =
      (entries.filter fun entry => forest.find? entry.child = none).map
        fun entry => .danglingChild entry.owner entry.child := by
  induction entries generalizing owners with
  | nil => rfl
  | cons entry rest ih =>
    cases hfind : forest.find? entry.child with
    | none =>
      simp only [ownerViolations, hfind]
      rw [List.filter_cons_of_pos (by rfl), List.filter_cons_of_pos (by simpa using hfind), ih]
      rfl
    | some child =>
      rw [List.filter_cons_of_neg (by simp [hfind])]
      cases howned : lookup entry.child owners with
      | some first =>
        simp only [ownerViolations, hfind, howned]
        rw [List.filter_cons_of_neg (by simp [Violation.code]), ih]
      | none =>
        have silent : (pointerViolations entry child).filter
            (fun v => v.code = "PG-ERR-DANGLING-001") = [] :=
          filter_eq_nil_of_code (fun _ hv => code_of_mem_pointerViolations hv)
            (fun _ => of_decide_eq_true) (by decide)
        simp only [ownerViolations, hfind, howned, List.filter_append, silent, List.nil_append, ih]

theorem duplicateId_iff {v : Violation} {id : String} :
    v.code = "PG-ERR-DUPLICATE-001" ∧ v.componentId? = some id ↔ v = .duplicateId id := by
  cases v <;> simp [Violation.code, Violation.componentId?]

/-- Of the occurrences of an id, the first one is reported only if the id was seen before. -/
theorem count_idViolations {id : String} (hid : Text.isBlank id = false) (seen : List String)
    (components : List Component) :
    (idViolations seen components).count (.duplicateId id) =
      (components.map Component.id).count id - (if id ∈ seen then 0 else 1) := by
  induction components generalizing seen with
  | nil => simp [idViolations]
  | cons c rest ih =>
    by_cases hblank : Text.isBlank c.id = true
    · have hne : c.id ≠ id := by
        rintro rfl
        rw [hid] at hblank
        cases hblank
      simp [idViolations, hblank, ih, hne]
    · by_cases hseen : c.id ∈ seen <;> by_cases heq : c.id = id
      · subst heq
        simp [idViolations, hblank, hseen, ih]
      · simp [idViolations, hblank, hseen, ih, heq]
      · subst heq
        simp [idViolations, hblank, hseen, ih]
      · simp [idViolations, hblank, hseen, ih, heq, Ne.symm heq]

/-! ## All rules together -/

section

variable (components : List Component)

def parentViolations : List Violation :=
  components.filterMap
    (parentViolation (namedForest components) (owned (namedForest components) components))

def reachViolations : List Violation :=
  components.filterMap (reachViolation
    (((namedForest components).walk (rootIds components)).map Component.id)
    (owned (namedForest components) components))

/-- Violations of a kind are found rule by rule. -/
theorem filter_componentViolations (kind : Violation → Bool) (hempty : kind .noComponents = false)
    (hroot : kind .noRoot = false) :
    (componentViolations components).filter kind =
      (idViolations [] components).filter kind ++
      ((ownerViolations (namedForest components) [] (listings components)).filter kind ++
      ((parentViolations components).filter kind ++ (reachViolations components).filter kind)) := by
  cases components with
  | nil => simp [componentViolations, idViolations, listings, ownerViolations, parentViolations,
      reachViolations, hempty]
  | cons c rest =>
    have rootless : (if (rootIds (c :: rest)).isEmpty then [Violation.noRoot] else []).filter kind =
        [] := by
      split <;> simp [hroot]
    simp only [componentViolations, List.isEmpty_cons, Bool.false_eq_true, if_false,
      List.filter_append, rootless, List.nil_append, List.append_assoc]
    rfl

theorem code_of_mem_parentViolations {v : Violation} (h : v ∈ parentViolations components) :
    v.code ∈ ["PG-ERR-PARENT-002", "PG-ERR-PARENT-003"] := by
  obtain ⟨c, _, hv⟩ := List.mem_filterMap.mp h
  exact (code_of_parentViolation hv).1

theorem mem_reachViolations_iff {v : Violation} :
    v ∈ reachViolations components ↔ ∃ c ∈ components, Text.isBlank c.id = false ∧
      ¬ Leads components c.id ∧ (∃ owner ∈ components, c.id ∈ owner.childIds) ∧
        v = .unreachable c.id := by
  rw [reachViolations, List.mem_filterMap]
  exact exists_congr fun c => and_congr_right fun hc => reachViolation_eq_some_iff hc

theorem code_of_mem_reachViolations {v : Violation} (h : v ∈ reachViolations components) :
    v.code ∈ ["PG-ERR-CYCLE-001"] := by
  obtain ⟨c, _, _, _, _, rfl⟩ := (mem_reachViolations_iff components).mp h
  simp [Violation.code]

theorem filter_dangling :
    (componentViolations components).filter (fun v => v.code = "PG-ERR-DANGLING-001") =
      ((listings components).filter fun entry => ¬ Names components entry.child).map
        fun entry => .danglingChild entry.owner entry.child := by
  have silent : ∀ {violations : List Violation} {codes : List String},
      (∀ v ∈ violations, v.code ∈ codes) → "PG-ERR-DANGLING-001" ∉ codes →
      violations.filter (fun v => v.code = "PG-ERR-DANGLING-001") = [] :=
    fun h => filter_eq_nil_of_code h fun _ => of_decide_eq_true
  rw [filter_componentViolations components _ rfl rfl,
    silent (fun _ hv => code_of_mem_idViolations hv) (by decide),
    silent (fun _ hv => code_of_mem_parentViolations components hv) (by decide),
    silent (fun _ hv => code_of_mem_reachViolations components hv) (by decide),
    dangling_ownerViolations]
  simp [namedForest_find?_eq_none_iff]

theorem count_duplicateId {id : String} (hid : Text.isBlank id = false) :
    (componentViolations components).count (.duplicateId id) =
      (components.map Component.id).count id - 1 := by
  have silent : ∀ {violations : List Violation} {codes : List String},
      (∀ v ∈ violations, v.code ∈ codes) → "PG-ERR-DUPLICATE-001" ∉ codes →
      violations.filter (· == .duplicateId id) = [] :=
    fun h => filter_eq_nil_of_code h fun v hv => by rw [beq_iff_eq.mp hv]; rfl
  rw [List.count_eq_length_filter, filter_componentViolations components _ (by rfl) (by rfl),
    silent (fun _ hv => code_of_mem_ownerViolations hv) (by decide),
    silent (fun _ hv => code_of_mem_parentViolations components hv) (by decide),
    silent (fun _ hv => code_of_mem_reachViolations components hv) (by decide)]
  simpa [List.count_eq_length_filter] using count_idViolations hid [] components

theorem mem_componentViolations {v : Violation} (hempty : v ≠ .noComponents) (hroot : v ≠ .noRoot) :
    v ∈ componentViolations components ↔
      v ∈ idViolations [] components ∨
      v ∈ ownerViolations (namedForest components) [] (listings components) ∨
      v ∈ parentViolations components ∨ v ∈ reachViolations components := by
  have found := congrArg (v ∈ ·) (filter_componentViolations components (· == v)
    (beq_false_of_ne hempty.symm) (beq_false_of_ne hroot.symm))
  simpa only [List.mem_filter, List.mem_append, beq_self_eq_true, and_true, eq_iff_iff] using found

end

/-- A component that can be named and to which no root leads has a parent pointer, which is unknown,
not backed by any listing, or else part of a cycle. -/
theorem exists_naming {components : List Component} {c : Component} (hc : c ∈ components)
    (hnamed : Text.isBlank c.id = false) (hcut : ¬ Leads components c.id) :
    ∃ v ∈ parentViolations components ++ reachViolations components,
      v.componentId? = some c.id := by
  by_cases howned : c.id ∈ owned (namedForest components) components
  · have cut : .unreachable c.id ∈ reachViolations components :=
      (mem_reachViolations_iff components).mpr
        ⟨c, hc, hnamed, hcut, (mem_owned_named_iff.mp howned).1, rfl⟩
    exact ⟨_, List.mem_append_right _ cut, rfl⟩
  · have broken : parentViolation (namedForest components)
        (owned (namedForest components) components) c ≠ none := by
      intro hsilent
      cases hparent : c.parentId with
      | none => exact hcut (leads_of_root hc hnamed hparent)
      | some parent =>
        exact howned ((parentViolation_eq_none_iff _ _ c).mp hsilent parent hparent).2
    obtain ⟨v, hv⟩ := Option.ne_none_iff_exists'.mp broken
    exact ⟨v, List.mem_append_left _ (List.mem_filterMap.mpr ⟨c, hc, hv⟩),
      (code_of_parentViolation hv).2⟩

/-- The violations of any component list say where its defects are. -/
theorem violations_pinpoint (components : List Component) :
    Pinpoints (componentViolations components) components where
  dangling := by
    simp only [filter_dangling, listings, List.filter_flatMap, List.map_flatMap, List.filter_map,
      List.map_map]
    rfl
  duplicates := by
    intro id hid
    rw [← count_duplicateId components hid, List.count]
    apply List.countP_congr
    intro v _
    simp [duplicateId_iff]
  unreached := by
    intro c hc hnamed hcut
    obtain ⟨v, hv, hname⟩ := exists_naming hc hnamed hcut
    have found : v ∈ componentViolations components := by
      apply (mem_componentViolations components _ _).mpr
      · exact .inr (.inr (List.mem_append.mp hv))
      · rintro rfl
        cases hname
      · rintro rfl
        cases hname
    refine ⟨v, found, hname, ?_⟩
    rcases List.mem_append.mp hv with hv | hv
    · exact List.mem_append_left ["PG-ERR-CYCLE-001"] (code_of_mem_parentViolations components hv)
    · exact List.mem_append_right ["PG-ERR-PARENT-002", "PG-ERR-PARENT-003"]
        (code_of_mem_reachViolations components hv)
  cycles := by
    intro v hv hcode
    have other : ∀ {codes : List String}, v.code ∈ codes → "PG-ERR-CYCLE-001" ∈ codes :=
      fun h => hcode ▸ h
    have present : v ≠ .noComponents := by
      rintro rfl
      simp [Violation.code] at hcode
    have rooted : v ≠ .noRoot := by
      rintro rfl
      simp [Violation.code] at hcode
    rcases (mem_componentViolations components present rooted).mp hv with hv | hv | hv | hv
    · exact absurd (other (code_of_mem_idViolations hv)) (by decide)
    · exact absurd (other (code_of_mem_ownerViolations hv)) (by decide)
    · exact absurd (other (code_of_mem_parentViolations components hv)) (by decide)
    · obtain ⟨c, hc, hnamed, hcut, howned, rfl⟩ := (mem_reachViolations_iff components).mp hv
      exact ⟨c, hc, rfl, hnamed, howned, hcut⟩

end Pagewright

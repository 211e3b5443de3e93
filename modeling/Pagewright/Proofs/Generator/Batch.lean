import Mathlib.Algebra.Ring.Nat
import Pagewright.Generator.Basic
import Pagewright.Proofs.Ordered.Tally
import Pagewright.Proofs.Page.IslandNames

/-!
# Batches of pages

A batch succeeds when all of its pages do. Its result is the concatenation of theirs,
with warnings that name their pages and with statistics that add up kind by kind. As
results form a monoid under concatenation, a batch may be cut anywhere and its halves
generated apart. A batch that fails reports a page of its own that fails.
-/

set_option autoImplicit false

namespace Pagewright

/-! ## Concatenation -/

namespace Generation

def concat (parts : List Generation) : Generation := parts.foldr append empty

def Counted (g : Generation) : Prop := Sorted.Increasing g.statistics.components

theorem append_assoc (a b c : Generation) : (a.append b).append c = a.append (b.append c) := by
  simp only [append, PageStatistics.merge, List.append_assoc, Nat.add_assoc,
    Sorted.addTallies_assoc]

theorem append_empty (g : Generation) : g.append empty = g := by
  simp only [append, empty, PageStatistics.merge, Sorted.addTallies, List.foldl_nil,
    List.append_nil, Nat.add_zero]

theorem Counted.empty_append {g : Generation} (h : g.Counted) : empty.append g = g := by
  simp only [append, empty, PageStatistics.merge, Sorted.addTallies_nil h, List.nil_append,
    Nat.zero_add]

theorem Counted.append {a : Generation} (h : a.Counted) (b : Generation) :
    (a.append b).Counted :=
  Sorted.Increasing.addTallies h _

theorem Counted.tagged {g : Generation} (h : g.Counted) (path : String) :
    (g.tagged path).Counted := h

theorem concat_counted {parts : List Generation} (h : ∀ part ∈ parts, part.Counted) :
    (concat parts).Counted := by
  cases parts with
  | nil => exact List.Pairwise.nil
  | cons first rest => exact (h first List.mem_cons_self).append (concat rest)

structure Combines (whole : Generation) (parts : List Generation) : Prop where
  files : whole.files = parts.flatMap files
  suggestions : whole.suggestions = parts.flatMap suggestions
  warnings : whole.warnings = parts.flatMap warnings
  total : whole.statistics.total = (parts.map fun part => part.statistics.total).sum
  client : whole.statistics.client = (parts.map fun part => part.statistics.client).sum
  server : whole.statistics.server = (parts.map fun part => part.statistics.server).sum
  counts : ∀ kind, Sorted.countOf kind whole.statistics.components =
    (parts.map fun part => Sorted.countOf kind part.statistics.components).sum
  kinds : ∀ kind, kind ∈ whole.statistics.components.map Prod.fst ↔
    ∃ part ∈ parts, kind ∈ part.statistics.components.map Prod.fst
  counted : whole.Counted

theorem combines_nil : empty.Combines [] where
  files := rfl
  suggestions := rfl
  warnings := rfl
  total := rfl
  client := rfl
  server := rfl
  counts _ := rfl
  kinds _ := by simp [empty]
  counted := List.Pairwise.nil

theorem Combines.cons {first rest : Generation} {parts : List Generation} (h : first.Counted)
    (hrest : rest.Combines parts) : (first.append rest).Combines (first :: parts) where
  files := by rw [List.flatMap_cons, ← hrest.files]; rfl
  suggestions := by rw [List.flatMap_cons, ← hrest.suggestions]; rfl
  warnings := by rw [List.flatMap_cons, ← hrest.warnings]; rfl
  total := by rw [List.map_cons, List.sum_cons, ← hrest.total]; rfl
  client := by rw [List.map_cons, List.sum_cons, ← hrest.client]; rfl
  server := by rw [List.map_cons, List.sum_cons, ← hrest.server]; rfl
  counts kind := by
    rw [List.map_cons, List.sum_cons, ← hrest.counts]
    exact Sorted.countOf_addTallies h hrest.counted kind
  kinds kind := by
    rw [List.exists_mem_cons_iff, ← hrest.kinds]
    exact Sorted.mem_keys_addTallies kind _ _
  counted := h.append rest

theorem combines_concat {parts : List Generation} (h : ∀ part ∈ parts, part.Counted) :
    (concat parts).Combines parts := by
  induction parts with
  | nil => exact combines_nil
  | cons first rest ih =>
    exact (ih fun part hpart => h part (List.mem_cons_of_mem _ hpart)).cons
      (h first List.mem_cons_self)

theorem combines_pair {a b : Generation} (ha : a.Counted) (hb : b.Counted) :
    (a.append b).Combines [a, b] := by
  have pair : (concat [a, b]).Combines [a, b] := combines_concat (by simp [ha, hb])
  rwa [concat, List.foldr_cons, List.foldr_cons, List.foldr_nil, append_empty] at pair

/-- The result of a page as a part of a batch: its warnings say which page they are about. -/
structure Labelled (path : String) (single part : Generation) : Prop where
  files : part.files = single.files
  suggestions : part.suggestions = single.suggestions
  statistics : part.statistics = single.statistics
  warnings : part.warnings = single.warnings.map fun warning => path ++ ": " ++ warning

theorem labelled_iff {path : String} {single part : Generation} :
    Labelled path single part ↔ part = single.tagged path := by
  constructor
  · intro h
    obtain ⟨files, statistics, suggestions, warnings⟩ := part
    obtain ⟨rfl, rfl, rfl, rfl⟩ := h
    rfl
  · rintro rfl
    exact ⟨rfl, rfl, rfl, rfl⟩

end Generation

/-! ## Generating a batch -/

namespace Toolchain

variable {t : Toolchain}

/-- A page is generated or refused for its violations. -/
theorem generatePage_cases (t : Toolchain) (page : PageRequest) :
    (page.violations = [] ∧
      t.generatePage page = .ok (t.result page ((page.plan t.options).finish t))) ∨
    (page.violations ≠ [] ∧ t.generatePage page = .error (.invalid page.violations)) := by
  rw [generatePage_eq]
  cases h : page.violations with
  | nil => exact .inl ⟨rfl, rfl⟩
  | cons first rest => exact .inr ⟨List.cons_ne_nil _ _, rfl⟩

theorem generatePage_counted {page : PageRequest} {g : Generation}
    (h : t.generatePage page = .ok g) : g.Counted := by
  obtain ⟨_, rfl⟩ := generatePage_eq_ok_iff.mp h
  exact Sorted.tally_increasing _

def Contributes (t : Toolchain) (page : PageRequest) (part : Generation) : Prop :=
  ∃ single, t.generatePage page = .ok single ∧ Generation.Labelled page.path single part

theorem contributes_iff {page : PageRequest} {part : Generation} :
    t.Contributes page part ↔
      ∃ single, t.generatePage page = .ok single ∧ part = single.tagged page.path := by
  simp only [Contributes, Generation.labelled_iff]

theorem contributions_counted {pages : List PageRequest} {parts : List Generation}
    (h : List.Forall₂ t.Contributes pages parts) : ∀ part ∈ parts, part.Counted := by
  induction h with
  | nil => exact fun _ hpart => absurd hpart List.not_mem_nil
  | cons hfirst _ ih =>
    obtain ⟨single, hsingle, rfl⟩ := contributes_iff.mp hfirst
    exact List.forall_mem_cons.mpr ⟨(generatePage_counted hsingle).tagged _, ih⟩

/-- One more page in front of a batch. -/
theorem generatePages_cons (page : PageRequest) (rest : List PageRequest) :
    t.generatePages (page :: rest) = match t.generatePage page with
      | .error cause => .error (.page page.path cause)
      | .ok first => (t.generatePages rest).map (first.tagged page.path).append := rfl

theorem generatePages_ok_iff (pages : List PageRequest) (g : Generation) :
    t.generatePages pages = .ok g ↔
      ∃ parts, List.Forall₂ t.Contributes pages parts ∧ g = Generation.concat parts := by
  induction pages generalizing g with
  | nil =>
    constructor
    · intro h
      cases h
      exact ⟨[], .nil, rfl⟩
    · rintro ⟨parts, hparts, rfl⟩
      cases hparts
      rfl
  | cons page rest ih =>
    rw [generatePages_cons]
    constructor
    · intro h
      split at h
      · cases h
      · rename_i first hfirst
        cases hrest : t.generatePages rest with
        | error e => rw [hrest] at h; cases h
        | ok others =>
          rw [hrest] at h
          cases h
          obtain ⟨parts, hparts, rfl⟩ := (ih others).mp hrest
          exact ⟨_, .cons (contributes_iff.mpr ⟨first, hfirst, rfl⟩) hparts, rfl⟩
    · rintro ⟨parts, hparts, rfl⟩
      cases hparts with
      | cons hfirst hothers =>
        obtain ⟨first, hok, rfl⟩ := contributes_iff.mp hfirst
        rw [hok, (ih _).mpr ⟨_, hothers, rfl⟩]
        rfl

theorem generatePages_counted {pages : List PageRequest} {g : Generation}
    (h : t.generatePages pages = .ok g) : g.Counted := by
  obtain ⟨parts, hparts, rfl⟩ := (generatePages_ok_iff pages g).mp h
  exact Generation.concat_counted (contributions_counted hparts)

theorem exists_contributions_iff (pages : List PageRequest) :
    (∃ parts, List.Forall₂ t.Contributes pages parts) ↔
      ∀ page ∈ pages, ∃ single, t.generatePage page = .ok single := by
  induction pages with
  | nil => simp
  | cons page rest ih =>
    rw [List.forall_mem_cons, ← ih]
    constructor
    · rintro ⟨parts, hparts⟩
      cases hparts with
      | cons hfirst hothers =>
        obtain ⟨single, hok, -⟩ := hfirst
        exact ⟨⟨single, hok⟩, _, hothers⟩
    · rintro ⟨⟨single, hok⟩, parts, hparts⟩
      exact ⟨_, .cons (contributes_iff.mpr ⟨single, hok, rfl⟩) hparts⟩

theorem generatePages_append (a b : List PageRequest) :
    t.generatePages (a ++ b) = do
      let first ← t.generatePages a
      let second ← t.generatePages b
      return first.append second := by
  induction a with
  | nil =>
    cases hb : t.generatePages b with
    | error e => exact hb
    | ok g => exact hb.trans (congrArg Except.ok (generatePages_counted hb).empty_append.symm)
  | cons page rest ih =>
    rw [List.cons_append, generatePages_cons, generatePages_cons, ih]
    cases t.generatePage page with
    | error cause => rfl
    | ok single =>
      cases t.generatePages rest with
      | error e => rfl
      | ok others =>
        cases t.generatePages b with
        | error e => rfl
        | ok more => exact congrArg Except.ok (Generation.append_assoc _ _ _).symm

/-- The failure of a batch is that of one of its pages. -/
theorem generatePages_error {pages : List PageRequest} {e : Failure}
    (h : t.generatePages pages = .error e) :
    ∃ page ∈ pages, ∃ cause, t.generatePage page = .error cause ∧ e = .page page.path cause := by
  induction pages with
  | nil => cases h
  | cons page rest ih =>
    rw [generatePages_cons] at h
    split at h
    · rename_i cause hcause
      cases h
      exact ⟨page, List.mem_cons_self, cause, hcause, rfl⟩
    · cases hrest : t.generatePages rest with
      | error later =>
        rw [hrest] at h
        cases h
        obtain ⟨other, hmem, found⟩ := ih hrest
        exact ⟨other, List.mem_cons_of_mem _ hmem, found⟩
      | ok others => rw [hrest] at h; cases h

theorem violations_of_generatePage_error {page : PageRequest} {cause : Failure}
    (h : t.generatePage page = .error cause) :
    page.violations ≠ [] ∧ cause.violations = page.violations := by
  rcases t.generatePage_cases page with ⟨-, hok⟩ | ⟨hinvalid, herror⟩
  · cases h.symm.trans hok
  · cases h.symm.trans herror
    exact ⟨hinvalid, rfl⟩

/-- Generating a batch is a homomorphism from lists of pages to results: it succeeds exactly when
every page does, its result combines theirs in order, and the result of a longer batch combines
those of its two halves. A failure is that of a page of the batch, with the violations of that
page. -/
theorem batch_homomorphism (t : Toolchain) (pages : List PageRequest) :
    ((∃ g, t.generatePages pages = .ok g) ↔
      ∀ page ∈ pages, ∃ single, t.generatePage page = .ok single) ∧
    (∀ g, t.generatePages pages = .ok g →
      ∃ parts, List.Forall₂ t.Contributes pages parts ∧ g.Combines parts) ∧
    (∀ more, (t.generatePages (pages ++ more) = do
        let first ← t.generatePages pages
        let second ← t.generatePages more
        return first.append second) ∧
      ∀ first second, t.generatePages pages = .ok first → t.generatePages more = .ok second →
        (first.append second).Combines [first, second]) ∧
    ∀ e, t.generatePages pages = .error e →
      ∃ page ∈ pages, ∃ cause, t.generatePage page = .error cause ∧ e = .page page.path cause ∧
        page.violations ≠ [] ∧ e.violations = page.violations := by
  refine ⟨?_, ?_, ?_, ?_⟩
  · rw [← exists_contributions_iff]
    constructor
    · rintro ⟨g, hg⟩
      obtain ⟨parts, hparts, -⟩ := (generatePages_ok_iff pages g).mp hg
      exact ⟨parts, hparts⟩
    · rintro ⟨parts, hparts⟩
      exact ⟨_, (generatePages_ok_iff pages _).mpr ⟨parts, hparts, rfl⟩⟩
  · intro g hg
    obtain ⟨parts, hparts, rfl⟩ := (generatePages_ok_iff pages g).mp hg
    exact ⟨parts, hparts, Generation.combines_concat (contributions_counted hparts)⟩
  · intro more
    refine ⟨generatePages_append pages more, ?_⟩
    intro first second hfirst hsecond
    exact Generation.combines_pair (generatePages_counted hfirst) (generatePages_counted hsecond)
  · intro e he
    obtain ⟨page, hmem, cause, hcause, rfl⟩ := generatePages_error he
    obtain ⟨hinvalid, hsame⟩ := violations_of_generatePage_error hcause
    exact ⟨page, hmem, cause, hcause, rfl, hinvalid, hsame⟩

end Toolchain

namespace Sample

def untitled : PageRequest := { page with title := "" }

theorem generatePages_untitled : ∃ e, toolchain.generatePages [page, untitled] = .error e := by
  obtain ⟨g, hg⟩ := toolchain.generatePage_ok page_valid
  refine ⟨.page untitled.path (.invalid untitled.violations), ?_⟩
  rcases toolchain.generatePage_cases untitled with ⟨hvalid, -⟩ | ⟨-, herror⟩
  · rw [PageRequest.violations] at hvalid
    simp [untitled, Text.isBlank] at hvalid
  · rw [Toolchain.generatePages_cons, hg, Toolchain.generatePages_cons, herror]
    rfl

/-- The same page twice, and the batch that is cut between the two. -/
theorem batch_homomorphism_page :
    (∃ g parts, toolchain.generatePages [page, page] = .ok g ∧
      List.Forall₂ toolchain.Contributes [page, page] parts ∧ g.Combines parts) ∧
    (∃ g, toolchain.generatePages [page] = .ok g ∧
      toolchain.generatePages ([page] ++ [page]) = .ok (g.append g) ∧
      (g.append g).Combines [g, g]) ∧
    ∃ e, toolchain.generatePages [page, untitled] = .error e ∧
      ∃ failing ∈ [page, untitled], failing.violations ≠ [] ∧
        e.violations = failing.violations := by
  refine ⟨?_, ?_, ?_⟩
  · obtain ⟨succeeds, combines, -⟩ := toolchain.batch_homomorphism [page, page]
    obtain ⟨g, hg⟩ := succeeds.mpr (by simp [toolchain.generatePage_ok page_valid])
    obtain ⟨parts, hparts⟩ := combines g hg
    exact ⟨g, parts, hg, hparts⟩
  · obtain ⟨succeeds, -, cut, -⟩ := toolchain.batch_homomorphism [page]
    obtain ⟨g, hg⟩ := succeeds.mpr (by simp [toolchain.generatePage_ok page_valid])
    obtain ⟨whole, pair⟩ := cut [page]
    exact ⟨g, hg, by rw [whole, hg]; rfl, pair g g hg hg⟩
  · obtain ⟨e, he⟩ := generatePages_untitled
    obtain ⟨failing, hmem, _, -, -, found⟩ :=
      (toolchain.batch_homomorphism [page, untitled]).2.2.2 e he
    exact ⟨e, he, failing, hmem, found⟩

end Sample

end Pagewright

import Pagewright.Generator.Advice
import Pagewright.Proofs.Component.Arrangement
import Pagewright.Proofs.Generator.Formatting
import Pagewright.Proofs.Page.Route

/-!
# Statistics

The components of a page are counted in two ways. Where they run is counted along the
walk from the roots, their number and their kinds are counted on the list. The two fit
together on a valid list, which the walk visits in full and without repetition. All ways
to generate a page report the same counts, whether or not the page is split and whatever
the options prefer, and so does the analysis of its components.
-/

set_option autoImplicit false

namespace Pagewright

structure PageStatistics.Accounts (s : PageStatistics) (components : List Component) : Prop where
  total : s.total = components.length
  client : s.client = components.countP Component.isClient
  sides : s.total = s.client + s.server
  kinds : s.total = (s.components.map Prod.snd).sum
  ofKind : ∀ kind, Sorted.countOf kind s.components = (components.map Component.kind).count kind

structure Analysis.Repeats (a : Analysis) (s : PageStatistics) : Prop where
  total : a.total = s.total
  client : a.client = s.client
  server : a.server = s.server
  kinds : a.byKind = s.components

/-! ## Counting a list of components -/

namespace Coherent

variable {components : List Component}

theorem clientCount (h : Coherent components) (preferServer : Bool) :
    ((Forest.ofComponents components).classify (rootIds components) preferServer).clientCount =
      components.countP Component.isClient :=
  h.walk_perm.countP_eq _

theorem serverCount (h : Coherent components) (preferServer : Bool) :
    ((Forest.ofComponents components).classify (rootIds components) preferServer).serverCount =
      components.countP fun c => !c.isClient :=
  h.walk_perm.countP_eq _

theorem accounts (h : Coherent components) (preferServer : Bool) :
    ((Forest.ofComponents components).statistics
      ((Forest.ofComponents components).classify (rootIds components) preferServer)).Accounts
        components := by
  have size := Forest.size_ofComponents h.distinct
  have listed := Forest.components_ofComponents h.distinct
  refine ⟨size, h.clientCount preferServer, ?_, ?_, ?_⟩
  · simp only [Forest.statistics, size, h.clientCount, h.serverCount]
    simpa using List.length_eq_countP_add_countP Component.isClient
  · simp only [Forest.statistics, size, listed, Sorted.sum_tally, List.length_map]
  · intro kind
    simp only [Forest.statistics, listed, Sorted.countOf_tally]

theorem analysis_repeats (h : Coherent components) (options : Options) :
    (analyze options components).Repeats
      ((Forest.ofComponents components).statistics
        ((Forest.ofComponents components).classify (rootIds components)
          options.serverComponents)) := by
  refine ⟨?_, rfl, rfl, ?_⟩
  · exact (Forest.size_ofComponents h.distinct).symm
  · simp only [analyze, Forest.statistics, Forest.components_ofComponents h.distinct]

end Coherent

theorem analyze_roots (options : Options) (components : List Component) :
    (analyze options components).roots = components.countP fun c => c.parentId.isNone := by
  have roots : (analyze options components).roots = (rootIds components).length := rfl
  rw [roots, rootIds, List.length_map, List.countP_eq_length_filter]
  rfl

/-! ## Counting a page -/

namespace Toolchain

/-- Splitting a page does not change what it counts. -/
theorem splitPlan_statistics (options : Options) (page : PageRequest) :
    (page.splitPlan options).statistics = pageStatistics options page := rfl

/-- All ways to generate a valid page, its statistics and the analysis of its components report
the same counts, in which every component is counted once. -/
theorem statistics_agree (t : Toolchain) {page : PageRequest} (h : page.violations = []) :
    (pageStatistics t.options page).Accounts page.components ∧
    (∃ g, t.generatePage page = .ok g ∧ g.statistics = pageStatistics t.options page) ∧
    (∃ g, t.splitPage page = .ok g ∧ g.statistics = pageStatistics t.options page) ∧
    (∀ params, params.isEmpty = false → (∀ name ∈ params.keys, Name.isIdentifier name = true) →
      ∃ g, t.generateDynamicRoute page params = .ok g) ∧
    (∀ params g, t.generateDynamicRoute page params = .ok g →
      g.statistics = pageStatistics t.options page) ∧
    (analyze t.options page.components).Repeats (pageStatistics t.options page) ∧
    (analyze t.options page.components).roots =
      page.components.countP fun c => c.parentId.isNone := by
  have coherent := coherent_of_no_violations (PageRequest.components_valid h)
  refine ⟨coherent.accounts _, ?_, ?_, ?_, ?_, coherent.analysis_repeats _, analyze_roots _ _⟩
  · exact ⟨_, generatePage_eq_ok_iff.mpr ⟨h, rfl⟩, rfl⟩
  · exact ⟨_, splitPage_eq_ok_iff.mpr ⟨h, rfl⟩, splitPlan_statistics t.options page⟩
  · intro params hsome hnames
    exact t.generateDynamicRoute_ok h (routeParams_valid_iff.mpr hnames) hsome
  · intro params g hg
    obtain ⟨_, rfl⟩ := generateDynamicRoute_eq_ok_iff.mp hg
    rfl

end Toolchain

namespace Sample

/-- Two of the four components run in the browser, one of them unseen. -/
theorem statistics_agree_page :
    ∃ g split dynamic, toolchain.generatePage page = .ok g ∧ toolchain.splitPage page = .ok split ∧
      toolchain.generateDynamicRoute page idParam = .ok dynamic ∧
      g.statistics.Accounts page.components ∧ g.statistics.total = 4 ∧ g.statistics.client = 2 ∧
      split.statistics = g.statistics ∧ dynamic.statistics = g.statistics ∧
      (analyze toolchain.options page.components).Repeats g.statistics ∧
      (analyze toolchain.options page.components).roots = 1 := by
  obtain ⟨accounts, ⟨g, hg, same⟩, ⟨split, hsplit, same'⟩, succeeds, same'', repeats, roots⟩ :=
    toolchain.statistics_agree page_valid
  obtain ⟨dynamic, hdynamic⟩ := succeeds idParam (by decide) (by decide)
  rw [← same] at accounts repeats same' same''
  exact ⟨g, split, dynamic, hg, hsplit, hdynamic, accounts, accounts.total,
    accounts.client.trans (by decide), same', same'' _ _ hdynamic, repeats, roots⟩

end Sample

end Pagewright

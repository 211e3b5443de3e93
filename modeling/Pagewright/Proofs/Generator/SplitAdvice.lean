import Pagewright.Proofs.Generator.Statistics
import Pagewright.Proofs.Page.Split

/-!
# Advice on splitting

A page is advised to be split when some of its components run in the browser, but fewer
than on the server. The advice is taken back by a test that looks at the page's placement
and searches the paths of its files for the stem of the islands, and the route is part of
every path. The test decides rightly whatever the route is: a page in one piece that runs
on the server has no browser component to be advised about, and a split page that has one
has a file of islands.
-/

set_option autoImplicit false

namespace Pagewright

/-! ## Who is advised -/

def AdvisesSplit (suggestions : List Suggestion) : Prop :=
  ∃ s ∈ suggestions, s.isPreferSplit = true

def otherSuggestions (suggestions : List Suggestion) : List Suggestion :=
  suggestions.filter fun s => !s.isPreferSplit

section Advice

variable {suggestions : List Suggestion}

theorem otherSuggestions_unadvised (suggestions : List Suggestion) :
    ¬ AdvisesSplit (otherSuggestions suggestions) := by
  rintro ⟨s, hs, hadvice⟩
  have kept := (List.mem_filter.mp hs).2
  rw [hadvice] at kept
  cases kept

theorem otherSuggestions_eq_self (h : ¬ AdvisesSplit suggestions) :
    otherSuggestions suggestions = suggestions := by
  rw [otherSuggestions, List.filter_eq_self]
  intro s hs
  rw [Bool.not_eq_true']
  exact Bool.eq_false_iff.mpr fun hadvice => h ⟨s, hs, hadvice⟩

@[simp] theorem advisesSplit_append {more : List Suggestion} :
    AdvisesSplit (suggestions ++ more) ↔ AdvisesSplit suggestions ∨ AdvisesSplit more := by
  simp [AdvisesSplit, or_and_right, exists_or]

@[simp] theorem advisesSplit_if {p : Prop} [Decidable p] {s : Suggestion} :
    AdvisesSplit (if p then [s] else []) ↔ p ∧ s.isPreferSplit = true := by
  by_cases hp : p <;> simp [AdvisesSplit, hp]

end Advice

theorem Component.not_advisesSplit (options : Options) (c : Component) :
    ¬ AdvisesSplit (c.suggestions options) := by
  simp [suggestions, Suggestion.isPreferSplit]

theorem Analysis.advisesSplit_iff (a : Analysis) :
    AdvisesSplit a.suggestions ↔ 0 < a.client ∧ a.client < a.server := by
  have unknown : ¬ AdvisesSplit (a.unknownKinds.map .unknownKind) := by
    simp [AdvisesSplit, Suggestion.isPreferSplit]
  simp [suggestions, Suggestion.isPreferSplit, unknown]

theorem advisesSplit_suggest_iff (options : Options) (components : List Component) :
    AdvisesSplit (suggest options components) ↔
      0 < (analyze options components).client ∧
        (analyze options components).client < (analyze options components).server := by
  have single : ¬ AdvisesSplit (components.flatMap (Component.suggestions options)) := by
    rintro ⟨s, hs, hadvice⟩
    obtain ⟨c, _, hs⟩ := List.mem_flatMap.mp hs
    exact c.not_advisesSplit options ⟨s, hs, hadvice⟩
  rw [suggest, advisesSplit_append, Analysis.advisesSplit_iff]
  exact or_iff_right single

/-- On a valid list the advice follows from where the listed components run. -/
theorem Coherent.advisesSplit_iff {components : List Component} (h : Coherent components)
    (options : Options) :
    AdvisesSplit (suggest options components) ↔
      0 < components.countP Component.isClient ∧
        components.countP Component.isClient < components.countP fun c => !c.isClient := by
  have client : (analyze options components).client = components.countP Component.isClient :=
    h.clientCount options.serverComponents
  have server : (analyze options components).server = components.countP fun c => !c.isClient :=
    h.serverCount options.serverComponents
  rw [advisesSplit_suggest_iff, client, server]

/-- Without browser components there is no advice. -/
theorem not_advisesSplit_of_server (options : Options) {components : List Component}
    (h : ∀ c, (Forest.ofComponents components).Reaches [] (rootIds components) c →
      c.isClient = false) : ¬ AdvisesSplit (suggest options components) := by
  have none : (analyze options components).client = 0 := by
    refine List.countP_eq_zero.mpr fun c hc => ?_
    rw [h c ((Forest.mem_walk_iff _ _ c).mp hc)]
    exact Bool.false_ne_true
  rw [advisesSplit_suggest_iff, none]
  exact fun advice => absurd advice.1 (by decide)

/-! ## What becomes of the advice -/

theorem Text.occursIn_of_infix {part cs : List Char} (h : part <:+: cs) :
    occursIn part cs = true := by
  induction cs with
  | nil =>
    rw [List.eq_nil_of_infix_nil h]
    rfl
  | cons c rest ih =>
    rw [occursIn, Bool.or_eq_true]
    rcases List.infix_cons_iff.mp h with hprefix | hlater
    · exact .inl (List.isPrefixOf_iff_prefix.mpr hprefix)
    · exact .inr (ih hlater)

namespace Toolchain

def isSplit (output : PageOutput) : Bool :=
  output.placement == .server &&
    output.files.any fun file => Text.occursIn islandsStem.toList file.path.toList

theorem suggestions_result (t : Toolchain) (page : PageRequest) (output : PageOutput) :
    (t.result page output).suggestions =
      if isSplit output then otherSuggestions (suggest t.options page.components)
      else suggest t.options page.components := rfl

/-- A page in one piece keeps all suggestions: where the test succeeds, because of its route,
there is no advice to take back. -/
theorem suggestions_plan (t : Toolchain) (page : PageRequest) :
    (t.result page ((page.plan t.options).finish t)).suggestions =
      suggest t.options page.components := by
  rw [suggestions_result]
  split
  · rename_i hsplit
    have server : (page.plan t.options).placement = .server :=
      eq_of_beq (Bool.and_eq_true_iff.mp hsplit).1
    apply otherSuggestions_eq_self
    exact not_advisesSplit_of_server t.options fun c hc => Forest.classify_server server hc
  · rfl

theorem isSplit_islands (t : Toolchain) {plan : PagePlan} {m : PageModule}
    (hserver : plan.placement = .server) (hislands : plan.islands = some m) :
    isSplit (plan.finish t) = true := by
  have file : (t.finish (plan.draft t.options .component islandsStem m)).file ∈
      (plan.finish t).files := by
    simp [PagePlan.finish, hislands]
  have path : islandsStem.toList <:+:
      (t.finish (plan.draft t.options .component islandsStem m)).file.path.toList := by
    refine ⟨(plan.directory ++ "/").toList, ("." ++ t.options.componentExtension).toList, ?_⟩
    change _ = (plan.pathOf t.options islandsStem).toList
    simp [PagePlan.pathOf]
  rw [isSplit, Bool.and_eq_true]
  exact ⟨beq_iff_eq.mpr hserver, List.any_eq_true.mpr ⟨_, file, Text.occursIn_of_infix path⟩⟩

/-- A split page keeps all suggestions but the advice to split it. Without islands there was no
such advice. -/
theorem suggestions_splitPlan (t : Toolchain) {page : PageRequest}
    (h : componentViolations page.components = []) :
    (t.result page ((page.splitPlan t.options).finish t)).suggestions =
      otherSuggestions (suggest t.options page.components) := by
  rw [suggestions_result]
  split
  · rfl
  · rename_i hsplit
    symm
    apply otherSuggestions_eq_self
    obtain ⟨trees, hspells, hroots⟩ := exists_trees_of_no_violations h
    have noIslands : ∀ id ∈ (Forest.ofComponents page.components).islandRoots, id ∈ [] := by
      intro id hid
      have named : page.splitNames.isEmpty = false := by
        rw [page.splitNames_isEmpty, List.isEmpty_eq_false_iff]
        exact List.ne_nil_of_mem hid
      have islands := page.splitPlan_islands t.options
      rw [named] at islands
      exact absurd (isSplit_islands t rfl islands) hsplit
    exact not_advisesSplit_of_server t.options fun c hc =>
      hspells.server_outside_islands hroots noIslands hc

/-- A valid page generated in one piece is advised to be split exactly if some of its components
run in the browser, but fewer than on the server; generated as a split page it never is. All other
suggestions are the same, in the same order. The route and the options do not matter. -/
theorem split_advice_exact (t : Toolchain) {page : PageRequest} (h : page.violations = []) :
    ∃ whole split, t.generatePage page = .ok whole ∧ t.splitPage page = .ok split ∧
      (AdvisesSplit whole.suggestions ↔
        0 < page.components.countP Component.isClient ∧
          page.components.countP Component.isClient <
            page.components.countP fun c => !c.isClient) ∧
      ¬ AdvisesSplit split.suggestions ∧
      otherSuggestions split.suggestions = otherSuggestions whole.suggestions := by
  have valid := PageRequest.components_valid h
  rw [generatePage_eq, splitPage_eq, h]
  refine ⟨_, _, rfl, rfl, ?_, ?_, ?_⟩
  · rw [suggestions_plan]
    exact (coherent_of_no_violations valid).advisesSplit_iff t.options
  · rw [suggestions_splitPlan t valid]
    exact otherSuggestions_unadvised _
  · rw [suggestions_plan, suggestions_splitPlan t valid]
    exact otherSuggestions_eq_self (otherSuggestions_unadvised _)

end Toolchain

namespace Sample

def bar : Component := component "bar" "Nav" none ["home", "hint", "open"] .empty

def home : Component := component "home" "Link" (some "bar") [] .empty

def hint : Component := component "hint" "Text" (some "bar") [] .empty

def opener : Component := component "open" "Button" (some "bar") [] .empty

def barPage : PageRequest where
  title := "Menu"
  description := ""
  path := "/client-islands"
  metadata := none
  dataFetching := none
  components := [bar, home, hint, opener]

theorem bar_spells :
    Spells [.node bar [.node home [], .node hint [], .node opener []]] barPage.components where
  nonempty := by simp
  linked := by
    simp [ComponentTree.LinkedBelow, ComponentTree.Linked, bar, home, hint, opener, component]
  named := by decide
  distinct := by decide
  listed := .refl _

theorem barPage_valid : barPage.violations = [] := by
  have request : Text.isBlank barPage.path = false ∧ Text.isBlank barPage.title = false := by
    decide
  simp only [PageRequest.violations, request, Bool.false_eq_true, if_false, List.nil_append]
  exact no_violations_of_coherent bar_spells.coherent

theorem split_advice_exact_bar :
    barPage.violations = [] ∧ Text.occursIn islandsStem.toList barPage.path.toList = true ∧
    ∃ whole split, toolchain.generatePage barPage = .ok whole ∧
      toolchain.splitPage barPage = .ok split ∧
      AdvisesSplit whole.suggestions ∧ ¬ AdvisesSplit split.suggestions ∧
      otherSuggestions split.suggestions = otherSuggestions whole.suggestions := by
  obtain ⟨whole, split, hwhole, hsplit, advised, unadvised, others⟩ :=
    toolchain.split_advice_exact barPage_valid
  have fewer : 0 < barPage.components.countP Component.isClient ∧
      barPage.components.countP Component.isClient <
        barPage.components.countP fun c => !c.isClient := by decide
  exact ⟨barPage_valid, by decide, whole, split, hwhole, hsplit, advised.mpr fewer, unadvised,
    others⟩

end Sample

end Pagewright

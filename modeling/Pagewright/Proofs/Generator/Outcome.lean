import Pagewright.Generator.Basic

/-!
# Outcomes

The three ways to generate a single page differ in what they check and plan. Each
succeeds exactly if nothing is wrong with the request, and then the files are those of
its plan.
-/

set_option autoImplicit false

namespace Pagewright

theorem PageRequest.components_valid {page : PageRequest} (h : page.violations = []) :
    componentViolations page.components = [] := by
  rw [violations, List.append_eq_nil_iff] at h
  exact h.2

namespace Toolchain

def outcome (t : Toolchain) (page : PageRequest) (plan : PagePlan) (violations : List Violation) :
    Except Failure Generation :=
  match violations with
  | [] => .ok (t.result page (plan.finish t))
  | violations => .error (.invalid violations)

variable {t : Toolchain} {page : PageRequest} {params : OrderedMap ParamKind} {g : Generation}

theorem outcome_eq_ok_iff {plan : PagePlan} {violations : List Violation} :
    t.outcome page plan violations = .ok g ↔
      violations = [] ∧ g = t.result page (plan.finish t) := by
  cases violations with
  | nil => simp [outcome, eq_comm]
  | cons violation others => simp [outcome]

theorem generatePage_eq (t : Toolchain) (page : PageRequest) :
    t.generatePage page = t.outcome page (page.plan t.options) page.violations := by
  rw [generatePage, pageOutput]
  cases page.violations <;> rfl

theorem splitPage_eq (t : Toolchain) (page : PageRequest) :
    t.splitPage page = t.outcome page (page.splitPlan t.options) page.violations := by
  rw [splitPage, splitOutput]
  cases page.violations <;> rfl

theorem generateDynamicRoute_eq (t : Toolchain) (page : PageRequest)
    (params : OrderedMap ParamKind) :
    t.generateDynamicRoute page params =
      t.outcome page (page.dynamicPlan t.options (routeParams params).1)
        (page.violations ++ (routeParams params).2 ++
          (if params.isEmpty then [.noRouteParameter] else [])) := by
  rcases hparams : routeParams params with ⟨good, bad⟩
  simp only [generateDynamicRoute, dynamicOutput, hparams]
  cases page.violations ++ bad ++ (if params.isEmpty then [.noRouteParameter] else []) <;> rfl

theorem generatePage_eq_ok_iff :
    t.generatePage page = .ok g ↔
      page.violations = [] ∧ g = t.result page ((page.plan t.options).finish t) := by
  rw [generatePage_eq, outcome_eq_ok_iff]

theorem splitPage_eq_ok_iff :
    t.splitPage page = .ok g ↔
      page.violations = [] ∧ g = t.result page ((page.splitPlan t.options).finish t) := by
  rw [splitPage_eq, outcome_eq_ok_iff]

theorem generateDynamicRoute_eq_ok_iff :
    t.generateDynamicRoute page params = .ok g ↔
      (page.violations = [] ∧ (routeParams params).2 = [] ∧ params.isEmpty = false) ∧
        g = t.result page ((page.dynamicPlan t.options (routeParams params).1).finish t) := by
  have named : (if params.isEmpty then [Violation.noRouteParameter] else []) = [] ↔
      params.isEmpty = false := by
    cases params.isEmpty <;> simp
  rw [generateDynamicRoute_eq, outcome_eq_ok_iff, List.append_eq_nil_iff, List.append_eq_nil_iff,
    named, and_assoc (a := page.violations = [])]

/-! ## Valid requests -/

theorem pageOutput_valid (t : Toolchain) (h : page.violations = []) :
    t.pageOutput page = .ok ((page.plan t.options).finish t) := by
  rw [pageOutput, h]

theorem splitOutput_valid (t : Toolchain) (h : page.violations = []) :
    t.splitOutput page = .ok ((page.splitPlan t.options).finish t) := by
  rw [splitOutput, h]

theorem generatePage_ok (t : Toolchain) (h : page.violations = []) :
    ∃ g, t.generatePage page = .ok g :=
  ⟨_, generatePage_eq_ok_iff.mpr ⟨h, rfl⟩⟩

theorem splitPage_ok (t : Toolchain) (h : page.violations = []) :
    ∃ g, t.splitPage page = .ok g :=
  ⟨_, splitPage_eq_ok_iff.mpr ⟨h, rfl⟩⟩

theorem generateDynamicRoute_ok (t : Toolchain) (h : page.violations = [])
    (hparams : (routeParams params).2 = []) (hsome : params.isEmpty = false) :
    ∃ g, t.generateDynamicRoute page params = .ok g :=
  ⟨_, generateDynamicRoute_eq_ok_iff.mpr ⟨⟨h, hparams, hsome⟩, rfl⟩⟩

/-! ## Files -/

theorem files_of_generatePage (h : t.generatePage page = .ok g) :
    g.files = ((page.plan t.options).finish t).files := by
  obtain ⟨_, rfl⟩ := generatePage_eq_ok_iff.mp h
  rfl

theorem files_of_splitPage (h : t.splitPage page = .ok g) :
    componentViolations page.components = [] ∧
      g.files = ((page.splitPlan t.options).finish t).files := by
  obtain ⟨hvalid, rfl⟩ := splitPage_eq_ok_iff.mp h
  exact ⟨PageRequest.components_valid hvalid, rfl⟩

theorem files_of_generateDynamicRoute (h : t.generateDynamicRoute page params = .ok g) :
    (page.violations = [] ∧ (routeParams params).2 = [] ∧ params.isEmpty = false) ∧
      g.files = ((page.dynamicPlan t.options (routeParams params).1).finish t).files := by
  obtain ⟨hvalid, rfl⟩ := generateDynamicRoute_eq_ok_iff.mp h
  exact ⟨hvalid, rfl⟩

theorem file_of_generateComponent {components : List Component} {ids : List String}
    {name : String} {file : OutputFile} (h : t.generateComponent components ids name = .ok file) :
    file = (t.finish ⟨.component, "components/" ++ name ++ "." ++ t.options.componentExtension,
      (componentModule t.options (Forest.ofComponents components) ids name).render
        t.options⟩).file := by
  simp only [generateComponent] at h
  -- a name that is no component name, no ids, an id that is not there: no file in either case
  split at h
  · cases h
  split at h
  · cases h
  split at h
  · cases h
  · cases h
    rfl

end Toolchain

end Pagewright

import Pagewright.Proofs.Generator.Batch
import Pagewright.Proofs.Output.Formatting
import Pagewright.Proofs.Page.Directive

/-!
# The formatter only reprints

With formatting on, a request succeeds exactly if it does with formatting off, and
else fails in the same way. The files are the same ones in the same order, each script
reprinted by the formatter or left as it was, statistics and advice are the same, and
each file that the formatter fails on adds one warning. A batch labels the warnings of
each page, so that its warnings come in sections; within a section the warnings of the
formatter can be told from all others.
-/

set_option autoImplicit false

namespace Pagewright

inductive Request where
  | page (page : PageRequest)
  | dynamicRoute (page : PageRequest) (params : OrderedMap ParamKind)
  | split (page : PageRequest)
  | pages (pages : List PageRequest)
  | project (project : ProjectRequest)

def Toolchain.answer (t : Toolchain) : Request → Except Failure Generation
  | .page page => t.generatePage page
  | .dynamicRoute page params => t.generateDynamicRoute page params
  | .split page => t.splitPage page
  | .pages pages => t.generatePages pages
  | .project project => t.generateProject project

def SameOutcome (R : Generation → Generation → Prop) :
    Except Failure Generation → Except Failure Generation → Prop
  | .ok a, .ok b => R a b
  | .error a, .error b => a = b
  | _, _ => False

theorem SameOutcome.cases {R : Generation → Generation → Prop} {x y : Except Failure Generation}
    (h : SameOutcome R x y) :
    (∃ a b, x = .ok a ∧ y = .ok b ∧ R a b) ∨ ∃ e, x = .error e ∧ y = .error e := by
  match x, y, h with
  | .ok a, .ok b, h => exact .inl ⟨a, b, rfl, rfl, h⟩
  | .error e, .error e', h => exact .inr ⟨e, rfl, congrArg _ (Eq.symm h)⟩

structure WarningSection where
  label : String
  notes : List String

namespace WarningSection

def lines (s : WarningSection) : List String := s.notes.map (s.label ++ ·)

def unskipped (s : WarningSection) : WarningSection :=
  ⟨s.label, s.notes.filter fun w => !isSkipNote w⟩

end WarningSection

structure Generation.Reformatted (t : Toolchain) (sections : List WarningSection)
    (before after : Generation) : Prop where
  files : List.Forall₂ t.Reprints before.files after.files
  statistics : after.statistics = before.statistics
  suggestions : after.suggestions = before.suggestions
  warnings : after.warnings = sections.flatMap WarningSection.lines
  skipped : ((sections.flatMap WarningSection.notes).filter isSkipNote).Perm
    (before.files.filterMap t.skipNote?)
  kept : t.FailsOn before.files →
    before.warnings = sections.flatMap fun s => s.unskipped.lines

namespace Toolchain

def warningsOf : Except Failure Generation → List String
  | .ok g => g.warnings
  | .error _ => []

def projectNotes (t : Toolchain) (project : ProjectRequest) : List String :=
  let (layout, types) := t.projectDrafts project
  (t.finish layout).warnings ++ types.flatMap fun d => (t.finish d).warnings

def pageSection (t : Toolchain) (page : PageRequest) : WarningSection :=
  ⟨page.path ++ ": ", warningsOf (t.generatePage page)⟩

def sections (t : Toolchain) : Request → List WarningSection
  | .pages pages => pages.map t.pageSection
  | .project project => project.pages.map t.pageSection ++ [⟨"", t.projectNotes project⟩]
  | request => [⟨"", warningsOf (t.answer request)⟩]

end Toolchain

/-! ## Plans -/

namespace PagePlan

theorem draft_withFormat (plan : PagePlan) (options : Options) (on : Bool) (kind : FileKind)
    (stem : String) (m : PageModule) :
    plan.draft (options.withFormat on) kind stem m = plan.draft options kind stem m := by
  rw [draft, draft, PageModule.render_withFormat]
  rfl

theorem islandDrafts_withFormat (plan : PagePlan) (options : Options) (on : Bool) :
    plan.islandDrafts (options.withFormat on) = plan.islandDrafts options := by
  simp only [islandDrafts, funext (plan.draft_withFormat options on _ _)]

theorem pageDrafts_withFormat (plan : PagePlan) (options : Options) (on : Bool) :
    plan.pageDrafts (options.withFormat on) = plan.pageDrafts options := by
  simp only [pageDrafts, funext (plan.draft_withFormat options on _ _)]
  rfl

theorem draft_isScript {plan : PagePlan} (h : plan.directory.toList.head? = some 'a')
    (options : Options) {kind : FileKind} (hkind : kind ≠ .stylesheet) (stem : String)
    (m : PageModule) : (plan.draft options kind stem m).IsScript := by
  refine ⟨hkind, ⟨_, options.componentExtension, ?_, rfl⟩, 'a',
    draft_path_head h options kind stem m, by decide⟩
  unfold Options.componentExtension
  split <;> decide

section

variable {plan : PagePlan} {t : Toolchain}

theorem modules_kind (plan : PagePlan) (options : Options) :
    ∀ m ∈ plan.modules options, m.kind ≠ .stylesheet := by
  intro m hm
  simp only [modules, List.cons_append, List.mem_cons, List.mem_append, List.mem_map,
    List.not_mem_nil, or_false] at hm
  rcases hm with rfl | (⟨_, _, rfl⟩ | ⟨_, _, rfl⟩) | rfl | rfl <;> exact nofun

theorem finish_reprints (h : plan.directory.toList.head? = some 'a') :
    List.Forall₂ t.Reprints (plan.finish (t.withFormat false)).files
      (plan.finish (t.withFormat true)).files := by
  have files (on : Bool) : (plan.finish (t.withFormat on)).files =
      (plan.modules t.options).map fun m =>
        ((t.withFormat on).finish (plan.draft t.options m.kind m.stem m.module)).file := by
    rw [finish_files]
    apply List.map_congr_left
    intro m _
    exact congrArg (fun d => ((t.withFormat on).finish d).file) (plan.draft_withFormat _ on _ _ _)
  rw [files, files, List.forall₂_map_left_iff, List.forall₂_map_right_iff, List.forall₂_same]
  intro m hm
  exact (t.finish_refinishes
    (draft_isScript h t.options (plan.modules_kind t.options m hm) m.stem m.module)).file

theorem drafts_script (h : plan.directory.toList.head? = some 'a') (options : Options) :
    ∀ d ∈ plan.islandDrafts options ++ plan.pageDrafts options, d.IsScript :=
  forall_drafts fun _ hkind stem m => draft_isScript h options hkind stem m

/-- The drafts are the same with formatting on and off. -/
theorem warnings_withFormat (plan : PagePlan) (t : Toolchain) (on : Bool) :
    (plan.finish (t.withFormat on)).warnings =
      (plan.islandDrafts t.options).flatMap (fun d => ((t.withFormat on).finish d).warnings) ++
        plan.notes ++
        (plan.pageDrafts t.options).flatMap fun d => ((t.withFormat on).finish d).warnings := by
  have drafts := plan.finish_warnings (t.withFormat on)
  rwa [show (t.withFormat on).options = t.options.withFormat on from rfl,
    islandDrafts_withFormat, pageDrafts_withFormat] at drafts

theorem files_withFormat (plan : PagePlan) (t : Toolchain) (on : Bool) :
    (plan.finish (t.withFormat on)).files.Perm
      ((plan.islandDrafts t.options ++ plan.pageDrafts t.options).map fun d =>
        ((t.withFormat on).finish d).file) := by
  have drafts := plan.finish_files_perm (t.withFormat on)
  rwa [show (t.withFormat on).options = t.options.withFormat on from rfl,
    islandDrafts_withFormat, pageDrafts_withFormat] at drafts

theorem finish_skipped (h : plan.directory.toList.head? = some 'a')
    (hnotes : ∀ w ∈ plan.notes, isSkipNote w = false) :
    ((plan.finish (t.withFormat true)).warnings.filter isSkipNote).Perm
      ((plan.finish (t.withFormat false)).files.filterMap t.skipNote?) := by
  have scripts := drafts_script h t.options
  have own : plan.notes.filter isSkipNote = [] := by
    rw [List.filter_eq_nil_iff]
    intro w hw
    simp [hnotes w hw]
  have files := (plan.files_withFormat t false).filterMap t.skipNote?
  rw [List.map_append, List.filterMap_append,
    ← Toolchain.skipped_drafts fun d hd => scripts d (List.mem_append_left _ hd),
    ← Toolchain.skipped_drafts fun d hd => scripts d (List.mem_append_right _ hd)] at files
  rw [warnings_withFormat, List.filter_append, List.filter_append, own, List.append_nil]
  exact files.symm

theorem finish_kept (h : plan.directory.toList.head? = some 'a')
    (hnotes : ∀ w ∈ plan.notes, isSkipNote w = false)
    (hfails : t.FailsOn (plan.finish (t.withFormat false)).files) :
    (plan.finish (t.withFormat true)).warnings.filter (fun w => !isSkipNote w) =
      (plan.finish (t.withFormat false)).warnings := by
  have scripts := drafts_script h t.options
  have own : plan.notes.filter (fun w => !isSkipNote w) = plan.notes := by
    rw [List.filter_eq_self]
    intro w hw
    simp [hnotes w hw]
  have fails : ∀ drafts ⊆ plan.islandDrafts t.options ++ plan.pageDrafts t.options,
      t.FailsOn (drafts.map fun d => ((t.withFormat false).finish d).file) := by
    intro drafts hdrafts file hfile
    exact hfails file ((plan.files_withFormat t false).mem_iff.mpr
      (List.map_subset _ hdrafts hfile))
  rw [warnings_withFormat, warnings_withFormat, List.filter_append, List.filter_append, own,
    Toolchain.kept_drafts (fun d hd => scripts d (List.mem_append_left _ hd))
      (fails _ (List.subset_append_left _ _)),
    Toolchain.kept_drafts (fun d hd => scripts d (List.mem_append_right _ hd))
      (fails _ (List.subset_append_right _ _))]

end

end PagePlan

/-! ## Single pages -/

theorem WarningSection.unlabelled (notes : List String) :
    (⟨"", notes⟩ : WarningSection).lines = notes := by
  simp [lines]

theorem notes_unskipped {fallbacks voids : List String} {conflicts : List ImportConflict} :
    ∀ w ∈ fallbacks.map fallbackNote ++ voids.map voidNote ++ conflicts.map conflictNote,
      isSkipNote w = false := by
  intro w hw
  simp only [List.mem_append, List.mem_map] at hw
  rcases hw with (⟨kind, _, rfl⟩ | ⟨id, _, rfl⟩) | ⟨conflict, _, rfl⟩
  · exact isSkipNote_of_head (fallbackNote_head kind) (by decide)
  · exact isSkipNote_of_head (voidNote_head id) (by decide)
  · exact isSkipNote_of_head (conflictNote_head conflict) (by decide)

theorem PageRequest.plan_unskipped (page : PageRequest) (options : Options) :
    ∀ w ∈ (page.plan options).notes, isSkipNote w = false := notes_unskipped

theorem PageRequest.splitPlan_unskipped (page : PageRequest) (options : Options) :
    ∀ w ∈ (page.splitPlan options).notes, isSkipNote w = false := notes_unskipped

theorem PageRequest.dynamicPlan_unskipped (page : PageRequest) (options : Options)
    (params : List RouteParam) :
    ∀ w ∈ (page.dynamicPlan options params).notes, isSkipNote w = false := by
  intro w hw
  simp only [dynamicPlan, List.mem_append, List.mem_map] at hw
  rcases hw with (hignored | ⟨kind, _, rfl⟩) | ⟨id, _, rfl⟩
  · split at hignored
    · cases hignored
    · rw [List.mem_singleton.mp hignored]
      decide
  · exact isSkipNote_of_head (fallbackNote_head kind) (by decide)
  · exact isSkipNote_of_head (voidNote_head id) (by decide)

namespace Toolchain

variable {t : Toolchain}

theorem Reprints.paths {before after : List OutputFile} (h : List.Forall₂ t.Reprints before after) :
    after.map OutputFile.path = before.map OutputFile.path := by
  induction h with
  | nil => rfl
  | cons hfile _ ih => rw [List.map_cons, List.map_cons, hfile.path, ih]

theorem result_reformatted (page : PageRequest) {plan : PagePlan}
    (h : plan.directory.toList.head? = some 'a')
    (hnotes : ∀ w ∈ plan.notes, isSkipNote w = false) :
    Generation.Reformatted t [⟨"", (plan.finish (t.withFormat true)).warnings⟩]
      ((t.withFormat false).result page (plan.finish (t.withFormat false)))
      ((t.withFormat true).result page (plan.finish (t.withFormat true))) where
  files := PagePlan.finish_reprints h
  statistics := rfl
  suggestions := by
    have paths := Reprints.paths (PagePlan.finish_reprints (t := t) h)
    have split (on : Bool) : ((plan.finish (t.withFormat on)).files.any fun file =>
        Text.occursIn islandsStem.toList file.path.toList) =
        ((plan.finish (t.withFormat on)).files.map OutputFile.path).any fun path =>
          Text.occursIn islandsStem.toList path.toList := by
      rw [List.any_map]
      rfl
    have advice (on : Bool) : suggest (t.withFormat on).options page.components =
        suggest t.options page.components := suggest_withFormat t.options on page.components
    simp only [result, split, paths, advice]
    rfl
  warnings := by
    rw [List.flatMap_singleton, WarningSection.unlabelled]
    rfl
  skipped := by
    rw [List.flatMap_singleton]
    exact PagePlan.finish_skipped h hnotes
  kept := by
    intro hfails
    rw [List.flatMap_singleton, WarningSection.unskipped, WarningSection.unlabelled]
    exact (PagePlan.finish_kept h hnotes hfails).symm

theorem outcome_reformatted (page : PageRequest) {plan : PagePlan}
    (h : plan.directory.toList.head? = some 'a')
    (hnotes : ∀ w ∈ plan.notes, isSkipNote w = false) (violations : List Violation) :
    SameOutcome
      (Generation.Reformatted t
        [⟨"", warningsOf ((t.withFormat true).outcome page plan violations)⟩])
      ((t.withFormat false).outcome page plan violations)
      ((t.withFormat true).outcome page plan violations) := by
  cases violations with
  | nil => exact result_reformatted page h hnotes
  | cons violation others => exact rfl

theorem generatePage_reformatted (t : Toolchain) (page : PageRequest) :
    SameOutcome
      (Generation.Reformatted t [⟨"", warningsOf ((t.withFormat true).generatePage page)⟩])
      ((t.withFormat false).generatePage page) ((t.withFormat true).generatePage page) := by
  have planned (on : Bool) : (t.withFormat on).generatePage page =
      (t.withFormat on).outcome page (page.plan t.options) page.violations := by
    rw [generatePage_eq]
    exact congrArg (outcome _ page · _) (page.plan_withFormat t.options on)
  have directory : (page.plan t.options).directory.toList.head? = some 'a' :=
    Route.directory_head page.path
  rw [planned, planned]
  exact outcome_reformatted page directory (page.plan_unskipped t.options) page.violations

theorem splitPage_reformatted (t : Toolchain) (page : PageRequest) :
    SameOutcome
      (Generation.Reformatted t [⟨"", warningsOf ((t.withFormat true).splitPage page)⟩])
      ((t.withFormat false).splitPage page) ((t.withFormat true).splitPage page) := by
  have planned (on : Bool) : (t.withFormat on).splitPage page =
      (t.withFormat on).outcome page (page.splitPlan t.options) page.violations := by
    rw [splitPage_eq]
    exact congrArg (outcome _ page · _) (page.splitPlan_withFormat t.options on)
  have directory : (page.splitPlan t.options).directory.toList.head? = some 'a' :=
    Route.directory_head page.path
  rw [planned, planned]
  exact outcome_reformatted page directory (page.splitPlan_unskipped t.options) page.violations

theorem generateDynamicRoute_reformatted (t : Toolchain) (page : PageRequest)
    (params : OrderedMap ParamKind) :
    SameOutcome
      (Generation.Reformatted t
        [⟨"", warningsOf ((t.withFormat true).generateDynamicRoute page params)⟩])
      ((t.withFormat false).generateDynamicRoute page params)
      ((t.withFormat true).generateDynamicRoute page params) := by
  have planned (on : Bool) : (t.withFormat on).generateDynamicRoute page params =
      (t.withFormat on).outcome page (page.dynamicPlan t.options (routeParams params).1)
        (page.violations ++ (routeParams params).2 ++
          (if params.isEmpty then [.noRouteParameter] else [])) := by
    rw [generateDynamicRoute_eq]
    exact congrArg (outcome _ page · _) (page.dynamicPlan_withFormat t.options on _)
  have directory :
      (page.dynamicPlan t.options (routeParams params).1).directory.toList.head? = some 'a' :=
    Route.directory_head (Route.withParams page.path (routeParams params).1)
  rw [planned, planned]
  exact outcome_reformatted page directory (page.dynamicPlan_unskipped t.options _) _

end Toolchain

/-! ## Batches -/

namespace Generation.Reformatted

variable {t : Toolchain} {before after : Generation}

theorem tagged {notes : List String} (h : Reformatted t [⟨"", notes⟩] before after)
    (path : String) :
    Reformatted t [⟨path ++ ": ", notes⟩] (before.tagged path) (after.tagged path) := by
  obtain ⟨files, statistics, suggestions, warnings, skipped, kept⟩ := h
  refine ⟨files, statistics, suggestions, ?_, skipped, fun hfails => ?_⟩
  · rw [List.flatMap_singleton, WarningSection.unlabelled] at warnings
    rw [List.flatMap_singleton, Generation.tagged, warnings]
    rfl
  · have unlabelled := kept hfails
    rw [List.flatMap_singleton, WarningSection.unskipped, WarningSection.unlabelled] at unlabelled
    rw [List.flatMap_singleton, Generation.tagged, unlabelled]
    rfl

theorem append {first second : List WarningSection} {before' after' : Generation}
    (h : Reformatted t first before after) (h' : Reformatted t second before' after') :
    Reformatted t (first ++ second) (before.append before') (after.append after') where
  files := List.rel_append h.files h'.files
  statistics := by simp only [Generation.append, h.statistics, h'.statistics]
  suggestions := by simp only [Generation.append, h.suggestions, h'.suggestions]
  warnings := by simp only [Generation.append, h.warnings, h'.warnings, List.flatMap_append]
  skipped := by
    rw [List.flatMap_append, List.filter_append, Generation.append, List.filterMap_append]
    exact h.skipped.append h'.skipped
  kept := by
    intro hfails
    rw [List.flatMap_append, Generation.append,
      h.kept fun file hfile => hfails file (List.mem_append_left _ hfile),
      h'.kept fun file hfile => hfails file (List.mem_append_right _ hfile)]

end Generation.Reformatted

namespace Toolchain

theorem generatePages_reformatted (t : Toolchain) (pages : List PageRequest) :
    SameOutcome (Generation.Reformatted t (pages.map (t.withFormat true).pageSection))
      ((t.withFormat false).generatePages pages) ((t.withFormat true).generatePages pages) := by
  induction pages with
  | nil => exact ⟨.nil, rfl, rfl, rfl, .nil, fun _ => rfl⟩
  | cons page rest ih =>
    rw [generatePages_cons, generatePages_cons, List.map_cons, pageSection]
    rcases (t.generatePage_reformatted page).cases with
      ⟨before, after, hbefore, hafter, hfirst⟩ | ⟨cause, hbefore, hafter⟩
    · rw [hbefore, hafter]
      rcases ih.cases with ⟨others, others', hothers, hothers', hrest⟩ | ⟨cause, hrest, hrest'⟩
      · rw [hothers, hothers']
        rw [hafter] at hfirst
        exact (hfirst.tagged page.path).append hrest
      · rw [hrest, hrest']
        exact rfl
    · rw [hbefore, hafter]
      exact rfl

/-! ## Projects -/

def endingDrafts (t : Toolchain) (project : ProjectRequest) : List Draft :=
  (t.projectDrafts project).1 :: (t.projectDrafts project).2

theorem projectDrafts_withFormat (t : Toolchain) (on : Bool) (project : ProjectRequest) :
    (t.withFormat on).projectDrafts project = t.projectDrafts project :=
  congrArg
    (fun source => ({ (t.projectDrafts project).1 with source }, (t.projectDrafts project).2))
    (PageModule.render_withFormat t.options on
      (Scaffold.layout project.name project.description t.options.typeScript))

theorem endingDrafts_script (t : Toolchain) (project : ProjectRequest) :
    ∀ d ∈ t.endingDrafts project, d.IsScript := by
  have extension : t.options.componentExtension ∈ ["tsx", "jsx", "ts"] := by
    unfold Options.componentExtension
    split <;> decide
  intro d hd
  rcases List.mem_cons.mp hd with rfl | htypes
  · have path : (t.projectDrafts project).1.path =
        "app/layout" ++ "." ++ t.options.componentExtension :=
      congrArg (· ++ t.options.componentExtension)
        (by decide : Route.appDirectory ++ "/layout." = "app/layout" ++ ".")
    refine ⟨nofun, ⟨_, _, extension, path⟩, 'a', ?_, by decide⟩
    rw [path, String.append_assoc]
    exact Text.head?_append (by decide) _
  · have types : d.kind = .typeDeclaration ∧ d.path = typesPath := by
      simp only [projectDrafts] at htypes
      split at htypes
      · obtain rfl := List.mem_singleton.mp htypes
        exact ⟨rfl, rfl⟩
      · cases htypes
    refine ⟨by rw [types.1]; decide, ⟨"types/components", "ts", by decide, ?_⟩, 't', ?_, by decide⟩
    · rw [types.2]
      decide
    · rw [types.2]
      decide

def projectEnding (t : Toolchain) (project : ProjectRequest) : Generation where
  files := (t.finish (t.projectDrafts project).1).file ::
    OutputFile.of .stylesheet stylesheetPath (Scaffold.stylesheet t.options.utilityClasses) ::
    (t.projectDrafts project).2.map fun d => (t.finish d).file
  statistics := {}
  suggestions := []
  warnings := t.projectNotes project

theorem generateProject_eq (t : Toolchain) (project : ProjectRequest) :
    t.generateProject project =
      (t.generatePages project.pages).map fun g => g.append (t.projectEnding project) := by
  rw [generateProject]
  congr 1
  funext g
  have warnings := List.append_assoc g.warnings (t.finish (t.projectDrafts project).1).warnings
    ((t.projectDrafts project).2.flatMap fun d => (t.finish d).warnings)
  simp only [Generation.append, projectEnding, projectNotes, ← warnings, List.append_nil,
    List.map_map, List.flatMap_map]
  rfl

theorem projectEnding_reformatted (t : Toolchain) (project : ProjectRequest) :
    Generation.Reformatted t [⟨"", (t.withFormat true).projectNotes project⟩]
      ((t.withFormat false).projectEnding project)
      ((t.withFormat true).projectEnding project) := by
  have scripts := t.endingDrafts_script project
  have notes (on : Bool) : (t.withFormat on).projectNotes project =
      (t.endingDrafts project).flatMap fun d => ((t.withFormat on).finish d).warnings := by
    rw [projectNotes, projectDrafts_withFormat]
    rfl
  have files (on : Bool) : ((t.withFormat on).projectEnding project).files =
      ((t.withFormat on).finish (t.projectDrafts project).1).file ::
        OutputFile.of .stylesheet stylesheetPath (Scaffold.stylesheet t.options.utilityClasses) ::
        (t.projectDrafts project).2.map fun d => ((t.withFormat on).finish d).file := by
    rw [projectEnding, projectDrafts_withFormat]
    rfl
  refine ⟨?_, rfl, rfl, ?_, ?_, fun hfails => ?_⟩
  · rw [files, files]
    refine .cons (t.finish_refinishes (scripts _ List.mem_cons_self)).file (.cons ?_ ?_)
    · exact ⟨rfl, rfl, rfl, fun h => absurd rfl h, rfl, rfl, rfl⟩
    · rw [List.forall₂_map_left_iff, List.forall₂_map_right_iff, List.forall₂_same]
      exact fun d hd => (t.finish_refinishes (scripts d (List.mem_cons_of_mem _ hd))).file
  · rw [List.flatMap_singleton, WarningSection.unlabelled]
    rfl
  · rw [List.flatMap_singleton, notes, skipped_drafts scripts, files]
    refine .of_eq ?_
    rw [endingDrafts, List.map_cons, List.filterMap_cons, List.filterMap_cons,
      List.filterMap_cons]
    rfl
  · rw [List.flatMap_singleton, WarningSection.unskipped, WarningSection.unlabelled, notes]
    refine (notes false).trans (kept_drafts scripts ?_).symm
    rw [files] at hfails
    intro file hfile
    apply hfails file
    rcases List.mem_cons.mp hfile with rfl | htypes
    · exact List.mem_cons_self
    · exact List.mem_cons_of_mem _ (List.mem_cons_of_mem _ htypes)

theorem generateProject_reformatted (t : Toolchain) (project : ProjectRequest) :
    SameOutcome
      (Generation.Reformatted t ((t.withFormat true).sections (.project project)))
      ((t.withFormat false).generateProject project)
      ((t.withFormat true).generateProject project) := by
  rw [generateProject_eq, generateProject_eq]
  rcases (t.generatePages_reformatted project.pages).cases with
    ⟨before, after, hbefore, hafter, hpages⟩ | ⟨cause, hbefore, hafter⟩
  · rw [hbefore, hafter]
    exact hpages.append (t.projectEnding_reformatted project)
  · rw [hbefore, hafter]
    exact rfl

/-- Whatever formatter and checker there are: with formatting on, a request is answered as with
formatting off, apart from how scripts are printed and from one warning for each script that the
formatter fails on. -/
theorem formatter_only_reprints (t : Toolchain) (request : Request) :
    SameOutcome (Generation.Reformatted t ((t.withFormat true).sections request))
      ((t.withFormat false).answer request) ((t.withFormat true).answer request) := by
  cases request with
  | page page => exact t.generatePage_reformatted page
  | dynamicRoute page params => exact t.generateDynamicRoute_reformatted page params
  | split page => exact t.splitPage_reformatted page
  | pages pages => exact t.generatePages_reformatted pages
  | project project => exact t.generateProject_reformatted project

end Toolchain

namespace Sample

def unformatted : Toolchain :=
  { toolchain with formatter := fun _ path => .error (.unsupported path) }

/-- Where the formatter always fails, the page is the same as without it, and all that is new are
the warnings of the formatter. -/
theorem formatter_only_reprints_page : ∃ before after : Generation,
    (unformatted.withFormat false).answer (.page page) = .ok before ∧
    (unformatted.withFormat true).answer (.page page) = .ok after ∧
    List.Forall₂ (fun b a : OutputFile => a.content = b.content) before.files after.files ∧
    (after.warnings.filter isSkipNote).Perm (before.files.filterMap unformatted.skipNote?) ∧
    after.warnings.filter (fun w => !isSkipNote w) = before.warnings := by
  have answered : ∃ g, (unformatted.withFormat false).answer (.page page) = .ok g := by
    rw [Toolchain.answer, Toolchain.generatePage, Toolchain.pageOutput, page_valid]
    exact ⟨_, rfl⟩
  obtain ⟨g, hg⟩ := answered
  rcases (Toolchain.formatter_only_reprints unformatted (.page page)).cases with
    ⟨before, after, hbefore, hafter, hsame⟩ | ⟨cause, hbefore, _⟩
  · have fails : unformatted.FailsOn before.files := fun _ _ _ => ⟨_, rfl⟩
    have sections : (unformatted.withFormat true).sections (.page page) =
        [⟨"", after.warnings⟩] := by
      simp only [Toolchain.sections, hafter, Toolchain.warningsOf]
    have skipped := hsame.skipped
    have kept := hsame.kept fails
    rw [sections, List.flatMap_singleton] at skipped kept
    refine ⟨before, after, hbefore, hafter, hsame.files.imp ?_, skipped, ?_⟩
    · intro b a hreprint
      rw [hreprint.content, Toolchain.reprint]
      split <;> rfl
    · rw [kept, WarningSection.unskipped, WarningSection.unlabelled]
  · rw [hg] at hbefore
    cases hbefore

end Sample

end Pagewright

import Pagewright.Page.Plan
import Pagewright.Proofs.Text.Split

/-!
# Warnings by origin

The warnings of a page are what its plan notes about the request, and what formatting
and checking say about each file. The first character of a warning tells these apart:
every note of a plan has one of its own, a failure of the formatter another, and a
finding of the checker opens with the path of its file.
-/

set_option autoImplicit false

namespace Pagewright

theorem Text.head?_append {s : String} {c : Char} (h : s.toList.head? = some c) (rest : String) :
    (s ++ rest).toList.head? = some c := by
  rw [String.toList_append, List.head?_append, h]
  rfl

/-! ## Notes of a plan -/

theorem voidNote_head (id : String) : (voidNote id).toList.head? = some '\x60' := by
  have opening : "`".toList.head? = some '\x60' := by decide
  exact Text.head?_append (Text.head?_append opening id) _

theorem fallbackNote_head (kind : String) : (fallbackNote kind).toList.head? = some 'u' := by
  have opening : "unknown component type `".toList.head? = some 'u' := by decide
  exact Text.head?_append (Text.head?_append opening kind) _

theorem conflictNote_head (c : ImportConflict) : (conflictNote c).toList.head? = some 'i' := by
  have opening : "import of ".toList.head? = some 'i' := by decide
  have module := Text.head?_append (Text.head?_append opening c.module) " replaced `"
  exact Text.head?_append (Text.head?_append (Text.head?_append (Text.head?_append module _) _) _) _

/-! ## Warnings about files -/

theorem Toolchain.checked_head (t : Toolchain) {path content w : String} {c : Char}
    (hpath : path.toList.head? = some c) (h : w ∈ t.checked path content) :
    w.toList.head? = some c := by
  unfold checked at h
  split at h
  · obtain ⟨issue, _, rfl⟩ := List.mem_map.mp h
    rw [String.append_assoc]
    exact Text.head?_append hpath _
  · cases h

theorem Toolchain.formatted_head (t : Toolchain) {d : Draft} {w : String}
    (h : w ∈ (t.formatted d).2) : w.toList.head? = some 'f' := by
  unfold formatted at h
  split at h
  · split at h
    · cases h
    · rw [List.mem_singleton.mp h]
      exact Text.head?_append (by decide) _
  · cases h

theorem Toolchain.finish_warning_head (t : Toolchain) {d : Draft} {c : Char}
    (hpath : d.path.toList.head? = some c) {w : String} (h : w ∈ (t.finish d).warnings) :
    w.toList.head? = some 'f' ∨ w.toList.head? = some c := by
  have parts : w ∈ (t.formatted d).2 ∨ w ∈ t.checked d.path (t.formatted d).1 :=
    List.mem_append.mp h
  exact parts.imp t.formatted_head (t.checked_head hpath)

theorem Route.directory_head (route : String) : (directory route).toList.head? = some 'a' := by
  obtain ⟨rest, hrest⟩ := Text.join_cons "/" appDirectory (segments route)
  rw [directory, hrest]
  exact Text.head?_append (by decide) rest

namespace PagePlan

def islandDrafts (plan : PagePlan) (options : Options) : List Draft :=
  plan.islands.toList.map (plan.draft options .component islandsStem)

def pageDrafts (plan : PagePlan) (options : Options) : List Draft :=
  plan.companion.toList.map (plan.draft options .component companionStem) ++
    [plan.draft options .page "page" plan.page,
      plan.draft options .scaffold "loading" (Scaffold.loading options),
      plan.draft options .scaffold "error" Scaffold.error]

theorem finish_warnings (plan : PagePlan) (t : Toolchain) :
    (plan.finish t).warnings =
      (plan.islandDrafts t.options).flatMap (fun d => (t.finish d).warnings) ++ plan.notes ++
        (plan.pageDrafts t.options).flatMap fun d => (t.finish d).warnings := by
  simp [finish, islandDrafts, pageDrafts, List.flatMap_map, Function.comp_def]

theorem finish_files_perm (plan : PagePlan) (t : Toolchain) :
    (plan.finish t).files.Perm
      ((plan.islandDrafts t.options ++ plan.pageDrafts t.options).map fun d =>
        (t.finish d).file) := by
  rw [List.perm_iff_count]
  intro file
  simp only [finish, islandDrafts, pageDrafts, List.map_append, List.map_cons, List.map_nil,
    List.map_map, List.cons_append, Function.comp_def, List.count_append, List.count_cons,
    List.count_nil]
  omega

theorem forall_drafts {plan : PagePlan} {options : Options} {P : Draft → Prop}
    (h : ∀ kind ≠ .stylesheet, ∀ stem m, P (plan.draft options kind stem m)) :
    ∀ d ∈ plan.islandDrafts options ++ plan.pageDrafts options, P d := by
  intro d hd
  simp only [islandDrafts, pageDrafts, List.mem_append, List.mem_map, List.mem_cons,
    List.not_mem_nil, or_false] at hd
  rcases hd with ⟨m, _, rfl⟩ | ⟨m, _, rfl⟩ | rfl | rfl | rfl <;> exact h _ (by decide) _ _

theorem draft_path_head {plan : PagePlan} (h : plan.directory.toList.head? = some 'a')
    (options : Options) (kind : FileKind) (stem : String) (m : PageModule) :
    (plan.draft options kind stem m).path.toList.head? = some 'a' := by
  simp only [draft, pathOf, String.append_assoc]
  exact Text.head?_append h _

end PagePlan

end Pagewright

import Pagewright.Proofs.Generator.Formatting
import Pagewright.Proofs.Page.FileSet

/-!
# Paths of the files of a project

The files of all pages, the layout, the style sheet and the declarations share one
space of paths. The path of a module tells its directory and its name apart, since the
name holds no slash, and the names of the project's own files are none that a page has.
So two files of a project have one path only if they are the same file of two pages in
one directory. A directory in turn tells the segments of the route it stands for.
-/

set_option autoImplicit false

namespace Pagewright

/-- Routes have one directory exactly if they have the same segments. -/
theorem Route.directory_eq_iff (r s : String) :
    directory r = directory s ↔ segments r = segments s := by
  constructor
  · intro h
    have parts := congrArg (Text.split '/') h
    rw [split_directory, split_directory] at parts
    exact (List.cons.inj parts).2
  · intro h
    rw [directory, directory, h]

/-- The extension of a module with markup ends in an `x`. -/
theorem pathIn_last (options : Options) (directory stem : String) :
    (pathIn options directory stem).toList.getLast? = some 'x' := by
  have extension : options.componentExtension.toList.getLast? = some 'x' := by
    unfold Options.componentExtension
    split <;> decide
  rw [pathIn, String.toList_append, List.getLast?_append, extension]
  rfl

namespace Toolchain

variable (t : Toolchain)

/-! ## Pages -/

def pagePaths (page : PageRequest) : List String :=
  ((page.plan t.options).finish t).files.map OutputFile.path

theorem page_mem_pagePaths (page : PageRequest) :
    pathIn t.options (Route.directory page.path) "page" ∈ t.pagePaths page := by
  obtain ⟨names, hpage, _, hpaths⟩ := (page.plan t.options).exists_stems t
  rw [pagePaths, hpaths]
  exact List.mem_map_of_mem hpage

theorem pagePaths_nodup (page : PageRequest) : (t.pagePaths page).Nodup := by
  obtain ⟨names, _, hnames, hpaths⟩ := (page.plan t.options).exists_stems t
  rw [pagePaths, hpaths]
  have distinct : PagePlan.stems.Nodup := by decide
  exact (hnames.nodup distinct).map fun _ _ => pathIn_inj.mp

/-- Two pages have a path in common exactly if they are in one directory. -/
theorem pagePaths_apart_iff (a b : PageRequest) :
    (∀ x ∈ t.pagePaths a, ∀ y ∈ t.pagePaths b, x ≠ y) ↔
      Route.directory a.path ≠ Route.directory b.path := by
  constructor
  · intro apart hsame
    refine apart _ (t.page_mem_pagePaths a) _ (t.page_mem_pagePaths b) ?_
    rw [hsame]
  · intro hdirectory x hx y hy hsame
    obtain ⟨stem, hstem, rfl⟩ := PagePlan.stem_of_mem_paths hx
    obtain ⟨other, hother, rfl⟩ := PagePlan.stem_of_mem_paths hy
    have both := (pathIn_eq_iff (PagePlan.slash_not_mem_stems stem hstem)
      (PagePlan.slash_not_mem_stems other hother)).mp hsame
    exact hdirectory both.1

theorem paths_of_generatePages {pages : List PageRequest} {g : Generation}
    (h : t.generatePages pages = .ok g) :
    g.files.map OutputFile.path = pages.flatMap t.pagePaths := by
  obtain ⟨parts, hparts, rfl⟩ := (generatePages_ok_iff pages g).mp h
  clear h
  induction hparts with
  | nil => rfl
  | cons hfirst _ ih =>
    obtain ⟨single, hsingle, rfl⟩ := contributes_iff.mp hfirst
    rw [List.flatMap_cons, ← ih, pagePaths, ← files_of_generatePage hsingle, ← List.map_append]
    rfl

theorem flatMap_pagePaths_nodup_iff (pages : List PageRequest) :
    (pages.flatMap t.pagePaths).Nodup ↔
      (pages.map fun page => Route.directory page.path).Nodup := by
  have directories : (pages.map fun page => Route.directory page.path).Nodup ↔
      pages.Pairwise fun a b => Route.directory a.path ≠ Route.directory b.path :=
    List.pairwise_map
  rw [directories]
  refine List.pairwise_flatMap.trans ?_
  simp only [t.pagePaths_apart_iff]
  exact and_iff_right fun page _ => t.pagePaths_nodup page

/-! ## The rest of a project -/

theorem paths_of_projectEnding (project : ProjectRequest) :
    (t.projectEnding project).files.map OutputFile.path =
      pathIn t.options Route.appDirectory "layout" :: stylesheetPath ::
        if t.options.typeScript then [typesPath] else [] := by
  have layout : (t.projectDrafts project).1.path =
      pathIn t.options Route.appDirectory "layout" :=
    congrArg (· ++ t.options.componentExtension)
      (by decide : Route.appDirectory ++ "/layout." = Route.appDirectory ++ "/" ++ "layout" ++ ".")
  have types : (t.projectDrafts project).2.map Draft.path =
      if t.options.typeScript then [typesPath] else [] := by
    simp only [projectDrafts]
    split <;> rfl
  rw [← layout, ← types, projectEnding, List.map_cons, List.map_cons, List.map_map]
  rfl

theorem mem_projectEnding_paths {project : ProjectRequest} {path : String}
    (h : path ∈ (t.projectEnding project).files.map OutputFile.path) :
    path = pathIn t.options Route.appDirectory "layout" ∨ path ∈ [stylesheetPath, typesPath] := by
  rw [paths_of_projectEnding] at h
  rcases List.mem_cons.mp h with hlayout | hplain
  · exact .inl hlayout
  · right
    split at hplain
    · exact hplain
    · exact List.mem_cons.mpr (.inl (List.mem_singleton.mp hplain))

/-- Neither the style sheet nor the declarations are a module with markup. -/
theorem plain_last : ∀ path ∈ [stylesheetPath, typesPath], path.toList.getLast? ≠ some 'x' := by
  decide

theorem projectEnding_paths_nodup (project : ProjectRequest) :
    ((t.projectEnding project).files.map OutputFile.path).Nodup := by
  have layout : ∀ path ∈ [stylesheetPath, typesPath],
      pathIn t.options Route.appDirectory "layout" ≠ path := by
    intro path hpath hsame
    exact plain_last path hpath (hsame ▸ pathIn_last t.options _ _)
  have others : stylesheetPath ≠ typesPath := by decide
  rw [paths_of_projectEnding]
  split
  · simp [layout stylesheetPath, layout typesPath, others]
  · simp [layout stylesheetPath]

/-- No file of a page has the path of one of the project's own files. -/
theorem pagePaths_ne_ending (page : PageRequest) (project : ProjectRequest) :
    ∀ x ∈ t.pagePaths page, ∀ y ∈ (t.projectEnding project).files.map OutputFile.path, x ≠ y := by
  intro x hx y hy hsame
  obtain ⟨stem, hstem, rfl⟩ := PagePlan.stem_of_mem_paths hx
  rcases t.mem_projectEnding_paths hy with hlayout | hplain
  · have both := (pathIn_eq_iff (PagePlan.slash_not_mem_stems stem hstem) (by decide)).mp
      (hsame.trans hlayout)
    rw [both.2] at hstem
    exact absurd hstem (by decide)
  · exact plain_last y hplain (hsame ▸ pathIn_last t.options _ _)

theorem paths_of_generateProject {project : ProjectRequest} {g : Generation}
    (h : t.generateProject project = .ok g) :
    g.files.map OutputFile.path = project.pages.flatMap t.pagePaths ++
      (t.projectEnding project).files.map OutputFile.path := by
  rw [generateProject_eq] at h
  cases hpages : t.generatePages project.pages with
  | error cause =>
    rw [hpages] at h
    cases h
  | ok pages =>
    rw [hpages] at h
    cases h
    rw [← t.paths_of_generatePages hpages, ← List.map_append]
    rfl

/-- The files of a generated project have different paths exactly if its pages are in different
directories; and the directories of two routes are the same exactly if the routes have the same
segments. -/
theorem project_paths_distinct_iff :
    (∀ project g, t.generateProject project = .ok g →
      ((g.files.map OutputFile.path).Nodup ↔
        (project.pages.map fun page => Route.directory page.path).Nodup)) ∧
    ∀ r s, Route.directory r = Route.directory s ↔ Route.segments r = Route.segments s := by
  refine ⟨?_, Route.directory_eq_iff⟩
  intro project g h
  rw [t.paths_of_generateProject h, List.nodup_append, ← t.flatMap_pagePaths_nodup_iff]
  refine and_iff_left ⟨t.projectEnding_paths_nodup project, ?_⟩
  intro x hx y hy
  obtain ⟨page, _, hpage⟩ := List.mem_flatMap.mp hx
  exact t.pagePaths_ne_ending page project x hpage y hy

end Toolchain

namespace Sample

def projectAt (paths : List String) : ProjectRequest where
  name := "Site"
  description := ""
  pages := paths.map pageAt

theorem project_ok (paths : List String) (h : ∀ path ∈ paths, Text.isBlank path = false) :
    ∃ g, toolchain.generateProject (projectAt paths) = .ok g := by
  have single : ∀ page ∈ paths.map pageAt, ∃ g, toolchain.generatePage page = .ok g := by
    intro page hpage
    obtain ⟨path, hpath, rfl⟩ := List.mem_map.mp hpage
    exact toolchain.generatePage_ok (pageAt_valid (h path hpath))
  obtain ⟨parts, hparts⟩ := (Toolchain.exists_contributions_iff _).mpr single
  have pages := (Toolchain.generatePages_ok_iff _ _).mpr ⟨parts, hparts, rfl⟩
  rw [Toolchain.generateProject_eq, projectAt, pages]
  exact ⟨_, rfl⟩

/-- Three directories, and one that is written in two ways. -/
theorem project_paths_distinct_iff_blog :
    (∃ g, toolchain.generateProject (projectAt ["/", "/layout", "/layout/page.tsx"]) = .ok g ∧
      (g.files.map OutputFile.path).Nodup) ∧
    ∃ g, toolchain.generateProject (projectAt ["/blog", " blog // "]) = .ok g ∧
      ¬ (g.files.map OutputFile.path).Nodup := by
  obtain ⟨apart, hapart⟩ := project_ok ["/", "/layout", "/layout/page.tsx"] (by decide)
  obtain ⟨same, hsame⟩ := project_ok ["/blog", " blog // "] (by decide)
  refine ⟨⟨apart, hapart, ?_⟩, same, hsame, ?_⟩
  · exact ((toolchain.project_paths_distinct_iff.1 _ _ hapart).mpr (by decide))
  · exact fun h => absurd ((toolchain.project_paths_distinct_iff.1 _ _ hsame).mp h) (by decide)

end Sample

end Pagewright

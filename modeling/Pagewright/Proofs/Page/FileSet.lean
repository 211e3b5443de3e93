import Pagewright.Proofs.Page.Locals
import Pagewright.Proofs.Page.ModuleScope

/-!
# The files of a page

Which files a page is made of, and what may stand in those for the browser. A module
that opens with the browser directive declares plain functions only: metadata, static
parameters, data fetching and asynchronous components stay on the server. Where a page
needs both sides, its body moves to a companion, and the page itself is left with one
element that refers to the companion by the name which the companion declares.
-/

set_option autoImplicit false

namespace Pagewright

def browserMark : String := "\"use client\""

def serverNames : List String := ["metadata", "generateStaticParams", "getData"]

def Scope.isAsync (code : String) : Bool :=
  let plain := ["export ", "default "].foldl (fun cs word =>
    if word.toList.isPrefixOf cs then cs.drop word.length else cs) code.toList
  "async ".toList.isPrefixOf plain

structure PageModule.BrowserOnly (options : Options) (m : PageModule) : Prop where
  undeclared : ∀ b ∈ m.blocks, Scope.declarationName (b.render options) ∉ serverNames
  synchronous : ∀ b ∈ m.blocks, Scope.isAsync (b.render options) = false

def PageModule.Separate (options : Options) (m : PageModule) : Prop :=
  Text.startsWith (m.render options) browserMark = true → m.BrowserOnly options

/-! ## How modules begin -/

theorem ComponentFunction.isAsync_render (options : Options) (f : ComponentFunction) :
    Scope.isAsync (f.render options) = f.isAsync := by
  obtain ⟨tail, htail⟩ := f.render_opening options
  rw [htail, Scope.isAsync]
  simp only [String.toList_append]
  cases f.isDefault <;> cases f.isAsync <;> rfl

theorem ComponentFunction.export_render (options : Options) {f : ComponentFunction}
    (hdefault : f.isDefault = true) (hname : ∀ c ∈ f.name.toList, Name.isPart c = true) :
    (Text.startsWith (f.render options) "export default ",
      Scope.declarationName (f.render options)) = (true, f.name) := by
  rw [f.declarationName_render options hname, Prod.mk.injEq]
  obtain ⟨tail, htail⟩ := f.render_opening options
  rw [hdefault] at htail
  rw [htail]
  exact ⟨Text.startsWith_append _ _, rfl⟩

def Text.Lettered (s : String) : Prop := ∃ c ∈ s.toList.head?, c.isAlpha = true

namespace Text.Lettered

variable {s : String}

theorem append (h : Lettered s) (rest : String) : Lettered (s ++ rest) := by
  obtain ⟨c, hc, hletter⟩ := h
  refine ⟨c, ?_, hletter⟩
  rw [String.toList_append]
  exact List.mem_head?_append_of_mem_head? hc

theorem join (h : Lettered s) (separator : String) (rest : List String) :
    Lettered (Text.join separator (s :: rest)) := by
  obtain ⟨tail, htail⟩ := Text.join_cons separator s rest
  rw [htail]
  exact h.append tail

theorem unmarked (h : Lettered s) : Text.startsWith s browserMark = false := by
  obtain ⟨c, hc, hletter⟩ := h
  rw [Bool.eq_false_iff]
  intro hmark
  obtain ⟨rest, hrest⟩ := List.isPrefixOf_iff_prefix.mp hmark
  rw [← hrest] at hc
  cases hc
  exact absurd hletter (by decide)

end Text.Lettered

theorem Block.render_lettered (options : Options) (b : Block) :
    Text.Lettered (b.render options) := by
  cases b with
  | metadata value =>
    have opening : Text.Lettered "export const metadata" := ⟨'e', rfl, rfl⟩
    exact (((opening.append _).append _).append _).append _
  | fetch fetching =>
    have opening : Text.Lettered "async function getData()" := ⟨'a', rfl, rfl⟩
    exact ((opening.append _).append _).join "\n" _
  | routeProps params =>
    have opening : Text.Lettered "type PageProps = \x7b\n" := ⟨'t', rfl, rfl⟩
    exact (((opening.append _).append _).append _).append _
  | staticParams =>
    have opening : Text.Lettered "export async function generateStaticParams() \x7b\n" :=
      ⟨'e', rfl, rfl⟩
    exact (opening.append _).append _
  | component f =>
    have opening : Text.Lettered (if f.isDefault then "export default " else "export ") := by
      cases f.isDefault <;> exact ⟨'e', rfl, rfl⟩
    obtain ⟨tail, htail⟩ := f.render_opening options
    change Text.Lettered (f.render options)
    rw [htail]
    exact opening.append _

theorem ImportStatement.lines_lettered (s : ImportStatement) :
    ∀ line ∈ s.lines, Text.Lettered line := by
  have opening : Text.Lettered "import " := ⟨'i', rfl, rfl⟩
  have shapes : ∀ line ∈ s.lines,
      (∃ what, line = s.line what) ∨ line = "import " ++ Text.quoted s.module ++ ";" := by
    unfold lines
    split <;> grind
  intro line hline
  rcases shapes line hline with ⟨what, rfl⟩ | rfl
  · exact (((opening.append _).append _).append _).append _
  · exact (opening.append _).append _

namespace PageModule

/-- A module for the server begins with an import or with a declaration, if it holds any. -/
theorem render_of_server (options : Options) {m : PageModule} (h : m.placement = .server) :
    Text.Lettered (m.render options) ∨ m.blocks = [] ∧ m.render options = "\n" := by
  rw [render, assembleModule, h]
  change Text.Lettered (Text.join "\n\n" ([] ++ _ ++ _) ++ "\n") ∨
    _ ∧ Text.join "\n\n" ([] ++ _ ++ _) ++ "\n" = "\n"
  rw [List.nil_append]
  cases hlines : m.imports.lines with
  | nil =>
    cases hblocks : m.blocks with
    | nil => exact .inr ⟨rfl, rfl⟩
    | cons b rest => exact .inl (((b.render_lettered options).join _ _).append _)
  | cons line others =>
    have listed : line ∈ m.imports.lines := by simp [hlines]
    obtain ⟨s, _, hline⟩ := List.mem_flatMap.mp listed
    exact .inl ((((s.lines_lettered line hline).join _ _).join _ _).append _)

theorem unmarked_of_server (options : Options) {m : PageModule} (h : m.placement = .server) :
    Text.startsWith (m.render options) browserMark = false := by
  rcases m.render_of_server options h with lettered | ⟨_, hrender⟩
  · exact lettered.unmarked
  · rw [hrender]
    decide

theorem marked_of_browser (options : Options) {m : PageModule} (h : m.placement = .client) :
    Text.startsWith (m.render options) browserMark = true := by
  have opening := List.isPrefixOf_iff_prefix.mp (m.opens_with_directive options h)
  have shorter : browserMark.toList <+: clientDirective.toList := by decide
  exact List.isPrefixOf_iff_prefix.mpr (shorter.trans opening)

theorem separate_of_server (options : Options) {m : PageModule} (h : m.placement = .server) :
    m.Separate options := by
  intro hmark
  rw [m.unmarked_of_server options h] at hmark
  cases hmark

end PageModule

/-! ## Modules for the browser -/

structure ComponentFunction.Plain (f : ComponentFunction) : Prop where
  synchronous : f.isAsync = false
  isPart : ∀ c ∈ f.name.toList, Name.isPart c = true
  own : f.name ∉ serverNames

theorem PageModule.separate_of_plain (options : Options) {m : PageModule}
    (h : ∀ b ∈ m.blocks, ∃ f : ComponentFunction, b = .component f ∧ f.Plain) :
    m.Separate options := by
  intro _
  constructor
  · intro b hb
    obtain ⟨f, rfl, plain⟩ := h b hb
    change Scope.declarationName (f.render options) ∉ serverNames
    rw [f.declarationName_render options plain.isPart]
    exact plain.own
  · intro b hb
    obtain ⟨f, rfl, plain⟩ := h b hb
    exact (f.isAsync_render options).trans plain.synchronous

theorem PageModule.separate_of_single (options : Options) {placement : Placement}
    {imports : Imports} {f : ComponentFunction} (h : f.Plain) :
    (PageModule.mk placement imports [.component f]).Separate options := by
  apply PageModule.separate_of_plain
  intro b hb
  exact ⟨f, List.mem_singleton.mp hb, h⟩

theorem Scaffold.error_separate (options : Options) : error.Separate options := by
  apply PageModule.separate_of_single
  exact ⟨rfl, List.all_eq_true.mp (by decide), by decide⟩

namespace PageRequest

variable (page : PageRequest)

theorem componentName_own : page.componentName ∉ serverNames := by
  have endings : ∀ name ∈ serverNames, ¬ "Page".toList <:+ name.toList := by decide
  exact fun hname => endings _ hname page.componentName_closed.suffix

theorem companionName_own : page.companionName ∉ serverNames := by
  have endings : ∀ name ∈ serverNames, ¬ "PageClient".toList <:+ name.toList := by decide
  exact fun hname => endings _ hname (companionName_suffix page)

theorem islandName_own (number : Nat) : islandName number ∉ serverNames := by
  have openings : ∀ name ∈ serverNames, ¬ "ClientIsland".toList <+: name.toList := by decide
  exact fun hname => openings _ hname (islandName_opening number)

theorem companionModule_separate (options : Options) (emitted : EmittedBody) :
    (page.companionModule emitted).Separate options :=
  PageModule.separate_of_single options ⟨rfl, page.companionName_isPart, page.companionName_own⟩

theorem pageModule_server (options : Options) (imports : Imports) (setup : List Setup)
    (returned : Returned) :
    (page.pageModule options .server imports setup returned).placement = .server := by
  unfold pageModule
  split <;> rfl

/-- Metadata and data keep a page on the server, and a page without them is a plain function. -/
theorem modules_separate (options : Options) (placement : Placement) (emitted : EmittedBody) :
    (page.modules options placement emitted).1.Separate options ∧
      ∀ m ∈ (page.modules options placement emitted).2, m.Separate options := by
  unfold modules
  split
  · constructor
    · exact PageModule.separate_of_server options (page.pageModule_server options _ _ _)
    · intro m hm
      cases hm
      exact page.companionModule_separate options emitted
  · rename_i hneeds
    refine ⟨?_, by simp⟩
    cases placement with
    | client =>
      rw [pageModule_plain _ _ _ _ _ _ (strategy_of_not_companion (Bool.eq_false_iff.mpr hneeds))]
      apply PageModule.separate_of_single
      exact ⟨rfl, page.componentName_closed.isPart, page.componentName_own⟩
    | server => exact PageModule.separate_of_server options (page.pageModule_server options _ _ _)

theorem dynamicModule_separate (options : Options) (placement : Placement) (emitted : EmittedBody)
    (params : List RouteParam) :
    (page.dynamicModule options placement emitted params).Separate options := by
  cases placement with
  | client =>
    apply PageModule.separate_of_single
    exact ⟨rfl, page.componentName_closed.isPart, page.componentName_own⟩
  | server => exact PageModule.separate_of_server options rfl

theorem islandFunctions_plain (e : Emitter) (names : List (String × String))
    (h : ∀ entry ∈ names, ∃ number, entry.2 = islandName number) :
    ∀ f ∈ (islandFunctions e names).1, f.Plain := by
  induction names generalizing e with
  | nil => simp [islandFunctions]
  | cons entry rest ih =>
    obtain ⟨⟨number, hnumber⟩, hrest⟩ := List.forall_mem_cons.mp h
    refine List.forall_mem_cons.mpr ⟨⟨rfl, ?_, ?_⟩, ih _ hrest⟩
    · rw [hnumber]
      exact islandName_isPart number
    · rw [hnumber]
      exact islandName_own number

theorem islands_separate (options : Options) :
    ∀ m ∈ (page.splitPlan options).islands, m.Separate options := by
  intro m hm
  rw [splitPlan_islands] at hm
  split at hm
  · cases hm
  · cases hm
    apply PageModule.separate_of_plain
    rw [List.forall_mem_map]
    intro f hf
    exact ⟨f, rfl, islandFunctions_plain _ _ (fun _ hentry => (mem_islandNames hentry).2) f hf⟩

end PageRequest

/-! ## Files -/

/-- A formatter may move marks and write them anew, but a text that begins with a letter, as all
unmarked modules do, gets none. -/
def Toolchain.AddsNoMark (t : Toolchain) : Prop :=
  ∀ source path content, Text.Lettered source → t.formatter source path = .ok content →
    Text.startsWith content browserMark = false

theorem Toolchain.AddsNoMark.finish {t : Toolchain} (h : t.AddsNoMark) (d : Draft)
    (hsource : Text.Lettered d.source) :
    Text.startsWith (t.finish d).file.content browserMark = false := by
  change Text.startsWith (t.formatted d).1 browserMark = false
  unfold Toolchain.formatted
  split
  · split
    · rename_i content hcontent
      exact h _ _ _ hsource hcontent
    · exact hsource.unmarked
  · exact hsource.unmarked

/-- The file of a module that keeps code for the server out of the browser: judged by the text that
is handed to the formatter, and by the file itself where the formatter adds no mark. -/
structure PageModule.KeptApart (t : Toolchain) (kind : FileKind) (path : String) (m : PageModule)
    (file : OutputFile) : Prop where
  finished : file = (t.finish ⟨kind, path, m.render t.options⟩).file
  drafted : m.Separate t.options
  formatted : t.AddsNoMark → Text.startsWith file.content browserMark = true →
    m.BrowserOnly t.options

theorem PageModule.Separate.keptApart {t : Toolchain} {m : PageModule} (h : m.Separate t.options)
    (kind : FileKind) (path : String) :
    m.KeptApart t kind path (t.finish ⟨kind, path, m.render t.options⟩).file := by
  refine ⟨rfl, h, fun hadds hfile => ?_⟩
  cases hplacement : m.placement with
  | client => exact h (m.marked_of_browser t.options hplacement)
  | server =>
    rcases m.render_of_server t.options hplacement with lettered | ⟨hblocks, _⟩
    · rw [hadds.finish ⟨kind, path, m.render t.options⟩ lettered] at hfile
      cases hfile
    · constructor <;> simp [hblocks]

def pathIn (options : Options) (directory stem : String) : String :=
  directory ++ "/" ++ stem ++ "." ++ options.componentExtension

def fileEntries (stems : List String) : List (FileKind × String) :=
  (.page, "page") :: stems.map (fun stem => (.component, stem)) ++
    [(.scaffold, "loading"), (.scaffold, "error")]

def FilesIn (options : Options) (directory : String) (stems : List String)
    (files : List OutputFile) : Prop :=
  files.map (fun file => (file.kind, file.path)) =
    (fileEntries stems).map fun entry => (entry.1, pathIn options directory entry.2)

theorem pathIn_inj {options : Options} {directory a b : String} :
    pathIn options directory a = pathIn options directory b ↔ a = b := by
  constructor
  · intro heq
    have chars := congrArg String.toList heq
    simp only [pathIn, String.toList_append, List.append_assoc] at chars
    have rest := List.append_cancel_left (List.append_cancel_left chars)
    exact String.toList_inj.mp (List.append_cancel_right rest)
  · rintro rfl
    rfl

/-- Files in different directories have different paths, as the name of a file has no slash. -/
theorem pathIn_eq_iff {options : Options} {directory other a b : String} (ha : '/' ∉ a.toList)
    (hb : '/' ∉ b.toList) :
    pathIn options directory a = pathIn options other b ↔ directory = other ∧ a = b := by
  constructor
  · intro heq
    have parts := congrArg (Text.split '/') heq
    rw [pathIn, pathIn, Route.split_file options directory ha, Route.split_file options other hb]
      at parts
    have names := List.head_eq_of_cons_eq (List.append_inj_right' parts rfl)
    have stems : a = b := by
      have chars := congrArg String.toList names
      simp only [String.toList_append, List.append_assoc] at chars
      exact String.toList_inj.mp (List.append_cancel_right chars)
    subst stems
    have chars := congrArg String.toList heq
    simp only [pathIn, String.toList_append, List.append_assoc] at chars
    exact ⟨String.toList_inj.mp (List.append_cancel_right chars), rfl⟩
  · rintro ⟨rfl, rfl⟩
    rfl

theorem FilesIn.paths {options : Options} {directory : String} {stems : List String}
    {files : List OutputFile} (h : FilesIn options directory stems files) :
    files.map OutputFile.path =
      ("page" :: stems ++ ["loading", "error"]).map (pathIn options directory) := by
  have entries : (fileEntries stems).map Prod.snd = "page" :: stems ++ ["loading", "error"] := by
    simp [fileEntries, Function.comp_def]
  have second := congrArg (List.map Prod.snd) h
  rw [List.map_map, List.map_map] at second
  rw [← entries, List.map_map]
  exact second

theorem FilesIn.mem_paths {options : Options} {directory : String} {stems : List String}
    {files : List OutputFile} (h : FilesIn options directory stems files) (stem : String) :
    pathIn options directory stem ∈ files.map OutputFile.path ↔
      stem ∈ "page" :: stems ++ ["loading", "error"] := by
  rw [h.paths, List.mem_map]
  simp only [pathIn_inj, exists_eq_right]

namespace PagePlan

def Separates (plan : PagePlan) (t : Toolchain) (files : List OutputFile) : Prop :=
  List.Forall₂ (fun m file => m.module.KeptApart t m.kind (plan.pathOf t.options m.stem) file)
    (plan.modules t.options) files

theorem separates_finish {plan : PagePlan} {t : Toolchain} (hpage : plan.page.Separate t.options)
    (hcompanion : ∀ m ∈ plan.companion, m.Separate t.options)
    (hislands : ∀ m ∈ plan.islands, m.Separate t.options) :
    plan.Separates t (plan.finish t).files := by
  have loading : (Scaffold.loading t.options).Separate t.options :=
    PageModule.separate_of_server t.options rfl
  have separate := forall_modules hpage hcompanion hislands loading
    (Scaffold.error_separate t.options)
  rw [Separates, finish_files, List.forall₂_map_right_iff, List.forall₂_same]
  exact fun m hm => (separate m hm).keptApart _ _

theorem Separates.separate {plan : PagePlan} {t : Toolchain} {files : List OutputFile}
    (h : plan.Separates t files) : ∀ m ∈ plan.modules t.options, m.module.Separate t.options := by
  have parts := List.Forall₂.imp (fun _ _ hm => And.intro hm.drafted hm.finished) h
  exact ((List.forall₂_and_left _ _).mp parts).1

theorem Separates.exists_page {plan : PagePlan} {t : Toolchain} {files : List OutputFile}
    (h : plan.Separates t files) :
    ∃ file ∈ files, plan.page.KeptApart t .page (plan.pathOf t.options "page") file := by
  cases h with
  | cons apart _ => exact ⟨_, List.mem_cons_self, apart⟩

theorem filesIn_finish (plan : PagePlan) (t : Toolchain) :
    FilesIn t.options plan.directory
      (plan.companion.toList.map (fun _ => companionStem) ++
        plan.islands.toList.map fun _ => islandsStem) (plan.finish t).files := by
  rw [FilesIn, finish_files, List.map_map, modules, fileEntries]
  simp only [List.map_append, List.map_cons, List.map_nil, List.map_map, List.cons_append,
    List.append_assoc]
  rfl

def stems : List String := ["page", companionStem, islandsStem, "loading", "error"]

theorem slash_not_mem_stems : ∀ stem ∈ stems, '/' ∉ stem.toList := by decide

/-- The files of a plan have some of these names in the plan's directory, and one is the page. -/
theorem exists_stems (plan : PagePlan) (t : Toolchain) : ∃ names : List String, "page" ∈ names ∧
    names.Sublist stems ∧
    (plan.finish t).files.map OutputFile.path = names.map (pathIn t.options plan.directory) := by
  refine ⟨_, List.mem_cons_self, ?_, (plan.filesIn_finish t).paths⟩
  have companion : (plan.companion.toList.map fun _ => companionStem).Sublist [companionStem] := by
    cases plan.companion <;> simp
  have islands : (plan.islands.toList.map fun _ => islandsStem).Sublist [islandsStem] := by
    cases plan.islands <;> simp
  exact ((companion.append islands).append_right ["loading", "error"]).cons_cons "page"

theorem stem_of_mem_paths {plan : PagePlan} {t : Toolchain} {path : String}
    (h : path ∈ (plan.finish t).files.map OutputFile.path) :
    ∃ stem ∈ stems, pathIn t.options plan.directory stem = path := by
  obtain ⟨names, _, hnames, hpaths⟩ := plan.exists_stems t
  rw [hpaths] at h
  obtain ⟨stem, hstem, hpath⟩ := List.mem_map.mp h
  exact ⟨stem, hnames.subset hstem, hpath⟩

end PagePlan

/-! ## Companions -/

theorem Imports.find?_only_default (name module : String) :
    (Imports.empty.addDefault name module).find? module = some { defaultName := some name } := by
  have unknown : Imports.empty.find? module = none := rfl
  exact Imports.find?_update_new unknown fun entry => { entry with defaultName := some name }

theorem Imports.line_of_default {imports : Imports} {module name : String}
    (h : imports.find? module = some { defaultName := some name }) :
    "import " ++ name ++ " from " ++ Text.quoted module ++ ";" ∈ imports.lines := by
  rw [Imports.lines, List.mem_flatMap]
  refine ⟨Imports.statementOf module { defaultName := some name }, ?_, ?_⟩
  · exact (Imports.mem_statements_iff imports _).mpr ⟨_, mem_of_lookup h, rfl⟩
  · exact List.mem_singleton.mpr rfl

namespace PageRequest

def NeedsBoth (page : PageRequest) (placement : Placement) : Prop :=
  (page.metadata.isSome = true ∨ page.dataFetching.isSome = true) ∧ placement = .client

instance (page : PageRequest) (placement : Placement) : Decidable (page.NeedsBoth placement) :=
  inferInstanceAs (Decidable (_ ∧ _))

theorem needsCompanion_iff (page : PageRequest) (placement : Placement) :
    page.needsCompanion placement = true ↔ page.NeedsBoth placement := by
  unfold needsCompanion NeedsBoth strategy
  cases page.dataFetching.isSome <;> cases page.metadata.isSome <;> cases placement <;> decide

def companionElement (page : PageRequest) (name : String) : String :=
  Text.indent 2 ++ "<" ++ name ++ (match page.dataBinding? with
    | some data => " " ++ data ++ "=\x7b" ++ data ++ "\x7d"
    | none => "") ++ " />"

structure LeavesBodyTo (page : PageRequest) (options : Options) (server companion : PageModule)
    (name : String) : Prop where
  unmarked : Text.startsWith (server.render options) browserMark = false
  shows : server.functions.map (fun f => f.returned.render options) =
    [page.companionElement name]
  bare : server.components = []
  imported : server.imports.find? ("./" ++ companionStem) = some { defaultName := some name }
  printed : "import " ++ name ++ " from \"./page-client\";" ∈ server.imports.lines
  marked : Text.startsWith (companion.render options) browserMark = true
  declared : companion.blocks.map (fun b => (Text.startsWith (b.render options) "export default ",
    Scope.declarationName (b.render options))) = [(true, name)]

theorem companion_render (page : PageRequest) (options : Options) (name : String) :
    (Returned.companion name page.dataBinding?).render options = page.companionElement name := by
  unfold companionElement
  cases page.dataBinding? with
  | none => simp [Returned.render]
  | some data =>
    apply String.toList_inj.mp
    simp [Returned.render]

theorem modules_leaveBody (page : PageRequest) (options : Options) {placement : Placement}
    (emitted : EmittedBody) (h : page.needsCompanion placement = true) :
    ∃ companion, (page.modules options placement emitted).2 = some companion ∧
      page.LeavesBodyTo options (page.modules options placement emitted).1 companion
        page.companionName := by
  rw [modules, if_pos h]
  refine ⟨_, rfl, ?_⟩
  have returned := page.pageModule_returned options .server
    (Imports.empty.addDefault page.companionName ("./" ++ companionStem)) []
    (.companion page.companionName page.dataBinding?)
  have imported := (page.pageModule_find? options .server
    (Imports.empty.addDefault page.companionName ("./" ++ companionStem)) []
    (.companion page.companionName page.dataBinding?)
    (by decide : "./" ++ companionStem ≠ "next")).trans (Imports.find?_only_default _ _)
  constructor
  · exact PageModule.unmarked_of_server options (page.pageModule_server options _ _ _)
  · have rendered := congrArg (List.map (Returned.render options)) returned
    rw [List.map_map, List.map_singleton, companion_render] at rendered
    exact rendered
  · have shown := congrArg (List.flatMap Returned.components) returned
    rw [List.flatMap_map] at shown
    exact shown
  · exact imported
  · have line := Imports.line_of_default imported
    rw [String.append_assoc, String.append_assoc] at line
    exact line
  · exact PageModule.marked_of_browser options rfl
  · exact congrArg (fun entry => [entry])
      (ComponentFunction.export_render options rfl page.companionName_isPart)

theorem plan_stems (page : PageRequest) (options : Options) :
    (page.plan options).companion.toList.map (fun _ => companionStem) ++
      (page.plan options).islands.toList.map (fun _ => islandsStem) =
        if page.NeedsBoth (page.plan options).placement then [companionStem] else [] := by
  simp only [plan, modules, ← needsCompanion_iff]
  split <;> rfl

theorem splitPlan_stems (page : PageRequest) (options : Options) :
    (page.splitPlan options).companion.toList.map (fun _ => companionStem) ++
      (page.splitPlan options).islands.toList.map (fun _ => islandsStem) =
        if page.islandRoots.isEmpty then [] else [islandsStem] := by
  rw [splitPlan_companion, splitPlan_islands, splitNames_isEmpty]
  split <;> rfl

end PageRequest

/-! ## Entry points -/

namespace Toolchain

/-- In all files of a page, of a page on a dynamic route and of a split page, a module that opens
with the browser directive holds no code for the server. The files are the page, then the companion
or the islands, then those for loading and failing, in one directory. A page in one piece has a
companion exactly if it needs both sides, and then it only shows the companion. -/
theorem files_follow_strategy (t : Toolchain) :
    (∀ page g, t.generatePage page = .ok g →
      (page.plan t.options).Separates t g.files ∧
      ∃ output, t.pageOutput page = .ok output ∧ g.files = output.files ∧
        FilesIn t.options (Route.directory page.path)
          (if page.NeedsBoth output.placement then [companionStem] else []) g.files ∧
        (pathIn t.options (Route.directory page.path) "page-client" ∈
          g.files.map OutputFile.path ↔ page.NeedsBoth output.placement) ∧
        (page.NeedsBoth output.placement → ∃ companion name,
          (page.plan t.options).companion = some companion ∧
          page.LeavesBodyTo t.options (page.plan t.options).page companion name)) ∧
    (∀ page params g, t.generateDynamicRoute page params = .ok g →
      (page.dynamicPlan t.options (routeParams params).1).Separates t g.files ∧
      FilesIn t.options (Route.directory (Route.withParams page.path (routeParams params).1)) []
        g.files) ∧
    (∀ page g, t.splitPage page = .ok g →
      (page.splitPlan t.options).Separates t g.files ∧
      FilesIn t.options (Route.directory page.path)
        (if page.islandRoots.isEmpty then [] else [islandsStem]) g.files) := by
  refine ⟨?_, ?_, ?_⟩
  · intro page g h
    obtain ⟨hvalid, rfl⟩ := generatePage_eq_ok_iff.mp h
    have houtput := t.pageOutput_valid hvalid
    have separate := page.modules_separate t.options (page.plan t.options).placement
      ((Forest.ofComponents page.components).emit t.options OrderedMap.empty
        (Forest.ofComponents page.components).roots)
    have files := (page.plan t.options).filesIn_finish t
    rw [page.plan_stems t.options] at files
    refine ⟨PagePlan.separates_finish separate.1 separate.2 (by simp [PageRequest.plan]),
      _, houtput, rfl, files, ?_, ?_⟩
    · refine (files.mem_paths "page-client").trans ?_
      by_cases hneeds : page.NeedsBoth (page.plan t.options).placement
      · simp [hneeds, companionStem, PagePlan.finish]
      · simp [hneeds, PagePlan.finish]
    · intro hneeds
      obtain ⟨companion, hcompanion, hleaves⟩ := page.modules_leaveBody t.options _
        ((page.needsCompanion_iff _).mpr hneeds)
      exact ⟨companion, _, hcompanion, hleaves⟩
  · intro page params g h
    rw [(files_of_generateDynamicRoute h).2]
    exact ⟨PagePlan.separates_finish (page.dynamicModule_separate t.options _ _ _)
      (by simp [PageRequest.dynamicPlan]) (by simp [PageRequest.dynamicPlan]),
      (page.dynamicPlan t.options (routeParams params).1).filesIn_finish t⟩
  · intro page g h
    have separate := page.modules_separate t.options .server (page.splitEmitted t.options)
    have files := (page.splitPlan t.options).filesIn_finish t
    rw [page.splitPlan_stems t.options] at files
    rw [(files_of_splitPage h).2]
    exact ⟨PagePlan.separates_finish separate.1 separate.2 (page.islands_separate t.options), files⟩

end Toolchain

namespace Sample

theorem buttonPage_fetches (handler : String) :
    ¬ ((buttonPage handler).plan toolchain.options).page.BrowserOnly toolchain.options := by
  have fetch : ∃ fetching,
      Block.fetch fetching ∈ ((buttonPage handler).plan toolchain.options).page.blocks := by
    simp only [PageRequest.plan, PageRequest.modules]
    split <;> exact ⟨_, List.mem_cons_self⟩
  obtain ⟨fetching, listed⟩ := fetch
  have declared : Scope.declarationName ((Block.fetch fetching).render toolchain.options) =
      "getData" :=
    Block.declarationName_render _
      (List.all_eq_true.mp (by decide : "getData".toList.all Name.isPart = true))
  exact fun only => only.undeclared _ listed (declared ▸ by decide)

/-- The page of a button has data, so that the button moves to a companion and the file of the page
has no mark of the browser. On a dynamic route the whole page moves to the browser, and a split
page keeps the button in an island. -/
theorem files_follow_strategy_button :
    toolchain.AddsNoMark ∧
    (∃ g companion name, toolchain.generatePage (buttonPage "save") = .ok g ∧
      FilesIn toolchain.options "app/press" ["page-client"] g.files ∧
      (buttonPage "save").LeavesBodyTo toolchain.options
        ((buttonPage "save").plan toolchain.options).page companion name ∧
      companion.BrowserOnly toolchain.options ∧
      ∃ file ∈ g.files, file.kind = .page ∧
        Text.startsWith file.content browserMark = false) ∧
    (∃ g, toolchain.generateDynamicRoute (buttonPage "save") idParam = .ok g ∧
      FilesIn toolchain.options "app/press/[id]" [] g.files) ∧
    (∃ g, toolchain.splitPage (buttonPage "save") = .ok g ∧
      FilesIn toolchain.options "app/press" ["client-islands"] g.files) := by
  obtain ⟨hpage, hroute, hsplit⟩ := Toolchain.files_follow_strategy toolchain
  have client : ((buttonPage "save").plan toolchain.options).placement = .client :=
    button_client (by decide)
  have directory : Route.directory "/press" = "app/press" := by decide
  have adds : toolchain.AddsNoMark := by
    intro source path content hsource hformat
    cases hformat
    exact hsource.unmarked
  refine ⟨adds, ?_, ?_, ?_⟩
  · obtain ⟨g, hg⟩ := toolchain.generatePage_ok (buttonPage_valid "save")
    obtain ⟨hseparate, output, houtput, -, hfiles, -, hleaves⟩ := hpage _ _ hg
    have needs : (buttonPage "save").NeedsBoth output.placement := by
      rw [toolchain.pageOutput_valid (buttonPage_valid "save")] at houtput
      cases houtput
      exact ⟨.inr rfl, client⟩
    obtain ⟨companion, name, hcompanion, hleaves⟩ := hleaves needs
    rw [if_pos needs, show (buttonPage "save").path = "/press" from rfl, directory] at hfiles
    have separate := hseparate.separate _ (PagePlan.mem_modules_companion hcompanion)
    obtain ⟨file, hfile, apart⟩ := hseparate.exists_page
    refine ⟨g, companion, name, hg, hfiles, hleaves, separate hleaves.marked, file, hfile, ?_, ?_⟩
    · rw [apart.finished]
      rfl
    · rw [Bool.eq_false_iff]
      exact fun marked => buttonPage_fetches "save" (apart.formatted adds marked)
  · obtain ⟨g, hg⟩ := toolchain.generateDynamicRoute_ok (buttonPage_valid "save")
      (by decide : (routeParams idParam).2 = []) (by decide)
    have nested : Route.directory (Route.withParams "/press" (routeParams idParam).1) =
        "app/press/[id]" := by decide
    exact ⟨g, hg, nested ▸ (hroute _ _ _ hg).2⟩
  · obtain ⟨g, hg⟩ := toolchain.splitPage_ok (buttonPage_valid "save")
    have islands : (buttonPage "save").islandRoots = ["press"] := by
      refine ((button_spells "save").islandRoots rfl).trans ?_
      decide
    have files := (hsplit _ _ hg).2
    rw [islands, show (buttonPage "save").path = "/press" from rfl, directory] at files
    exact ⟨g, hg, files⟩

end Sample

end Pagewright

import Pagewright.Proofs.Code.Scope
import Pagewright.Proofs.Import.Origin
import Pagewright.Proofs.Page.Handler
import Pagewright.Proofs.Page.Route

/-!
# Names of module scope

What a module imports and what it declares at the top are pairwise distinct names, for
every title and every tree. The names that the program itself chooses are kept apart by
how they begin and end: a page's name ends with a word of its own, the companion's with
one more, and an island's with a digit. All names that the components of a body import
are in one table, and none of them looks like these.
-/

set_option autoImplicit false

namespace Pagewright

/-! ## What a body imports -/

def bodyOrigins : List (String × Origin) :=
  [("Link", ⟨"next/link", .default⟩), ("Image", ⟨"next/image", .default⟩)] ++
    Hook.client.map fun hook => (hook.name, ⟨hook.module, .named⟩)

def bodyOrigin? (name : String) : Option Origin := lookup name bodyOrigins

theorem bodyOrigin?_framework (f : FrameworkComponent) :
    bodyOrigin? f.name = some ⟨f.module, .default⟩ := by
  cases f <;> decide

theorem bodyOrigin?_hook : ∀ hook ∈ Hook.client,
    bodyOrigin? hook.name = some ⟨hook.module, .named⟩ ∧ Text.Unbroken hook.name := by
  decide

namespace Hook

theorem callsFrom_client (inWord : Bool) (cs : List Char) :
    ∀ hook ∈ callsFrom inWord cs, hook ∈ client := by
  induction cs generalizing inWord with
  | nil => simp [callsFrom]
  | cons c rest ih =>
    intro hook hhook
    rw [callsFrom, List.mem_append, Option.mem_toList] at hhook
    rcases hhook with hhere | hlater
    · cases inWord with
      | true => simp at hhere
      | false =>
        rw [if_neg (by decide)] at hhere
        exact List.mem_of_find?_eq_some hhere
    · exact ih _ hook hlater

mutual

theorem calls_client : ∀ value : Json, ∀ hook ∈ calls value, hook ∈ client
  | .text s => by
    rw [calls]
    exact callsFrom_client false s.toList
  | .list items => by
    rw [calls]
    exact callsInItems_client items
  | .object fields => by
    rw [calls]
    exact callsInFields_client fields
  | .null | .bool _ | .whole _ | .real _ => by simp [calls]

theorem callsInItems_client : ∀ items : List Json, ∀ hook ∈ callsInItems items, hook ∈ client
  | [] => by simp [callsInItems]
  | item :: rest => by
    rw [callsInItems, List.forall_mem_append]
    exact ⟨calls_client item, callsInItems_client rest⟩

theorem callsInFields_client : ∀ fields : List (String × Json),
    ∀ hook ∈ callsInFields fields, hook ∈ client
  | [] => by simp [callsInFields]
  | (_, value) :: rest => by
    rw [callsInFields, List.forall_mem_append]
    exact ⟨calls_client value, callsInFields_client rest⟩

end

end Hook

namespace Imports.Placed

variable {imports : Imports}

theorem registerHooks (h : imports.Placed bodyOrigin?) {hooks : List Hook}
    (hhooks : ∀ hook ∈ hooks, hook ∈ Hook.client) :
    (hooks.foldl (fun imports hook => imports.addNamed [hook.name] hook.module) imports).Placed
      bodyOrigin? := by
  induction hooks generalizing imports with
  | nil => exact h
  | cons hook rest ih =>
    obtain ⟨horigin, hunbroken⟩ := bodyOrigin?_hook hook (hhooks hook (by simp))
    apply ih
    · exact h.addNamed (by simpa using horigin) (by simpa using hunbroken)
    · exact fun other hother => hhooks other (List.mem_cons_of_mem _ hother)

/-- A step: what one component imports is in the table. -/
theorem registerImports (h : imports.Placed bodyOrigin?) (c : Component) :
    (c.registerImports imports).Placed bodyOrigin? := by
  have framework : (c.registerFramework imports).Placed bodyOrigin? := by
    cases hf : (Primitive.ofKind c.kind).framework with
    | some f =>
      rw [Component.registerFramework_some hf]
      exact h.addDefault (bodyOrigin?_framework f)
    | none =>
      rw [Component.registerFramework_none hf]
      exact h
  rw [Component.registerImports_eq]
  apply framework.registerHooks
  intro hook hhook
  obtain ⟨value, _, hcall⟩ := List.mem_flatMap.mp hhook
  exact Hook.calls_client value hook hcall

theorem registerAll (h : imports.Placed bodyOrigin?) (components : List Component) :
    (components.foldl (fun imports c => c.registerImports imports) imports).Placed bodyOrigin? := by
  induction components generalizing imports with
  | nil => exact h
  | cons c rest ih => exact ih (h.registerImports c)

end Imports.Placed

/-- Rendering adds nothing to the imports of the analysis. -/
theorem Forest.emit_imports (forest : Forest) (options : Options) (substitutions : Substitutions)
    (ids : List String) :
    (forest.emit options substitutions ids).imports =
      (forest.walkFrom substitutions.keys ids).foldl (fun imports c => c.registerImports imports)
        Imports.empty :=
  Emitter.noteAll_imports (e := Emitter.analyze { forest, options, substitutions } ids)
    fun _ hc => Emitter.registered_of_shown _ (List.Subset.refl ids) hc

theorem Forest.emit_placed (forest : Forest) (options : Options) (substitutions : Substitutions)
    (ids : List String) :
    (forest.emit options substitutions ids).imports.Placed bodyOrigin? := by
  rw [forest.emit_imports]
  exact (Imports.placed_empty bodyOrigin?).registerAll _

/-! ## What a page imports -/

def isIslandName (name : String) : Bool :=
  Text.startsWith name "ClientIsland" && name.toList.getLast?.any Char.isDigit

def pageOrigin? (name : String) : Option Origin :=
  match bodyOrigin? name with
  | some origin => some origin
  | none =>
    if name = "Metadata" then some ⟨"next", .type⟩
    else if Text.endsWith name "PageClient" then some ⟨"./" ++ companionStem, .default⟩
    else if isIslandName name then some ⟨"./" ++ islandsStem, .named⟩
    else none

theorem Imports.Placed.page {imports : Imports} (h : imports.Placed bodyOrigin?) :
    imports.Placed pageOrigin? := by
  apply h.mono
  intro name origin horigin
  rw [pageOrigin?, horigin]

theorem bodyOrigin?_eq_none {name : String} (h : ∀ entry ∈ bodyOrigins, entry.1 ≠ name) :
    bodyOrigin? name = none := by
  rw [bodyOrigin?, lookup_eq_none_iff, List.mem_map]
  rintro ⟨entry, hentry, heq⟩
  exact h entry hentry heq

/-- A page's own name has no origin. -/
theorem pageOrigin?_of_closed {name : String} (h : Name.Closed name) : pageOrigin? name = none := by
  have ending := h.suffix
  have body : bodyOrigin? name = none := by
    have endings : ∀ entry ∈ bodyOrigins, ¬ "Page".toList <:+ entry.1.toList := by decide
    apply bodyOrigin?_eq_none
    rintro entry hentry rfl
    exact endings entry hentry ending
  have metadata : name ≠ "Metadata" := by
    rintro rfl
    exact absurd ending (by decide)
  have companion : Text.endsWith name "PageClient" = false := by
    rw [Bool.eq_false_iff]
    intro hends
    have longer := List.isSuffixOf_iff_suffix.mp hends
    exact absurd (List.suffix_of_suffix_length_le ending longer (by decide)) (by decide)
  have island : isIslandName name = false := by
    obtain ⟨start, hstart⟩ := ending
    have last : name.toList.getLast? = some 'e' := by
      rw [← hstart]
      exact List.getLast?_append_of_ne_nil _ (by decide)
    simp [isIslandName, last]
  simp [pageOrigin?, body, metadata, companion, island]

section Companion

variable (page : PageRequest)

theorem companionName_suffix : "PageClient".toList <:+ page.companionName.toList := by
  obtain ⟨start, hstart⟩ := (Name.ofTitle_closed page.title).suffix
  refine ⟨start, ?_⟩
  rw [PageRequest.companionName, PageRequest.componentName, String.toList_append, ← hstart,
    List.append_assoc]
  rfl

theorem bodyOrigin?_companion : bodyOrigin? page.companionName = none := by
  have endings : ∀ entry ∈ bodyOrigins, ¬ "PageClient".toList <:+ entry.1.toList := by decide
  apply bodyOrigin?_eq_none
  intro entry hentry heq
  apply endings entry hentry
  rw [heq]
  exact companionName_suffix page

theorem pageOrigin?_companion :
    pageOrigin? page.companionName = some ⟨"./" ++ companionStem, .default⟩ := by
  have ending := companionName_suffix page
  have metadata : page.companionName ≠ "Metadata" := by
    intro heq
    rw [heq] at ending
    exact absurd ending (by decide)
  have ends : Text.endsWith page.companionName "PageClient" = true :=
    List.isSuffixOf_iff_suffix.mpr ending
  simp [pageOrigin?, bodyOrigin?_companion, metadata, ends]

end Companion

section Island

variable (number : Nat)

theorem digits_isDigit : ∀ c ∈ (Decimal.digitText number).toList, c.isDigit = true := by
  rw [Decimal.digitText, String.toList_ofList]
  exact fun c hc => Nat.isDigit_of_mem_toDigits (by decide) (by decide) hc

theorem islandName_isPart : ∀ c ∈ (islandName number).toList, Name.isPart c = true := by
  rw [islandName, String.toList_append, List.forall_mem_append]
  refine ⟨List.all_eq_true.mp (by decide), fun c hc => ?_⟩
  simp [Name.isPart, digits_isDigit number c hc]

/-- An island's name ends with a digit. -/
theorem islandName_last :
    ∃ start c, (islandName number).toList = start ++ [c] ∧ c.isDigit = true := by
  rcases List.eq_nil_or_concat (Decimal.digitText number).toList with hnil | ⟨start, c, hdigits⟩
  · rw [Decimal.digitText, String.toList_ofList] at hnil
    exact absurd hnil (by simp)
  · rw [List.concat_eq_append] at hdigits
    refine ⟨"ClientIsland".toList ++ start, c, ?_, ?_⟩
    · rw [islandName, String.toList_append, hdigits, List.append_assoc]
    · exact digits_isDigit number c (by simp [hdigits])

theorem islandName_opening : "ClientIsland".toList <+: (islandName number).toList := by
  rw [islandName, String.toList_append]
  exact List.prefix_append _ _

theorem bodyOrigin?_island : bodyOrigin? (islandName number) = none := by
  have openings : ∀ entry ∈ bodyOrigins, ¬ "ClientIsland".toList <+: entry.1.toList := by decide
  apply bodyOrigin?_eq_none
  intro entry hentry heq
  apply openings entry hentry
  rw [heq]
  exact islandName_opening number

theorem pageOrigin?_island :
    pageOrigin? (islandName number) = some ⟨"./" ++ islandsStem, .named⟩ := by
  obtain ⟨start, c, hchars, hdigit⟩ := islandName_last number
  have metadata : islandName number ≠ "Metadata" := by
    intro heq
    have opening := islandName_opening number
    rw [heq] at opening
    exact absurd opening (by decide)
  have companion : Text.endsWith (islandName number) "PageClient" = false := by
    rw [Bool.eq_false_iff]
    intro hends
    have longer := List.isSuffixOf_iff_suffix.mp hends
    have last : [c] <:+ (islandName number).toList := ⟨start, hchars.symm⟩
    have letters : "PageClient".toList.all (fun d => !d.isDigit) = true := by decide
    have inside := List.suffix_of_suffix_length_le last longer (by simp)
    have letter := List.all_eq_true.mp letters c (inside.subset (by simp))
    simp [hdigit] at letter
  have island : isIslandName (islandName number) = true := by
    have opening : Text.startsWith (islandName number) "ClientIsland" = true :=
      List.isPrefixOf_iff_prefix.mpr (islandName_opening number)
    simp [isIslandName, opening, hchars, hdigit]
  simp [pageOrigin?, bodyOrigin?_island, metadata, companion, island]

end Island

/-! ## Modules -/

namespace PageModule

/-- The names of module scope, each as often as it is bound: what the import statements bind, and
what the printed blocks declare. -/
def scope (options : Options) (m : PageModule) : List String :=
  m.imports.statements.flatMap ImportStatement.bindings ++
    m.blocks.map fun b => Scope.declarationName (b.render options)

structure DeclaresApart (origin? : String → Option Origin) (names : List String) : Prop where
  isPart : ∀ name ∈ names, name.toList.all Name.isPart = true
  distinct : names.Nodup
  unimported : ∀ name ∈ names, origin? name = none

theorem scope_nodup (options : Options) {m : PageModule} {origin? : String → Option Origin}
    (himports : m.imports.Placed origin?)
    (hblocks : DeclaresApart origin? (m.blocks.map Block.declares)) : (m.scope options).Nodup := by
  have declared : (m.blocks.map fun b => Scope.declarationName (b.render options)) =
      m.blocks.map Block.declares := by
    apply List.map_congr_left
    intro b hb
    exact Block.declarationName_render options
      (List.all_eq_true.mp (hblocks.isPart _ (List.mem_map_of_mem hb)))
  rw [scope, declared, List.nodup_append]
  refine ⟨himports.bindings_nodup, hblocks.distinct, ?_⟩
  rintro name himported _ hdeclared rfl
  have origin := himports.origin himported
  rw [hblocks.unimported name hdeclared] at origin
  cases origin

end PageModule

namespace Scaffold

theorem loading_scope (options : Options) : ((loading options).scope options).Nodup := by
  have apart : PageModule.DeclaresApart bodyOrigin? ["Loading"] :=
    ⟨by decide, by decide, by decide⟩
  exact PageModule.scope_nodup options (Imports.placed_empty bodyOrigin?) apart

theorem error_scope (options : Options) : (error.scope options).Nodup := by
  have imports : error.imports.Placed bodyOrigin? :=
    (Imports.placed_empty bodyOrigin?).addNamed (by decide) (by decide)
  have apart : PageModule.DeclaresApart bodyOrigin? ["PageError"] :=
    ⟨by decide, by decide, by decide⟩
  exact PageModule.scope_nodup options imports apart

end Scaffold

namespace PageRequest

variable (page : PageRequest)

theorem componentName_closed : Name.Closed page.componentName := Name.ofTitle_closed page.title

def fixedNames : List String := ["metadata", "getData", "PageProps", "generateStaticParams"]

/-- The page's name stands apart from all fixed names, because it does not end like them. -/
theorem declaresApart {fixed : List String} (h : fixed.Sublist fixedNames) :
    PageModule.DeclaresApart pageOrigin? (fixed ++ [page.componentName]) := by
  have all : PageModule.DeclaresApart pageOrigin? fixedNames := ⟨by decide, by decide, by decide⟩
  have endings : ∀ name ∈ fixedNames, ¬ "Page".toList <:+ name.toList := by decide
  have closed := page.componentName_closed
  constructor
  · rw [List.forall_mem_append, List.forall_mem_singleton]
    exact ⟨fun name hname => all.isPart name (h.subset hname), List.all_eq_true.mpr closed.isPart⟩
  · rw [List.nodup_append]
    refine ⟨all.distinct.sublist h, by simp, ?_⟩
    intro name hname _ hother heq
    rw [List.mem_singleton.mp hother] at heq
    apply endings name (h.subset hname)
    rw [heq]
    exact closed.suffix
  · rw [List.forall_mem_append, List.forall_mem_singleton]
    exact ⟨fun name hname => all.unimported name (h.subset hname), pageOrigin?_of_closed closed⟩

theorem pageModule_declares (options : Options) (placement : Placement) (imports : Imports)
    (setup : List Setup) (returned : Returned) :
    ∃ fixed : List String, fixed.Sublist fixedNames ∧
      (page.pageModule options placement imports setup returned).blocks.map Block.declares =
        fixed ++ [page.componentName] := by
  have metadata : ∃ first : List String, first.Sublist ["metadata"] ∧
      page.metadataBlocks.map Block.declares = first := by
    unfold metadataBlocks
    split
    · exact ⟨["metadata"], .refl _, rfl⟩
    · exact ⟨[], List.nil_sublist _, rfl⟩
  obtain ⟨first, hfirst, hmetadata⟩ := metadata
  unfold pageModule
  split
  · refine ⟨first ++ ["getData"], hfirst.append (by decide), ?_⟩
    simp [hmetadata, Block.declares]
  · refine ⟨first, hfirst.trans (by decide), ?_⟩
    simp [hmetadata, Block.declares]
  · exact ⟨[], List.nil_sublist _, rfl⟩

theorem pageModule_scope (options : Options) (placement : Placement) {imports : Imports}
    (h : imports.Placed pageOrigin?) (setup : List Setup) (returned : Returned) :
    ((page.pageModule options placement imports setup returned).scope options).Nodup := by
  have typed : (page.importMetadataType options imports).Placed pageOrigin? := by
    unfold importMetadataType
    split
    · exact h.addTypes (by decide) (by decide)
    · exact h
  have placed : (page.pageModule options placement imports setup returned).imports.Placed
      pageOrigin? := by
    unfold pageModule
    split
    · exact typed
    · exact typed
    · exact h
  obtain ⟨fixed, hfixed, hblocks⟩ :=
    page.pageModule_declares options placement imports setup returned
  apply PageModule.scope_nodup options placed
  rw [hblocks]
  exact page.declaresApart hfixed

theorem companionName_isPart : ∀ c ∈ page.companionName.toList, Name.isPart c = true := by
  rw [companionName, String.toList_append, List.forall_mem_append]
  exact ⟨page.componentName_closed.isPart, List.all_eq_true.mp (by decide)⟩

theorem companionModule_scope (options : Options) {emitted : EmittedBody}
    (h : emitted.imports.Placed bodyOrigin?) :
    ((page.companionModule emitted).scope options).Nodup := by
  have apart : PageModule.DeclaresApart bodyOrigin? [page.companionName] :=
    ⟨List.forall_mem_singleton.mpr (List.all_eq_true.mpr page.companionName_isPart),
      List.nodup_singleton _,
      List.forall_mem_singleton.mpr (bodyOrigin?_companion page)⟩
  exact PageModule.scope_nodup options h apart

/-- Whatever the strategy, the names are distinct in the modules around a body whose imports are
those of a page, provided that they are those of components where the body moves to a companion. -/
theorem modules_scope (options : Options) (placement : Placement) (emitted : EmittedBody)
    (hpage : emitted.imports.Placed pageOrigin?)
    (hclient : placement = .client → emitted.imports.Placed bodyOrigin?) :
    ((page.modules options placement emitted).1.scope options).Nodup ∧
      ∀ m ∈ (page.modules options placement emitted).2, (m.scope options).Nodup := by
  unfold modules
  split
  · rename_i hneeds
    constructor
    · apply page.pageModule_scope
      exact (Imports.placed_empty pageOrigin?).addDefault (pageOrigin?_companion page)
    · intro m hm
      cases hm
      exact page.companionModule_scope options (hclient (client_of_needsCompanion hneeds))
  · exact ⟨page.pageModule_scope options placement hpage _ _, by simp⟩

theorem dynamicModule_scope (options : Options) (placement : Placement) {emitted : EmittedBody}
    (params : List RouteParam) (h : emitted.imports.Placed bodyOrigin?) :
    ((page.dynamicModule options placement emitted params).scope options).Nodup := by
  cases placement with
  | client =>
    have hooked : (emitted.imports.addNavigation ["useParams"]).Placed bodyOrigin? :=
      h.addNamed (by decide) (by decide)
    exact PageModule.scope_nodup options hooked.page (page.declaresApart (List.nil_sublist _))
  | server =>
    have fixed : ∃ fixed : List String, fixed.Sublist fixedNames ∧
        (page.dynamicModule options .server emitted params).blocks.map Block.declares =
          fixed ++ [page.componentName] := by
      cases htype : options.typeScript with
      | true =>
        exact ⟨["PageProps", "generateStaticParams"], by decide, by
          simp [dynamicModule, Placement.isClient, htype, Block.declares]⟩
      | false =>
        exact ⟨["generateStaticParams"], by decide, by
          simp [dynamicModule, Placement.isClient, htype, Block.declares]⟩
    obtain ⟨fixed, hfixed, hblocks⟩ := fixed
    apply PageModule.scope_nodup options h.page
    rw [hblocks]
    exact page.declaresApart hfixed

theorem islands_scope (options : Options) :
    ∀ m ∈ (page.splitPlan options).islands, (m.scope options).Nodup := by
  have placed : (page.renderedIslands options).2.imports.Placed bodyOrigin? := by
    rw [(page.renderedIslands_bindHandlers options).1]
    exact (Imports.placed_empty bodyOrigin?).registerAll _
  have numbered : ∀ name ∈ page.splitNames.map Prod.snd, ∃ number, name = islandName number := by
    rw [List.forall_mem_map]
    exact fun entry hentry => (mem_islandNames hentry).2
  have apart : PageModule.DeclaresApart bodyOrigin? (page.splitNames.map Prod.snd) := by
    constructor
    · intro name hname
      obtain ⟨number, rfl⟩ := numbered name hname
      exact List.all_eq_true.mpr (islandName_isPart number)
    · exact values_islandNames_nodup _
    · intro name hname
      obtain ⟨number, rfl⟩ := numbered name hname
      exact bodyOrigin?_island number
  intro m hm
  rw [splitPlan_islands] at hm
  split at hm
  · cases hm
  · cases hm
    apply PageModule.scope_nodup options placed
    have declares : ((page.renderedIslands options).1.map Block.component).map Block.declares =
        (page.renderedIslands options).1.map ComponentFunction.name := by
      rw [List.map_map]
      rfl
    rw [declares, page.renderedIslands_names]
    exact apart

theorem splitEmitted_placed (options : Options) :
    (page.splitEmitted options).imports.Placed pageOrigin? := by
  have body := (Forest.emit_placed (Forest.ofComponents page.components) options
    (OrderedMap.ofList page.splitNames) (Forest.ofComponents page.components).roots).page
  unfold splitEmitted
  split
  · exact body
  · apply body.addNamed
    · rw [List.forall_mem_map]
      intro entry hentry
      obtain ⟨_, number, hnumber⟩ := mem_islandNames hentry
      rw [hnumber]
      exact pageOrigin?_island number
    · rw [List.forall_mem_map]
      intro entry hentry
      obtain ⟨_, number, hnumber⟩ := mem_islandNames hentry
      rw [hnumber]
      exact islandName_unbroken number

theorem plan_scope (options : Options) :
    ∀ m ∈ (page.plan options).modules options, (m.module.scope options).Nodup := by
  have placed := Forest.emit_placed (Forest.ofComponents page.components) options OrderedMap.empty
    (Forest.ofComponents page.components).roots
  have distinct := page.modules_scope options
    ((Forest.ofComponents page.components).classify (Forest.ofComponents page.components).roots
      options.serverComponents).page _ placed.page fun _ => placed
  exact PagePlan.forall_modules (P := fun m => (m.scope options).Nodup) distinct.1 distinct.2
    (by simp [plan]) (Scaffold.loading_scope options) (Scaffold.error_scope options)

theorem dynamicPlan_scope (options : Options) (params : List RouteParam) :
    ∀ m ∈ (page.dynamicPlan options params).modules options, (m.module.scope options).Nodup := by
  have placed := Forest.emit_placed (Forest.ofComponents page.components) options OrderedMap.empty
    (Forest.ofComponents page.components).roots
  exact PagePlan.forall_modules (P := fun m => (m.scope options).Nodup)
    (page.dynamicModule_scope options _ params placed) (by simp [dynamicPlan])
    (by simp [dynamicPlan]) (Scaffold.loading_scope options) (Scaffold.error_scope options)

theorem splitPlan_scope (options : Options) :
    ∀ m ∈ (page.splitPlan options).modules options, (m.module.scope options).Nodup := by
  have distinct := page.modules_scope options .server (page.splitEmitted options)
    (page.splitEmitted_placed options) nofun
  exact PagePlan.forall_modules (P := fun m => (m.scope options).Nodup) distinct.1 distinct.2
    (page.islands_scope options) (Scaffold.loading_scope options) (Scaffold.error_scope options)

end PageRequest

/-! ## Entry points -/

/-- In every module of a page, of a parameterised route and of a split page, the names that are
imported and the names that are declared at the top are pairwise distinct. -/
theorem Toolchain.module_scope_distinct (t : Toolchain) :
    (∀ page g, t.generatePage page = .ok g →
      (page.plan t.options).Yields t (fun m => (m.scope t.options).Nodup) g.files) ∧
    (∀ page params g, t.generateDynamicRoute page params = .ok g →
      (page.dynamicPlan t.options (routeParams params).1).Yields t
        (fun m => (m.scope t.options).Nodup) g.files) ∧
    (∀ page g, t.splitPage page = .ok g →
      (page.splitPlan t.options).Yields t (fun m => (m.scope t.options).Nodup) g.files) := by
  refine ⟨?_, ?_, ?_⟩
  · intro page g h
    rw [files_of_generatePage h]
    exact PagePlan.yields_finish (page.plan_scope t.options)
  · intro page params g h
    rw [(files_of_generateDynamicRoute h).2]
    exact PagePlan.yields_finish (page.dynamicPlan_scope t.options _)
  · intro page g h
    rw [(files_of_splitPage h).2]
    exact PagePlan.yields_finish (page.splitPlan_scope t.options)

namespace Sample

def islandPage : PageRequest := { page with title := "client island" }

theorem islandPage_valid : islandPage.violations = [] := by
  have request : Text.isBlank islandPage.path = false ∧ Text.isBlank islandPage.title = false := by
    decide
  simp only [PageRequest.violations, request, Bool.false_eq_true, if_false, List.nil_append]
  exact valid

theorem module_scope_distinct_islands :
    islandPage.componentName = "ClientIslandPage" ∧ islandName 1 = "ClientIsland1" ∧
    (∃ g, toolchain.generatePage islandPage = .ok g ∧ (islandPage.plan toolchain.options).Yields
      toolchain (fun m => (m.scope toolchain.options).Nodup) g.files) ∧
    (∃ g, toolchain.generateDynamicRoute islandPage idParam = .ok g ∧
      (islandPage.dynamicPlan toolchain.options (routeParams idParam).1).Yields toolchain
        (fun m => (m.scope toolchain.options).Nodup) g.files) ∧
    (∃ g, toolchain.splitPage islandPage = .ok g ∧
      (islandPage.splitPlan toolchain.options).Yields toolchain
        (fun m => (m.scope toolchain.options).Nodup) g.files) := by
  obtain ⟨hpage, hroute, hsplit⟩ := Toolchain.module_scope_distinct toolchain
  obtain ⟨p, hp⟩ := toolchain.generatePage_ok islandPage_valid
  obtain ⟨r, hr⟩ := toolchain.generateDynamicRoute_ok islandPage_valid
    (by decide : (routeParams idParam).2 = []) (by decide)
  obtain ⟨s, hs⟩ := toolchain.splitPage_ok islandPage_valid
  exact ⟨by decide, by decide, ⟨p, hp, hpage _ _ hp⟩, ⟨r, hr, hroute _ _ _ hr⟩,
    ⟨s, hs, hsplit _ _ hs⟩⟩

end Sample

end Pagewright

import Mathlib.Data.List.Nodup
import Pagewright.Proofs.Import.History
import Pagewright.Proofs.Page.Locals

/-!
# Names within the function of a parameterised route

The function of a route declares the parameters as they come, those of numbers again
after conversion, and the stubs of its handlers. Parameters as they come and as they are
converted use one name each and one more for every number, in both variants. So all
names are distinct if the parameters keep clear of `params` and of each other's derived
names, and the stubs of all these. A stub hides no import if it is not the hook of the
parameters, which is imported after the stubs are known.
-/

set_option autoImplicit false

namespace Pagewright

open Scope

/-! ## Parameters -/

namespace RouteParam

def scopeNames (params : List RouteParam) : List String :=
  "params" :: (params.map name ++ (params.filter (·.kind == .number)).map rawName)

variable {p : RouteParam} {params : List RouteParam}

theorem rawName_number (h : p.kind = .number) : p.rawName = p.name ++ "Param" := by
  rw [rawName, h]

theorem rawName_unconverted (h : p.kind ≠ .number) : p.rawName = p.name := by
  unfold rawName
  split
  · contradiction
  · rfl

/-- Names before and after conversion are the plain names and the derived ones. -/
theorem declared_perm (params : List RouteParam) :
    (params.map rawName ++ (params.filter (·.kind == .number)).map name).Perm
      (params.map name ++ (params.filter (·.kind == .number)).map rawName) := by
  induction params with
  | nil => exact .refl _
  | cons p rest ih =>
    by_cases hp : p.kind = .number
    · simp only [List.map_cons, List.filter_cons, hp, beq_self_eq_true, if_true]
      calc p.rawName :: rest.map rawName ++ p.name :: (rest.filter (·.kind == .number)).map name
        _ |>.Perm (p.rawName :: p.name ::
            (rest.map rawName ++ (rest.filter (·.kind == .number)).map name)) :=
          List.perm_middle.cons _
        _ |>.Perm (p.name :: p.rawName ::
            (rest.map name ++ (rest.filter (·.kind == .number)).map rawName)) :=
          (List.Perm.swap _ _ _).trans ((ih.cons _).cons _)
        _ |>.Perm (p.name :: (rest.map name ++
            p.rawName :: (rest.filter (·.kind == .number)).map rawName)) :=
          List.perm_middle.symm.cons _
    · simp only [List.map_cons, List.filter_cons, beq_iff_eq, hp, if_false, rawName_unconverted hp,
        List.cons_append]
      exact ih.cons _

theorem append_param_injective : Function.Injective fun name : String => name ++ "Param" := by
  intro a b h
  have chars := congrArg String.toList h
  simp only [String.toList_append] at chars
  exact String.toList_inj.mp (List.append_cancel_right chars)

theorem append_param_ne_params (name : String) : name ++ "Param" ≠ "params" := by
  intro h
  have ending : "Param".toList <:+ "params".toList := by
    rw [← h, String.toList_append]
    exact List.suffix_append _ _
  exact absurd ending (by decide)

theorem mem_derived {name : String} :
    name ∈ (params.filter (·.kind == .number)).map rawName ↔
      ∃ p ∈ params, p.kind = .number ∧ name = p.name ++ "Param" := by
  simp only [List.mem_map, List.mem_filter, beq_iff_eq]
  constructor
  · rintro ⟨p, ⟨hp, hkind⟩, rfl⟩
    exact ⟨p, hp, hkind, rawName_number hkind⟩
  · rintro ⟨p, hp, hkind, rfl⟩
    exact ⟨p, ⟨hp, hkind⟩, rawName_number hkind⟩

theorem derived_nodup (h : (params.map name).Nodup) :
    ((params.filter (·.kind == .number)).map rawName).Nodup := by
  have same : (params.filter (·.kind == .number)).map rawName =
      ((params.filter (·.kind == .number)).map name).map (· ++ "Param") := by
    rw [List.map_map]
    apply List.map_congr_left
    intro p hp
    exact rawName_number (by simpa using (List.mem_filter.mp hp).2)
  rw [same]
  exact (h.sublist (List.filter_sublist.map name)).map append_param_injective

theorem scopeNames_nodup_iff (h : (params.map name).Nodup) :
    (scopeNames params).Nodup ↔ "params" ∉ params.map name ∧
      ∀ p ∈ params, p.kind = .number → p.name ++ "Param" ∉ params.map name := by
  have clear : "params" ∉ (params.filter (·.kind == .number)).map rawName := by
    rw [mem_derived]
    rintro ⟨p, _, _, heq⟩
    exact append_param_ne_params p.name heq.symm
  rw [scopeNames, List.nodup_cons, List.mem_append, not_or, List.nodup_append]
  simp only [clear, not_false_eq_true, and_true, h, derived_nodup h, true_and]
  apply and_congr_right'
  constructor
  · intro hdisjoint p hp hkind hmem
    exact hdisjoint _ hmem _ (mem_derived.mpr ⟨p, hp, hkind, rfl⟩) rfl
  · rintro hclear a ha b hb rfl
    obtain ⟨p, hp, hkind, rfl⟩ := mem_derived.mp hb
    exact hclear p hp hkind ha

theorem mem_scopeNames {name : String} :
    name ∈ scopeNames params ↔ name = "params" ∨ name ∈ params.map RouteParam.name ∨
      ∃ p ∈ params, p.kind = .number ∧ name = p.name ++ "Param" := by
  rw [scopeNames, List.mem_cons, List.mem_append, mem_derived]

end RouteParam

/-! ## Stubs among other statements -/

/-- A text that does not end like a stub is none. -/
theorem Emitter.ne_stub_of_suffix {code : String} {c : Char} (hc : c ≠ '\x7d')
    (h : [c, ';'] <:+ code.toList) (name : String) : code ≠ stub name := by
  have block : "\x7d;".toList <:+ (stub name).toList :=
    Text.suffix_append_right ("const " ++ name) (by decide)
  rintro rfl
  have same := (List.suffix_of_suffix_length_le h block (by simp)).eq_of_length (by simp)
  exact hc (List.cons.inj same).1

theorem Setup.code_eq_stub_iff (typeScript : Bool) {s : Setup} (h : s.WellNamed) (name : String) :
    s.code typeScript = Emitter.stub name ↔ s = .stub name := by
  constructor
  · intro heq
    cases s with
    | stub other => exact congrArg Setup.stub (Emitter.stub_injective heq)
    | fetched data => exact absurd heq (fetched_ne_stub _ _ _)
    | paramsHook params =>
      refine absurd heq (Emitter.ne_stub_of_suffix (by decide : ')' ≠ _) ?_ name)
      exact Text.suffix_append_right _ (by decide : [')', ';'] <:+ "();".toList)
    | paramsField p =>
      -- what stands before the semicolon is part of a name
      rcases List.eq_nil_or_concat p.name.toList with hnil | ⟨others, c, hname⟩
      · exact absurd hnil (Name.toList_ne_nil h)
      have brace : c ≠ '\x7d' := by
        rintro rfl
        have part : '\x7d' ∈ p.name.toList := by simp [hname]
        exact Name.not_mem_of_not_isPart h (by decide) part
      refine absurd heq (Emitter.ne_stub_of_suffix brace ?_ name)
      change _ <:+ ("const " ++ p.rawName ++ " = params." ++ p.name ++ ";").toList
      rw [String.toList_append, String.toList_append, hname, List.concat_eq_append]
      exact ⟨("const " ++ p.rawName ++ " = params.").toList ++ others, by simp⟩
    | paramsPattern params =>
      refine absurd heq (Emitter.ne_stub_of_suffix (by decide : 's' ≠ _) ?_ name)
      exact Text.suffix_append_right _ (by decide : ['s', ';'] <:+ " \x7d = await params;".toList)
    | conversion p =>
      refine absurd heq (Emitter.ne_stub_of_suffix (by decide : ')' ≠ _) ?_ name)
      exact Text.suffix_append_right _ (by decide : [')', ';'] <:+ ");".toList)
    | effect code => exact absurd heq (effect_ne_stub h _ _)
  · rintro rfl
    rfl

theorem ComponentFunction.mem_statements_stub (options : Options) {f : ComponentFunction}
    (h : ∀ s ∈ f.setup, s.WellNamed) (name : String) :
    Emitter.stub name ∈ f.statements options ↔ .stub name ∈ f.setup := by
  rw [statements, List.mem_map]
  constructor
  · rintro ⟨s, hs, hcode⟩
    rwa [← (Setup.code_eq_stub_iff _ (h s hs) name).mp hcode]
  · exact fun hs => ⟨_, hs, rfl⟩

/-! ## The hook of the parameters -/

namespace Imports

theorem localName_mem_addNamed (imports : Imports) {names : List String} {name : String}
    (h : name ∈ specifiers names) (module : String) :
    localName name ∈ (imports.addNamed names module).bindings := by
  obtain ⟨held, hlookup⟩ := Sorted.exists_lookup_adjust module
    (fun entry : Option ModuleImports =>
      { entry.getD {} with named := Sorted.insertAll (entry.getD {}).named (specifiers names) })
    imports.modules
  rw [mem_bindings_iff]
  refine ⟨_, mem_of_lookup hlookup, ?_⟩
  simp only [statementOf, ImportStatement.bindings, List.map_append, List.mem_append, List.mem_map,
    Sorted.mem_insertAll]
  exact .inr (.inl ⟨name, .inr h, rfl⟩)

/-- The hook is bound in addition to the names that were bound before. -/
theorem mem_addNavigation_iff {imports : Imports} {name : String} (h : name ∉ imports.bindings) :
    name ∈ (imports.addNavigation ["useParams"]).bindings ↔ name = "useParams" := by
  have listed : specifiers ["useParams"] = ["useParams"] := by decide
  have bound : localName "useParams" = "useParams" := by decide
  constructor
  · have old : imports.Binds fun n => n = "useParams" ∨ n ∈ imports.bindings := fun _ hn => .inr hn
    intro hname
    have new : Binds _ (imports.addNamed ["useParams"] "next/navigation") :=
      old.addNamed (by simp [listed, bound]) _
    exact (new name hname).resolve_right h
  · rintro rfl
    have named : "useParams" ∈ specifiers ["useParams"] := by simp [listed]
    have hook := imports.localName_mem_addNamed named "next/navigation"
    rwa [bound] at hook

end Imports

/-! ## The function of a route -/

structure ComponentFunction.Serves (emitted : EmittedBody) (params : List RouteParam)
    (f : ComponentFunction) : Prop where
  returned : f.returned = .body emitted.body
  locals : f.locals = "params" :: (params.map RouteParam.rawName ++
    (params.filter (·.kind == .number)).map RouteParam.name ++ emitted.stubNames)
  stubs : ∀ name, .stub name ∈ f.setup ↔ name ∈ emitted.stubNames
  named : f.WellNamed

namespace PageRequest

theorem dynamicModule_serves (page : PageRequest) (options : Options) (placement : Placement)
    (emitted : EmittedBody) {params : List RouteParam} (hne : params ≠ [])
    (hparams : ∀ p ∈ params, Name.isWellFormed p.name = true)
    (hstubs : ∀ name ∈ emitted.stubNames, Name.isWellFormed name = true) :
    ∃ f, (page.dynamicModule options placement emitted params).functions = [f] ∧
      f.Serves emitted params := by
  have conversions : ∀ s ∈ (params.filter (·.kind == .number)).map Setup.conversion,
      s.WellNamed := by
    rw [List.forall_mem_map]
    exact fun p hp => hparams p (List.mem_of_mem_filter hp)
  have fields : ∀ s ∈ params.map Setup.paramsField, s.WellNamed := by
    rw [List.forall_mem_map]
    exact hparams
  have stubs : ∀ s ∈ emitted.stubNames.map Setup.stub, s.WellNamed := by
    rw [List.forall_mem_map]
    exact hstubs
  have raws : (params.map Setup.paramsField).flatMap Setup.binds =
      params.map RouteParam.rawName := by
    rw [List.flatMap_map, List.map_eq_flatMap]
    rfl
  have numbers : ((params.filter (·.kind == .number)).map Setup.conversion).flatMap Setup.binds =
      (params.filter (·.kind == .number)).map RouteParam.name := by
    rw [List.flatMap_map, List.map_eq_flatMap]
    rfl
  cases placement with
  | client =>
    refine ⟨_, rfl, rfl, ?_, ?_, trivial, ?_⟩
    · simp only [ComponentFunction.locals, List.cons_append, List.flatMap_cons, List.flatMap_append,
        raws, numbers, Setup.binds_stubs]
      rfl
    · intro name
      simp
    · simp only [List.cons_append, List.forall_mem_cons, List.forall_mem_append]
      exact ⟨trivial, ⟨fields, conversions⟩, stubs⟩
  | server =>
    have functions : (page.dynamicModule options .server emitted params).functions = [{
        name := page.componentName
        isAsync := true
        parameters := .routeParams
        setup := .paramsPattern params ::
          ((params.filter (·.kind == .number)).map Setup.conversion ++
            emitted.stubNames.map Setup.stub)
        returned := .body emitted.body }] := by
      simp only [dynamicModule, PageModule.functions]
      cases options.typeScript <;> rfl
    refine ⟨_, functions, rfl, ?_, ?_, trivial, ?_⟩
    · simp only [ComponentFunction.locals, List.flatMap_cons, List.flatMap_append, numbers,
        Setup.binds_stubs, ← List.append_assoc]
      rfl
    · intro name
      simp
    · simp only [List.forall_mem_cons, List.forall_mem_append]
      exact ⟨⟨hne, hparams⟩, conversions, stubs⟩

theorem emitted_stubbedBy (page : PageRequest) (options : Options) :
    (page.emitted options).body.StubbedBy options (page.emitted options).imports
      (page.emitted options).stubNames :=
  Forest.emit_stubbedBy _ _ _ _

theorem emitted_stubless (page : PageRequest) (options : Options)
    (h : ((Forest.ofComponents page.components).classify (Forest.ofComponents page.components).roots
      options.serverComponents).page = .server) : (page.emitted options).stubNames = [] :=
  (Forest.emit_silent (Forest.emit_quiet _ _ _ _ fun _ hc => Forest.classify_server h hc)).1

end PageRequest

theorem ComponentFunction.Serves.declared_nodup_iff {options : Options} {emitted : EmittedBody}
    {params : List RouteParam} {f : ComponentFunction} (h : f.Serves emitted params)
    (hstubs : emitted.stubNames.Nodup) :
    (f.declared options).Nodup ↔ (RouteParam.scopeNames params).Nodup ∧
      ∀ name ∈ emitted.stubNames, name ∉ RouteParam.scopeNames params := by
  have perm : f.locals.Perm (RouteParam.scopeNames params ++ emitted.stubNames) := by
    rw [h.locals]
    exact ((RouteParam.declared_perm params).append_right _).cons _
  rw [declared_eq_locals options h.named, perm.nodup_iff, List.nodup_append]
  apply and_congr_right'
  constructor
  · intro hdisjoint name hname hscope
    exact hdisjoint.2 name hscope name hname rfl
  · intro hclear
    refine ⟨hstubs, ?_⟩
    rintro name hscope _ hname rfl
    exact hclear name hname hscope

/-- A stub hides an import only if it has the name of the hook. -/
theorem PageRequest.stub_unimported_iff (page : PageRequest) (options : Options)
    {placement : Placement} {emitted : EmittedBody} (params : List RouteParam)
    (hserver : placement = .server → emitted.stubNames = []) {name : String}
    (hname : name ∈ emitted.stubNames) (hfree : name ∉ emitted.imports.bindings) :
    name ∉ (page.dynamicModule options placement emitted params).imports.bindings ↔
      name ≠ "useParams" := by
  cases placement with
  | client => exact not_congr (Imports.mem_addNavigation_iff hfree)
  | server => simp [hserver rfl] at hname

/-- Whether all names are distinct and no import is hidden, in terms of the names around the body
and of the stubs. -/
theorem ComponentFunction.Serves.distinct_iff {page : PageRequest} {options : Options}
    {placement : Placement} {emitted : EmittedBody} {params : List RouteParam}
    {f : ComponentFunction} (h : f.Serves emitted params)
    (hstubs : emitted.body.StubbedBy options emitted.imports emitted.stubNames)
    (hserver : placement = .server → emitted.stubNames = []) :
    ((f.declared options).Nodup ∧ ∀ name, Emitter.stub name ∈ f.statements options →
        name ∉ (page.dynamicModule options placement emitted params).imports.bindings) ↔
      (RouteParam.scopeNames params).Nodup ∧
        ∀ name ∈ emitted.stubNames, name ∉ RouteParam.scopeNames params ∧ name ≠ "useParams" := by
  have unimported : ∀ name, (Emitter.stub name ∈ f.statements options →
      name ∉ (page.dynamicModule options placement emitted params).imports.bindings) ↔
        (name ∈ emitted.stubNames → name ≠ "useParams") := by
    intro name
    rw [mem_statements_stub options h.named.setup, h.stubs]
    exact imp_congr_right fun hname =>
      page.stub_unimported_iff options params hserver hname ((hstubs.mem_iff name).mp hname).2.2
  rw [h.declared_nodup_iff hstubs.distinct, forall_congr' unimported, and_assoc]
  apply and_congr_right'
  exact ⟨fun hall name hname => ⟨hall.1 name hname, hall.2 name hname⟩,
    fun hall => ⟨fun name hname => (hall name hname).1, fun name hname => (hall name hname).2⟩⟩

/-! ## Entry point -/

/-- The parameters keep clear of the object they come in and of each other's derived names. -/
structure ParamsApart (params : OrderedMap ParamKind) : Prop where
  object : "params" ∉ params.keys
  derived : ∀ name, (name, .number) ∈ params.entries → name ++ "Param" ∉ params.keys

structure StubApart (params : OrderedMap ParamKind) (name : String) : Prop where
  hook : name ≠ "useParams"
  object : name ≠ "params"
  param : name ∉ params.keys
  derived : ∀ other, (other, .number) ∈ params.entries → name ≠ other ++ "Param"

section Apart

variable {params : OrderedMap ParamKind} {listed : List RouteParam}
  (h : listed = params.entries.map fun entry => ⟨entry.1, entry.2⟩)

include h

theorem names_listed : listed.map RouteParam.name = params.keys := by
  rw [h, List.map_map]
  rfl

theorem forall_numbers_iff (P : String → Prop) :
    (∀ p ∈ listed, p.kind = .number → P p.name) ↔
      ∀ name, (name, .number) ∈ params.entries → P name := by
  rw [h, List.forall_mem_map]
  constructor
  · exact fun hall name hname => hall _ hname rfl
  · rintro hall ⟨name, kind⟩ hentry hkind
    cases hkind
    exact hall name hentry

theorem paramsApart_iff : ParamsApart params ↔ (RouteParam.scopeNames listed).Nodup := by
  have distinct : (listed.map RouteParam.name).Nodup := by
    rw [names_listed h]
    exact params.keys_nodup
  rw [RouteParam.scopeNames_nodup_iff distinct, names_listed h,
    forall_numbers_iff h fun name => name ++ "Param" ∉ params.keys]
  exact ⟨fun hapart => ⟨hapart.object, hapart.derived⟩, fun hapart => ⟨hapart.1, hapart.2⟩⟩

theorem stubApart_iff (name : String) :
    StubApart params name ↔ name ∉ RouteParam.scopeNames listed ∧ name ≠ "useParams" := by
  have derived := forall_numbers_iff h fun other => name ≠ other ++ "Param"
  rw [RouteParam.mem_scopeNames, names_listed h]
  simp only [not_or, not_exists, not_and]
  rw [derived]
  constructor
  · exact fun hapart => ⟨⟨hapart.object, hapart.param, hapart.derived⟩, hapart.hook⟩
  · exact fun hapart => ⟨hapart.2, hapart.1.1, hapart.1.2.1, hapart.1.2.2⟩

end Apart

namespace Toolchain

variable {t : Toolchain} {page : PageRequest} {params : OrderedMap ParamKind} {g : Generation}

/-- The function of a parameterised route declares pairwise distinct names, and no stub of it hides
an import, exactly if the parameters keep apart and so does every function that a handler refers
to, unless the body's components import it. -/
theorem route_locals_distinct_iff (h : t.generateDynamicRoute page params = .ok g) :
    let plan := page.dynamicPlan t.options (routeParams params).1
    ∃ rest f, g.files = (t.finish (plan.draft t.options .page "page" plan.page)).file :: rest ∧
      plan.page.functions = [f] ∧ f.returned = .body (page.emitted t.options).body ∧
      (((f.declared t.options).Nodup ∧ ∀ name, Emitter.stub name ∈ f.statements t.options →
          name ∉ plan.page.imports.bindings) ↔
        ParamsApart params ∧ ∀ name, f.Refers t.options name → Name.isIdentifier name = true →
          name ∈ (page.emitted t.options).imports.bindings ∨ StubApart params name) := by
  intro plan
  obtain ⟨⟨_, hparams, hsome⟩, hfiles⟩ := files_of_generateDynamicRoute h
  have hlisted := (routeParams_eq hparams).2
  have hne : (routeParams params).1 ≠ [] := by
    rw [hlisted]
    simpa [OrderedMap.isEmpty] using hsome
  have stubbed := page.emitted_stubbedBy t.options
  obtain ⟨f, hfunctions, hserves⟩ := page.dynamicModule_serves t.options _
    (page.emitted t.options) hne (routeParams_wellFormed hparams) fun name hname =>
      Name.isWellFormed_of_isIdentifier ((stubbed.mem_iff name).mp hname).2.1
  rw [PagePlan.finish_files, PagePlan.modules, List.cons_append, List.cons_append,
    List.map_cons] at hfiles
  refine ⟨_, f, hfiles, hfunctions, hserves.returned,
    (hserves.distinct_iff stubbed (page.emitted_stubless t.options)).trans ?_⟩
  rw [paramsApart_iff hlisted]
  apply and_congr_right'
  apply forall_congr'
  intro name
  rw [stubbed.mem_iff, ← stubApart_iff hlisted, ComponentFunction.refers_iff hserves.returned]
  constructor
  · intro hstub hreferred hname
    exact or_iff_not_imp_left.mpr fun hfree => hstub ⟨hreferred, hname, hfree⟩
  · rintro happart ⟨hreferred, hname, hfree⟩
    exact (happart hreferred hname).resolve_left hfree

end Toolchain

namespace Sample

theorem button_route (handler : String) :
    ∃ g, toolchain.generateDynamicRoute (buttonPage handler) idParam = .ok g :=
  toolchain.generateDynamicRoute_ok (buttonPage_valid handler) (by decide) (by decide)

theorem button_emitted {handler : String} {f : ComponentFunction}
    (h : f.returned = .body ((buttonPage handler).emitted toolchain.options).body) (name : String) :
    f.Refers toolchain.options name ↔
      ∃ key, (key, .reference name) ∈ (buttonWith handler).handlers :=
  (ComponentFunction.refers_iff h name).trans (button_refers handler name)

theorem idParam_numberless (name : String) : (name, .number) ∉ idParam.entries := by
  have entries : idParam.entries = [("id", .string)] := by decide
  simp [entries]

theorem idParam_apart : ParamsApart idParam where
  object := by decide
  derived := fun name hname => absurd hname (idParam_numberless name)

/-- A stub stands beside the parameter of a route, but the stub of a handler that has the name of
the hook hides it. -/
theorem route_locals_distinct_iff_button :
    (∃ g f, toolchain.generateDynamicRoute (buttonPage "save") idParam = .ok g ∧
      ((buttonPage "save").dynamicPlan toolchain.options (routeParams idParam).1).page.functions =
        [f] ∧ (f.declared toolchain.options).Nodup) ∧
    (∃ g f, toolchain.generateDynamicRoute (buttonPage "useParams") idParam = .ok g ∧
      let m := ((buttonPage "useParams").dynamicPlan toolchain.options (routeParams idParam).1).page
      m.functions = [f] ∧ ¬ ((f.declared toolchain.options).Nodup ∧
        ∀ name, Emitter.stub name ∈ f.statements toolchain.options →
          name ∉ m.imports.bindings)) := by
  obtain ⟨g, hg⟩ := button_route "save"
  obtain ⟨d, hd⟩ := button_route "useParams"
  obtain ⟨_, f, _, hf, hreturned, hiff⟩ := Toolchain.route_locals_distinct_iff hg
  obtain ⟨_, f', _, hf', hreturned', hiff'⟩ := Toolchain.route_locals_distinct_iff hd
  refine ⟨⟨g, f, hg, hf, (hiff.mpr ⟨idParam_apart, ?_⟩).1⟩, d, f', hd, hf', fun hlocals => ?_⟩
  · intro name hrefers _
    obtain ⟨key, hkey⟩ := (button_emitted hreturned name).mp hrefers
    have only : (buttonWith "save").handlers = [("onClick", .reference "save")] := by decide
    rw [only] at hkey
    simp only [List.mem_singleton, Prod.mk.injEq] at hkey
    cases hkey.2
    exact .inr ⟨by decide, by decide, by decide, fun other hother =>
      absurd hother (idParam_numberless other)⟩
  · have hook := (hiff'.mp hlocals).2 "useParams"
      ((button_emitted hreturned' _).mpr ⟨"onClick", by decide⟩) (by decide)
    have imports : ((buttonPage "useParams").emitted toolchain.options).imports = Imports.empty :=
      button_imports (by decide)
    rw [imports] at hook
    exact hook.elim (by decide) fun hapart => hapart.hook rfl

end Sample

end Pagewright

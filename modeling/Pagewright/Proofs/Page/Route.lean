import Mathlib.Data.List.DropRight
import Pagewright.Proofs.Code.Name
import Pagewright.Proofs.Page.Directive
import Pagewright.Proofs.Text.Split

/-!
# Segments of routes

The directory of a page is made of the segments of its route, and a parameterised
route adds segments for parameters at the end. Whether the route has a segment for a
parameter already is asked of its parts as they are written, brackets or not, while
the directory takes the parts without the white space around them. The two agree,
and each parameter is one dynamic segment, exactly when the parts that read as a
parameter are the one segment that the parameter stands for.
-/

set_option autoImplicit false

namespace Pagewright

namespace Route

/-! ## Segments -/

theorem segments_append (r s : String) : segments (r ++ "/" ++ s) = segments r ++ segments s := by
  have parts : Text.split '/' (r ++ "/" ++ s) = Text.split '/' r ++ Text.split '/' s :=
    Text.split_append '/' r s
  simp [segments, parts]

theorem segments_unbroken {s : String} (hslash : '/' ∉ s.toList) (h : Text.Unbroken s) :
    segments s = [s] := by
  have trimmed : Text.trim s = s := Text.trim_unbroken fun c hc => h.not_blank hc
  simp [segments, Text.split_unbroken hslash, trimmed, h.1]

theorem slash_not_mem {route segment : String} (h : segment ∈ segments route) :
    '/' ∉ segment.toList := by
  obtain ⟨part, hpart, rfl⟩ := List.mem_map.mp (List.mem_of_mem_filter h)
  obtain ⟨cs, hcs, rfl⟩ := List.mem_map.mp hpart
  intro hslash
  apply Text.separator_not_mem hcs
  simp only [Text.trim, Text.trimEnd, Text.trimStart, String.toList_ofList, List.mem_reverse]
    at hslash
  have kept := (List.dropWhile_sublist _).subset hslash
  exact (List.dropWhile_sublist _).subset (List.mem_reverse.mp kept)

theorem split_directory (route : String) :
    Text.split '/' (directory route) = appDirectory :: segments route := by
  apply Text.split_join (by simp)
  intro part hpart
  rcases List.mem_cons.mp hpart with rfl | hpart
  · decide
  · exact slash_not_mem hpart

theorem segments_withoutFinalSlashes (route : String) :
    segments (withoutFinalSlashes route) = segments route := by
  have general : ∀ cs : List Char,
      segments (String.ofList (cs.rdropWhile (· == '/'))) = segments (String.ofList cs) := by
    intro cs
    induction cs using List.reverseRecOn with
    | nil => rfl
    | append_singleton cs c ih =>
      by_cases hc : c = '/'
      · have ending : String.ofList (cs ++ [c]) = String.ofList cs ++ "/" ++ "" := by
          apply String.toList_inj.mp
          simp [hc]
        rw [List.rdropWhile_concat_pos _ _ _ (by simp [hc]), ih, ending, segments_append]
        exact (List.append_nil _).symm
      · rw [List.rdropWhile_concat_neg _ _ _ (by simp [hc])]
  have whole := general route.toList
  rwa [String.ofList_toList] at whole

/-! ## Segments of parameters -/

def isNamed (name segment : String) : Bool :=
  Text.startsWith segment "[" && Text.endsWith segment "]" && bareSegment segment == name

def Mentions (route name : String) : Prop := name ∈ (Text.split '/' route).map bareSegment

instance (route name : String) : Decidable (Mentions route name) :=
  inferInstanceAs (Decidable (name ∈ (Text.split '/' route).map bareSegment))

theorem bareSegment_enclosed {before name after : List Char} (hname : name ≠ [])
    (hbefore : ∀ c ∈ before, isBracket c = true) (hfree : ∀ c ∈ name, isBracket c = false)
    (hafter : ∀ c ∈ after, isBracket c = true) :
    bareSegment (String.ofList (before ++ name ++ after)) = String.ofList name := by
  have stop : ∀ cs rest : List Char, cs ≠ [] → (∀ c ∈ cs, isBracket c = false) →
      (cs ++ rest).dropWhile isBracket = cs ++ rest := by
    intro cs rest hne hcs
    cases cs with
    | nil => exact absurd rfl hne
    | cons c others =>
      rw [List.cons_append, List.dropWhile_cons_of_neg (by simp [hcs c (by simp)])]
  have front : (before ++ name ++ after).dropWhile isBracket = name ++ after := by
    rw [List.append_assoc, List.dropWhile_append_of_pos hbefore, stop name after hname hfree]
  have back : (name ++ after).reverse.dropWhile isBracket = name.reverse := by
    have kept := stop name.reverse [] (by simpa using hname) (by simpa using hfree)
    rw [List.append_nil] at kept
    rw [List.reverse_append, List.dropWhile_append_of_pos (by simpa using hafter), kept]
  rw [bareSegment, String.toList_ofList, front, back, List.reverse_reverse]

end Route

namespace RouteParam

open Route

theorem segment_chars (p : RouteParam) : ∃ before after : List Char,
    p.segment.toList = '[' :: before ++ p.name.toList ++ (after ++ [']']) ∧
      (∀ c ∈ before, isBracket c = true) ∧ ∀ c ∈ after, isBracket c = true := by
  obtain ⟨name, kind⟩ := p
  cases kind with
  | string => exact ⟨[], [], by simp [segment], by simp, by simp⟩
  | number => exact ⟨[], [], by simp [segment], by simp, by simp⟩
  | catchAll =>
    have opening : ∀ c ∈ "...".toList, isBracket c = true := List.all_eq_true.mp (by decide)
    exact ⟨"...".toList, [], by simp [segment], opening, by simp⟩
  | optionalCatchAll =>
    have opening : ∀ c ∈ "[...".toList, isBracket c = true := List.all_eq_true.mp (by decide)
    exact ⟨"[...".toList, [']'], by simp [segment], opening, List.forall_mem_singleton.mpr rfl⟩

variable {p : RouteParam}

theorem bareSegment_segment (h : Name.isWellFormed p.name = true) :
    bareSegment p.segment = p.name := by
  obtain ⟨before, after, hchars, hbefore, hafter⟩ := p.segment_chars
  have free : ∀ c ∈ p.name.toList, isBracket c = false := by
    intro c hc
    have part := Name.isPart_of_mem h hc
    by_contra hbracket
    simp only [isBracket, Bool.not_eq_false, Bool.or_eq_true, beq_iff_eq] at hbracket
    rcases hbracket with (rfl | rfl) | rfl <;> exact absurd part (by decide)
  have enclosed : bareSegment (String.ofList ('[' :: before ++ p.name.toList ++ (after ++ [']']))) =
      String.ofList p.name.toList :=
    bareSegment_enclosed (Name.toList_ne_nil h) (List.forall_mem_cons.mpr ⟨by decide, hbefore⟩) free
      (List.forall_mem_append.mpr ⟨hafter, List.forall_mem_singleton.mpr rfl⟩)
  rwa [← hchars, String.ofList_toList, String.ofList_toList] at enclosed

theorem isNamed_segment (h : Name.isWellFormed p.name = true) (name : String) :
    isNamed name p.segment = (p.name == name) := by
  obtain ⟨before, after, hchars, _, _⟩ := p.segment_chars
  have opened : Text.startsWith p.segment "[" = true := by
    simp [Text.startsWith, hchars]
  have closed : Text.endsWith p.segment "]" = true := by
    rw [Text.endsWith, List.isSuffixOf_iff_suffix, hchars, ← List.append_assoc]
    exact List.suffix_append _ _
  rw [isNamed, opened, closed, bareSegment_segment h, Bool.and_self, Bool.true_and]

theorem segments_segment (h : Name.isWellFormed p.name = true) :
    segments p.segment = [p.segment] := by
  obtain ⟨before, after, hchars, hbefore, hafter⟩ := p.segment_chars
  have chars : ∀ c ∈ p.segment.toList, isBracket c = true ∨ Name.isPart c = true := by
    rw [hchars]
    simp only [List.cons_append, List.forall_mem_cons, List.forall_mem_append]
    exact ⟨.inl rfl, ⟨fun c hc => .inl (hbefore c hc),
      fun c hc => .inr (Name.isPart_of_mem h hc)⟩, fun c hc => .inl (hafter c hc),
      .inl rfl, by simp⟩
  apply segments_unbroken
  · intro hslash
    exact absurd (chars _ hslash) (by decide)
  · constructor
    · intro hempty
      rw [hempty] at hchars
      simp at hchars
    · rw [List.all_eq_true]
      intro c hc
      have bounds : 0x21 ≤ c.toNat ∧ c.toNat ≤ 0x7e := by
        rcases chars c hc with bracket | part
        · simp only [isBracket, Bool.or_eq_true, beq_iff_eq] at bracket
          rcases bracket with (rfl | rfl) | rfl <;> decide
        · have bounds := Name.isPart_bounds part
          omega
      rw [Text.isBlankChar_printable bounds.1 bounds.2, Bool.not_false]

end RouteParam

namespace Route

def extend (route start : String) (p : RouteParam) : String :=
  if Mentions route p.name then start else start ++ "/" ++ p.segment

theorem withParams_eq (route : String) (params : List RouteParam) :
    withParams route params = params.foldl (extend route) (withoutFinalSlashes route) := by
  have step : (fun start (p : RouteParam) =>
      if ((Text.split '/' route).map bareSegment).contains p.name then start
      else start ++ "/" ++ p.segment) = extend route := by
    funext start p
    exact if_congr List.contains_iff_mem rfl rfl
  rw [withParams, step]

theorem segments_extend (route start : String) {p : RouteParam}
    (h : Name.isWellFormed p.name = true) :
    segments (extend route start p) =
      segments start ++ if Mentions route p.name then [] else [p.segment] := by
  by_cases hp : Mentions route p.name
  · simp [extend, hp]
  · rw [extend, if_neg hp, if_neg hp, segments_append, RouteParam.segments_segment h]

def added (route : String) (params : List RouteParam) : List String :=
  (params.filter fun p => ¬ Mentions route p.name).map RouteParam.segment

theorem segments_withParams (route : String) {params : List RouteParam}
    (h : ∀ p ∈ params, Name.isWellFormed p.name = true) :
    segments (withParams route params) = segments route ++ added route params := by
  have run : ∀ start, segments (params.foldl (extend route) start) =
      segments start ++ added route params := by
    induction params with
    | nil => simp [added]
    | cons p rest ih =>
      intro start
      rw [List.foldl_cons, ih fun q hq => h q (by simp [hq]), segments_extend _ _ (h p (by simp)),
        List.append_assoc]
      by_cases hp : Mentions route p.name <;> simp [added, hp]
  rw [withParams_eq, run, segments_withoutFinalSlashes]

end Route

/-! ## One segment for each parameter -/

namespace RouteParam

open Route

/-- The parameter is one dynamic segment: its own segment is there once, and no other segment in
brackets has its name. -/
structure OneSegment (p : RouteParam) (segments : List String) : Prop where
  once : segments.count p.segment = 1
  alone : ∀ segment ∈ segments, isNamed p.name segment = true → segment = p.segment

instance (p : RouteParam) (segments : List String) : Decidable (p.OneSegment segments) :=
  decidable_of_iff (segments.count p.segment = 1 ∧
      ∀ segment ∈ segments, isNamed p.name segment = true → segment = p.segment)
    ⟨fun h => ⟨h.1, h.2⟩, fun h => ⟨h.once, h.alone⟩⟩

theorem oneSegment_iff {p : RouteParam} (h : Name.isWellFormed p.name = true)
    (segments : List String) :
    p.OneSegment segments ↔ segments.filter (isNamed p.name) = [p.segment] := by
  have own : isNamed p.name p.segment = true := by rw [isNamed_segment h, beq_self_eq_true]
  have count : (segments.filter (isNamed p.name)).count p.segment = segments.count p.segment :=
    List.count_filter own
  constructor
  · rintro ⟨once, alone⟩
    have same : ∀ segment ∈ segments.filter (isNamed p.name), segment = p.segment := by
      intro segment hsegment
      obtain ⟨hmem, hnamed⟩ := List.mem_filter.mp hsegment
      exact alone segment hmem hnamed
    have copies := List.eq_replicate_of_mem same
    rw [copies, List.count_replicate_self, once] at count
    rw [copies, count, List.replicate_one]
  · intro heq
    constructor
    · rw [← count, heq, List.count_singleton_self]
    · intro segment hmem hnamed
      have held : segment ∈ segments.filter (isNamed p.name) := List.mem_filter.mpr ⟨hmem, hnamed⟩
      rwa [heq, List.mem_singleton] at held

theorem filter_name {params : List RouteParam} (hn : (params.map name).Nodup) {p : RouteParam}
    (hp : p ∈ params) : params.filter (fun q => q.name == p.name) = [p] := by
  induction params with
  | nil => simp at hp
  | cons q rest ih =>
    obtain ⟨hq, hrest⟩ := List.nodup_cons.mp hn
    rcases List.mem_cons.mp hp with rfl | hp
    · have others : rest.filter (fun q => q.name == p.name) = [] := by
        rw [List.filter_eq_nil_iff]
        intro q hmem hname
        exact hq (eq_of_beq hname ▸ List.mem_map_of_mem hmem)
      simp [others]
    · have hne : (q.name == p.name) = false := by
        rw [beq_eq_false_iff_ne]
        intro heq
        exact hq (heq ▸ List.mem_map_of_mem hp)
      rw [List.filter_cons, hne, if_neg (by decide), ih hrest hp]

/-- Of the added segments only a parameter's own has its name. -/
theorem filter_added (route : String) {params : List RouteParam} (hn : (params.map name).Nodup)
    (hwell : ∀ p ∈ params, Name.isWellFormed p.name = true) {p : RouteParam} (hp : p ∈ params) :
    (added route params).filter (isNamed p.name) =
      if Mentions route p.name then [] else [p.segment] := by
  have named : ∀ q ∈ params.filter fun q => ¬ Mentions route q.name,
      (isNamed p.name ∘ segment) q = (q.name == p.name) := by
    intro q hq
    exact isNamed_segment (hwell q (List.mem_of_mem_filter hq)) p.name
  rw [added, List.filter_map, List.filter_congr named, List.filter_comm, filter_name hn hp]
  by_cases hmention : Mentions route p.name <;> simp [hmention]

/-- Whether the parameter is one dynamic segment of its directory is decided by the route alone:
a route that mentions it must have the one segment already, and another one none. -/
theorem oneSegment_withParams (route : String) {params : List RouteParam}
    (hn : (params.map name).Nodup) (hwell : ∀ p ∈ params, Name.isWellFormed p.name = true)
    {p : RouteParam} (hp : p ∈ params) :
    p.OneSegment (appDirectory :: segments (withParams route params)) ↔
      if Mentions route p.name then p.OneSegment (segments route)
      else ∀ segment ∈ segments route, isNamed p.name segment = false := by
  have app : isNamed p.name appDirectory = false := by
    simp [isNamed, show Text.startsWith appDirectory "[" = false by decide]
  rw [oneSegment_iff (hwell p hp), oneSegment_iff (hwell p hp), List.filter_cons, app,
    if_neg (by decide), segments_withParams route hwell, List.filter_append,
    filter_added route hn hwell hp]
  by_cases hmention : Mentions route p.name
  · simp [hmention]
  · simp [hmention, List.filter_eq_nil_iff]

end RouteParam

/-! ## Entry point -/

def OutputFile.directorySegments (file : OutputFile) : List String :=
  (Text.split '/' file.path).dropLast

/-- The last segment of a module's path is the name of its file. -/
theorem Route.split_file (options : Options) (directory : String) {stem : String}
    (hstem : '/' ∉ stem.toList) :
    Text.split '/' (directory ++ "/" ++ stem ++ "." ++ options.componentExtension) =
      Text.split '/' directory ++ [stem ++ "." ++ options.componentExtension] := by
  have extension : '/' ∉ options.componentExtension.toList := by
    unfold Options.componentExtension
    split <;> decide
  have last : '/' ∉ (stem ++ "." ++ options.componentExtension).toList := by
    simp [hstem, extension]
  have parts := Text.split_append '/' directory (stem ++ "." ++ options.componentExtension)
  rw [Text.split_unbroken last, ← String.append_assoc, ← String.append_assoc] at parts
  exact parts

theorem PagePlan.directorySegments_file (plan : PagePlan) (t : Toolchain) (kind : FileKind)
    {stem : String} (m : PageModule) (hstem : '/' ∉ stem.toList) :
    (t.finish (plan.draft t.options kind stem m)).file.directorySegments =
      Text.split '/' plan.directory := by
  have parts := Route.split_file t.options plan.directory hstem
  exact (congrArg List.dropLast parts).trans List.dropLast_concat

theorem routeParams_valid_iff {params : OrderedMap ParamKind} :
    (routeParams params).2 = [] ↔ ∀ name ∈ params.keys, Name.isIdentifier name = true := by
  simp only [routeParams, List.partition_eq_filter_filter, List.map_eq_nil_iff,
    List.filter_eq_nil_iff, Function.comp_apply, Bool.not_eq_true', Bool.not_eq_false,
    OrderedMap.keys, List.forall_mem_map]

theorem routeParams_eq {params : OrderedMap ParamKind} (h : (routeParams params).2 = []) :
    (∀ entry ∈ params.entries, Name.isIdentifier entry.1 = true) ∧
      (routeParams params).1 = params.entries.map fun entry => ⟨entry.1, entry.2⟩ := by
  have names := List.forall_mem_map.mp (routeParams_valid_iff.mp h)
  refine ⟨names, ?_⟩
  simp only [routeParams, List.partition_eq_filter_filter]
  rw [List.filter_eq_self.mpr names]

theorem routeParams_wellFormed {params : OrderedMap ParamKind} (h : (routeParams params).2 = []) :
    ∀ p ∈ (routeParams params).1, Name.isWellFormed p.name = true := by
  obtain ⟨hidentifiers, hgood⟩ := routeParams_eq h
  rw [hgood, List.forall_mem_map]
  exact fun entry hentry => Name.isWellFormed_of_isIdentifier (hidentifiers entry hentry)

namespace Toolchain

variable {t : Toolchain} {page : PageRequest} {params : OrderedMap ParamKind} {g : Generation}

/-- On a dynamic route a parameter is exactly one dynamic segment of the page's directory if the
path does not mention it and has no segment in brackets with its name, or if the path mentions it
and it is exactly one dynamic segment of the path already; and not otherwise. -/
theorem one_dynamic_segment_iff (h : t.generateDynamicRoute page params = .ok g) :
    ∃ file rest, g.files = file :: rest ∧ file.kind = .page ∧
      ∀ name kind, (name, kind) ∈ params.entries →
        (RouteParam.OneSegment ⟨name, kind⟩ file.directorySegments ↔
          if Route.Mentions page.path name then
            RouteParam.OneSegment ⟨name, kind⟩ (Route.segments page.path)
          else ∀ segment ∈ Route.segments page.path, Route.isNamed name segment = false) := by
  obtain ⟨⟨_, hparams, _⟩, hfiles⟩ := files_of_generateDynamicRoute h
  have hgood := (routeParams_eq hparams).2
  have names : ((routeParams params).1.map RouteParam.name).Nodup := by
    rw [hgood, List.map_map]
    exact params.keys_nodup
  rw [PagePlan.finish_files, PagePlan.modules, List.cons_append, List.cons_append,
    List.map_cons] at hfiles
  refine ⟨_, _, hfiles, rfl, ?_⟩
  intro name kind hentry
  have hp : ⟨name, kind⟩ ∈ (routeParams params).1 := by
    rw [hgood]
    exact List.mem_map.mpr ⟨_, hentry, rfl⟩
  have stem : '/' ∉ "page".toList := by decide
  rw [PagePlan.directorySegments_file _ _ _ _ stem, PageRequest.dynamicPlan,
    Route.split_directory]
  exact RouteParam.oneSegment_withParams page.path names (routeParams_wellFormed hparams) hp

end Toolchain

namespace Sample

def pageAt (path : String) : PageRequest := { page with path }

theorem pageAt_valid {path : String} (h : Text.isBlank path = false) :
    (pageAt path).violations = [] := by
  have title : Text.isBlank page.title = false := by decide
  simp only [PageRequest.violations, pageAt, h, title, Bool.false_eq_true, if_false,
    List.nil_append]
  exact valid

def idParam : OrderedMap ParamKind := OrderedMap.ofList [("id", .string)]

/-- The parameter keeps the segment it has in the path, but gets none where a part of the path is
its bare name. -/
theorem one_dynamic_segment_iff_blog :
    (∃ g file rest, toolchain.generateDynamicRoute (pageAt "/blog/[id]") idParam = .ok g ∧
      g.files = file :: rest ∧ RouteParam.OneSegment ⟨"id", .string⟩ file.directorySegments) ∧
    (∃ g file rest, toolchain.generateDynamicRoute (pageAt "/blog/id") idParam = .ok g ∧
      g.files = file :: rest ∧ ¬ RouteParam.OneSegment ⟨"id", .string⟩ file.directorySegments) := by
  have listed : ("id", .string) ∈ idParam.entries := by decide
  have good : (routeParams idParam).2 = [] ∧ idParam.isEmpty = false := by decide
  have dynamic : (pageAt "/blog/[id]").violations = [] := pageAt_valid (by decide)
  have literal : (pageAt "/blog/id").violations = [] := pageAt_valid (by decide)
  obtain ⟨g, hg⟩ := toolchain.generateDynamicRoute_ok dynamic good.1 good.2
  obtain ⟨d, hd⟩ := toolchain.generateDynamicRoute_ok literal good.1 good.2
  obtain ⟨file, rest, hfiles, _, hiff⟩ := Toolchain.one_dynamic_segment_iff hg
  obtain ⟨file', rest', hfiles', _, hiff'⟩ := Toolchain.one_dynamic_segment_iff hd
  refine ⟨⟨g, file, rest, hg, hfiles, (hiff _ _ listed).mpr (by decide)⟩,
    d, file', rest', hd, hfiles', fun hone => ?_⟩
  exact absurd ((hiff' _ _ listed).mp hone) (by decide)

end Sample

end Pagewright

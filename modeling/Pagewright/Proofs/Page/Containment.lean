import Mathlib.Data.List.Infix
import Pagewright.Proofs.Page.FileSet

/-!
# Files below the application directory

A path is resolved segment by segment: a name leads one level down, `..` one level up
and `.` nowhere. Where a path starts in a directory, it stays there as long as it never
goes up further than it went down before, and this is a matter of counting. The
directory of a page is the application directory followed by the segments of its
route. They are taken as they are, and the names that follow them only lead down, so
that the route alone decides whether the files of a page stay below.
-/

set_option autoImplicit false

namespace Pagewright

/-! ## Resolving paths -/

namespace Path

def isName (segment : String) : Bool := segment != "" && segment != "." && segment != ".."

/-- One level up from a place, which is given by the names down to it, the last one first. From the
very start that leads out, and `..` is kept. -/
def up : List String → List String
  | [] => [".."]
  | last :: above => if last = ".." then ".." :: last :: above else above

def enter (place : List String) (segment : String) : List String :=
  if isName segment then segment :: place
  else if segment = ".." then up place
  else place

def resolve (segments : List String) : List String := (segments.foldl enter []).reverse

/-- The path leads to a place below the directory, by segments that do not leave it in between. -/
structure StaysBelow (directory path : String) : Prop where
  first : (resolve (Text.split '/' path)).head? = some directory
  settled : ".." ∉ resolve (Text.split '/' path)
  way : ∀ front, front <+: Text.split '/' path → front ≠ [] →
    (resolve front).head? = some directory

def DescendsFrom (depth : Nat) (segments : List String) : Prop :=
  ∀ front, front <+: segments → front.count ".." ≤ depth + front.countP isName

def Descends (segments : List String) : Prop :=
  ∀ front, front <+: segments → front.count ".." ≤ front.countP isName

instance (segments : List String) : Decidable (Descends segments) :=
  decidable_of_iff (∀ front ∈ segments.inits, front.count ".." ≤ front.countP isName)
    (forall_congr' fun _ => imp_congr_left (List.mem_inits _ _))

/-! ## Counting steps -/

theorem descends_iff (segments : List String) : Descends segments ↔ DescendsFrom 0 segments := by
  simp only [Descends, DescendsFrom, Nat.zero_add]

theorem descendsFrom_nil (depth : Nat) : DescendsFrom depth [] := by
  intro front hfront
  rw [List.prefix_nil.mp hfront]
  simp

variable {depth depth' : Nat} {segment : String} {rest : List String}

/-- A first segment changes the depth from which the others go on. -/
theorem descendsFrom_cons
    (hstep : ∀ front : List String,
      (segment :: front).count ".." ≤ depth + (segment :: front).countP isName ↔
        front.count ".." ≤ depth' + front.countP isName) :
    DescendsFrom depth (segment :: rest) ↔ DescendsFrom depth' rest := by
  constructor
  · intro hd front hfront
    exact (hstep front).mp (hd _ ((List.prefix_cons_inj segment).mpr hfront))
  · intro hd front hfront
    rcases List.prefix_cons_iff.mp hfront with rfl | ⟨tail, rfl, htail⟩
    · simp
    · exact (hstep tail).mpr (hd tail htail)

/-- What a segment can be: a step down, a step up or none. -/
theorem segment_cases (segment : String) :
    isName segment = true ∨ segment = ".." ∨ isName segment = false ∧ segment ≠ ".." := by
  by_cases hup : segment = ".."
  · exact .inr (.inl hup)
  · cases hname : isName segment with
    | true => exact .inl rfl
    | false => exact .inr (.inr ⟨rfl, hup⟩)

theorem ne_up_of_isName (h : isName segment = true) : segment ≠ ".." := by
  rintro rfl
  exact absurd h (by decide)

theorem descendsFrom_name (h : isName segment = true) :
    DescendsFrom depth (segment :: rest) ↔ DescendsFrom (depth + 1) rest := by
  apply descendsFrom_cons
  intro front
  rw [List.count_cons_of_ne (ne_up_of_isName h), List.countP_cons_of_pos h]
  omega

theorem descendsFrom_up : DescendsFrom (depth + 1) (".." :: rest) ↔ DescendsFrom depth rest := by
  apply descendsFrom_cons
  intro front
  rw [List.count_cons_self, List.countP_cons_of_neg (by decide)]
  omega

theorem not_descendsFrom_up : ¬ DescendsFrom 0 (".." :: rest) := by
  intro hd
  have first := hd [".."] ((List.prefix_cons_inj "..").mpr List.nil_prefix)
  exact absurd first (by decide)

theorem descendsFrom_still (hname : isName segment = false) (hup : segment ≠ "..") :
    DescendsFrom depth (segment :: rest) ↔ DescendsFrom depth rest := by
  apply descendsFrom_cons
  intro front
  rw [List.count_cons_of_ne hup, List.countP_cons_of_neg (by simp [hname])]

/-- Names at the end only lead down. -/
theorem descendsFrom_append (segments : List String) {more : List String}
    (hmore : ∀ segment ∈ more, isName segment = true) :
    DescendsFrom depth (segments ++ more) ↔ DescendsFrom depth segments := by
  induction segments generalizing depth with
  | nil =>
    refine iff_of_true ?_ (descendsFrom_nil depth)
    rw [List.nil_append]
    induction more generalizing depth with
    | nil => exact descendsFrom_nil depth
    | cons name others ih =>
      obtain ⟨hname, hothers⟩ := List.forall_mem_cons.mp hmore
      exact (descendsFrom_name hname).mpr (ih hothers)
  | cons segment rest ih =>
    rw [List.cons_append]
    rcases segment_cases segment with hname | rfl | ⟨hname, hup⟩
    · rw [descendsFrom_name hname, descendsFrom_name hname, ih]
    · cases depth with
      | zero => exact iff_of_false not_descendsFrom_up not_descendsFrom_up
      | succ depth => rw [descendsFrom_up, descendsFrom_up, ih]
    · rw [descendsFrom_still hname hup, descendsFrom_still hname hup, ih]

/-! ## Places below a directory -/

theorem enter_name (place : List String) (h : isName segment = true) :
    enter place segment = segment :: place := by
  rw [enter, if_pos h]

theorem enter_up (place : List String) (h : isName segment = true) :
    enter (segment :: place) ".." = place := by
  rw [enter, if_neg (by decide), if_pos rfl, up, if_neg (ne_up_of_isName h)]

theorem enter_still (place : List String) (hname : isName segment = false)
    (hup : segment ≠ "..") : enter place segment = place := by
  rw [enter, hname, if_neg (by decide), if_neg hup]

variable {directory : String} {segments : List String}

/-- Segments that do not go up too far lead from names below a directory to names below it. -/
theorem below_of_descendsFrom (directory : String) (names : List String)
    (hnames : ∀ name ∈ names, isName name = true) (hd : DescendsFrom names.length segments) :
    ∃ reached, (∀ name ∈ reached, isName name = true) ∧
      segments.foldl enter (names ++ [directory]) = reached ++ [directory] := by
  induction segments generalizing names with
  | nil => exact ⟨names, hnames, rfl⟩
  | cons segment rest ih =>
    rw [List.foldl_cons]
    rcases segment_cases segment with hname | rfl | ⟨hname, hup⟩
    · rw [enter_name _ hname]
      exact ih (segment :: names) (List.forall_mem_cons.mpr ⟨hname, hnames⟩)
        ((descendsFrom_name hname).mp hd)
    · cases names with
      | nil => exact absurd hd not_descendsFrom_up
      | cons name above =>
        obtain ⟨hname, habove⟩ := List.forall_mem_cons.mp hnames
        rw [List.cons_append, enter_up _ hname]
        exact ih above habove (descendsFrom_up.mp hd)
    · rw [enter_still _ hname hup]
      exact ih names hnames ((descendsFrom_still hname hup).mp hd)

/-- Segments that lead to places below a directory all the way do not go up too far. -/
theorem descendsFrom_of_way (hdirectory : isName directory = true) (names : List String)
    (hnames : ∀ name ∈ names, isName name = true)
    (hway : ∀ front, front <+: segments →
      (front.foldl enter (names ++ [directory])).getLast? = some directory) :
    DescendsFrom names.length segments := by
  induction segments generalizing names with
  | nil => exact descendsFrom_nil _
  | cons segment rest ih =>
    have later : ∀ front, front <+: rest →
        (front.foldl enter (enter (names ++ [directory]) segment)).getLast? = some directory :=
      fun front hfront => hway (segment :: front) ((List.prefix_cons_inj segment).mpr hfront)
    rcases segment_cases segment with hname | rfl | ⟨hname, hup⟩
    · rw [enter_name _ hname] at later
      exact (descendsFrom_name hname).mpr
        (ih (segment :: names) (List.forall_mem_cons.mpr ⟨hname, hnames⟩) later)
    · cases names with
      | nil =>
        -- the step up leads out of the directory, to the empty place
        have out := later [] List.nil_prefix
        rw [List.nil_append, enter_up _ hdirectory] at out
        cases out
      | cons name above =>
        obtain ⟨hname, habove⟩ := List.forall_mem_cons.mp hnames
        rw [List.cons_append, enter_up _ hname] at later
        exact descendsFrom_up.mpr (ih above habove later)
    · rw [enter_still _ hname hup] at later
      exact (descendsFrom_still hname hup).mpr (ih names hnames later)

theorem staysBelow_iff {path : String} (hdirectory : isName directory = true)
    (hpath : Text.split '/' path = directory :: segments) :
    StaysBelow directory path ↔ Descends segments := by
  have start (front : List String) :
      resolve (directory :: front) = (front.foldl enter ([] ++ [directory])).reverse := by
    rw [resolve, List.foldl_cons, enter_name _ hdirectory, List.nil_append]
  rw [descends_iff]
  constructor
  · intro h
    apply descendsFrom_of_way hdirectory [] (by simp)
    intro front hfront
    have place := h.way (directory :: front)
      (hpath ▸ (List.prefix_cons_inj directory).mpr hfront) (by simp)
    rwa [start, List.head?_reverse] at place
  · intro hd
    have reach : ∀ front, front <+: segments → ∃ reached : List String,
        (∀ name ∈ reached, isName name = true) ∧
          resolve (directory :: front) = directory :: reached.reverse := by
      intro front hfront
      obtain ⟨reached, hreached, hplace⟩ := below_of_descendsFrom directory [] (by simp)
        fun part hpart => hd part (hpart.trans hfront)
      exact ⟨reached, hreached, by rw [start, hplace, List.reverse_append]; rfl⟩
    obtain ⟨reached, hreached, hwhole⟩ := reach segments List.prefix_rfl
    refine ⟨?_, ?_, ?_⟩
    · rw [hpath, hwhole, List.head?_cons]
    · rw [hpath, hwhole, List.mem_cons, List.mem_reverse, not_or]
      exact ⟨(ne_up_of_isName hdirectory).symm, fun hup => ne_up_of_isName (hreached _ hup) rfl⟩
    · intro front hfront hne
      rw [hpath] at hfront
      rcases List.prefix_cons_iff.mp hfront with rfl | ⟨tail, rfl, htail⟩
      · exact absurd rfl hne
      · obtain ⟨_, _, hplace⟩ := reach tail htail
        rw [hplace, List.head?_cons]

end Path

/-! ## Files of pages -/

/-- A segment in brackets is a name. -/
theorem RouteParam.segment_isName (p : RouteParam) : Path.isName p.segment = true := by
  obtain ⟨before, after, hchars, _, _⟩ := p.segment_chars
  have opening : p.segment.toList.head? = some '[' := by rw [hchars]; rfl
  have other : ∀ s : String, s.toList.head? ≠ some '[' → (p.segment != s) = true := by
    intro s hs
    rw [bne_iff_ne]
    rintro rfl
    exact hs opening
  simp only [Path.isName, other "" (by decide), other "." (by decide), other ".." (by decide),
    Bool.and_self]

theorem fileName_isName (options : Options) {stem : String} (h : stem ∈ PagePlan.stems) :
    Path.isName (stem ++ "." ++ options.componentExtension) = true := by
  unfold Options.componentExtension
  revert stem
  cases options.typeScript <;> decide

/-- The files of a plan stay below the application directory if the route that its directory stands
for never goes up too far. -/
theorem PagePlan.staysBelow_iff {plan : PagePlan} {route : String}
    (hplan : plan.directory = Route.directory route) (t : Toolchain) :
    ∀ file ∈ (plan.finish t).files,
      (Path.StaysBelow "app" file.path ↔ Path.Descends (Route.segments route)) := by
  intro file hfile
  obtain ⟨stem, hstem, hpath⟩ := stem_of_mem_paths (List.mem_map_of_mem hfile)
  have parts : Text.split '/' file.path = "app" ::
      (Route.segments route ++ [stem ++ "." ++ t.options.componentExtension]) := by
    rw [← hpath, pathIn, Route.split_file _ _ (slash_not_mem_stems stem hstem), hplan,
      Route.split_directory]
    rfl
  rw [Path.staysBelow_iff (by decide) parts, Path.descends_iff, Path.descends_iff]
  apply Path.descendsFrom_append
  rw [List.forall_mem_singleton]
  exact fileName_isName t.options hstem

/-- Parameters of a route are appended as names. -/
theorem Route.descends_withParams (route : String) {params : List RouteParam}
    (h : ∀ p ∈ params, Name.isWellFormed p.name = true) :
    Path.Descends (segments (withParams route params)) ↔ Path.Descends (segments route) := by
  rw [segments_withParams route h, Path.descends_iff, Path.descends_iff]
  apply Path.descendsFrom_append
  intro segment hsegment
  obtain ⟨p, _, rfl⟩ := List.mem_map.mp hsegment
  exact p.segment_isName

namespace Toolchain

/-- Every file of a page, of a split page and of a page on a dynamic route stays below the
application directory exactly if the path of the page never goes up further than it went down
before. -/
theorem files_below_app_iff (t : Toolchain) (page : PageRequest) (g : Generation)
    (h : t.generatePage page = .ok g ∨ t.splitPage page = .ok g ∨
      ∃ params, t.generateDynamicRoute page params = .ok g) :
    g.files ≠ [] ∧ ∀ file ∈ g.files,
      (Path.StaysBelow "app" file.path ↔ Path.Descends (Route.segments page.path)) := by
  have nonempty : ∀ plan : PagePlan, (plan.finish t).files ≠ [] := by
    intro plan
    simp [PagePlan.finish]
  rcases h with h | h | ⟨params, h⟩
  · rw [files_of_generatePage h]
    exact ⟨nonempty _, PagePlan.staysBelow_iff rfl t⟩
  · rw [(files_of_splitPage h).2]
    exact ⟨nonempty _, PagePlan.staysBelow_iff rfl t⟩
  · obtain ⟨⟨_, hparams, _⟩, hfiles⟩ := files_of_generateDynamicRoute h
    rw [hfiles, ← Route.descends_withParams page.path (routeParams_wellFormed hparams)]
    exact ⟨nonempty _, PagePlan.staysBelow_iff rfl t⟩

end Toolchain

namespace Sample

/-- A path that goes down before it goes up stays below; one that starts by going up leads out, as
a whole page, as a split page and on a dynamic route. -/
theorem files_below_app_iff_lib :
    (∃ g, toolchain.generatePage (pageAt "/docs/../blog") = .ok g ∧
      ∀ file ∈ g.files, Path.StaysBelow "app" file.path) ∧
    (∃ g, ∃ file ∈ g.files, toolchain.generatePage (pageAt "/../lib") = .ok g ∧
      ¬ Path.StaysBelow "app" file.path) ∧
    (∃ g, ∃ file ∈ g.files, toolchain.splitPage (pageAt "/../lib") = .ok g ∧
      ¬ Path.StaysBelow "app" file.path) ∧
    (∃ g, ∃ file ∈ g.files, toolchain.generateDynamicRoute (pageAt "/../lib") idParam = .ok g ∧
      ¬ Path.StaysBelow "app" file.path) := by
  have down : Path.Descends (Route.segments "/docs/../blog") := by decide
  have out : ¬ Path.Descends (Route.segments "/../lib") := by decide
  have inside : (pageAt "/docs/../blog").violations = [] := pageAt_valid (by decide)
  have outside : (pageAt "/../lib").violations = [] := pageAt_valid (by decide)
  refine ⟨?_, ?_, ?_, ?_⟩
  · obtain ⟨g, hg⟩ := toolchain.generatePage_ok inside
    obtain ⟨_, hfiles⟩ := toolchain.files_below_app_iff _ g (.inl hg)
    exact ⟨g, hg, fun file hfile => (hfiles file hfile).mpr down⟩
  · obtain ⟨g, hg⟩ := toolchain.generatePage_ok outside
    obtain ⟨hsome, hfiles⟩ := toolchain.files_below_app_iff _ g (.inl hg)
    obtain ⟨file, hfile⟩ := List.exists_mem_of_ne_nil _ hsome
    exact ⟨g, file, hfile, hg, fun hstays => out ((hfiles file hfile).mp hstays)⟩
  · obtain ⟨g, hg⟩ := toolchain.splitPage_ok outside
    obtain ⟨hsome, hfiles⟩ := toolchain.files_below_app_iff _ g (.inr (.inl hg))
    obtain ⟨file, hfile⟩ := List.exists_mem_of_ne_nil _ hsome
    exact ⟨g, file, hfile, hg, fun hstays => out ((hfiles file hfile).mp hstays)⟩
  · have typed : (routeParams idParam).2 = [] := by decide
    obtain ⟨g, hg⟩ := toolchain.generateDynamicRoute_ok outside typed (by decide)
    obtain ⟨hsome, hfiles⟩ := toolchain.files_below_app_iff _ g (.inr (.inr ⟨idParam, hg⟩))
    obtain ⟨file, hfile⟩ := List.exists_mem_of_ne_nil _ hsome
    exact ⟨g, file, hfile, hg, fun hstays => out ((hfiles file hfile).mp hstays)⟩

end Sample

end Pagewright

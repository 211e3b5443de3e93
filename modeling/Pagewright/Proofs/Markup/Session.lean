import Pagewright.Proofs.Import.Merge
import Pagewright.Proofs.Markup.Coverage
import Pagewright.Proofs.Markup.Rendering

/-!
# Sessions with an emitter

An emitter is called many times: components are replaced by placeholders, imports are
analysed, and parts of the forest are rendered, some of them on their own terms. A session
is a list of such calls. Whatever the calls are, no id is open between them, and a
component is rendered to a text in which nothing of the session shows but the placeholders
it set.
-/

set_option autoImplicit false

namespace Pagewright

/-- A call that may change an emitter; those that only read it are left out. Imports can be
replaced by any others that operations and merging lead to. -/
inductive EmitterCall where
  | substitute (id component : String)
  | analyze (ids : List String)
  | withImports (imports : Imports) (reachable : imports.Reachable)
  | tree (ids : List String) (depth : Nat)
  | root (ids : List String) (depth : Nat)
  | component (c : Component) (depth : Nat)
  | isolated (c : Component) (depth : Nat)

namespace Emitter

def setAside (e : Emitter) : Emitter := { e with handlerNames := [] }

def takeBack (e inner : Emitter) : Emitter :=
  { inner with handlerNames := FirstSeen.addAll e.handlerNames inner.handlerNames }

end Emitter

inductive RendersScoped (s : Rendering) (c : Component) (depth : Nat) :
    String → List String → Rendering → Prop
  | mk {text : String} {t : Rendering}
      (node : Renders ⟨s.emitter.setAside, s.active⟩ [c] depth [text] t) :
      RendersScoped s c depth text t.emitter.stubs ⟨s.emitter.takeBack t.emitter, t.active⟩

inductive Performs (s : Rendering) : EmitterCall → Rendering → Prop
  | substitute (id component : String) :
      Performs s (.substitute id component) { s with emitter := s.emitter.substitute id component }
  | analyze (ids : List String) :
      Performs s (.analyze ids) { s with emitter := s.emitter.analyze ids }
  | withImports (imports : Imports) (reachable : imports.Reachable) :
      Performs s (.withImports imports reachable)
        { s with emitter := { s.emitter with imports := imports } }
  | tree {ids : List String} {depth : Nat} {texts : List String} {t : Rendering}
      (nodes : Renders s (ids.filterMap s.emitter.forest.find?) depth texts t) :
      Performs s (.tree ids depth) t
  | root {ids : List String} {depth : Nat} {texts : List String} {t : Rendering}
      (nodes : Renders s (ids.filterMap s.emitter.forest.find?)
        (if ids.length = 1 then depth else depth + 1) texts t) :
      Performs s (.root ids depth) t
  | component {c : Component} {depth : Nat} {text : String} {t : Rendering}
      (node : Renders s [c] depth [text] t) : Performs s (.component c depth) t
  | isolated {c : Component} {depth : Nat} {text : String} {stubs : List String} {t : Rendering}
      (node : RendersScoped s c depth text stubs t) : Performs s (.isolated c depth) t

inductive Session : Rendering → List EmitterCall → Rendering → Prop
  | done {s : Rendering} : Session s [] s
  | call {s t u : Rendering} {call : EmitterCall} {calls : List EmitterCall}
      (first : Performs s call t) (later : Session t calls u) : Session s (call :: calls) u

/-! ## What a call does to the emitter -/

namespace Emitter

def noteScoped (e : Emitter) (c : Component) : Emitter :=
  e.takeBack (e.setAside.noteNodes [] [c])

def perform (e : Emitter) : EmitterCall → Emitter
  | .substitute id component => e.substitute id component
  | .analyze ids => e.analyze ids
  | .withImports imports _ => { e with imports := imports }
  | .tree ids depth => (e.renderTree ids depth).2
  | .root ids depth => (e.renderRoot ids depth).2
  | .component c _ => e.noteNodes [] [c]
  | .isolated c _ => e.noteScoped c

def run (e : Emitter) (calls : List EmitterCall) : Emitter := calls.foldl perform e

end Emitter

def EmitterCall.placed? : EmitterCall → Option (String × String)
  | .substitute id name => some (id, name)
  | _ => none

def placedBy (calls : List EmitterCall) : Substitutions :=
  .ofList (calls.filterMap EmitterCall.placed?)

def Emitter.fresh (components : List Component) (options : Options) : Emitter :=
  { forest := Forest.ofComponents components, options := options }

namespace Forest

theorem views_found {forest : Forest} (hkeyed : forest.Keyed) (substitutions : Substitutions)
    (ids : List String) :
    (ids.filterMap forest.find?).filterMap (forest.viewOf substitutions []) =
      forest.views substitutions ids := by
  rw [List.filterMap_filterMap]
  apply List.filterMap_congr
  intro id _
  cases hfound : forest.find? id with
  | none => rw [Option.bind_none, view, viewBelow_missing hfound]
  | some c =>
    obtain rfl := hkeyed id c hfound
    exact viewOf_of_found hkeyed hfound

theorem views_one {forest : Forest} (hkeyed : forest.Keyed) (substitutions : Substitutions)
    {id : String} {c : Component} (hfound : forest.find? id = some c) :
    forest.views substitutions [id] = (forest.viewOf substitutions [] c).toList := by
  have single : [id].filterMap forest.find? = [c] := List.filterMap_cons_some hfound
  rw [← views_found hkeyed, single]
  cases hview : forest.viewOf substitutions [] c <;> simp [hview]

end Forest

namespace Emitter

variable {e : Emitter}

theorem renderTree_noteNodes (hkeyed : e.forest.Keyed) (ids : List String) (depth : Nat) :
    (e.renderTree ids depth).2 = e.noteNodes [] (ids.filterMap e.forest.find?) := by
  rw [noteNodes, Forest.views_found hkeyed]
  rfl

theorem renderRoot_noteNodes (hkeyed : e.forest.Keyed) (ids : List String) (depth : Nat) :
    (e.renderRoot ids depth).2 = e.noteNodes [] (ids.filterMap e.forest.find?) := by
  rw [noteNodes, Forest.views_found hkeyed]
  rfl

/-- A component that was found is rendered as its id is. -/
theorem renderTree_found (hkeyed : e.forest.Keyed) {id : String} {c : Component}
    (hfound : e.forest.find? id = some c) (depth : Nat) :
    e.renderTree [id] depth =
      (e.forest.nodeText e.options e.substitutions [] depth c, e.noteNodes [] [c]) := by
  have single : [id].filterMap e.forest.find? = [c] := List.filterMap_cons_some hfound
  rw [Forest.nodeText, ← Forest.views_one hkeyed _ hfound, ← single,
    ← renderTree_noteNodes hkeyed [id] depth]
  rfl

theorem perform_forest (call : EmitterCall) : (e.perform call).forest = e.forest := by
  cases call <;> simp [perform, substitute, analyze, renderTree, renderRoot, noteScoped, takeBack,
    setAside]

theorem perform_options (call : EmitterCall) : (e.perform call).options = e.options := by
  cases call <;> simp [perform, substitute, analyze, renderTree, renderRoot, noteScoped, takeBack,
    setAside]

theorem perform_substitutions (call : EmitterCall) :
    (e.perform call).substitutions = e.substitutions.insertAll call.placed?.toList := by
  cases call <;>
    simp [perform, substitute, analyze, renderTree, renderRoot, noteScoped, takeBack, setAside,
      EmitterCall.placed?, OrderedMap.insertAll]

theorem run_cons (call : EmitterCall) (calls : List EmitterCall) :
    e.run (call :: calls) = (e.perform call).run calls := rfl

theorem run_append (calls more : List EmitterCall) :
    e.run (calls ++ more) = (e.run calls).run more :=
  List.foldl_append

theorem run_forest (calls : List EmitterCall) : (e.run calls).forest = e.forest := by
  induction calls generalizing e with
  | nil => rfl
  | cons call rest ih => rw [run_cons, ih, perform_forest]

theorem run_options (calls : List EmitterCall) : (e.run calls).options = e.options := by
  induction calls generalizing e with
  | nil => rfl
  | cons call rest ih => rw [run_cons, ih, perform_options]

theorem run_substitutions (calls : List EmitterCall) :
    (e.run calls).substitutions =
      e.substitutions.insertAll (calls.filterMap EmitterCall.placed?) := by
  induction calls generalizing e with
  | nil => rfl
  | cons call rest ih =>
    rw [run_cons, ih, perform_substitutions]
    cases hplaced : call.placed? with
    | none => rw [List.filterMap_cons_none hplaced]; rfl
    | some entry => rw [List.filterMap_cons_some hplaced]; rfl

end Emitter

theorem placedBy_append (calls : List EmitterCall) {more : List EmitterCall}
    (hmore : ∀ call ∈ more, call.placed? = none) : placedBy (calls ++ more) = placedBy calls := by
  rw [placedBy, List.filterMap_append, List.filterMap_eq_nil_iff.mpr hmore, List.append_nil]
  rfl

/-- Of what decides a text, calls change the placeholders alone. -/
theorem Emitter.run_fresh (components : List Component) (options : Options)
    (calls : List EmitterCall) {e : Emitter} (h : (Emitter.fresh components options).run calls = e) :
    e.forest = .ofComponents components ∧ e.options = options ∧ e.substitutions = placedBy calls :=
  h ▸ ⟨run_forest calls, run_options calls, run_substitutions calls⟩

/-! ## Calls and sessions have one outcome -/

variable {e : Emitter} {c : Component} {depth : Nat} {t : Rendering}

theorem renders_one (hkeyed : e.forest.Keyed) {active texts : List String} :
    Renders ⟨e, active⟩ [c] depth texts t ↔
      texts = [e.forest.nodeText e.options e.substitutions active depth c] ∧
        t = ⟨e.noteNodes active [c], active⟩ :=
  renders_iff hkeyed

theorem rendersScoped_iff (hkeyed : e.forest.Keyed) {text : String} {stubs : List String} :
    RendersScoped ⟨e, []⟩ c depth text stubs t ↔
      text = e.forest.nodeText e.options e.substitutions [] depth c ∧
        stubs = (e.setAside.noteNodes [] [c]).stubs ∧ t = ⟨e.noteScoped c, []⟩ := by
  have aside : e.setAside.forest.Keyed := hkeyed
  constructor
  · rintro ⟨node⟩
    obtain ⟨htext, rfl⟩ := (renders_one aside).mp node
    exact ⟨List.singleton_inj.mp htext, rfl, rfl⟩
  · rintro ⟨rfl, rfl, rfl⟩
    have node : Renders ⟨e.setAside, []⟩ [c] depth
        [e.forest.nodeText e.options e.substitutions [] depth c]
        ⟨e.setAside.noteNodes [] [c], []⟩ := (renders_one aside).mpr ⟨rfl, rfl⟩
    have isolated := RendersScoped.mk (s := ⟨e, []⟩) node
    exact isolated

theorem performs_iff (hkeyed : e.forest.Keyed) {call : EmitterCall} :
    Performs ⟨e, []⟩ call t ↔ t = ⟨e.perform call, []⟩ := by
  constructor
  · intro h
    cases h with
    | substitute | analyze | withImports => rfl
    | tree nodes =>
      rw [Emitter.perform, Emitter.renderTree_noteNodes hkeyed]
      exact ((renders_iff hkeyed).mp nodes).2
    | root nodes =>
      rw [Emitter.perform, Emitter.renderRoot_noteNodes hkeyed]
      exact ((renders_iff hkeyed).mp nodes).2
    | component node => exact ((renders_one hkeyed).mp node).2
    | isolated node => exact ((rendersScoped_iff hkeyed).mp node).2.2
  · rintro rfl
    cases call with
    | substitute id component => exact .substitute id component
    | analyze ids => exact .analyze ids
    | withImports imports reachable => exact .withImports imports reachable
    | tree ids depth =>
      rw [Emitter.perform, Emitter.renderTree_noteNodes hkeyed]
      exact .tree (renders_nodes hkeyed [] _ depth)
    | root ids depth =>
      rw [Emitter.perform, Emitter.renderRoot_noteNodes hkeyed]
      exact .root (renders_nodes hkeyed [] _ _)
    | component c depth => exact .component (renders_nodes hkeyed [] [c] depth)
    | isolated c depth => exact .isolated ((rendersScoped_iff hkeyed).mpr ⟨rfl, rfl, rfl⟩)

theorem session_iff (hkeyed : e.forest.Keyed) {calls : List EmitterCall} :
    Session ⟨e, []⟩ calls t ↔ t = ⟨e.run calls, []⟩ := by
  induction calls generalizing e with
  | nil =>
    constructor
    · intro h
      cases h
      rfl
    · rintro rfl
      exact .done
  | cons call rest ih =>
    have kept : (e.perform call).forest.Keyed := Emitter.perform_forest (e := e) call ▸ hkeyed
    constructor
    · intro h
      cases h with
      | call first later =>
        obtain rfl := (performs_iff hkeyed).mp first
        exact (ih kept).mp later
    · rintro rfl
      exact .call ((performs_iff hkeyed).mpr rfl) ((ih kept).mpr rfl)

def Rendering.Yields (s : Rendering) (c : Component) (depth : Nat) (text : String)
    (t : Rendering) : Prop :=
  ∀ texts u, Renders s [c] depth texts u ↔ texts = [text] ∧ u = t

/-- Rendering comes to an end on every graph and leaves the open ids as it found them; between the
calls of a session there are none. The text is that of the forest, the options, the placeholders
set so far, the component and the depth, so that calls which set no placeholder do not show. -/
theorem rendering_history_free (components : List Component) (options : Options) (c : Component)
    (depth : Nat) (calls more : List EmitterCall)
    (hmore : ∀ call ∈ more, call.placed? = none) :
    (∀ (e : Emitter) (active : List String), ∃ text t,
      Rendering.Yields ⟨{ e with forest := .ofComponents components }, active⟩ c depth text t ∧
        t.active = active) ∧
    ∃ s t, (∀ u, Session ⟨.fresh components options, []⟩ (calls ++ more) u ↔ u = s) ∧
      s.active = [] ∧ t.active = [] ∧
      s.Yields c depth
        ((Forest.ofComponents components).nodeText options (placedBy calls) [] depth c) t ∧
      ∀ id, (Forest.ofComponents components).find? id = some c →
        s.emitter.renderTree [id] depth =
          ((Forest.ofComponents components).nodeText options (placedBy calls) [] depth c,
            t.emitter) := by
  have keyed : (Forest.ofComponents components).Keyed := Forest.keyed_ofComponents components
  refine ⟨fun e active => ⟨_, _, fun _ _ => renders_one keyed, rfl⟩, ?_⟩
  obtain ⟨after, hafter⟩ :
      ∃ after, (Emitter.fresh components options).run (calls ++ more) = after := ⟨_, rfl⟩
  obtain ⟨forest, kept, placed⟩ := Emitter.run_fresh components options _ hafter
  rw [placedBy_append calls hmore] at placed
  have afterKeyed : after.forest.Keyed := forest ▸ keyed
  refine ⟨⟨after, []⟩, ⟨after.noteNodes [] [c], []⟩, ?_, rfl, rfl, ?_, ?_⟩
  · intro u
    rw [← hafter]
    exact session_iff keyed
  · intro texts u
    rw [← forest, ← kept, ← placed]
    exact renders_one afterKeyed
  · intro id hfound
    rw [← forest] at hfound
    rw [← forest, ← kept, ← placed]
    exact Emitter.renderTree_found afterKeyed hfound depth

namespace Sample

def ringText : String := "  <div data-component-id=\"ring\">\n    <Path />\n  </div>"

/-- The box of the ring with a placeholder for the link; the box within itself is passed over. -/
theorem ring_text : (Forest.ofComponents [ring, way]).nodeText {}
    (placedBy [.substitute "way" "Path"]) [] 1 ring = ringText := by
  have view : (Forest.ofComponents [ring, way]).viewOf (placedBy [.substitute "way" "Path"]) []
      ring = some (.node ring true [.placeholder "Path"]) := by
    rw [Forest.viewOf_opened (Forest.keyed_ofComponents _) (by decide) (by simp)]
    rfl
  rw [Forest.nodeText, view]
  decide +kernel

/-- The box is rendered on its own, the link deeper down, and both once more with an id that does
not exist; the box stays the same. -/
theorem rendering_history_free_ring :
    (∀ call ∈ [.isolated ring 0, .component way 4, .root ["way", "ring", "gone"] 2],
      EmitterCall.placed? call = none) ∧
    ∃ s t, (∀ u, Session ⟨.fresh [ring, way] {}, []⟩
        ([.substitute "way" "Path"] ++
          [.isolated ring 0, .component way 4, .root ["way", "ring", "gone"] 2]) u ↔ u = s) ∧
      s.active = [] ∧ t.active = [] ∧ s.Yields ring 1 ringText t ∧
      s.emitter.renderTree ["ring"] 1 = (ringText, t.emitter) := by
  have quiet : ∀ call ∈ [.isolated ring 0, .component way 4, .root ["way", "ring", "gone"] 2],
      EmitterCall.placed? call = none := by simp [EmitterCall.placed?]
  obtain ⟨_, s, t, session, closed, closedAfter, yields, run⟩ := rendering_history_free [ring, way]
    {} ring 1 [.substitute "way" "Path"] _ quiet
  rw [ring_text] at yields run
  exact ⟨quiet, s, t, session, closed, closedAfter, yields, run "ring" rfl⟩

end Sample

end Pagewright

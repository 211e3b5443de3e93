import Pagewright.Markup.Emitter
import Pagewright.Proofs.Markup.Emission
import Pagewright.Proofs.Markup.Template

/-!
# Rendering with a set of open components

The markup of a component can be produced in one go, without a view: its id is marked as
open while what lies within its element is rendered, a component that is already open is
passed over, and everything that is rendered is noted on the way. `Renders` describes this
procedure step by step; nothing in it says that it comes to an end. It does, on every
graph and from every state, in one way only: the ids that are open afterwards are those
that were open before, and the texts are those of the views.
-/

set_option autoImplicit false

namespace Pagewright

namespace Text

/-- Blocks of lines may be joined one by one. -/
theorem unlines_blocks {blocks : List (List String)} (h : ∀ block ∈ blocks, block ≠ []) :
    unlines (blocks.map unlines) = unlines blocks.flatten := by
  induction blocks with
  | nil => rfl
  | cons block rest ih =>
    have later := ih fun other hother => h other (by simp [hother])
    cases rest with
    | nil => simp [unlines, join]
    | cons next more =>
      have here : block ≠ [] := h block (by simp)
      have there : (next :: more).flatten ≠ [] := by
        simp [h next (by simp)]
      rw [List.flatten_cons, unlines_append here there, ← later]
      rfl

/-- So may blocks between further lines. -/
theorem unlines_around {blocks : List (List String)} (h : ∀ block ∈ blocks, block ≠ [])
    (before after : List String) :
    unlines (before ++ blocks.map unlines ++ after) =
      unlines (before ++ blocks.flatten ++ after) := by
  have single : ∀ lines : List String, (lines.map ([·])).map unlines = lines := by
    intro lines
    rw [List.map_map]
    exact List.map_id lines
  have filled : ∀ block ∈ before.map ([·]) ++ blocks ++ after.map ([·]), block ≠ [] := by
    simpa [or_imp, forall_and] using h
  have joined := unlines_blocks filled
  rw [List.map_append, List.map_append, single, single] at joined
  simpa [← List.flatMap_def] using joined

end Text

theorem View.render_node (options : Options) (depth : Nat) (view : View) :
    Body.render options depth ⟨false, [view]⟩ =
      Text.unlines ((view.element options).lines depth) := by
  simp [Body.render, Body.lines, View.elements]

theorem View.text_ne_empty (options : Options) (depth : Nat) (view : View) :
    Text.unlines ((view.element options).lines depth) ≠ "" := by
  obtain ⟨first, rest, hlines⟩ := Element.lines_head depth (view.element options)
  rw [hlines]
  intro hempty
  have chars := congrArg String.toList hempty
  cases rest <;> simp [Text.unlines, Text.join] at chars

theorem View.elementOf_nested_lines (options : Options) (depth : Nat) {c : Component}
    (solid : (Primitive.ofKind c.kind).void = false) (children : List Element) :
    (View.elementOf options c true children).lines depth =
      c.openingLines options depth ++ children.flatMap (Element.lines (depth + 1)) ++
        [c.closingLine depth] := by
  rw [View.elementOf, solid]
  change Element.lines depth (.nested _ _ _ _) = _
  rw [Element.lines, Element.childLines_eq_flatMap]
  rfl

theorem View.elements_eq_map (options : Options) (views : List View) :
    View.elements options views = views.map (View.element options) := by
  induction views with
  | nil => rfl
  | cons view rest ih => rw [View.elements, ih, List.map_cons]

namespace Forest

def Keyed (forest : Forest) : Prop := ∀ id c, forest.find? id = some c → c.id = id

theorem keyed_ofComponents (components : List Component) : (ofComponents components).Keyed :=
  fun _ _ h => (mem_of_find?_ofComponents h).2

/-- A component with the children that the forest has under its id. One that was found in the
forest stays as it is. -/
def adopt (forest : Forest) (c : Component) : Component :=
  { c with childIds := ((forest.find? c.id).map Component.childIds).getD [] }

def within (forest : Forest) (c : Component) : List Component :=
  if (Primitive.ofKind c.kind).void then [] else forest.children (forest.adopt c)

def viewOf (forest : Forest) (substitutions : Substitutions) (path : List String) (c : Component) :
    Option View :=
  match substitutions.find? c.id with
  | some name => some (.placeholder name)
  | none =>
    if c.id ∈ path then none
    else
      some (.node (forest.adopt c) (!(forest.within c).isEmpty)
        ((forest.within c).filterMap fun d => forest.viewBelow substitutions (c.id :: path) d.id))

def nodeText (forest : Forest) (options : Options) (substitutions : Substitutions)
    (path : List String) (depth : Nat) (c : Component) : String :=
  Body.render options depth ⟨false, (forest.viewOf substitutions path c).toList⟩

variable {forest : Forest} {substitutions : Substitutions} {path : List String} {c d : Component}

theorem adopt_of_found (h : forest.find? c.id = some c) : forest.adopt c = c := by
  simp [adopt, h]

theorem found_of_mem_within (hkeyed : forest.Keyed) (h : d ∈ forest.within c) :
    forest.find? d.id = some d := by
  unfold within at h
  split at h
  · simp at h
  · obtain ⟨id, _, hfound⟩ := List.mem_filterMap.mp h
    rwa [hkeyed id d hfound]

/-- A component that the forest does not have has nothing within it. -/
theorem within_of_missing (h : forest.find? c.id = none) : forest.within c = [] := by
  simp [within, adopt, h, children]

/-- A component that was found is viewed as its id is. -/
theorem viewOf_of_found (hkeyed : forest.Keyed) (h : forest.find? c.id = some c) :
    forest.viewOf substitutions path c = forest.viewBelow substitutions path c.id := by
  rw [viewBelow_found h, viewOf, within, adopt_of_found h]
  cases substitutions.find? c.id with
  | some name => rfl
  | none =>
    by_cases hold : c.id ∈ path
    · simp [hold]
    · have below : (forest.children c).filterMap
            (fun d => forest.viewBelow substitutions (c.id :: path) d.id) =
          c.childIds.filterMap (forest.viewBelow substitutions (c.id :: path)) := by
        rw [children, List.filterMap_filterMap]
        apply List.filterMap_congr
        intro id _
        cases hid : forest.find? id with
        | none => rw [viewBelow_missing hid, Option.bind_none]
        | some e => rw [Option.bind_some, hkeyed id e hid]
      by_cases hvoid : (Primitive.ofKind c.kind).void = true <;> simp [hold, hvoid, below]

theorem viewOf_replaced {name : String} (hname : substitutions.find? c.id = some name) :
    forest.viewOf substitutions path c = some (.placeholder name) := by
  rw [viewOf, hname]

theorem viewOf_skipped (hfree : substitutions.find? c.id = none) (hold : c.id ∈ path) :
    forest.viewOf substitutions path c = none := by
  rw [viewOf, hfree]
  exact if_pos hold

/-- The views within an element are those of what is to be rendered there. -/
theorem viewOf_opened (hkeyed : forest.Keyed) (hfree : substitutions.find? c.id = none)
    (hnew : c.id ∉ path) :
    forest.viewOf substitutions path c =
      some (.node (forest.adopt c) (!(forest.within c).isEmpty)
        ((forest.within c).filterMap (forest.viewOf substitutions (c.id :: path)))) := by
  have below : (forest.within c).filterMap
        (fun d => forest.viewBelow substitutions (c.id :: path) d.id) =
      (forest.within c).filterMap (forest.viewOf substitutions (c.id :: path)) :=
    List.filterMap_congr fun d hd =>
      (viewOf_of_found hkeyed (found_of_mem_within hkeyed hd)).symm
  rw [viewOf, hfree, ← below]
  simp [hnew]

end Forest

/-! ## The procedure -/

/-- The text of a component, given what is within it and the texts of that. A component that was
passed over leaves no line. -/
def Component.markup (options : Options) (depth : Nat) (c : Component) (inner : List Component)
    (texts : List String) : String :=
  if inner.isEmpty then Text.unlines ((View.elementOf options c false []).lines depth)
  else
    Text.unlines (c.openingLines options depth ++ texts.filter (· ≠ "") ++ [c.closingLine depth])

structure Rendering where
  emitter : Emitter
  active : List String

namespace Rendering

def enter (s : Rendering) (c : Component) : Rendering :=
  ⟨s.emitter.note (s.emitter.forest.adopt c), c.id :: s.active⟩

def leave (s : Rendering) (c : Component) : Rendering :=
  { s with active := s.active.erase c.id }

theorem leave_cons (e : Emitter) (active : List String) (c : Component) :
    leave ⟨e, c.id :: active⟩ c = ⟨e, active⟩ := by
  rw [leave, List.erase_cons_head]

end Rendering

inductive Renders : Rendering → List Component → Nat → List String → Rendering → Prop
  | done {s : Rendering} {depth : Nat} : Renders s [] depth [] s
  | replaced {s t : Rendering} {c : Component} {rest : List Component} {depth : Nat}
      {texts : List String} {name : String}
      (replacement : s.emitter.substitutions.find? c.id = some name)
      (later : Renders s rest depth texts t) :
      Renders s (c :: rest) depth ((Text.indent depth ++ "<" ++ name ++ " />") :: texts) t
  | skipped {s t : Rendering} {c : Component} {rest : List Component} {depth : Nat}
      {texts : List String}
      (free : s.emitter.substitutions.find? c.id = none) (old : c.id ∈ s.active)
      (later : Renders s rest depth texts t) :
      Renders s (c :: rest) depth ("" :: texts) t
  | opened {s u t : Rendering} {c : Component} {rest : List Component} {depth : Nat}
      {inner texts : List String}
      (free : s.emitter.substitutions.find? c.id = none) (new : c.id ∉ s.active)
      (below : Renders (s.enter c) (s.emitter.forest.within c) (depth + 1) inner u)
      (later : Renders (u.leave c) rest depth texts t) :
      Renders s (c :: rest) depth
        (c.markup s.emitter.options depth (s.emitter.forest.within c) inner :: texts) t

/-- At every point one rule applies at most. -/
theorem Renders.deterministic {s t t' : Rendering} {nodes : List Component} {depth : Nat}
    {texts texts' : List String} (h : Renders s nodes depth texts t)
    (h' : Renders s nodes depth texts' t') : texts = texts' ∧ t = t' := by
  induction h generalizing texts' t' with
  | done =>
    cases h'
    exact ⟨rfl, rfl⟩
  | replaced replacement _ ih =>
    cases h' with
    | replaced replacement' later' =>
      obtain ⟨rfl, rfl⟩ := ih later'
      rw [replacement] at replacement'
      cases replacement'
      exact ⟨rfl, rfl⟩
    | skipped free' | opened free' =>
      rw [replacement] at free'
      cases free'
  | skipped free old _ ih =>
    cases h' with
    | replaced replacement' =>
      rw [free] at replacement'
      cases replacement'
    | skipped _ _ later' =>
      obtain ⟨rfl, rfl⟩ := ih later'
      exact ⟨rfl, rfl⟩
    | opened _ new' => exact absurd old new'
  | opened free new _ _ ihBelow ihLater =>
    cases h' with
    | replaced replacement' =>
      rw [free] at replacement'
      cases replacement'
    | skipped _ old' => exact absurd old' new
    | opened _ _ below' later' =>
      obtain ⟨rfl, rfl⟩ := ihBelow below'
      obtain ⟨rfl, rfl⟩ := ihLater later'
      exact ⟨rfl, rfl⟩

/-! ## Its outcome -/

namespace Emitter

@[simp] theorem noteAll_forest (e : Emitter) (components : List Component) :
    (e.noteAll components).forest = e.forest :=
  (e.noteAll_source components).1

@[simp] theorem noteAll_substitutions (e : Emitter) (components : List Component) :
    (e.noteAll components).substitutions = e.substitutions :=
  (e.noteAll_source components).2

@[simp] theorem noteAll_options (e : Emitter) (components : List Component) :
    (e.noteAll components).options = e.options := by
  induction components generalizing e with
  | nil => rfl
  | cons c rest ih => exact ih (e.note c)

theorem noteAll_append (e : Emitter) (components others : List Component) :
    e.noteAll (components ++ others) = (e.noteAll components).noteAll others :=
  List.foldl_append

end Emitter

namespace Forest

variable {forest : Forest} {substitutions : Substitutions} {path : List String} {c : Component}

theorem elementOf_adopt (options : Options) (c : Component) (nested : Bool)
    (children : List Element) : View.elementOf options (forest.adopt c) nested children =
      View.elementOf options c nested children := rfl

/-- The texts that leave a line are those of the views. -/
theorem nodeTexts_shown (options : Options) (depth : Nat) (nodes : List Component) :
    (nodes.map (forest.nodeText options substitutions path depth)).filter (· ≠ "") =
      (nodes.filterMap (forest.viewOf substitutions path)).map fun view =>
        Text.unlines ((view.element options).lines depth) := by
  induction nodes with
  | nil => rfl
  | cons c rest ih =>
    cases hview : forest.viewOf substitutions path c with
    | none =>
      have text : forest.nodeText options substitutions path depth c = "" := by
        rw [nodeText, hview]
        rfl
      simpa [text, hview] using ih
    | some view =>
      have text : forest.nodeText options substitutions path depth c =
          Text.unlines ((view.element options).lines depth) := by
        rw [nodeText, hview]
        exact view.render_node options depth
      simpa [text, hview, view.text_ne_empty options depth] using ih

theorem nodeText_replaced {options : Options} {depth : Nat} {name : String}
    (hname : substitutions.find? c.id = some name) :
    forest.nodeText options substitutions path depth c =
      Text.indent depth ++ "<" ++ name ++ " />" := by
  rw [nodeText, viewOf_replaced hname]
  rfl

theorem nodeText_skipped {options : Options} {depth : Nat}
    (hfree : substitutions.find? c.id = none) (hold : c.id ∈ path) :
    forest.nodeText options substitutions path depth c = "" := by
  rw [nodeText, viewOf_skipped hfree hold]
  rfl

/-- The text of a component that is opened, from the texts of what is within it. -/
theorem nodeText_opened (hkeyed : forest.Keyed) (options : Options) (depth : Nat)
    (hfree : substitutions.find? c.id = none) (hnew : c.id ∉ path) :
    forest.nodeText options substitutions path depth c =
      c.markup options depth (forest.within c)
        ((forest.within c).map
          (forest.nodeText options substitutions (c.id :: path) (depth + 1))) := by
  rw [nodeText, viewOf_opened hkeyed hfree hnew, Component.markup]
  change Body.render options depth ⟨false, [_]⟩ = _
  rw [View.render_node, View.element, elementOf_adopt]
  split
  · rename_i hempty
    rw [List.isEmpty_iff.mp hempty]
    rfl
  · rename_i hinner
    have solid : (Primitive.ofKind c.kind).void = false := by
      by_contra hvoid
      simp [within, hvoid] at hinner
    rw [Bool.not_eq_true] at hinner
    rw [hinner, Bool.not_false, View.elementOf_nested_lines options depth solid, nodeTexts_shown,
      View.elements_eq_map, List.flatMap_map, List.flatMap_def, ← Text.unlines_around,
      List.map_map]
    · rfl
    · intro block hblock
      obtain ⟨view, _, rfl⟩ := List.mem_map.mp hblock
      obtain ⟨first, rest, hlines⟩ := Element.lines_head (depth + 1) (view.element options)
      simp [hlines]

end Forest

namespace Emitter

def noteNodes (e : Emitter) (path : List String) (nodes : List Component) : Emitter :=
  e.noteAll (View.componentsOf (nodes.filterMap (e.forest.viewOf e.substitutions path)))

variable (e : Emitter) (path : List String) (nodes : List Component)

@[simp] theorem noteNodes_forest : (e.noteNodes path nodes).forest = e.forest :=
  e.noteAll_forest _

@[simp] theorem noteNodes_options : (e.noteNodes path nodes).options = e.options :=
  e.noteAll_options _

@[simp] theorem noteNodes_substitutions :
    (e.noteNodes path nodes).substitutions = e.substitutions :=
  e.noteAll_substitutions _

variable {e path} {c : Component} {rest : List Component}

theorem noteNodes_replaced {name : String} (hname : e.substitutions.find? c.id = some name) :
    e.noteNodes path (c :: rest) = e.noteNodes path rest := by
  rw [noteNodes, List.filterMap_cons_some (Forest.viewOf_replaced hname)]
  rfl

theorem noteNodes_skipped (hfree : e.substitutions.find? c.id = none) (hold : c.id ∈ path) :
    e.noteNodes path (c :: rest) = e.noteNodes path rest := by
  rw [noteNodes, List.filterMap_cons_none (Forest.viewOf_skipped hfree hold)]
  rfl

/-- A component that is opened is noted first, then what is within it. -/
theorem noteNodes_opened (hkeyed : e.forest.Keyed) (hfree : e.substitutions.find? c.id = none)
    (hnew : c.id ∉ path) :
    e.noteNodes path (c :: rest) =
      ((e.note (e.forest.adopt c)).noteNodes (c.id :: path) (e.forest.within c)).noteNodes path
        rest := by
  rw [noteNodes, List.filterMap_cons_some (Forest.viewOf_opened hkeyed hfree hnew),
    View.componentsOf, noteAll_append, noteNodes, noteNodes_forest, noteNodes_substitutions]
  rfl

end Emitter

/-- Rendering comes to an end on every graph, with the texts of the views, and with the ids open
that were open before. The induction is on the number of ids that are not open yet. -/
theorem renders_nodes {e : Emitter} (hkeyed : e.forest.Keyed) (active : List String)
    (nodes : List Component) (depth : Nat) :
    Renders ⟨e, active⟩ nodes depth
      (nodes.map (e.forest.nodeText e.options e.substitutions active depth))
      ⟨e.noteNodes active nodes, active⟩ := by
  obtain ⟨n, hn⟩ : ∃ n, e.forest.unseen active = n := ⟨_, rfl⟩
  induction n using Nat.strong_induction_on generalizing e active nodes depth with
  | _ n below =>
    induction nodes generalizing e with
    | nil => exact .done
    | cons c rest later =>
      rw [List.map_cons]
      cases hname : e.substitutions.find? c.id with
      | some name =>
        rw [Forest.nodeText_replaced hname, Emitter.noteNodes_replaced hname]
        exact .replaced hname (later hkeyed hn)
      | none =>
        by_cases hold : c.id ∈ active
        · rw [Forest.nodeText_skipped hname hold, Emitter.noteNodes_skipped hname hold]
          exact .skipped hname hold (later hkeyed hn)
        · have inner : Renders (Rendering.enter ⟨e, active⟩ c) (e.forest.within c) (depth + 1)
              ((e.forest.within c).map
                (e.forest.nodeText e.options e.substitutions (c.id :: active) (depth + 1)))
              ⟨(e.note (e.forest.adopt c)).noteNodes (c.id :: active) (e.forest.within c),
                c.id :: active⟩ := by
            -- a component that the forest does not have uses up no id, but has nothing within it
            cases hfound : e.forest.find? c.id with
            | none =>
              rw [Forest.within_of_missing hfound]
              exact .done
            | some d =>
              have fewer : e.forest.unseen (c.id :: active) < n :=
                hn ▸ Forest.unseen_cons_lt e.forest active c.id d hfound hold
              exact below _ fewer (e := e.note (e.forest.adopt c)) hkeyed (c.id :: active) _ _ rfl
          rw [Forest.nodeText_opened hkeyed e.options depth hname hold,
            Emitter.noteNodes_opened hkeyed hname hold]
          refine .opened hname hold inner ?_
          rw [Rendering.leave_cons]
          have after := later (e := (e.note (e.forest.adopt c)).noteNodes (c.id :: active)
            (e.forest.within c))
          simp only [Emitter.noteNodes_forest, Emitter.noteNodes_options,
            Emitter.noteNodes_substitutions] at after
          exact after hkeyed hn

/-- The outcome of rendering is the one that the views give, and there is no other. -/
theorem renders_iff {e : Emitter} (hkeyed : e.forest.Keyed) {active : List String}
    {nodes : List Component} {depth : Nat} {texts : List String} {t : Rendering} :
    Renders ⟨e, active⟩ nodes depth texts t ↔
      texts = nodes.map (e.forest.nodeText e.options e.substitutions active depth) ∧
        t = ⟨e.noteNodes active nodes, active⟩ := by
  constructor
  · exact fun h => h.deterministic (renders_nodes hkeyed active nodes depth)
  · rintro ⟨rfl, rfl⟩
    exact renders_nodes hkeyed active nodes depth

end Pagewright

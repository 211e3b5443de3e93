import Pagewright.Proofs.Markup.ReadBack
import Pagewright.Proofs.Markup.Session

/-!
# Depth and indentation

Every line that is printed for an element opens with the indentation of its depth, and
nothing else depends on the depth. Names, values and texts are written without a line
feed, whatever the components hold; only a statement of a handler and the name of a
placeholder are printed as they are. If these have no line feed, the lines of a text are
the lines that were printed, and a greater depth puts the same indentation in front of
each.
-/

set_option autoImplicit false

namespace Pagewright

/-! ## Shifted texts -/

namespace Text

def shift (units : Nat) (s : String) : String :=
  unlines ((split '\n' s).map (indent units ++ ·))

theorem indent_add (depth units : Nat) : indent (depth + units) = indent units ++ indent depth := by
  induction units with
  | zero => simp [indent]
  | succ units ih => rw [← Nat.add_assoc, indent, ih, indent, String.append_assoc]

theorem shift_unlines (units : Nat) {ls : List String} (hne : ls ≠ [])
    (h : ∀ line ∈ ls, OneLine line) :
    shift units (unlines ls) = unlines (ls.map (indent units ++ ·)) := by
  rw [shift, split_unlines hne h]

end Text

open Text

namespace Element

theorem openLines_add (depth units : Nat) (tag : String) (attributes : List Attribute)
    (shortEnding ending : String) :
    openLines (depth + units) tag attributes shortEnding ending =
      (openLines depth tag attributes shortEnding ending).map (indent units ++ ·) := by
  have deeper : depth + units + 1 = depth + 1 + units := by omega
  unfold openLines
  cases inlineAttribute? attributes with
  | none => simp [indent_add, deeper, String.append_assoc]
  | some text => cases text <;> simp [indent_add, String.append_assoc]

mutual

theorem lines_add (depth units : Nat) : ∀ e : Element,
    lines (depth + units) e = (lines depth e).map (indent units ++ ·)
  | .placeholder name => by simp [lines, indent_add, String.append_assoc]
  | .leaf tag attributes => by
    rw [lines, lines, openLines_add]
  | .textual tag attributes content => by
    have deeper : depth + units + 1 = depth + 1 + units := by omega
    rw [lines, lines, openLines_add, openLines_add, deeper]
    split
    · rfl
    · simp [indent_add, String.append_assoc]
  | .nested tag attributes content children => by
    have deeper : depth + units + 1 = depth + 1 + units := by omega
    rw [lines, lines, openLines_add, deeper, childLines_add (depth + 1) units children]
    simp [indent_add, String.append_assoc, Function.comp_def]

theorem childLines_add (depth units : Nat) : ∀ children : List Element,
    childLines (depth + units) children = (childLines depth children).map (indent units ++ ·)
  | [] => rfl
  | child :: rest => by
    rw [childLines, childLines, lines_add depth units child, childLines_add depth units rest,
      List.map_append]

end

end Element

/-! ## Printed values -/

theorem Text.oneLine_of_plain {s : String} (h : Plain s.toList) : OneLine s :=
  fun hbreak => absurd (h _ hbreak) (by decide)

namespace Json

mutual

theorem oneLine_compact : ∀ value : Json, OneLine value.compact
  | .null | .bool true | .bool false => by
    rw [compact]
    decide
  | .whole n => by
    rw [compact]
    exact oneLine_of_plain (Plain.wholeText n)
  | .real x => by
    rw [compact]
    exact oneLine_of_plain (Plain.realText x)
  | .text s => by
    rw [compact]
    exact oneLine_quoted s
  | .list items => by
    rw [compact, oneLine_append, oneLine_append]
    exact ⟨⟨by decide, oneLine_join (by decide) (oneLine_compactItems items)⟩, by decide⟩
  | .object fields => by
    rw [compact, oneLine_append, oneLine_append]
    exact ⟨⟨by decide, oneLine_join (by decide) (oneLine_compactFields fields)⟩, by decide⟩

theorem oneLine_compactItems : ∀ items : List Json, ∀ part ∈ compactItems items, OneLine part
  | [] => by simp [compactItems]
  | item :: rest => by
    rw [compactItems, List.forall_mem_cons]
    exact ⟨oneLine_compact item, oneLine_compactItems rest⟩

theorem oneLine_compactFields : ∀ fields : List (String × Json),
    ∀ part ∈ compactFields fields, OneLine part
  | [] => by simp [compactFields]
  | (key, value) :: rest => by
    rw [compactFields, List.forall_mem_cons, oneLine_append, oneLine_append]
    exact ⟨⟨⟨oneLine_quoted key, by decide⟩, oneLine_compact value⟩, oneLine_compactFields rest⟩

end

end Json

namespace Attribute

theorem oneLine_braced {code : String} : OneLine (braced code) ↔ OneLine code := by
  have opening : OneLine "\x7b" := by decide
  have ending : OneLine "\x7d" := by decide
  rw [braced, oneLine_append, oneLine_append]
  simp [opening, ending]

theorem oneLine_textCode (value : String) : OneLine (textCode value) := by
  unfold textCode
  split
  · rw [oneLine_braced]
    exact oneLine_quoted value
  · rename_i hplain
    have line : OneLine value := by
      intro hbreak
      apply hplain
      simp [contains, hbreak]
    rw [oneLine_append, oneLine_append]
    exact ⟨⟨by decide, line⟩, by decide⟩

theorem oneLine_styleEntry (entry : String × StyleValue) : OneLine (styleEntry entry) := by
  obtain ⟨key, value⟩ := entry
  unfold styleEntry
  rw [oneLine_append, oneLine_append]
  refine ⟨⟨Name.oneLine_objectKey key, by decide⟩, ?_⟩
  cases value with
  | number x => exact oneLine_of_plain (Plain.numberText x)
  | text s => exact oneLine_quoted s

theorem oneLine_stylesCode (styles : OrderedMap StyleValue) : OneLine (stylesCode styles) := by
  rw [stylesCode, oneLine_braced, oneLine_append, oneLine_append]
  refine ⟨⟨by decide, oneLine_join (by decide) ?_⟩, by decide⟩
  rw [List.forall_mem_map]
  exact fun entry _ => oneLine_styleEntry entry

theorem oneLine_statementCode {code : String} (h : OneLine code) :
    OneLine (statementCode code) := by
  unfold statementCode
  rw [oneLine_append, oneLine_braced, oneLine_append, oneLine_append]
  refine ⟨by decide, ⟨by decide, ?_⟩, by decide⟩
  split
  · exact h
  · exact oneLine_append.mpr ⟨h, by decide⟩

theorem oneLine_of_isName {name : String} (h : isName name = true) : OneLine name := by
  obtain ⟨c, rest, hname, hstart, hrest⟩ := isName_chars h
  rw [OneLine, hname, List.mem_cons, not_or]
  constructor
  · rintro rfl
    exact absurd hstart (by decide)
  · exact fun hbreak => absurd (hrest _ hbreak) (by decide)

end Attribute

def Component.FlatHandlers (c : Component) : Prop :=
  ∀ handler ∈ c.handlers, ∀ code, handler.2 = .statement code → OneLine code

theorem Attribute.AllottedTo.oneLine_render {c : Component} {a : Attribute} (h : a.AllottedTo c)
    (hc : c.FlatHandlers) : OneLine a.render := by
  have name := oneLine_of_isName h.name
  have value := h.value
  obtain ⟨key, written⟩ := a
  have assigned : ∀ code, OneLine code → OneLine (key ++ "=" ++ code) := fun code hcode =>
    oneLine_append.mpr ⟨oneLine_append.mpr ⟨name, by decide⟩, hcode⟩
  cases written with
  | flag => exact name
  | text s => exact assigned _ (oneLine_textCode s)
  | json v => exact assigned _ (oneLine_braced.mpr v.oneLine_compact)
  | styles m => exact assigned _ (oneLine_braced.mpr (oneLine_stylesCode m))
  | reference path => exact assigned _ (oneLine_braced.mpr (oneLine_of_plain value))
  | statement code =>
    obtain ⟨handler, hhandler, heq⟩ := value
    exact assigned _ (oneLine_braced.mpr (oneLine_statementCode (hc handler hhandler code heq)))

/-! ## Printed lines -/

namespace Element

theorem oneLine_contentCode (value : Json) : OneLine (contentCode value) := by
  unfold contentCode
  split
  · rename_i s
    split
    · rw [Attribute.oneLine_braced]
      exact oneLine_quoted s
    · rename_i hplain
      intro hbreak
      apply hplain
      simp only [Bool.or_eq_true, List.any_eq_true]
      exact .inl ⟨'\n', hbreak, by decide⟩
  · exact value.oneLine_compact

theorem mem_of_inlineAttribute? {attributes : List Attribute} {text : String}
    (h : inlineAttribute? attributes = some (some text)) : ∃ a ∈ attributes, a.render = text := by
  unfold inlineAttribute? at h
  split at h
  · cases h
  · simp only [Option.ite_none_right_eq_some, Option.some.injEq] at h
    exact ⟨_, List.mem_singleton_self _, h.2⟩
  · cases h

section Tag

variable {tag : String} (htag : OneLine tag)

include htag

theorem oneLine_closeTag : OneLine (closeTag tag) :=
  oneLine_append.mpr ⟨oneLine_append.mpr ⟨by decide, htag⟩, by decide⟩

variable {attributes : List Attribute} (hattributes : ∀ a ∈ attributes, OneLine a.render)

include hattributes

theorem oneLine_openLines (depth : Nat) {shortEnding ending : String} (hshort : OneLine shortEnding)
    (hending : OneLine ending) :
    ∀ line ∈ openLines depth tag attributes shortEnding ending, OneLine line := by
  have opening : OneLine (indent depth ++ "<" ++ tag) :=
    oneLine_append.mpr ⟨oneLine_append.mpr ⟨oneLine_indent depth, by decide⟩, htag⟩
  unfold openLines
  cases hinline : inlineAttribute? attributes with
  | none =>
    simp only [List.cons_append, List.forall_mem_cons, List.forall_mem_append, List.forall_mem_map,
      List.not_mem_nil, false_imp_iff, implies_true, and_true]
    exact ⟨opening, fun a ha => oneLine_append.mpr ⟨oneLine_indent _, hattributes a ha⟩,
      oneLine_append.mpr ⟨oneLine_indent _, hending⟩⟩
  | some text =>
    cases text with
    | none => exact List.forall_mem_singleton.mpr (oneLine_append.mpr ⟨opening, hshort⟩)
    | some text =>
      obtain ⟨a, ha, rfl⟩ := mem_of_inlineAttribute? hinline
      have line : OneLine (indent depth ++ "<" ++ tag ++ " " ++ a.render) :=
        oneLine_append.mpr ⟨oneLine_append.mpr ⟨opening, by decide⟩, hattributes a ha⟩
      exact List.forall_mem_singleton.mpr (oneLine_append.mpr ⟨line, hshort⟩)

theorem oneLine_leaf (depth : Nat) : ∀ line ∈ lines depth (.leaf tag attributes), OneLine line := by
  rw [lines]
  exact oneLine_openLines htag hattributes depth (by decide) (by decide)

theorem oneLine_textual (depth : Nat) (content : Json) :
    ∀ line ∈ lines depth (.textual tag attributes content), OneLine line := by
  have text := oneLine_contentCode content
  have closing := oneLine_closeTag htag
  rw [lines]
  split
  · refine oneLine_openLines htag hattributes depth ?_ (by decide)
    exact oneLine_append.mpr ⟨oneLine_append.mpr ⟨by decide, text⟩, closing⟩
  · simp only [List.forall_mem_append, List.forall_mem_cons, List.not_mem_nil, false_imp_iff,
      implies_true, and_true]
    exact ⟨oneLine_openLines htag hattributes depth (by decide) (by decide),
      oneLine_append.mpr ⟨oneLine_indent _, text⟩, oneLine_append.mpr ⟨oneLine_indent _, closing⟩⟩

theorem oneLine_nested (depth : Nat) (content : Option Json) {children : List Element}
    (hchildren : ∀ line ∈ childLines (depth + 1) children, OneLine line) :
    ∀ line ∈ lines depth (.nested tag attributes content children), OneLine line := by
  rw [lines]
  simp only [List.forall_mem_append, List.forall_mem_cons, List.forall_mem_map, List.not_mem_nil,
    false_imp_iff, implies_true, and_true]
  refine ⟨⟨⟨oneLine_openLines htag hattributes depth (by decide) (by decide), ?_⟩, hchildren⟩, ?_⟩
  · exact fun value _ => oneLine_append.mpr ⟨oneLine_indent _, oneLine_contentCode value⟩
  · exact oneLine_append.mpr ⟨oneLine_indent _, oneLine_closeTag htag⟩

end Tag

end Element

namespace View

mutual

def placeholders : View → List String
  | .placeholder name => [name]
  | .node _ _ children => placeholdersOf children

def placeholdersOf : List View → List String
  | [] => []
  | view :: rest => placeholders view ++ placeholdersOf rest

end

theorem mem_placeholdersOf {views : List View} {name : String} :
    name ∈ placeholdersOf views ↔ ∃ view ∈ views, name ∈ view.placeholders := by
  induction views with
  | nil => simp [placeholdersOf]
  | cons view rest ih => simp [placeholdersOf, ih]

theorem oneLine_elementOf (options : Options) {c : Component} (hc : c.FlatHandlers) (nested : Bool)
    (depth : Nat) {children : List Element}
    (hchildren : ∀ line ∈ Element.childLines (depth + 1) children, OneLine line) :
    ∀ line ∈ (elementOf options c nested children).lines depth, OneLine line := by
  have tag := Name.oneLine_of_isWellFormed (Primitive.tag_wellFormed c.kind)
  have attributes : ∀ a ∈ c.attributes options, OneLine a.render :=
    fun a ha => (c.attributes_allotted options a ha).oneLine_render hc
  simp only [elementOf]
  split
  · exact Element.oneLine_leaf tag attributes depth
  split
  · exact Element.oneLine_nested tag attributes depth _ hchildren
  split
  · exact Element.oneLine_textual tag attributes depth _
  · exact Element.oneLine_leaf tag attributes depth

mutual

theorem oneLine_lines (options : Options) (depth : Nat) : ∀ view : View,
    (∀ name ∈ view.placeholders, OneLine name) → (∀ c ∈ view.components, c.FlatHandlers) →
      ∀ line ∈ (view.element options).lines depth, OneLine line
  | .placeholder name => by
    intro hnames _
    have line : OneLine (indent depth ++ "<" ++ name ++ " />") := by
      simp only [oneLine_append]
      exact ⟨⟨⟨oneLine_indent depth, by decide⟩, hnames name (List.mem_singleton_self name)⟩,
        by decide⟩
    rw [element, Element.lines]
    exact List.forall_mem_singleton.mpr line
  | .node root nested children => by
    intro hnames hcomponents
    rw [components, List.forall_mem_cons] at hcomponents
    rw [element]
    exact oneLine_elementOf options hcomponents.1 nested depth
      (oneLine_childLines options (depth + 1) children hnames hcomponents.2)

theorem oneLine_childLines (options : Options) (depth : Nat) : ∀ views : List View,
    (∀ name ∈ placeholdersOf views, OneLine name) → (∀ c ∈ componentsOf views, c.FlatHandlers) →
      ∀ line ∈ Element.childLines depth (elements options views), OneLine line
  | [] => by simp [elements, Element.childLines]
  | view :: rest => by
    intro hnames hcomponents
    rw [placeholdersOf, List.forall_mem_append] at hnames
    rw [componentsOf, List.forall_mem_append] at hcomponents
    rw [elements, Element.childLines, List.forall_mem_append]
    exact ⟨oneLine_lines options depth view hnames.1 hcomponents.1,
      oneLine_childLines options depth rest hnames.2 hcomponents.2⟩

end

end View

/-! ## Whole texts -/

namespace Body

variable {body : Body} (options : Options) (depth : Nat)

def allLines (body : Body) : List String :=
  if body.fragment then
    [indent depth ++ "<>"] ++ body.lines options (depth + 1) ++ [indent depth ++ "</>"]
  else body.lines options depth

theorem lines_add (units : Nat) (body : Body) :
    body.lines options (depth + units) = (body.lines options depth).map (indent units ++ ·) := by
  rw [lines, lines, ← Element.childLines_eq_flatMap, ← Element.childLines_eq_flatMap,
    Element.childLines_add]

theorem allLines_add (units : Nat) (body : Body) :
    body.allLines options (depth + units) =
      (body.allLines options depth).map (indent units ++ ·) := by
  have deeper : depth + units + 1 = depth + 1 + units := by omega
  unfold allLines
  split
  · rw [deeper, lines_add]
    simp [indent_add, String.append_assoc]
  · exact lines_add options depth units body

theorem lines_ne_nil (h : body.views ≠ []) : body.lines options depth ≠ [] := by
  obtain ⟨view, rest, hviews⟩ := List.exists_cons_of_ne_nil h
  obtain ⟨first, others, hlines⟩ := Element.lines_head depth (view.element options)
  rw [lines, hviews, View.elements, List.flatMap_cons, hlines]
  simp

theorem allLines_ne_nil (h : body.views ≠ []) : body.allLines options depth ≠ [] := by
  unfold allLines
  split
  · simp
  · exact lines_ne_nil options depth h

theorem render_eq_unlines (h : body.views ≠ []) :
    body.render options depth = unlines (body.allLines options depth) := by
  unfold render allLines
  split
  · have opening : "<>\n" = "<>" ++ "\n" := rfl
    have tagged : [indent depth ++ "<>"] ++ body.lines options (depth + 1) ≠ [] := by simp
    rw [unlines_append tagged (by simp), unlines_append (by simp) (lines_ne_nil options _ h),
      opening]
    simp [unlines, join, String.append_assoc]
  · rfl

theorem oneLine_allLines (hnames : ∀ name ∈ View.placeholdersOf body.views, OneLine name)
    (hcomponents : ∀ c ∈ body.components, c.FlatHandlers) :
    ∀ line ∈ body.allLines options depth, OneLine line := by
  have inner : ∀ deep, ∀ line ∈ body.lines options deep, OneLine line := by
    intro deep
    rw [lines, ← Element.childLines_eq_flatMap]
    exact View.oneLine_childLines options deep body.views hnames hcomponents
  unfold allLines
  split
  · simp only [List.forall_mem_append, List.forall_mem_singleton, oneLine_append]
    exact ⟨⟨⟨oneLine_indent depth, by decide⟩, inner _⟩, oneLine_indent depth, by decide⟩
  · exact inner depth

/-- A body further in is the same text with all of its lines further in. -/
theorem render_add (units : Nat) (h : body.views ≠ [])
    (hnames : ∀ name ∈ View.placeholdersOf body.views, OneLine name)
    (hcomponents : ∀ c ∈ body.components, c.FlatHandlers) :
    body.render options (depth + units) = shift units (body.render options depth) := by
  rw [render_eq_unlines options _ h, render_eq_unlines options _ h, allLines_add,
    shift_unlines units (allLines_ne_nil options depth h)
      (oneLine_allLines options depth hnames hcomponents)]

end Body

namespace Forest

variable {forest : Forest} {substitutions : Substitutions} {name : String}

theorem mem_values_of_find? {id : String} (h : substitutions.find? id = some name) :
    name ∈ substitutions.values :=
  List.mem_map.mpr ⟨(id, name), mem_of_lookup h, rfl⟩

theorem viewBelow_placeholders (path : List String) (id : String) (view : View)
    (hview : forest.viewBelow substitutions path id = some view)
    (hname : name ∈ view.placeholders) : name ∈ substitutions.values := by
  induction path, id using viewBelow.induct forest substitutions generalizing view with
  | case1 path id hfind =>
    rw [viewBelow_missing hfind] at hview
    cases hview
  | case2 path id c hfind other hother =>
    simp only [viewBelow_found hfind, hother, Option.some.injEq] at hview
    subst hview
    rw [List.mem_singleton.mp hname]
    exact mem_values_of_find? hother
  | case3 path id c hfind hfree hold => simp [viewBelow_found hfind, hfree, hold] at hview
  | case4 path id c hfind hfree hnew hvoid =>
    simp only [viewBelow_found hfind, hfree, hnew, hvoid, if_false, if_true,
      Option.some.injEq] at hview
    subst hview
    cases hname
  | case5 path id c hfind hfree hnew hvoid ih =>
    simp only [viewBelow_found hfind, hfree, hnew, hvoid, Bool.false_eq_true, if_false,
      Option.some.injEq] at hview
    subst hview
    obtain ⟨below, hbelow, hname⟩ := View.mem_placeholdersOf.mp hname
    obtain ⟨child, _, hbelow⟩ := List.mem_filterMap.mp hbelow
    exact ih child below hbelow hname

theorem views_placeholders {ids : List String}
    (h : name ∈ View.placeholdersOf (forest.views substitutions ids)) :
    name ∈ substitutions.values := by
  obtain ⟨view, hview, hname⟩ := View.mem_placeholdersOf.mp h
  obtain ⟨id, _, hview⟩ := List.mem_filterMap.mp hview
  exact viewBelow_placeholders [] id view hview hname

theorem viewOf_placeholders {path : List String} {c : Component}
    (h : name ∈ View.placeholdersOf (forest.viewOf substitutions path c).toList) :
    name ∈ substitutions.values := by
  obtain ⟨view, hview, hname⟩ := View.mem_placeholdersOf.mp h
  rw [Option.mem_toList, viewOf] at hview
  cases hfind : substitutions.find? c.id with
  | some other =>
    rw [hfind, Option.some.injEq] at hview
    subst hview
    rw [List.mem_singleton.mp hname]
    exact mem_values_of_find? hfind
  | none =>
    simp only [hfind, Option.ite_none_left_eq_some, Option.some.injEq] at hview
    obtain ⟨_, rfl⟩ := hview
    obtain ⟨below, hbelow, hname⟩ := View.mem_placeholdersOf.mp hname
    obtain ⟨d, _, hbelow⟩ := List.mem_filterMap.mp hbelow
    exact viewBelow_placeholders _ d.id below hbelow hname

theorem view_eq_none_iff {id : String} :
    forest.view substitutions id = none ↔ forest.contains id = false := by
  have known : forest.contains id = (forest.find? id).isSome := rfl
  rw [known, view]
  cases hfind : forest.find? id with
  | none => simp [viewBelow_missing hfind]
  | some c =>
    rw [viewBelow_found hfind]
    cases substitutions.find? id with
    | some other => simp
    | none => cases (Primitive.ofKind c.kind).void <;> simp

theorem views_eq_nil_iff {ids : List String} :
    forest.views substitutions ids = [] ↔ ∀ id ∈ ids, forest.contains id = false := by
  rw [views, List.filterMap_eq_nil_iff]
  exact forall₂_congr fun _ _ => view_eq_none_iff

/-- Where nothing is open, a component is shown. -/
theorem viewOf_ne_none (c : Component) : forest.viewOf substitutions [] c ≠ none := by
  rw [viewOf]
  cases substitutions.find? c.id <;> simp

end Forest

namespace Emitter

/-- Without a component, all that is left is a fragment around an empty line. -/
theorem renderRoot_missing {e : Emitter} (depth : Nat) {ids : List String}
    (h : ∀ id ∈ ids, e.forest.contains id = false) :
    (e.renderRoot ids depth).1 =
      if ids.length = 1 then "" else indent depth ++ "<>\n\n" ++ indent depth ++ "</>" := by
  have none : e.body ids = ⟨ids.length != 1, []⟩ :=
    congrArg (Body.mk _) (Forest.views_eq_nil_iff.mpr h)
  have gap : "<>\n\n" = "<>\n" ++ "\n" := rfl
  rw [renderRoot, none]
  by_cases hone : ids.length = 1
  · simp [hone, Body.render, Body.lines, View.elements, unlines, join]
  · simp [hone, Body.render, Body.lines, View.elements, unlines, join, gap, String.append_assoc]

section Shifting

variable {e : Emitter} (hnames : ∀ name ∈ e.substitutions.values, OneLine name)
  (depth units : Nat)

include hnames

theorem nodeText_add {c : Component}
    (h : ∀ r ∈ View.componentsOf (e.forest.viewOf e.substitutions [] c).toList, r.FlatHandlers) :
    e.forest.nodeText e.options e.substitutions [] (depth + units) c =
      shift units (e.forest.nodeText e.options e.substitutions [] depth c) := by
  have shown : (e.forest.viewOf e.substitutions [] c).toList ≠ [] := by
    simpa using e.forest.viewOf_ne_none c
  exact Body.render_add e.options depth units shown
    (fun name hname => hnames name (Forest.viewOf_placeholders hname)) h

theorem renderRoot_add {ids : List String} (h : ∀ r ∈ (e.body ids).components, r.FlatHandlers)
    (hfound : ∃ id ∈ ids, e.forest.contains id = true) :
    (e.renderRoot ids (depth + units)).1 = shift units (e.renderRoot ids depth).1 := by
  have shown : (e.body ids).views ≠ [] := by
    intro hnone
    obtain ⟨id, hid, hcontains⟩ := hfound
    rw [Forest.views_eq_nil_iff.mp hnone id hid] at hcontains
    cases hcontains
  exact Body.render_add e.options depth units shown
    (fun name hname => hnames name (Forest.views_placeholders hname)) h

/-- Rendering at a greater depth gives the same text with all lines further in: for every component,
known to the forest or not, and for every list of ids of which one is known at least. If none is
known, there is no text for one id, and the line between the tags of the fragment stays empty for
any other number. -/
theorem depth_shifts_lines {components : List Component}
    (hforest : e.forest = .ofComponents components) :
    (∀ c, (∀ r ∈ View.componentsOf (e.forest.viewOf e.substitutions [] c).toList,
        r.FlatHandlers) →
      ∃ text t, Rendering.Yields ⟨e, []⟩ c depth text t ∧
        Rendering.Yields ⟨e, []⟩ c (depth + units) (shift units text) t) ∧
    (∀ ids, (∀ r ∈ (e.body ids).components, r.FlatHandlers) →
      (∃ id ∈ ids, e.forest.contains id = true) →
      (e.renderRoot ids (depth + units)).1 = shift units (e.renderRoot ids depth).1) ∧
    (∀ ids, (∀ id ∈ ids, e.forest.contains id = false) →
      (e.renderRoot ids depth).1 =
        if ids.length = 1 then "" else indent depth ++ "<>\n\n" ++ indent depth ++ "</>") := by
  have keyed : e.forest.Keyed := by
    rw [hforest]
    exact Forest.keyed_ofComponents components
  refine ⟨?_, ?_, ?_⟩
  · intro c hflat
    refine ⟨_, _, fun _ _ => renders_one keyed, fun _ _ => ?_⟩
    rw [← nodeText_add hnames depth units hflat]
    exact renders_one keyed
  · exact fun ids hflat hfound => renderRoot_add hnames depth units hflat hfound
  · exact fun ids hmissing => renderRoot_missing depth hmissing

end Shifting

/-- The empty line between the tags of a fragment without content is not shifted, so that lists
without a known id are an exception. -/
theorem not_depth_shifts_all_roots :
    ¬ ∀ (components : List Component) (e : Emitter), e.forest = .ofComponents components →
      (∀ name ∈ e.substitutions.values, OneLine name) →
      ∀ ids, (∀ r ∈ (e.body ids).components, r.FlatHandlers) → ∀ depth units,
        (e.renderRoot ids (depth + units)).1 = shift units (e.renderRoot ids depth).1 := by
  intro h
  have nothing : (Emitter.fresh [] {}).substitutions.values = [] := rfl
  have bare : ((Emitter.fresh [] {}).body []).components = [] := rfl
  have shifted := h [] (.fresh [] {}) rfl (by simp [nothing]) [] (by simp [bare]) 0 1
  exact absurd shifted (by decide +kernel)

end Emitter

namespace Sample

/-- The box with the link to itself, alone and as the root, two units further in. -/
theorem depth_shifts_lines_ring :
    (∃ text t, Rendering.Yields ⟨ringEmitter, []⟩ ring 1 text t ∧
      Rendering.Yields ⟨ringEmitter, []⟩ ring 3 (shift 2 text) t) ∧
    (ringEmitter.renderRoot ["ring"] 3).1 = shift 2 (ringEmitter.renderRoot ["ring"] 1).1 ∧
    (ringEmitter.renderRoot ["gone", "lost"] 1).1 = "  <>\n\n  </>" := by
  have nothing : ringEmitter.substitutions.values = [] := rfl
  have inert : ∀ c ∈ [ring, way], c.handlers = [] := by decide
  have flat : ∀ c ∈ [ring, way], c.FlatHandlers := by
    intro c hc
    simp [Component.FlatHandlers, inert c hc]
  have node : ringEmitter.forest.viewOf ringEmitter.substitutions [] ring =
      some (.node ring true [.node way true []]) :=
    (Forest.viewOf_of_found (Forest.keyed_ofComponents _) rfl).trans ring_view
  have root : (ringEmitter.body ["ring"]).views = [.node ring true [.node way true []]] :=
    List.filterMap_cons_some ring_view
  obtain ⟨alone, roots, missing⟩ := Emitter.depth_shifts_lines
    (e := ringEmitter) (by simp [nothing]) 1 2 rfl
  refine ⟨alone ring ?_, roots ["ring"] ?_ ⟨"ring", by simp, rfl⟩, missing _ (by decide)⟩
  · rw [node]
    exact flat
  · rw [Body.components, root]
    exact flat

end Sample

end Pagewright

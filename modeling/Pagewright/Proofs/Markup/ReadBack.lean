import Pagewright.Markup.Emitter
import Pagewright.Proofs.Markup.Element
import Pagewright.Proofs.Markup.View

/-!
# Markup reads back to the component tree

The markup of a valid component is accepted in full by the reader of `Markup.read`,
and what is read has the outline of the component's tree: element for component, in
order, with the tag of its primitive, its id in the first attribute and its text.
Only what lies below an element without content is missing. Ids, classes, styles,
property values and texts are arbitrary, so none of them can end the place it is
written in. Handlers that are statements are left out: they are code already.
-/

set_option autoImplicit false

namespace Pagewright

/-! ## The attributes of a component -/

theorem Primitive.ofKind_all {P : Primitive → Prop} (hfallback : P fallback)
    (htable : ∀ entry ∈ table, P entry.2) (kind : String) : P (ofKind kind) := by
  unfold ofKind find?
  cases h : lookup kind table with
  | none => exact hfallback
  | some primitive => exact htable _ (mem_of_lookup h)

theorem Primitive.tag_wellFormed (kind : String) :
    Name.isWellFormed (Primitive.ofKind kind).tag = true :=
  ofKind_all (P := fun p => Name.isWellFormed p.tag = true) (by decide) (by decide) kind

theorem Primitive.implicit_isName (kind : String) :
    ∀ entry ∈ (Primitive.ofKind kind).implicit, Attribute.isName entry.1 = true :=
  ofKind_all (P := fun p => ∀ entry ∈ p.implicit, Attribute.isName entry.1 = true) (by decide)
    (by decide) kind

namespace HandlerBinding

theorem isName_of_isKey {key : String} (h : isKey key = true) : Attribute.isName key = true := by
  unfold isKey at h
  split at h
  · rename_i c rest hkey
    simp only [Bool.and_eq_true, List.all_eq_true] at h
    obtain ⟨hupper, hrest⟩ := h
    have halpha : ∀ d ∈ c :: rest, d.isAlpha = true := by
      intro d hd
      rcases List.mem_cons.mp hd with rfl | hd
      · exact Bool.or_eq_true_iff.mpr (.inl hupper)
      · exact hrest d hd
    have hcolon : ':' ∉ 'o' :: 'n' :: c :: rest := by
      simp only [List.mem_cons, Char.reduceEq, false_or]
      intro hmem
      exact absurd (halpha ':' (List.mem_cons.mpr hmem)) (by decide)
    have hparts : ∀ d ∈ c :: rest, Attribute.isNamePart d = true := by
      intro d hd
      simp [Attribute.isNamePart, Name.isPart, Name.isStart, halpha d hd]
    have hn : Attribute.isNamePart 'n' = true := by decide
    have ho : Name.isStart 'o' = true := by decide
    rw [Attribute.isName, hkey, Text.splitChars_unbroken hcolon]
    simp only [List.forall_mem_cons] at hparts
    simp [Attribute.isNameSegment, ho, hn, hparts.1]
    exact hparts.2
  · cases h

theorem reference_plain {value : Json} {path : String} (h : ofJson value = some (.reference path)) :
    Plain path.toList := by
  have hpath : ∀ text : String, isFunctionPath text = true → Plain text.toList := by
    intro text htext
    simp only [isFunctionPath, Bool.and_eq_true] at htext
    exact Plain.path htext.1
  unfold ofJson at h
  split at h
  · unfold ofText at h
    simp only at h
    split at h
    · cases h
    split at h
    · cases h
      exact hpath _ ‹_›
    · cases h
  · unfold ofFields at h
    split at h
    · simp only at h
      split at h
      · cases h
        exact hpath _ ‹_›
      · cases h
    · cases h
  · cases h

end HandlerBinding

/-- The attribute has a name, and what it holds of the component's own code is a path of names or
the statement of a handler. -/
structure Attribute.AllottedTo (c : Component) (a : Attribute) : Prop where
  name : isName a.name = true
  value : match a.value with
    | .reference path => Plain path.toList
    | .statement code => ∃ handler ∈ c.handlers, handler.2 = .statement code
    | _ => True

namespace Component

def Referring (c : Component) : Prop :=
  ∀ handler ∈ c.handlers, ∀ code, handler.2 ≠ .statement code

theorem attributeName?_isName {c : Component} {key name : String}
    (h : c.attributeName? key = some name) : Attribute.isName name = true := by
  unfold attributeName? at h
  split at h
  · cases h
  split at h
  · cases h
  · simp only [Option.ite_none_right_eq_some, Option.some.injEq] at h
    obtain ⟨hname, rfl⟩ := h
    exact hname

theorem declared_allotted {c : Component} {a : Attribute} (h : a ∈ c.declaredAttributes) :
    a.AllottedTo c := by
  obtain ⟨⟨key, value⟩, _, hbind⟩ := List.mem_filterMap.mp h
  obtain ⟨name, hname, hvalue⟩ := Option.bind_eq_some_iff.mp hbind
  have hisName := attributeName?_isName hname
  unfold Attribute.ofProperty at hvalue
  split at hvalue <;> cases hvalue <;> exact ⟨hisName, trivial⟩

theorem handler_allotted {c : Component} {handler : String × HandlerBinding}
    (h : handler ∈ c.handlers) : (Attribute.ofHandler handler).AllottedTo c := by
  obtain ⟨⟨key, value⟩, _, hbinding⟩ := List.mem_filterMap.mp h
  simp only at hbinding
  split at hbinding
  · rename_i hkey
    obtain ⟨binding, hjson, rfl⟩ := Option.map_eq_some_iff.mp hbinding
    cases binding with
    | statement code => exact ⟨HandlerBinding.isName_of_isKey hkey, _, h, rfl⟩
    | reference path =>
      exact ⟨HandlerBinding.isName_of_isKey hkey, HandlerBinding.reference_plain hjson⟩
  · cases hbinding

theorem attributes_allotted (options : Options) (c : Component) :
    ∀ a ∈ c.attributes options, a.AllottedTo c := by
  have fixed : Attribute.isName idAttribute = true ∧ Attribute.isName "className" = true ∧
      Attribute.isName "style" = true := by decide
  intro a ha
  simp only [attributes, List.mem_append, List.mem_map] at ha
  rcases ha with ((((ha | ha) | ha) | ha) | ha) | ⟨handler, hh, rfl⟩
  · split at ha
    · rw [List.mem_singleton.mp ha]
      exact ⟨fixed.1, trivial⟩
    · cases ha
  · split at ha
    · cases ha
    · rw [List.mem_singleton.mp ha]
      exact ⟨fixed.2.1, trivial⟩
  · split at ha
    · cases ha
    · rw [List.mem_singleton.mp ha]
      exact ⟨fixed.2.2, trivial⟩
  · obtain ⟨⟨name, value⟩, hentry, hsome⟩ := List.mem_filterMap.mp ha
    simp only at hsome
    split at hsome
    · cases hsome
    · cases hsome
      exact ⟨Primitive.implicit_isName c.kind _ hentry, trivial⟩
  · exact declared_allotted ha
  · exact handler_allotted hh

theorem attributes_readable (options : Options) {c : Component} (hc : c.Referring) :
    ∀ a ∈ c.attributes options, a.Readable := by
  intro a ha
  obtain ⟨hname, hvalue⟩ := attributes_allotted options c a ha
  refine ⟨hname, ?_⟩
  obtain ⟨name, value⟩ := a
  cases value with
  | statement code =>
    obtain ⟨handler, hh, heq⟩ := hvalue
    exact absurd heq (hc handler hh code)
  | reference path => exact hvalue
  | flag | text _ | json _ | styles _ => trivial

theorem attributes_cons {options : Options} (h : options.componentIds = true) (c : Component) :
    ∃ rest, c.attributes options = ⟨idAttribute, .text c.id⟩ :: rest := by
  simp [attributes, h]

theorem content?_isContent {c : Component} {key : String} {value : Json}
    (h : c.content? = some (key, value)) : isContent value = true := by
  obtain ⟨k, _, hk⟩ := List.exists_of_findSome?_eq_some h
  split at hk
  · split at hk
    · cases hk
      assumption
    · cases hk
  · cases hk

def contentText (c : Component) : String := (c.content?.map fun entry => entry.2.contentText).getD ""

end Component

/-! ## Trees -/

namespace ComponentTree

open Markup

mutual

def markup (options : Options) : ComponentTree → Markup
  | .node c children =>
    let primitive := Primitive.ofKind c.kind
    let attributes := Reader.written (c.attributes options)
    if primitive.void then .element primitive.tag attributes "" []
    else .element primitive.tag attributes c.contentText (markupsOf options children)

def markupsOf (options : Options) : List ComponentTree → List Markup
  | [] => []
  | t :: rest => markup options t :: markupsOf options rest

end

/-- The lines of siblings are read as the siblings, below whatever element they stand. -/
theorem reads_siblings {options : Options} (hids : options.componentIds = true)
    (trees : List ComponentTree) (hc : ∀ c ∈ componentsOf trees, c.Referring) (depth : Nat) :
    Reads (Text.stacked (Element.childLines depth
        (View.elements options (viewsOf OrderedMap.empty trees))))
      (markupsOf options trees) := by
  induction trees using siblings_induction generalizing depth with
  | nil => exact Reads.nil
  | cons c children rest ihc ihr =>
    simp only [componentsOf_cons, List.mem_cons, List.mem_append] at hc
    have below := ihc (fun d hd => hc d (.inr (.inl hd))) (depth + 1)
    have beside := ihr (fun d hd => hc d (.inr (.inr hd))) depth
    have htag := Primitive.tag_wellFormed c.kind
    have hread := Component.attributes_readable options (hc c (.inl rfl))
    have hne : c.attributes options ≠ [] := by
      obtain ⟨others, heq⟩ := c.attributes_cons hids
      simp [heq]
    have here : Reads (Text.stacked (Element.lines depth (View.element options
        (view OrderedMap.empty (.node c children))))) [markup options (.node c children)] := by
      have unsubstituted : (OrderedMap.empty : Substitutions).find? c.id = none := rfl
      simp only [view, unsubstituted, markup]
      cases hvoid : (Primitive.ofKind c.kind).void with
      | true => simpa [View.element, View.elementOf, hvoid] using reads_leaf htag hne hread depth
      | false =>
        simp only [View.element, View.elementOf, hvoid, Bool.false_eq_true, if_false]
        cases children with
        | nil =>
          cases hcontent : c.content? with
          | none =>
            simpa [Component.contentText, hcontent, markupsOf] using reads_leaf htag hne hread depth
          | some entry =>
            simpa [Component.contentText, hcontent, markupsOf] using
              reads_textual htag hne hread (Component.content?_isContent hcontent) depth
        | cons t others =>
          have hcontent : ∀ value ∈ c.content?.map Prod.snd, Component.isContent value = true := by
            intro value hvalue
            obtain ⟨entry, hentry, rfl⟩ := Option.map_eq_some_iff.mp hvalue
            exact Component.content?_isContent hentry
          have nested := reads_nested htag hne hread hcontent depth below
          simpa [Component.contentText, Function.comp_def] using nested
    have both := here.append beside
    simpa [viewsOf, View.elements, Element.childLines, markupsOf] using both

end ComponentTree

/-! ## Whole texts -/

namespace Markup

/-- Lines that are read as one element are the whole text of that element. -/
theorem read_unlines {depth : Nat} {e : Element} {m : Markup}
    (h : Reads (Text.stacked (e.lines depth)) [m]) :
    read (Text.unlines (e.lines depth)) = some m := by
  obtain ⟨first, rest, hlines⟩ := e.lines_head depth
  have settled : Reader.start.Settles ⟨"", [], "", []⟩ [] := Reader.settles_content _ _
  obtain ⟨next, hrun, pending, before, rfl, hframe⟩ := h _ _ _ settled
  obtain ⟨tail, htail⟩ : ∃ tail, (Text.unlines (e.lines depth)).toList =
      (Text.indent depth).toList ++ '<' :: tail := by
    rw [hlines]
    cases rest with
    | nil => exact ⟨first.toList, by simp [Text.unlines, Text.join]⟩
    | cons line more =>
      exact ⟨first.toList ++ '\n' :: (Text.join "\n" (line :: more)).toList, by
        simp [Text.unlines, Text.join]⟩
  -- the line break before the first line makes no difference to the reader
  have leading : Reader.start.run (Text.unlines (e.lines depth)).toList =
      Reader.start.run (Text.stacked (e.lines depth)) := by
    have hblank : ∀ c ∈ (Text.indent depth).toList, Text.isBlankChar c = true :=
      fun c hc => Reader.lineStart_blank depth c (List.mem_cons_of_mem _ hc)
    obtain ⟨mid, hmid, hsettles⟩ := settled.blank hblank
    rw [Text.stacked_unlines (by simp [hlines]), htail, Reader.run_append, hmid]
    exact (hsettles.run_opening tail).trans (settled.run_line depth tail).symm
  rw [read, leading, hrun]
  simp only [Frame.addText, Frame.addChildren, List.nil_append, Frame.mk.injEq] at hframe
  simp [Reader.result?, hframe]

end Markup

/-! ## Outlines -/

inductive Outline where
  | node (tag : String) (id : Option String) (text : String) (children : List Outline)

namespace Outline

mutual

def ids : Outline → List (Option String)
  | .node _ id _ children => id :: idsOf children

def idsOf : List Outline → List (Option String)
  | [] => []
  | o :: rest => ids o ++ idsOf rest

end

end Outline

/-- The text that an attribute value stands for; character references are not decoded. -/
def MarkupValue.denoted? : MarkupValue → Option String
  | .flag => none
  | .text chars => some chars
  | .code expression => Markup.quotedText? expression.toList

/-- A text in an attribute is found again, in quotes and in braces alike. -/
theorem Attribute.denoted_text {a : Attribute} {s : String} (h : a.value = .text s) :
    a.written.denoted? = some s := by
  simp only [written, h]
  split
  · exact Markup.quotedText?_quoted s
  · rfl

namespace Markup

def firstId : List (String × MarkupValue) → Option String
  | [] => none
  | (name, value) :: _ => if name = Component.idAttribute then value.denoted? else none

mutual

def outline : Markup → Outline
  | .element tag attributes text children =>
    .node tag (firstId attributes) text (outlinesOf children)

def outlinesOf : List Markup → List Outline
  | [] => []
  | m :: rest => outline m :: outlinesOf rest

end

end Markup

namespace ComponentTree

mutual

def outline : ComponentTree → Outline
  | .node c children =>
    let primitive := Primitive.ofKind c.kind
    if primitive.void then .node primitive.tag (some c.id) "" []
    else .node primitive.tag (some c.id) c.contentText (outlinesOf children)

def outlinesOf : List ComponentTree → List Outline
  | [] => []
  | t :: rest => outline t :: outlinesOf rest

end

theorem firstId_written {options : Options} (hids : options.componentIds = true) (c : Component) :
    Markup.firstId (Markup.Reader.written (c.attributes options)) = some c.id := by
  obtain ⟨rest, hattributes⟩ := c.attributes_cons hids
  rw [hattributes, Markup.Reader.written, List.map_cons, Markup.firstId, if_pos rfl]
  exact Attribute.denoted_text rfl

theorem outlines_markups {options : Options} (hids : options.componentIds = true)
    (trees : List ComponentTree) :
    Markup.outlinesOf (markupsOf options trees) = outlinesOf trees := by
  induction trees using siblings_induction with
  | nil => rfl
  | cons c children rest ihc ihr =>
    have hid := firstId_written hids c
    simp only [markupsOf, markup, outlinesOf, outline, Markup.outlinesOf]
    rw [ihr]
    congr 1
    split
    · simp [Markup.outline, Markup.outlinesOf, hid]
    · simp [Markup.outline, hid, ihc]

/-- The ids of an outline are those of the places that are shown. -/
theorem outline_ids (above : List Component) (trees : List ComponentTree)
    (habove : ∀ c ∈ above, (Primitive.ofKind c.kind).void = false) :
    Outline.idsOf (outlinesOf trees) =
      ((placesOf above trees).filter Place.isShown).map fun p => some p.component.id := by
  induction trees using siblings_induction generalizing above with
  | nil => rfl
  | cons c children rest ihc ihr =>
    have shown : Place.isShown ⟨c, above⟩ = true := by simpa [Place.isShown] using habove
    have below : Outline.ids (outline (.node c children)) = some c.id ::
        ((placesOf (c :: above) children).filter Place.isShown).map fun p => some p.component.id := by
      cases hvoid : (Primitive.ofKind c.kind).void with
      | true =>
        have hidden : (placesOf (c :: above) children).filter Place.isShown = [] := by
          rw [List.filter_eq_nil_iff]
          intro p hp
          simp [hidden_below hvoid hp]
        simp [outline, hvoid, hidden, Outline.ids, Outline.idsOf]
      | false =>
        have hall : ∀ d ∈ c :: above, (Primitive.ofKind d.kind).void = false := by
          simpa [hvoid] using habove
        simp [outline, hvoid, Outline.ids, ihc (c :: above) hall]
    rw [outlinesOf, Outline.idsOf, below, ihr above habove, placesOf_cons, List.filter_cons_of_pos
      shown]
    simp

theorem shown_nodup (t : ComponentTree) (h : ((componentsOf [t]).map Component.id).Nodup) :
    (((places [] t).filter Place.isShown).map fun p => some p.component.id).Nodup := by
  have all : ((places [] t).map fun p => some p.component.id) =
      ((componentsOf [t]).map Component.id).map some := by
    rw [← places_components [] [t]]
    simp [placesOf, Function.comp_def]
  apply (List.filter_sublist.map _).nodup
  rw [all]
  exact h.map fun _ _ => Option.some.inj

end ComponentTree

open ComponentTree

/-- The markup of every component of a valid list is read in full, as an element tree with the
outline of the component's own tree. Each component that is not below an element without content
occurs in it exactly once, and no other does. -/
theorem markup_reads_back {components : List Component} (h : componentViolations components = [])
    (hhandlers : ∀ c ∈ components, c.Referring) (options : Options)
    (hids : options.componentIds = true) :
    ∃ trees, Spells trees components ∧ trees.map ComponentTree.id = rootIds components ∧
      ∀ c ∈ components, ∃ t ∈ subtreesOf trees, t.root = c ∧
        (∀ depth, Markup.read (Emitter.renderTree
          { forest := Forest.ofComponents components, options } [c.id] depth).1 =
            some (t.markup options)) ∧
        (t.markup options).outline = t.outline ∧
        t.outline.ids = ((places [] t).filter Place.isShown).map (fun p => some p.component.id) ∧
        t.outline.ids.Nodup := by
  obtain ⟨trees, hspells, hroots⟩ := exists_trees_of_no_violations h
  refine ⟨trees, hspells, hroots, fun c hc => ?_⟩
  have hroot : c ∈ (subtreesOf trees).map root := by
    rw [roots_subtreesOf]
    exact hspells.listed.mem_iff.mp hc
  obtain ⟨t, ht, rfl⟩ := List.mem_map.mp hroot
  obtain ⟨_, hsub⟩ := linked_subtree hspells.linked ht
  have referring : ∀ c ∈ componentsOf [t], c.Referring :=
    fun c hc => hhandlers c (hspells.listed.mem_iff.mpr (hsub.subset hc))
  have shown : t.outline.ids =
      ((places [] t).filter Place.isShown).map (fun p => some p.component.id) := by
    simpa [outlinesOf, Outline.idsOf, placesOf] using outline_ids [] [t] (by simp)
  refine ⟨t, ht, rfl, ?_, ?_, shown, ?_⟩
  · intro depth
    have reads := reads_siblings hids [t] referring depth
    simp only [viewsOf, View.elements, Element.childLines, List.append_nil, markupsOf] at reads
    have views := hspells.view_subtree ht OrderedMap.empty
    rw [ComponentTree.id] at views
    have text : (Emitter.renderTree { forest := Forest.ofComponents components, options } [t.root.id]
        depth).1 = Text.unlines ((View.element options (t.view OrderedMap.empty)).lines depth) := by
      simp [Emitter.renderTree, views, Body.render, Body.lines, View.elements]
    rw [text]
    exact Markup.read_unlines reads
  · simpa [outlinesOf, markupsOf, Markup.outlinesOf] using outlines_markups hids [t]
  · rw [shown]
    exact shown_nodup t ((hsub.map _).nodup hspells.distinct)

theorem Sample.markup_reads_back_box :
    componentViolations components = [] ∧ (∀ c ∈ components, c.Referring) ∧
      ∃ t : ComponentTree, t.root = box ∧
        (∀ depth, Markup.read (Emitter.renderTree
          { forest := Forest.ofComponents components, options := {} } [box.id] depth).1 =
            some (t.markup {})) ∧
        (t.markup {}).outline = t.outline ∧ t.outline.ids.Nodup := by
  have quiet : ∀ c ∈ components, c.handlers = [] := by decide
  have referring : ∀ c ∈ components, c.Referring := by
    intro c hc handler hhandler
    simp [quiet c hc] at hhandler
  obtain ⟨_, _, _, hread⟩ := markup_reads_back valid referring {} rfl
  obtain ⟨t, _, hroot, hmarkup, houtline, _, hnodup⟩ := hread box (by simp [components])
  exact ⟨valid, referring, t, hroot, hmarkup, houtline, hnodup⟩

end Pagewright

import Pagewright.Proofs.Markup.Loss
import Pagewright.Proofs.Markup.ReadBack
import Pagewright.Proofs.Markup.Template

/-!
# Printed components

A printed text shows certain components, in order, if it can be cut into their opening
tags and stretches in which no element opens. This is a grammar of texts and says
nothing of how they came about: an opening tag is the tag of the component's primitive
with all of its attributes after white space, and the other stretches are text,
closing tags, fragments and the elements of a few given names. The body of a page is
such a text for the components that its views hold, whatever their attributes are,
statements of handlers included.
-/

set_option autoImplicit false

namespace Pagewright

namespace Markup

def Spaces (cs : List Char) : Prop := ∀ c ∈ cs, c = '\n' ∨ c = ' '

inductive AttributesText : List Attribute → List Char → Prop where
  | nil : AttributesText [] []
  | cons {a : Attribute} {others : List Attribute} {gap text : List Char} (hne : gap ≠ [])
      (hgap : Spaces gap) (h : AttributesText others text) :
      AttributesText (a :: others) (gap ++ (a.render.toList ++ text))

inductive OpeningTag (tag : String) (attributes : List Attribute) : List Char → Prop where
  | mk {text gap ending : List Char} (htext : AttributesText attributes text) (hgap : Spaces gap)
      (hending : ending = ['>'] ∨ ending = ['/', '>']) :
      OpeningTag tag attributes ('<' :: (tag.toList ++ (text ++ (gap ++ ending))))

/-- A stretch of markup in which no element opens but those of the given names. -/
inductive Aside (names : List String) : List Char → Prop where
  | plain {cs : List Char} (h : '<' ∉ cs) : Aside names cs
  | quoted (s : String) : Aside names ('\x7b' :: ((Text.quoted s).toList ++ ['\x7d']))
  | closing {tag : List Char} (h : ∀ c ∈ tag, Name.isPart c = true) :
      Aside names ('<' :: '/' :: (tag ++ ['>']))
  | fragment : Aside names ['<', '>']
  | placeholder {name : String} (h : name ∈ names) :
      Aside names ('<' :: (name.toList ++ [' ', '/', '>']))

/-- The text shows the components in order, beside elements of the given names. -/
inductive Prints (options : Options) (names : List String) : List Component → List Char → Prop where
  | nil : Prints options names [] []
  | aside {cs rest : List Char} {components : List Component} (h : Aside names cs)
      (hrest : Prints options names components rest) :
      Prints options names components (cs ++ rest)
  | opening {c : Component} {cs rest : List Char} {components : List Component}
      (h : OpeningTag (Primitive.ofKind c.kind).tag (c.attributes options) cs)
      (hrest : Prints options names components rest) :
      Prints options names (c :: components) (cs ++ rest)

section

variable {options : Options} {names : List String}

theorem Prints.append {cs ds : List Component} {a b : List Char} (ha : Prints options names cs a)
    (hb : Prints options names ds b) : Prints options names (cs ++ ds) (a ++ b) := by
  induction ha with
  | nil => exact hb
  | aside h _ ih =>
    rw [List.append_assoc]
    exact .aside h ih
  | opening h _ ih =>
    rw [List.append_assoc]
    exact .opening h ih

theorem Aside.prints {cs : List Char} (h : Aside names cs) : Prints options names [] cs := by
  simpa using Prints.aside h .nil

theorem Spaces.aside {cs : List Char} (h : Spaces cs) : Aside names cs := by
  apply Aside.plain
  intro hopening
  exact absurd (h _ hopening) (by decide)

theorem lineStart_spaces (depth : Nat) : Spaces (Reader.lineStart depth) :=
  Reader.lineStart_spaces depth

theorem Aside.closeTag {tag : String} (h : Name.isWellFormed tag = true) :
    Aside names (Element.closeTag tag).toList := by
  have text : (Element.closeTag tag).toList = '<' :: '/' :: (tag.toList ++ ['>']) := by
    simp [Element.closeTag]
  rw [text]
  exact .closing fun _ hc => Name.isPart_of_mem h hc

theorem Aside.contentCode {value : Json} (h : Component.isContent value = true) :
    Aside names (Element.contentCode value).toList := by
  have number : ∀ s : String, Plain s.toList → Aside names s.toList :=
    fun s hs => .plain fun hopening => absurd (hs _ hopening) (by decide)
  cases value with
  | null => cases h
  | bool b => cases h
  | list items => cases h
  | object fields => cases h
  | whole n => exact number _ (Plain.wholeText n)
  | real x => exact number _ (Plain.realText x)
  | text s =>
    rw [Element.contentCode]
    split
    · have text : (Attribute.braced (Text.quoted s)).toList =
          '\x7b' :: ((Text.quoted s).toList ++ ['\x7d']) := by
        simp [Attribute.braced]
      rw [text]
      exact .quoted s
    · rename_i hplain
      apply Aside.plain
      intro hopening
      rw [Bool.or_eq_true, not_or, List.any_eq_true] at hplain
      exact hplain.1 ⟨_, hopening, by decide⟩

/-! ## Opening tags -/

theorem attributesText_stacked (depth : Nat) (attributes : List Attribute) :
    AttributesText attributes
      (Text.stacked (attributes.map fun a => Text.indent depth ++ a.render)) := by
  induction attributes with
  | nil => exact .nil
  | cons a others ih =>
    have line := AttributesText.cons (a := a) (List.cons_ne_nil _ _) (lineStart_spaces depth) ih
    simpa [Reader.lineStart] using line

/-- The lines of an opening tag: the tag, its attributes, and one of two endings. -/
theorem stacked_openLines (depth : Nat) (tag : String) (attributes : List Attribute)
    (shortEnding ending : String) : ∃ text, AttributesText attributes text ∧
      Text.stacked (Element.openLines depth tag attributes shortEnding ending) =
        Reader.lineStart depth ++ '<' :: (tag.toList ++ (text ++
          if (Element.inlineAttribute? attributes).isSome then shortEnding.toList
          else Reader.lineStart depth ++ ending.toList)) := by
  unfold Element.openLines
  cases hinline : Element.inlineAttribute? attributes with
  | none =>
    refine ⟨_, attributesText_stacked (depth + 1) attributes, ?_⟩
    simp [Reader.lineStart]
  | some inline =>
    cases inline with
    | none =>
      obtain rfl : attributes = [] := by
        unfold Element.inlineAttribute? at hinline
        split at hinline <;> simp_all
      exact ⟨[], .nil, by simp [Reader.lineStart]⟩
    | some text =>
      obtain ⟨only, rfl, rfl⟩ : ∃ only, attributes = [only] ∧ text = only.render := by
        unfold Element.inlineAttribute? at hinline
        split at hinline <;> simp_all
      have space : Spaces [' '] := by simp [Spaces]
      exact ⟨_, .cons (List.cons_ne_nil _ _) space .nil, by simp [Reader.lineStart]⟩

section Elements

variable (options : Options) (names : List String) (c : Component) (depth : Nat)
variable {components : List Component}

theorem prints_tag {text gap ending rest : List Char}
    (htext : AttributesText (c.attributes options) text) (hgap : Spaces gap)
    (hending : ending = ['>'] ∨ ending = ['/', '>'])
    (hrest : Prints options names components rest) :
    Prints options names (c :: components) (Reader.lineStart depth ++
      '<' :: ((Primitive.ofKind c.kind).tag.toList ++ (text ++ (gap ++ (ending ++ rest))))) := by
  have opened := Prints.opening (OpeningTag.mk htext hgap hending) hrest
  refine .aside (lineStart_spaces depth).aside ?_
  simpa using opened

theorem prints_opened :
    Prints options names [c] (Text.stacked (Element.openLines depth (Primitive.ofKind c.kind).tag
      (c.attributes options) ">" ">")) := by
  obtain ⟨text, htext, lines⟩ := stacked_openLines depth (Primitive.ofKind c.kind).tag
    (c.attributes options) ">" ">"
  have nothing : Spaces [] := List.forall_mem_nil _
  rw [lines]
  split
  · exact prints_tag options names c depth htext nothing (.inl rfl) .nil
  · exact prints_tag options names c depth htext (lineStart_spaces depth) (.inl rfl) .nil

theorem prints_leaf :
    Prints options names [c] (Text.stacked (Element.lines depth
      (.leaf (Primitive.ofKind c.kind).tag (c.attributes options)))) := by
  obtain ⟨text, htext, lines⟩ := stacked_openLines depth (Primitive.ofKind c.kind).tag
    (c.attributes options) " />" "/>"
  have space : Spaces [' '] := by simp [Spaces]
  rw [Element.lines, lines]
  split
  · exact prints_tag options names c depth htext space (.inr rfl) .nil
  · exact prints_tag options names c depth htext (lineStart_spaces depth) (.inr rfl) .nil

theorem prints_contentLine {value : Json} (h : Component.isContent value = true) :
    Prints options names [] (Text.stacked [Text.indent depth ++ Element.contentCode value]) := by
  have line : Prints options names []
      (Reader.lineStart depth ++ (Element.contentCode value).toList) :=
    .aside (lineStart_spaces depth).aside (Aside.contentCode h).prints
  simpa [Reader.lineStart] using line

theorem prints_closeLine :
    Prints options names [] (Text.stacked
      [Text.indent depth ++ Element.closeTag (Primitive.ofKind c.kind).tag]) := by
  have line : Prints options names []
      (Reader.lineStart depth ++ (Element.closeTag (Primitive.ofKind c.kind).tag).toList) :=
    .aside (lineStart_spaces depth).aside
      (Aside.closeTag (Primitive.tag_wellFormed c.kind)).prints
  simpa [Reader.lineStart] using line

theorem prints_textual {content : Json} (hcontent : Component.isContent content = true) :
    Prints options names [c] (Text.stacked (Element.lines depth
      (.textual (Primitive.ofKind c.kind).tag (c.attributes options) content))) := by
  rw [Element.lines]
  split
  · rename_i hinline
    obtain ⟨text, htext, lines⟩ := stacked_openLines depth (Primitive.ofKind c.kind).tag
      (c.attributes options)
      (">" ++ Element.contentCode content ++ Element.closeTag (Primitive.ofKind c.kind).tag) ">"
    have nothing : Spaces [] := List.forall_mem_nil _
    have closed : Prints options names [] ((Element.contentCode content).toList ++
        (Element.closeTag (Primitive.ofKind c.kind).tag).toList) :=
      .aside (.contentCode hcontent) (Aside.closeTag (Primitive.tag_wellFormed c.kind)).prints
    have tag := prints_tag options names c depth htext nothing (.inl rfl) closed
    rw [lines, if_pos hinline]
    simpa using tag
  · have opened := prints_opened options names c depth
    have own := prints_contentLine options names (depth + 1) hcontent
    have all := opened.append (own.append (prints_closeLine options names c depth))
    simpa using all

theorem prints_nested {content : Option Json}
    (hcontent : ∀ value ∈ content, Component.isContent value = true) {children : List Element}
    (hchildren : Prints options names components
      (Text.stacked (Element.childLines (depth + 1) children))) :
    Prints options names (c :: components) (Text.stacked (Element.lines depth
      (.nested (Primitive.ofKind c.kind).tag (c.attributes options) content children))) := by
  have opened := prints_opened options names c depth
  have own : Prints options names [] (Text.stacked (content.toList.map fun value =>
      Text.indent (depth + 1) ++ Element.contentCode value)) := by
    cases content with
    | none => exact .nil
    | some value => exact prints_contentLine options names (depth + 1) (hcontent value rfl)
  have closed := prints_closeLine options names c depth
  have all := opened.append (own.append (hchildren.append closed))
  rw [Element.lines]
  simpa using all

theorem prints_placeholder {name : String} (h : name ∈ names) :
    Prints options names [] (Text.stacked (Element.lines depth (.placeholder name))) := by
  have line : Prints options names []
      (Reader.lineStart depth ++ '<' :: (name.toList ++ [' ', '/', '>'])) :=
    .aside (lineStart_spaces depth).aside (Aside.placeholder h).prints
  simpa [Element.lines, Reader.lineStart] using line

end Elements

/-- The line break before the first line makes no difference. -/
theorem Prints.unbroken {components : List Component} {cs : List Char}
    (h : Prints options names components ('\n' :: cs)) : Prints options names components cs := by
  generalize htext : '\n' :: cs = text at h
  induction h generalizing cs with
  | nil => cases htext
  | opening h _ _ =>
    obtain ⟨_, _, _⟩ := h
    cases htext
  | aside h hrest ih =>
    cases h with
    | plain h =>
      rename_i first _ _
      cases first with
      | nil => exact ih htext
      | cons c others =>
        obtain ⟨rfl, rfl⟩ := List.cons.inj htext
        exact .aside (.plain fun hopening => h (List.mem_cons_of_mem _ hopening)) hrest
    | quoted s => cases htext
    | closing h => cases htext
    | fragment => cases htext
    | placeholder h => cases htext

theorem Prints.unlines {components : List Component} {ls : List String}
    (h : Prints options names components (Text.stacked ls)) :
    Prints options names components (Text.unlines ls).toList := by
  cases ls with
  | nil => exact h
  | cons line rest =>
    rw [Text.stacked_unlines (List.cons_ne_nil _ _)] at h
    exact h.unbroken

end

end Markup

open Markup

namespace ComponentTree

section

variable (options : Options) {names : List String} {substitutions : Substitutions}

/-- The step from the children of a component to the component itself. -/
theorem prints_node (h : ∀ id name, substitutions.find? id = some name → name ∈ names)
    (c : Component) {children : List ComponentTree} {depth : Nat}
    (hchildren : Prints options names (rendered substitutions children)
      (Text.stacked (Element.childLines (depth + 1)
        (View.elements options (viewsOf substitutions children))))) :
    Prints options names (View.components (view substitutions (.node c children)))
      (Text.stacked (Element.lines depth
        (View.element options (view substitutions (.node c children))))) := by
  rw [view]
  cases hname : substitutions.find? c.id with
  | some name => exact prints_placeholder options names depth (h c.id name hname)
  | none =>
    cases hvoid : (Primitive.ofKind c.kind).void with
    | true =>
      simpa [View.element, View.elementOf, View.components, View.componentsOf, hvoid] using
        prints_leaf options names c depth
    | false =>
      simp only [View.element, View.elementOf, hvoid, Bool.false_eq_true, if_false]
      cases children with
      | nil =>
        cases hcontent : c.content? with
        | none =>
          simpa [hcontent, viewsOf, View.components, View.componentsOf] using
            prints_leaf options names c depth
        | some entry =>
          simpa [hcontent, viewsOf, View.components, View.componentsOf] using
            prints_textual options names c depth (Component.content?_isContent hcontent)
      | cons t others =>
        have hcontent : ∀ value ∈ c.content?.map Prod.snd, Component.isContent value = true := by
          intro value hvalue
          obtain ⟨entry, hentry, rfl⟩ := Option.map_eq_some_iff.mp hvalue
          exact Component.content?_isContent hentry
        exact prints_nested options names c depth hcontent hchildren

/-- The lines of siblings show what is rendered of them, if the placeholders have given names. -/
theorem prints_siblings (h : ∀ id name, substitutions.find? id = some name → name ∈ names)
    (trees : List ComponentTree) (depth : Nat) :
    Prints options names (rendered substitutions trees) (Text.stacked (Element.childLines depth
      (View.elements options (viewsOf substitutions trees)))) := by
  induction trees using siblings_induction generalizing depth with
  | nil => exact .nil
  | cons c children rest ihc ihr =>
    have both := (prints_node options h c (ihc (depth + 1))).append (ihr depth)
    simpa [rendered, viewsOf, View.elements, Element.childLines, View.componentsOf] using both

end

end ComponentTree

/-- A body of trees shows what is rendered of them, in a fragment or on its own. -/
theorem Body.prints_of_views {body : Body} {names : List String} {substitutions : Substitutions}
    {trees : List ComponentTree} (hviews : body.views = ComponentTree.viewsOf substitutions trees)
    (hnames : ∀ id name, substitutions.find? id = some name → name ∈ names)
    (options : Options) (depth : Nat) :
    Prints options names body.components (body.render options depth).toList := by
  have lines : ∀ depth, Prints options names body.components
      (Text.stacked (body.lines options depth)) := by
    intro depth
    rw [components, Body.lines, ← Element.childLines_eq_flatMap, hviews]
    exact ComponentTree.prints_siblings options hnames trees depth
  unfold render
  split
  · have indented : Aside names (Text.indent depth).toList :=
      Spaces.aside fun c hc => lineStart_spaces depth c (List.mem_cons_of_mem _ hc)
    have opened : Prints options names [] (Text.indent depth ++ "<>\n").toList := by
      have all : Prints options names [] ((Text.indent depth).toList ++ (['<', '>'] ++ ['\n'])) :=
        .aside indented (.aside .fragment (Aside.plain (by decide)).prints)
      simpa using all
    have closed : Prints options names [] ("\n" ++ Text.indent depth ++ "</>").toList := by
      have nameless : ∀ c ∈ ([] : List Char), Name.isPart c = true := List.forall_mem_nil _
      have all : Prints options names [] (Reader.lineStart depth ++ '<' :: '/' :: ([] ++ ['>'])) :=
        .aside (lineStart_spaces depth).aside (Aside.closing nameless).prints
      simpa [Reader.lineStart] using all
    have all := opened.append ((lines (depth + 1)).unlines.append closed)
    simpa using all
  · exact (lines depth).unlines

end Pagewright

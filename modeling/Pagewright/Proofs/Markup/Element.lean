import Pagewright.Markup.Element
import Pagewright.Proofs.Markup.Reading

/-!
# Printed elements read back

The lines of an element, put into the content of any other, are read as that element:
its tag, its attributes, its text and what its own children are read as. An element
is printed in one of three forms, each with its opening tag on one line or on
several, and each form has one lemma.
-/

set_option autoImplicit false

namespace Pagewright

def Text.stacked (ls : List String) : List Char := ls.flatMap fun line => '\n' :: line.toList

namespace Text

@[simp] theorem stacked_nil : stacked [] = [] := rfl

@[simp] theorem stacked_cons (line : String) (ls : List String) :
    stacked (line :: ls) = '\n' :: (line.toList ++ stacked ls) := rfl

@[simp] theorem stacked_append (a b : List String) : stacked (a ++ b) = stacked a ++ stacked b :=
  List.flatMap_append

theorem stacked_unlines {ls : List String} (h : ls ≠ []) :
    stacked ls = '\n' :: (unlines ls).toList := by
  induction ls with
  | nil => exact absurd rfl h
  | cons line rest ih =>
    cases rest with
    | nil => simp [unlines, join]
    | cons next more =>
      rw [stacked_cons, ih (by simp)]
      simp [unlines, join]

end Text

def Json.contentText : Json → String
  | .text s => s
  | other => other.compact

namespace Markup

theorem isTextChar_of_plain {c : Char} (h : isPlainChar c = true) :
    Reader.isTextChar c = true := by
  have other : ∀ d ∈ "<>\x7b\x7d".toList, c ≠ d := ne_of_excluded h (by decide)
  simp only [String.reduceToList, List.forall_mem_cons] at other
  simp [Reader.isTextChar, other]

def Frame.addChildren (f : Frame) (ms : List Markup) : Frame :=
  { f with children := f.children ++ ms }

def Reads (cs : List Char) (ms : List Markup) : Prop :=
  ∀ (r : Reader) (frame : Frame) (outer : List Frame), r.Settles frame outer →
    ∃ next, r.run cs = some next ∧ next.Settles (frame.addChildren ms) outer

theorem Reads.nil : Reads [] [] := by
  intro r frame outer h
  exact ⟨r, rfl, by simpa [Frame.addChildren] using h⟩

theorem Reads.append {a b : List Char} {ms ns : List Markup} (ha : Reads a ms) (hb : Reads b ns) :
    Reads (a ++ b) (ms ++ ns) := by
  intro r frame outer h
  obtain ⟨mid, hrun, hmid⟩ := ha r frame outer h
  obtain ⟨next, hnext, hsettles⟩ := hb mid _ outer hmid
  refine ⟨next, ?_, by simpa [Frame.addChildren] using hsettles⟩
  rw [Reader.run_append, hrun]
  exact hnext

namespace Reader

variable {frame : Frame} {outer : List Frame}

def written (attributes : List Attribute) : List (String × MarkupValue) :=
  attributes.map fun a => (a.name, a.written)

theorem stacked_break (ls : List String) (rest : List Char) :
    ∃ tail, Text.stacked ls ++ '\n' :: rest = '\n' :: tail := by
  cases ls <;> simp

/-- Attributes on lines of their own, up to the next line break. -/
theorem run_attributes (depth : Nat) {attributes : List Attribute}
    (h : ∀ a ∈ attributes, a.Readable) (tag : OpenTag) (rest : List Char) :
    run ⟨frame, outer, .inside tag⟩
        (Text.stacked (attributes.map fun a => Text.indent depth ++ a.render) ++ '\n' :: rest) =
      run ⟨frame, outer, .inside ⟨tag.tag, tag.attributes ++ written attributes⟩⟩
        ('\n' :: rest) := by
  induction attributes generalizing tag with
  | nil => simp [written]
  | cons a others ih =>
    obtain ⟨tail, htail⟩ :=
      stacked_break (others.map fun a => Text.indent depth ++ a.render) rest
    have beside := ih (fun b hb => h b (by simp [hb])) (tag.add a.name a.written)
    rw [htail] at beside
    have text : Text.stacked ((a :: others).map fun a => Text.indent depth ++ a.render) ++
        '\n' :: rest = lineStart depth ++ (a.render.toList ++ '\n' :: tail) := by
      simp [lineStart, htail]
    rw [text, run_spaces tag (lineStart_spaces depth), run_attribute tag (h a (by simp)) (by simp),
      beside]
    simp [OpenTag.add, written]

/-- An opening tag up to its ending. -/
theorem Settles.run_openLines {r : Reader} (h : r.Settles frame outer) (depth : Nat) {tag : String}
    (htag : Name.isWellFormed tag = true) {attributes : List Attribute} (hne : attributes ≠ [])
    (hread : ∀ a ∈ attributes, a.Readable) (shortEnding ending : String) {c : Char}
    {cs : List Char} (hshort : shortEnding.toList = c :: cs) (hc : c = ' ' ∨ c = '>')
    (rest : List Char) :
    r.run (Text.stacked (Element.openLines depth tag attributes shortEnding ending) ++ rest) =
      run ⟨frame, outer, .inside ⟨tag, written attributes⟩⟩
        ((if (Element.inlineAttribute? attributes).isSome then shortEnding.toList
          else lineStart depth ++ ending.toList) ++ rest) := by
  unfold Element.openLines
  cases hinline : Element.inlineAttribute? attributes with
  | none =>
    obtain ⟨tail, htail⟩ := stacked_break
      (attributes.map fun a => Text.indent (depth + 1) ++ a.render)
      ((Text.indent depth).toList ++ (ending.toList ++ rest))
    have text : Text.stacked ((Text.indent depth ++ "<" ++ tag) ::
          attributes.map (fun a => Text.indent (depth + 1) ++ a.render) ++
          [Text.indent depth ++ ending]) ++ rest =
        lineStart depth ++ '<' :: (tag.toList ++ '\n' :: tail) := by
      simp [lineStart, ← htail]
    rw [text, h.run_line depth, run_tag htag (.inr rfl), ← htail, run_attributes _ hread]
    simp [lineStart]
  | some inline =>
    obtain ⟨only, rfl, rfl⟩ : ∃ only, attributes = [only] ∧ inline = some only.render := by
      unfold Element.inlineAttribute? at hinline
      split at hinline <;> simp_all
    have text : Text.stacked [Text.indent depth ++ "<" ++ tag ++ " " ++ only.render ++
        shortEnding] ++ rest =
        lineStart depth ++ '<' :: (tag.toList ++ ' ' :: (only.render.toList ++
          c :: (cs ++ rest))) := by
      simp [lineStart, hshort]
    have hend : c = ' ' ∨ c = '\n' ∨ c = '>' := hc.imp_right .inr
    rw [text, h.run_line depth, run_tag htag (.inl rfl), run_space _ (.inr rfl),
      run_attribute _ (hread only (by simp)) hend]
    simp [OpenTag.add, written, hshort]

/-- An opening tag whose content follows. -/
theorem Settles.run_opened {r : Reader} (h : r.Settles frame outer) (depth : Nat) {tag : String}
    (htag : Name.isWellFormed tag = true) {attributes : List Attribute} (hne : attributes ≠ [])
    (hread : ∀ a ∈ attributes, a.Readable) (rest : List Char) :
    r.run (Text.stacked (Element.openLines depth tag attributes ">" ">") ++ rest) =
      run ⟨⟨tag, written attributes, "", []⟩, frame :: outer, .content []⟩ rest := by
  rw [h.run_openLines depth htag hne hread ">" ">" rfl (.inr rfl)]
  split
  · exact run_tagEnd _ _
  · rw [List.append_assoc, run_spaces _ (lineStart_spaces depth)]
    exact run_tagEnd _ _

theorem Settles.run_closed {r : Reader} {parent : Frame} (h : r.Settles frame (parent :: outer))
    {tag : String} (htag : Name.isWellFormed tag = true) (hframe : frame.tag = tag) :
    r.run (Element.closeTag tag).toList =
      some ⟨parent.addChild frame.close, outer, .content []⟩ := by
  have text : (Element.closeTag tag).toList = '<' :: '/' :: (tag.toList ++ ['>']) := by
    simp [Element.closeTag]
  rw [text, h.run_opening, run_closeTag htag hframe]
  rfl

/-- A text that markup reads as it stands. -/
theorem run_ownText (frame : Frame) (outer : List Frame) {blank : List Char}
    (hb : ∀ c ∈ blank, Text.isBlankChar c = true) {s : String}
    (hs : ∀ c ∈ s.toList, isTextChar c = true) (htrim : Text.trim s = s) :
    ∃ next, run ⟨frame, outer, .content blank⟩ s.toList = some next ∧
      next.Settles (frame.addText s) outer := by
  refine ⟨⟨frame, outer, .content (blank ++ s.toList)⟩, ?_, blank ++ s.toList, frame, rfl, ?_⟩
  · simpa [run] using run_text blank hs []
  · have hpad := Text.trim_pad blank s.toList [] hb (by simp)
    rw [List.append_nil] at hpad
    rw [runText, Text.trim, String.toList_ofList, hpad, ← Text.trim, htrim]

theorem run_plainText (frame : Frame) (outer : List Frame) {blank : List Char}
    (hb : ∀ c ∈ blank, Text.isBlankChar c = true) {s : String} (hs : Plain s.toList) :
    ∃ next, run ⟨frame, outer, .content blank⟩ s.toList = some next ∧
      next.Settles (frame.addText s) outer := by
  apply run_ownText frame outer hb fun c hc => isTextChar_of_plain (hs c hc)
  apply Text.trim_unbroken
  intro c hc
  obtain ⟨low, high⟩ := isPlainChar_bounds (hs c hc)
  exact Text.isBlankChar_printable low (by omega)

/-- Of a quoted text in braces the text counts; the white space before it is dropped. -/
theorem run_quotedText (frame : Frame) (outer : List Frame) {blank : List Char}
    (hb : ∀ c ∈ blank, Text.isBlankChar c = true) (s : String) :
    run ⟨frame, outer, .content blank⟩ (Attribute.braced (Text.quoted s)).toList =
      some ⟨frame.addText s, outer, .content []⟩ := by
  have hblank : runText blank = "" := by
    have hdropped := runText_blank [] hb
    simpa [runText, Text.trim, Text.trimStart, Text.trimEnd] using hdropped
  have hopen : step ⟨frame, outer, .content blank⟩ '\x7b' =
      some ⟨frame, outer, .expression .child ⟨[], .outside⟩ []⟩ := by
    simp [step, hblank, Frame.addText]
  have code : (Attribute.braced (Text.quoted s)).toList =
      '\x7b' :: ((Text.quoted s).toList ++ '\x7d' :: []) := by
    simp [Attribute.braced]
  rw [code, run_step hopen, run_expression _ (Balanced.quoted s)]
  simp [fill, quotedText?_quoted, run]

theorem isTextChar_of_not_isMarkupChar {c : Char} (h : Element.isMarkupChar c = false) :
    isTextChar c = true := by
  simp only [Element.isMarkupChar, String.reduceToList, List.contains_cons, List.contains_nil,
    Bool.or_false, Bool.or_eq_false_iff, beq_eq_false_iff_ne] at h
  simp [isTextChar, h]

/-- Content is read as the text it stands for, whatever white space came before it. -/
theorem run_contentCode (frame : Frame) (outer : List Frame) {value : Json}
    (h : Component.isContent value = true) {blank : List Char}
    (hb : ∀ c ∈ blank, Text.isBlankChar c = true) :
    ∃ next, run ⟨frame, outer, .content blank⟩ (Element.contentCode value).toList = some next ∧
      next.Settles (frame.addText value.contentText) outer := by
  cases value with
  | null => cases h
  | bool b => cases h
  | list items => cases h
  | object fields => cases h
  | whole n => exact run_plainText frame outer hb (Plain.wholeText n)
  | real x => exact run_plainText frame outer hb (Plain.realText x)
  | text s =>
    simp only [Element.contentCode, Json.contentText]
    split
    · exact ⟨_, run_quotedText frame outer hb s, settles_content _ _⟩
    · rename_i hplain
      simp only [Bool.or_eq_true, List.any_eq_true, decide_eq_true_eq, not_or, not_exists,
        not_and, not_not] at hplain
      apply run_ownText frame outer hb _ hplain.2
      intro c hc
      exact isTextChar_of_not_isMarkupChar (eq_false_of_ne_true (hplain.1 c hc))

theorem run_contentLine (frame : Frame) (outer : List Frame) {value : Json}
    (h : Component.isContent value = true) (depth : Nat) :
    ∃ next, run ⟨frame, outer, .content []⟩
        (lineStart depth ++ (Element.contentCode value).toList) = some next ∧
      next.Settles (frame.addText value.contentText) outer := by
  have htext : ∀ c ∈ lineStart depth, isTextChar c = true :=
    fun c hc => isTextChar_of_blank (lineStart_blank depth c hc)
  rw [run_text [] htext, List.nil_append]
  exact run_contentCode frame outer h (lineStart_blank depth)

theorem Settles.run_closeLine {r : Reader} {parent : Frame}
    (h : r.Settles frame (parent :: outer)) (depth : Nat) {tag : String}
    (htag : Name.isWellFormed tag = true) (hframe : frame.tag = tag) :
    r.run (lineStart depth ++ (Element.closeTag tag).toList) =
      some ⟨parent.addChild frame.close, outer, .content []⟩ := by
  obtain ⟨next, hrun, hnext⟩ := h.blank (lineStart_blank depth)
  rw [run_append, hrun]
  exact hnext.run_closed htag hframe

end Reader

section Elements

variable {tag : String} {attributes : List Attribute}

theorem reads_leaf (htag : Name.isWellFormed tag = true) (hne : attributes ≠ [])
    (hread : ∀ a ∈ attributes, a.Readable) (depth : Nat) :
    Reads (Text.stacked (Element.lines depth (.leaf tag attributes)))
      [.element tag (Reader.written attributes) "" []] := by
  intro r frame outer h
  refine ⟨⟨frame.addChild (.element tag (Reader.written attributes) "" []), outer, .content []⟩,
    ?_, Reader.settles_content _ _⟩
  have hrun := h.run_openLines depth htag hne hread " />" "/>" rfl (.inl rfl) []
  rw [List.append_nil] at hrun
  rw [Element.lines, hrun]
  split
  · exact (Reader.run_space _ (.inr rfl) _).trans (Reader.run_selfClosing _ _)
  · rw [List.append_nil, Reader.run_spaces _ (Reader.lineStart_spaces depth)]
    exact Reader.run_selfClosing _ _

theorem reads_textual (htag : Name.isWellFormed tag = true) (hne : attributes ≠ [])
    (hread : ∀ a ∈ attributes, a.Readable) {content : Json}
    (hcontent : Component.isContent content = true) (depth : Nat) :
    Reads (Text.stacked (Element.lines depth (.textual tag attributes content)))
      [.element tag (Reader.written attributes) content.contentText []] := by
  intro r frame outer h
  refine ⟨⟨frame.addChild (.element tag (Reader.written attributes) content.contentText []), outer,
    .content []⟩, ?_, Reader.settles_content _ _⟩
  rw [Element.lines]
  split
  · rename_i hinline
    have text : (">" ++ Element.contentCode content ++ Element.closeTag tag).toList =
        '>' :: ((Element.contentCode content).toList ++ (Element.closeTag tag).toList) := by
      simp
    have hrun := h.run_openLines depth htag hne hread
      (">" ++ Element.contentCode content ++ Element.closeTag tag) ">" text (.inr rfl) []
    rw [List.append_nil, List.append_nil] at hrun
    have nothing : ∀ c ∈ ([] : List Char), Text.isBlankChar c = true := by simp
    obtain ⟨next, hnext, hsettles⟩ := Reader.run_contentCode
      ⟨tag, Reader.written attributes, "", []⟩ (frame :: outer) hcontent nothing
    rw [hrun, if_pos hinline, text, Reader.run_tagEnd, Reader.run_append, hnext, Option.bind_some,
      hsettles.run_closed htag rfl]
    simp [Frame.close, Frame.addText]
  · obtain ⟨next, hnext, hsettles⟩ := Reader.run_contentLine
      ⟨tag, Reader.written attributes, "", []⟩ (frame :: outer) hcontent (depth + 1)
    have text : Text.stacked [Text.indent (depth + 1) ++ Element.contentCode content,
        Text.indent depth ++ Element.closeTag tag] =
        (Reader.lineStart (depth + 1) ++ (Element.contentCode content).toList) ++
          (Reader.lineStart depth ++ (Element.closeTag tag).toList) := by
      simp [Reader.lineStart]
    rw [Text.stacked_append, h.run_opened depth htag hne hread, text, Reader.run_append, hnext,
      Option.bind_some, hsettles.run_closeLine depth htag rfl]
    simp [Frame.close, Frame.addText]

/-- An element with children is read once its children are. -/
theorem reads_nested (htag : Name.isWellFormed tag = true) (hne : attributes ≠ [])
    (hread : ∀ a ∈ attributes, a.Readable) {content : Option Json}
    (hcontent : ∀ value ∈ content, Component.isContent value = true) {children : List Element}
    {ms : List Markup} (depth : Nat)
    (hchildren : Reads (Text.stacked (Element.childLines (depth + 1) children)) ms) :
    Reads (Text.stacked (Element.lines depth (.nested tag attributes content children)))
      [.element tag (Reader.written attributes) ((content.map Json.contentText).getD "") ms] := by
  intro r frame outer h
  refine ⟨⟨frame.addChild (.element tag (Reader.written attributes)
    ((content.map Json.contentText).getD "") ms), outer, .content []⟩, ?_,
    Reader.settles_content _ _⟩
  have opened : ∃ next, Reader.run ⟨⟨tag, Reader.written attributes, "", []⟩, frame :: outer,
        .content []⟩ (Text.stacked (content.toList.map fun value =>
          Text.indent (depth + 1) ++ Element.contentCode value)) = some next ∧
      next.Settles ⟨tag, Reader.written attributes, (content.map Json.contentText).getD "", []⟩
        (frame :: outer) := by
    cases content with
    | none => exact ⟨_, rfl, Reader.settles_content _ _⟩
    | some value =>
      obtain ⟨next, hnext, hsettles⟩ := Reader.run_contentLine
        ⟨tag, Reader.written attributes, "", []⟩ (frame :: outer) (hcontent value rfl) (depth + 1)
      refine ⟨next, ?_, by simpa [Frame.addText] using hsettles⟩
      simpa [Reader.lineStart] using hnext
  obtain ⟨next, hnext, hsettles⟩ := opened
  obtain ⟨last, hlast, hdone⟩ := hchildren next _ _ hsettles
  have text : Text.stacked [Text.indent depth ++ Element.closeTag tag] =
      Reader.lineStart depth ++ (Element.closeTag tag).toList := by
    simp [Reader.lineStart]
  rw [Element.lines, Text.stacked_append, Text.stacked_append, Text.stacked_append,
    List.append_assoc, List.append_assoc, h.run_opened depth htag hne hread, Reader.run_append,
    hnext, Option.bind_some, Reader.run_append, hlast, Option.bind_some, text,
    hdone.run_closeLine depth htag rfl]
  simp [Frame.close, Frame.addChildren]

end Elements

end Markup

end Pagewright

import Pagewright.Proofs.Markup.Reader

/-!
# What the reader makes of each piece of markup

One lemma for each kind of piece: text, names, attributes, expressions and closing
tags. Each says where the reader stands after the piece whatever follows, so that
the lemmas can be put together in the order in which the pieces are written.
-/

set_option autoImplicit false

namespace Pagewright

namespace Attribute

def written (a : Attribute) : MarkupValue :=
  match a.value with
  | .flag => .flag
  | .text s =>
    if Text.contains s '"' || Text.contains s '\n' then .code (Text.quoted s) else .text s
  | .json v => .code v.compact
  | .styles m => .code (stylesCode m)
  | .reference name => .code name
  | .statement code => .code (statementCode code)

structure Readable (a : Attribute) : Prop where
  name : isName a.name = true
  value : match a.value with
    | .reference path => Plain path.toList
    | .statement _ => False
    | _ => True

theorem isName_chars {name : String} (h : isName name = true) :
    ∃ c rest, name.toList = c :: rest ∧ Name.isStart c = true ∧
      ∀ d ∈ rest, Markup.isNameChar d = true := by
  have segment : ∀ part ∈ Text.splitChars ':' name.toList, isNameSegment part = true := by
    unfold isName at h
    split at h <;> simp_all
  have chars : ∀ part, isNameSegment part = true → ∀ d ∈ part, Markup.isNameChar d = true := by
    intro part hpart d hd
    cases part with
    | nil => simp at hd
    | cons e rest =>
      simp only [isNameSegment, Bool.and_eq_true, List.all_eq_true] at hpart
      rcases List.mem_cons.mp hd with rfl | hd
      · simp [Markup.isNameChar, isNamePart, Name.isPart, hpart.1]
      · simp [Markup.isNameChar, hpart.2 d hd]
  cases hname : name.toList with
  | nil =>
    rw [hname] at segment
    exact absurd (segment [] (by simp [Text.splitChars])) (by decide)
  | cons c rest =>
    rw [hname] at segment
    refine ⟨c, rest, rfl, ?_, ?_⟩
    · by_cases hc : c = ':'
      · exact absurd (segment [] (by simp [Text.splitChars, hc])) (by decide)
      · rw [Text.splitChars, if_neg hc] at segment
        cases hsplit : Text.splitChars ':' rest <;> simp_all [isNameSegment]
    · intro d hd
      rcases Text.mem_splitChars ':' (List.mem_cons_of_mem c hd) with rfl | ⟨part, hpart, hdp⟩
      · decide
      · exact chars part (segment part hpart) d hdp

end Attribute

namespace Markup

theorem quotedText?_quoted (s : String) : quotedText? (Text.quoted s).toList = some s := by
  rw [Text.quoted, String.toList_ofList, quotedText?, Document.readText_quoted]

namespace Reader

theorem run_append (r : Reader) (xs ys : List Char) :
    r.run (xs ++ ys) = (r.run xs).bind fun next => next.run ys := by
  induction xs generalizing r with
  | nil => rfl
  | cons c rest ih =>
    rw [List.cons_append, run, run]
    cases r.step c with
    | none => rfl
    | some next => exact ih next

theorem run_step {r next : Reader} {c : Char} (h : r.step c = some next) (rest : List Char) :
    r.run (c :: rest) = next.run rest := by
  rw [run, h]

variable {frame parent : Frame} {outer : List Frame}

/-- Where a mode keeps each character of a class, the reader keeps a whole run of them. -/
theorem run_kept (mode : List Char → Mode) {keeps : Char → Bool}
    (hstep : ∀ done c, keeps c = true →
      step ⟨frame, outer, mode done⟩ c = some ⟨frame, outer, mode (done ++ [c])⟩)
    (done : List Char) {cs : List Char} (h : ∀ c ∈ cs, keeps c = true) (rest : List Char) :
    run ⟨frame, outer, mode done⟩ (cs ++ rest) = run ⟨frame, outer, mode (done ++ cs)⟩ rest := by
  induction cs generalizing done with
  | nil => simp
  | cons c cs ih =>
    rw [List.cons_append, run_step (hstep done c (h c (by simp))),
      ih _ fun d hd => h d (by simp [hd])]
    simp

/-! ## Text -/

def isTextChar (c : Char) : Bool := c != '<' && c != '>' && c != '\x7b' && c != '\x7d'

theorem isTextChar_of_blank {c : Char} (h : Text.isBlankChar c = true) : isTextChar c = true := by
  have other : ∀ d ∈ "<>\x7b\x7d".toList, c ≠ d := ne_of_excluded h (by decide)
  simp only [String.reduceToList, List.forall_mem_cons] at other
  simp [isTextChar, other]

theorem run_text (pending : List Char) {cs : List Char} (h : ∀ c ∈ cs, isTextChar c = true)
    (rest : List Char) :
    run ⟨frame, outer, .content pending⟩ (cs ++ rest) =
      run ⟨frame, outer, .content (pending ++ cs)⟩ rest := by
  refine run_kept .content (fun done c hc => ?_) pending h rest
  simp only [isTextChar, Bool.and_eq_true, bne_iff_ne, ne_eq] at hc
  simp [step, hc]

/-- The reader stands in the content of an element which, up to white space that is still to come,
is the given one. -/
def Settles (r : Reader) (frame : Frame) (outer : List Frame) : Prop :=
  ∃ pending before, r = ⟨before, outer, .content pending⟩ ∧
    before.addText (runText pending) = frame

theorem settles_content (frame : Frame) (outer : List Frame) :
    Settles ⟨frame, outer, .content []⟩ frame outer :=
  ⟨[], frame, rfl, by simp [Frame.addText, runText, Text.trim, Text.trimStart, Text.trimEnd]⟩

theorem runText_blank (pending : List Char) {blank : List Char}
    (h : ∀ c ∈ blank, Text.isBlankChar c = true) :
    runText (pending ++ blank) = runText pending := by
  have hpad := Text.trim_pad [] pending blank (by simp) h
  rw [List.nil_append] at hpad
  simp only [runText, Text.trim, String.toList_ofList, hpad]

theorem Settles.blank {r : Reader} (h : r.Settles frame outer) {blank : List Char}
    (hb : ∀ c ∈ blank, Text.isBlankChar c = true) :
    ∃ next, r.run blank = some next ∧ next.Settles frame outer := by
  obtain ⟨pending, before, rfl, rfl⟩ := h
  have htext : ∀ c ∈ blank, isTextChar c = true := fun c hc => isTextChar_of_blank (hb c hc)
  refine ⟨⟨before, outer, .content (pending ++ blank)⟩, ?_, pending ++ blank, before, rfl, ?_⟩
  · simpa [run] using run_text pending htext []
  · rw [runText_blank pending hb]

theorem Settles.run_opening {r : Reader} (h : r.Settles frame outer) (rest : List Char) :
    r.run ('<' :: rest) = run ⟨frame, outer, .opening⟩ rest := by
  obtain ⟨pending, before, rfl, rfl⟩ := h
  exact run_step (by simp [step]) rest

def lineStart (depth : Nat) : List Char := '\n' :: (Text.indent depth).toList

theorem lineStart_spaces (depth : Nat) : ∀ c ∈ lineStart depth, c = '\n' ∨ c = ' ' := by
  have spaces : ∀ c ∈ (Text.indent depth).toList, c = ' ' := by
    induction depth with
    | zero => simp [Text.indent]
    | succ depth ih => simpa [Text.indent, Text.indentUnit] using ih
  intro c hc
  rcases List.mem_cons.mp hc with rfl | hc
  · exact .inl rfl
  · exact .inr (spaces c hc)

theorem lineStart_blank (depth : Nat) : ∀ c ∈ lineStart depth, Text.isBlankChar c = true := by
  intro c hc
  rcases lineStart_spaces depth c hc with rfl | rfl <;> decide

theorem Settles.run_line {r : Reader} (h : r.Settles frame outer) (depth : Nat)
    (rest : List Char) :
    r.run (lineStart depth ++ '<' :: rest) = run ⟨frame, outer, .opening⟩ rest := by
  obtain ⟨next, hrun, hnext⟩ := h.blank (lineStart_blank depth)
  rw [run_append, hrun]
  exact hnext.run_opening rest

/-! ## Tags -/

/-- A tag up to the space after its name. -/
theorem run_tag {tag : String} (h : Name.isWellFormed tag = true) {c : Char}
    (hc : c = ' ' ∨ c = '\n') (rest : List Char) :
    run ⟨frame, outer, .opening⟩ (tag.toList ++ c :: rest) =
      run ⟨frame, outer, .inside ⟨tag, []⟩⟩ (c :: rest) := by
  obtain ⟨d, ds, htag, hstart, hparts⟩ := Name.wellFormed_chars h
  have hslash : d ≠ '/' := by
    rintro rfl
    revert hstart
    decide
  have hfirst : step ⟨frame, outer, .opening⟩ d = some ⟨frame, outer, .tagName [d]⟩ := by
    simp [step, hslash, hstart]
  have hname : String.ofList (d :: ds) = tag := by rw [← htag, String.ofList_toList]
  rw [htag, List.cons_append, run_step hfirst,
    run_kept .tagName (fun _ _ hc => by simp [step, hc]) [d] hparts]
  have hspace : Name.isPart c = false := by rcases hc with rfl | rfl <;> decide
  have hmode : stepInside ⟨frame, outer, .tagName (d :: ds)⟩ ⟨tag, []⟩ c =
      stepInside ⟨frame, outer, .inside ⟨tag, []⟩⟩ ⟨tag, []⟩ c := rfl
  simp [run, step, hspace, hname, hmode]

theorem run_closeTag {tag : String} (h : Name.isWellFormed tag = true) (hframe : frame.tag = tag)
    (rest : List Char) :
    run ⟨frame, parent :: outer, .opening⟩ ('/' :: (tag.toList ++ '>' :: rest)) =
      run ⟨parent.addChild frame.close, outer, .content []⟩ rest := by
  obtain ⟨d, ds, htag, hstart, hparts⟩ := Name.wellFormed_chars h
  have hall : ∀ c ∈ tag.toList, Name.isPart c = true := by
    rw [htag]
    intro c hc
    rcases List.mem_cons.mp hc with rfl | hc
    · simp [Name.isPart, hstart]
    · exact hparts c hc
  have hslash : step ⟨frame, parent :: outer, .opening⟩ '/' =
      some ⟨frame, parent :: outer, .closingName []⟩ := by
    simp [step]
  rw [run_step hslash, run_kept .closingName (fun _ _ hc => by simp [step, hc]) [] hall]
  apply run_step
  have hend : Name.isPart '>' = false := by decide
  simp [step, hend, close, hframe]

theorem run_space (tag : OpenTag) {c : Char} (h : c = '\n' ∨ c = ' ') (rest : List Char) :
    run ⟨frame, outer, .inside tag⟩ (c :: rest) = run ⟨frame, outer, .inside tag⟩ rest := by
  apply run_step
  rcases h with rfl | rfl <;> simp [step, stepInside, Document.isSpace]

theorem run_spaces (tag : OpenTag) {blank : List Char} (h : ∀ c ∈ blank, c = '\n' ∨ c = ' ')
    (rest : List Char) :
    run ⟨frame, outer, .inside tag⟩ (blank ++ rest) = run ⟨frame, outer, .inside tag⟩ rest := by
  induction blank with
  | nil => rfl
  | cons c cs ih =>
    rw [List.cons_append, run_space tag (h c (by simp))]
    exact ih fun d hd => h d (by simp [hd])

theorem run_tagEnd (tag : OpenTag) (rest : List Char) :
    run ⟨frame, outer, .inside tag⟩ ('>' :: rest) =
      run ⟨⟨tag.tag, tag.attributes, "", []⟩, frame :: outer, .content []⟩ rest :=
  run_step (by simp [step, stepInside, Document.isSpace]) rest

theorem run_selfClosing (tag : OpenTag) (rest : List Char) :
    run ⟨frame, outer, .inside tag⟩ ('/' :: '>' :: rest) =
      run ⟨frame.addChild (.element tag.tag tag.attributes "" []), outer, .content []⟩ rest := by
  have hslash : step ⟨frame, outer, .inside tag⟩ '/' =
      some ⟨frame, outer, .selfClosing tag⟩ := by
    simp [step, stepInside, Document.isSpace]
  rw [run_step hslash]
  exact run_step (by simp [step]) rest

/-! ## Attributes -/

theorem run_attributeName (tag : OpenTag) {name : String} (h : Attribute.isName name = true)
    (rest : List Char) :
    run ⟨frame, outer, .inside tag⟩ (name.toList ++ rest) =
      run ⟨frame, outer, .attributeName tag name.toList⟩ rest := by
  obtain ⟨c, cs, hname, hstart, hparts⟩ := Attribute.isName_chars h
  have hother : ∀ d, Name.isStart d = false → c ≠ d := by
    rintro d hd rfl
    rw [hstart] at hd
    cases hd
  have hstep : step ⟨frame, outer, .inside tag⟩ c =
      some ⟨frame, outer, .attributeName tag [c]⟩ := by
    have hspace : Document.isSpace c = false := by
      simp [Document.isSpace, hother ' ' (by decide), hother '\t' (by decide),
        hother '\n' (by decide), hother '\r' (by decide)]
    simp [step, stepInside, hspace, hother '>' (by decide), hother '/' (by decide), hstart]
  rw [hname, List.cons_append, run_step hstep,
    run_kept (.attributeName tag) (fun _ _ hd => by simp [step, hd]) [c] hparts]
  rfl

/-- A balanced expression is read to its end and no further. -/
theorem run_code (hole : Hole) {b next : Balance} {code : List Char}
    (h : b.run code = some next) (done : List Char) :
    run ⟨frame, outer, .expression hole b done⟩ code =
      some ⟨frame, outer, .expression hole next (done ++ code)⟩ := by
  induction code generalizing b done with
  | nil =>
    cases h
    simp [run]
  | cons c rest ih =>
    rw [Balance.run] at h
    cases hb : b.step c with
    | none => simp [hb] at h
    | some b' =>
      simp only [hb] at h
      have hopen : ¬ (b = ⟨[], .outside⟩ ∧ c = '\x7d') := by
        rintro ⟨rfl, rfl⟩
        cases hb
      have hstep : step ⟨frame, outer, .expression hole b done⟩ c =
          some ⟨frame, outer, .expression hole b' (done ++ [c])⟩ := by
        simp [step, hopen, hb]
      rw [run_step hstep, ih h]
      simp

theorem run_expression (hole : Hole) {code : List Char} (h : Balanced code) (rest : List Char) :
    run ⟨frame, outer, .expression hole ⟨[], .outside⟩ []⟩ (code ++ '\x7d' :: rest) =
      (fill ⟨frame, outer, .content []⟩ code hole).bind fun next => next.run rest := by
  rw [run_append, run_code hole (h []), Option.bind_some, List.nil_append, run]
  cases hole with
  | child =>
    simp only [step, fill, and_self, if_true]
    cases quotedText? code <;> rfl
  | value tag name => simp [step, fill]

theorem run_equals (tag : OpenTag) {name : String} (h : Attribute.isName name = true)
    (rest : List Char) :
    run ⟨frame, outer, .inside tag⟩ (name.toList ++ '=' :: rest) =
      run ⟨frame, outer, .attributeValue tag name⟩ rest := by
  have hequals : isNameChar '=' = false := by decide
  rw [run_attributeName tag h]
  exact run_step (by simp [step, hequals, h]) rest

theorem run_braced (tag : OpenTag) {name : String} (h : Attribute.isName name = true)
    {code : String} (hcode : Balanced code.toList) (rest : List Char) :
    run ⟨frame, outer, .inside tag⟩
        ((name ++ "=" ++ Attribute.braced code).toList ++ rest) =
      run ⟨frame, outer, .inside (tag.add name (.code code))⟩ rest := by
  have hopen : step ⟨frame, outer, .attributeValue tag name⟩ '\x7b' =
      some ⟨frame, outer, .expression (.value tag name) ⟨[], .outside⟩ []⟩ := by
    simp [step]
  have htext : (name ++ "=" ++ Attribute.braced code).toList ++ rest =
      name.toList ++ '=' :: '\x7b' :: (code.toList ++ '\x7d' :: rest) := by
    simp [Attribute.braced]
  rw [htext, run_equals tag h, run_step hopen, run_expression _ hcode]
  simp [fill]

theorem run_quoted (tag : OpenTag) {name : String} (h : Attribute.isName name = true)
    {value : String} (hvalue : '"' ∉ value.toList) (rest : List Char) :
    run ⟨frame, outer, .inside tag⟩ ((name ++ "=" ++ ("\"" ++ value ++ "\"")).toList ++ rest) =
      run ⟨frame, outer, .inside (tag.add name (.text value))⟩ rest := by
  have chars : ∀ c ∈ value.toList, (c != '"') = true := by
    intro c hc
    exact bne_iff_ne.mpr (ne_of_mem_of_not_mem hc hvalue)
  have hopen : step ⟨frame, outer, .attributeValue tag name⟩ '"' =
      some ⟨frame, outer, .quoted tag name []⟩ := by
    simp [step]
  have htext : (name ++ "=" ++ ("\"" ++ value ++ "\"")).toList ++ rest =
      name.toList ++ '=' :: '"' :: (value.toList ++ '"' :: rest) := by
    simp
  have hend : step ⟨frame, outer, .quoted tag name value.toList⟩ '"' =
      some ⟨frame, outer, .inside (tag.add name (.text value))⟩ := by
    simp [step]
  rw [htext, run_equals tag h, run_step hopen,
    run_kept (.quoted tag name) (fun _ c hc => by simp [step, bne_iff_ne.mp hc]) [] chars,
    List.nil_append]
  exact run_step hend rest

/-- An attribute is read as it was meant, up to the space or bracket after it. -/
theorem run_attribute (tag : OpenTag) {a : Attribute} (h : a.Readable) {c : Char}
    (hc : c = ' ' ∨ c = '\n' ∨ c = '>') (rest : List Char) :
    run ⟨frame, outer, .inside tag⟩ (a.render.toList ++ c :: rest) =
      run ⟨frame, outer, .inside (tag.add a.name a.written)⟩ (c :: rest) := by
  obtain ⟨name, value⟩ := a
  obtain ⟨hname, hvalue⟩ := h
  cases value with
  | flag =>
    have hend : isNameChar c = false ∧ c ≠ '=' := by rcases hc with rfl | rfl | rfl <;> decide
    simp only [Attribute.render, Attribute.written]
    rw [run_attributeName tag hname]
    have hmode : stepInside ⟨frame, outer, .attributeName tag name.toList⟩ (tag.add name .flag) c =
        stepInside ⟨frame, outer, .inside (tag.add name .flag)⟩ (tag.add name .flag) c := rfl
    simp only at hname
    simp [run, step, hend, hname, hmode]
  | text s =>
    simp only [Attribute.render, Attribute.textCode, Attribute.written]
    split
    · exact run_braced tag hname (Balanced.quoted s) _
    · rename_i hplain
      have hquote : '"' ∉ s.toList := by
        intro hs
        simp [Text.contains, hs] at hplain
      exact run_quoted tag hname hquote _
  | json v => exact run_braced tag hname (Balanced.compact v) _
  | styles m => exact run_braced tag hname (Balanced.stylesCode m) _
  | reference path => exact run_braced tag hname (Balanced.plain hvalue) _
  | statement code => exact hvalue.elim

end Reader

end Markup

end Pagewright

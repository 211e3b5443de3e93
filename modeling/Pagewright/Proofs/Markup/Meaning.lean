import Mathlib.Data.List.Basic
import Pagewright.Proofs.Markup.Element
import Pagewright.Proofs.Text.Split
import Pagewright.Script.Token

/-!
# What a written text means

Between quotes, and as text between tags, an ampersand can open a reference to a
character, by its number or by a name from a table that the language gives. Text
between tags counts line by line: lines are trimmed, blank ones are left out, and a
space stands for each line break. A quoted text in braces means itself. A value is
therefore kept in quotes exactly if no reference occurs in it, and as text exactly if
there is no line break either; both are made sure of only where braces are used.

Meanings are lists of code points, since a reference can have a number that no
character has.
-/

set_option autoImplicit false

namespace Pagewright.Markup

def codes (cs : List Char) : List Nat := cs.map Char.toNat

/-! ## References -/

def decimalCode? (digits : List Char) : Option Nat :=
  if digits ≠ [] ∧ digits.all Decimal.isDigit then some (Decimal.valueOfDigits digits) else none

def hexCode? (digits : List Char) : Option Nat :=
  if digits = [] then none
  else (digits.mapM Text.hexValue?).map fun values => values.foldl (fun n d => n * 16 + d) 0

section References

variable (entities : String → Option Char)

def reference? : List Char → Option Nat
  | '#' :: 'x' :: digits => hexCode? digits
  | '#' :: digits => decimalCode? digits
  | name => (entities (String.ofList name)).map Char.toNat

def referenceAt? (cs : List Char) : Option (Nat × List Char) :=
  match cs.dropWhile (· ≠ ';') with
  | _ :: after => (reference? entities (cs.takeWhile (· ≠ ';'))).map (·, after)
  | [] => none

variable {entities}

theorem referenceAt?_append {body : List Char} (h : ';' ∉ body) (after : List Char) :
    referenceAt? entities (body ++ ';' :: after) = (reference? entities body).map (·, after) := by
  obtain ⟨hbefore, hafter⟩ := Text.span_separator h after
  rw [referenceAt?, hbefore, hafter]

theorem eq_of_referenceAt? {cs after : List Char} {code : Nat}
    (h : referenceAt? entities cs = some (code, after)) :
    ∃ body, cs = body ++ ';' :: after ∧ ';' ∉ body ∧ reference? entities body = some code := by
  have whole := List.takeWhile_append_dropWhile (p := fun c => decide (c ≠ ';')) (l := cs)
  have stop := List.head?_dropWhile_not (fun c => decide (c ≠ ';')) cs
  rw [referenceAt?] at h
  cases hdrop : cs.dropWhile (· ≠ ';') with
  | nil =>
    rw [hdrop] at h
    cases h
  | cons c rest =>
    rw [hdrop] at h whole stop
    have hc : c = ';' := by simpa using stop
    obtain ⟨found, hfound, heq⟩ := Option.map_eq_some_iff.mp h
    obtain ⟨rfl, rfl⟩ := Prod.mk.inj heq
    refine ⟨cs.takeWhile (· ≠ ';'), hc ▸ whole.symm, ?_, hfound⟩
    intro hmem
    simpa using List.mem_takeWhile_imp hmem

variable (entities)

def Refers (cs : List Char) : Prop :=
  ∃ before body after, cs = before ++ '&' :: (body ++ ';' :: after) ∧ ';' ∉ body ∧
    (reference? entities body).isSome = true

def decode (cs : List Char) : List Nat :=
  match cs with
  | [] => []
  | c :: rest =>
    if c = '&' then
      match _h : referenceAt? entities rest with
      | some (code, after) => code :: decode after
      | none => c.toNat :: decode rest
    else c.toNat :: decode rest
termination_by cs.length
decreasing_by
  · obtain ⟨body, rfl, -, -⟩ := eq_of_referenceAt? _h
    simp
    omega
  · simp
  · simp

variable {entities}

theorem refers_cons {c : Char} {rest : List Char} :
    Refers entities (c :: rest) ↔
      (c = '&' ∧ (referenceAt? entities rest).isSome = true) ∨ Refers entities rest := by
  constructor
  · rintro ⟨before, body, after, heq, hbody, hreference⟩
    cases before with
    | nil =>
      obtain ⟨rfl, rfl⟩ := List.cons.inj heq
      left
      rw [referenceAt?_append hbody, Option.isSome_map]
      exact ⟨rfl, hreference⟩
    | cons d before =>
      obtain ⟨rfl, rfl⟩ := List.cons.inj heq
      exact .inr ⟨before, body, after, rfl, hbody, hreference⟩
  · rintro (⟨rfl, hat⟩ | ⟨before, body, after, rfl, hbody, hreference⟩)
    · obtain ⟨⟨code, after⟩, hat⟩ := Option.isSome_iff_exists.mp hat
      obtain ⟨body, rfl, hbody, hreference⟩ := eq_of_referenceAt? hat
      exact ⟨[], body, after, rfl, hbody, by rw [hreference, Option.isSome_some]⟩
    · exact ⟨c :: before, body, after, rfl, hbody, hreference⟩

theorem not_refers_nil : ¬ Refers entities [] := by
  rintro ⟨before, body, after, heq, -⟩
  simp at heq

structure Decodes (entities : String → Option Char) (cs : List Char) (meaning : List Nat) :
    Prop where
  same : ¬ Refers entities cs → meaning = codes cs
  bound : meaning.length ≤ cs.length
  shorter : Refers entities cs → meaning.length < cs.length

theorem Decodes.cons {c : Char} {rest : List Char} {meaning : List Nat}
    (h : Decodes entities rest meaning)
    (hc : ¬ (c = '&' ∧ (referenceAt? entities rest).isSome = true)) :
    Decodes entities (c :: rest) (c.toNat :: meaning) := by
  have later : Refers entities (c :: rest) ↔ Refers entities rest :=
    refers_cons.trans (or_iff_right hc)
  refine ⟨fun hnone => ?_, Nat.succ_le_succ h.bound, fun hsome => ?_⟩
  · rw [h.same (later.not.mp hnone)]
    rfl
  · exact Nat.succ_lt_succ (h.shorter (later.mp hsome))

theorem decode_decodes (entities : String → Option Char) (cs : List Char) :
    Decodes entities cs (decode entities cs) := by
  fun_induction decode entities cs with
  | case1 => exact ⟨fun _ => rfl, Nat.le_refl _, fun h => absurd h not_refers_nil⟩
  | case2 rest code after h ih =>
    have opens : Refers entities ('&' :: rest) :=
      refers_cons.mpr (.inl ⟨rfl, by rw [h, Option.isSome_some]⟩)
    obtain ⟨body, rfl, -, -⟩ := eq_of_referenceAt? h
    have later := ih.bound
    have gap : (code :: decode entities after).length <
        ('&' :: (body ++ ';' :: after)).length := by
      simp only [List.length_cons, List.length_append]
      omega
    exact ⟨fun hnone => absurd opens hnone, gap.le, fun _ => gap⟩
  | case3 rest h ih => exact ih.cons (by simp [h])
  | case4 c rest hc ih => exact ih.cons fun hopens => hc hopens.1

theorem decode_eq_codes_iff (cs : List Char) :
    decode entities cs = codes cs ↔ ¬ Refers entities cs := by
  have decodes := decode_decodes entities cs
  refine ⟨fun heq hrefers => ?_, decodes.same⟩
  have hlt := decodes.shorter hrefers
  rw [heq, codes, List.length_map] at hlt
  exact hlt.false

example : Refers entities "Tom &#38; Jerry".toList :=
  ⟨"Tom ".toList, "#38".toList, " Jerry".toList, by decide, by decide, rfl⟩

/-! ## Text between tags -/

def lineText (line : List Char) : List Char := Text.trimEnd (Text.trimStart line)

def lineTexts (cs : List Char) : List (List Char) :=
  ((cs.splitOnP Script.isLineEnd).map lineText).filter (!·.isEmpty)

variable (entities)

def textMeaning (cs : List Char) : List Nat :=
  [' '.toNat].intercalate ((lineTexts cs).map (decode entities))

variable {entities}

theorem length_lineText_le (line : List Char) : (lineText line).length ≤ line.length := by
  have hstart := (List.dropWhile_sublist Text.isBlankChar (l := line)).length_le
  have hend :=
    (List.dropWhile_sublist Text.isBlankChar (l := (Text.trimStart line).reverse)).length_le
  rw [List.length_reverse] at hend
  rw [lineText, Text.trimEnd, List.length_reverse]
  exact hend.trans hstart

theorem length_decode_lineText_le (entities : String → Option Char) (line : List Char) :
    (decode entities (lineText line)).length ≤ line.length :=
  (decode_decodes entities _).bound.trans (length_lineText_le line)

theorem lineTexts_unbroken {cs : List Char} (h : ∀ c ∈ cs, Script.isLineEnd c = false) :
    lineTexts cs = [lineText cs].filter (!·.isEmpty) := by
  rw [lineTexts, List.splitOnP_eq_singleton h, List.map_singleton]

theorem lineTexts_append {line : List Char} (h : ∀ c ∈ line, Script.isLineEnd c = false)
    {e : Char} (he : Script.isLineEnd e = true) (rest : List Char) :
    lineTexts (line ++ e :: rest) = [lineText line].filter (!·.isEmpty) ++ lineTexts rest := by
  rw [lineTexts, List.splitOnP_append_cons _ _ he, List.splitOnP_eq_singleton h, List.map_append,
    List.filter_append]
  rfl

theorem textMeaning_unbroken {cs : List Char} (h : ∀ c ∈ cs, Script.isLineEnd c = false) :
    textMeaning entities cs = decode entities (lineText cs) := by
  rw [textMeaning, lineTexts_unbroken h]
  cases hline : lineText cs with
  | nil => simp [decode]
  | cons c rest => simp

theorem textMeaning_append {line : List Char} (h : ∀ c ∈ line, Script.isLineEnd c = false)
    {e : Char} (he : Script.isLineEnd e = true) (rest : List Char) :
    textMeaning entities (line ++ e :: rest) =
      if lineText line = [] then textMeaning entities rest
      else if lineTexts rest = [] then decode entities (lineText line)
      else decode entities (lineText line) ++ ' '.toNat :: textMeaning entities rest := by
  rw [textMeaning, lineTexts_append h he]
  cases hline : lineText line with
  | nil => simp [textMeaning]
  | cons c cs =>
    cases hrest : lineTexts rest with
    | nil => simp
    | cons next others => simp [textMeaning, hrest, List.intercalate_cons_cons]

theorem unbroken_or_append (cs : List Char) :
    (∀ c ∈ cs, Script.isLineEnd c = false) ∨
      ∃ line e rest, cs = line ++ e :: rest ∧ Script.isLineEnd e = true ∧
        ∀ c ∈ line, Script.isLineEnd c = false := by
  cases hfind : cs.find? Script.isLineEnd with
  | none => exact .inl (by simpa using hfind)
  | some e =>
    obtain ⟨he, line, rest, hcs, hline⟩ := List.find?_eq_some_iff_append.mp hfind
    exact .inr ⟨line, e, rest, hcs, he, by simpa using hline⟩

theorem length_textMeaning_le (entities : String → Option Char) (cs : List Char) :
    (textMeaning entities cs).length ≤ cs.length := by
  rcases unbroken_or_append cs with hunbroken | ⟨line, e, rest, rfl, he, hline⟩
  · rw [textMeaning_unbroken hunbroken]
    exact length_decode_lineText_le entities cs
  · have hfirst := length_decode_lineText_le entities line
    have hrest := length_textMeaning_le entities rest
    rw [textMeaning_append hline he]
    split_ifs <;> simp <;> omega
termination_by cs.length

/-- A line break is lost: the lengths leave no room for anything but the space that stands for
it. -/
theorem textMeaning_ne_codes {cs : List Char} (h : ∃ c ∈ cs, Script.isLineEnd c = true) :
    textMeaning entities cs ≠ codes cs := by
  intro heq
  rcases unbroken_or_append cs with hunbroken | ⟨line, e, rest, rfl, he, hline⟩
  · obtain ⟨c, hc, hend⟩ := h
    rw [hunbroken c hc] at hend
    cases hend
  · have hfirst := length_decode_lineText_le entities line
    have hrest := length_textMeaning_le entities rest
    have hlength := congrArg List.length heq
    rw [textMeaning_append hline he] at heq hlength
    split_ifs at heq hlength <;>
      simp only [codes, List.length_map, List.length_append, List.length_cons] at hlength
    · omega
    · omega
    · rw [codes, List.map_append, List.map_cons] at heq
      obtain ⟨-, hbreak⟩ := List.append_inj heq (by rw [List.length_map]; omega)
      have hspace : e = ' ' := Char.toNat_inj.mp (List.cons.inj hbreak).1.symm
      rw [hspace] at he
      exact absurd he (by decide)

theorem textMeaning_eq_codes_iff {cs : List Char} (h : lineText cs = cs) :
    textMeaning entities cs = codes cs ↔
      ¬ Refers entities cs ∧ ∀ c ∈ cs, Script.isLineEnd c = false := by
  by_cases hbreak : ∀ c ∈ cs, Script.isLineEnd c = false
  · rw [textMeaning_unbroken hbreak, h, decode_eq_codes_iff, and_iff_left hbreak]
  · have hlost : textMeaning entities cs ≠ codes cs :=
      textMeaning_ne_codes (by simpa using hbreak)
    simp [hlost, hbreak]

/-! ## Values and content -/

def expressionMeaning (code : List Char) : Option (List Nat) :=
  if code.getLast? = some '\x7d' then
    (quotedText? code.dropLast).map fun s => codes s.toList
  else none

variable (entities)

def valueMeaning : List Char → Option (List Nat)
  | '"' :: rest =>
    if rest.getLast? = some '"' ∧ '"' ∉ rest.dropLast then some (decode entities rest.dropLast)
    else none
  | '\x7b' :: rest => expressionMeaning rest
  | _ => none

def contentMeaning (code : List Char) : Option (List Nat) :=
  if code.head? = some '\x7b' then expressionMeaning code.tail
  else if code.all Reader.isTextChar then some (textMeaning entities code)
  else none

variable {entities}

theorem toList_braced (code : String) :
    (Attribute.braced code).toList = '\x7b' :: (code.toList ++ ['\x7d']) := by
  simp [Attribute.braced]

theorem expressionMeaning_quoted (s : String) :
    expressionMeaning ((Text.quoted s).toList ++ ['\x7d']) = some (codes s.toList) := by
  rw [expressionMeaning, if_pos (by simp), List.dropLast_concat, quotedText?_quoted]
  rfl

theorem valueMeaning_braced (s : String) :
    valueMeaning entities (Attribute.braced (Text.quoted s)).toList = some (codes s.toList) := by
  simp only [toList_braced, valueMeaning, expressionMeaning_quoted]

theorem contentMeaning_braced (s : String) :
    contentMeaning entities (Attribute.braced (Text.quoted s)).toList = some (codes s.toList) := by
  rw [toList_braced, contentMeaning, if_pos (List.head?_cons ..), List.tail_cons,
    expressionMeaning_quoted]

theorem valueMeaning_quotes {s : String} (h : '"' ∉ s.toList) :
    valueMeaning entities ("\"" ++ s ++ "\"").toList = some (decode entities s.toList) := by
  have hcode : ("\"" ++ s ++ "\"").toList = '"' :: (s.toList ++ ['"']) := by simp
  rw [hcode, valueMeaning, List.dropLast_concat, if_pos ⟨by simp, h⟩]

theorem contentMeaning_plain {s : String} (h : ∀ c ∈ s.toList, Element.isMarkupChar c = false) :
    contentMeaning entities s.toList = some (textMeaning entities s.toList) := by
  have htext : ∀ c ∈ s.toList, Reader.isTextChar c = true := fun c hc =>
    Reader.isTextChar_of_not_isMarkupChar (h c hc)
  have hopen : s.toList.head? ≠ some '\x7b' := fun hhead =>
    absurd (htext _ (List.mem_of_mem_head? hhead)) (by decide)
  rw [contentMeaning, if_neg hopen, if_pos (List.all_eq_true.mpr htext)]

theorem lineText_eq_of_trim {s : String} (h : Text.trim s = s) : lineText s.toList = s.toList := by
  have chars := congrArg String.toList h
  rwa [Text.trim, String.toList_ofList] at chars

end References

end Markup

open Markup

/-- A value keeps its meaning exactly if it is written as a quoted expression or holds no reference;
a content exactly if it is written as a quoted expression or holds neither a reference nor a line
break. -/
theorem texts_keep_meaning_iff (entities : String → Option Char) (s : String) :
    (valueMeaning entities (Attribute.textCode s).toList = some (codes s.toList) ↔
      ('"' ∈ s.toList ∨ '\n' ∈ s.toList) ∨ ¬ Refers entities s.toList) ∧
    (contentMeaning entities (Element.contentCode (.text s)).toList = some (codes s.toList) ↔
      ((∃ c ∈ s.toList, Element.isMarkupChar c = true) ∨ Text.trim s ≠ s) ∨
        (¬ Refers entities s.toList ∧ ∀ c ∈ s.toList, Script.isLineEnd c = false)) := by
  constructor
  · by_cases hbraced : '"' ∈ s.toList ∨ '\n' ∈ s.toList
    · have hcode : Attribute.textCode s = Attribute.braced (Text.quoted s) :=
        if_pos (by simpa [Text.contains] using hbraced)
      rw [hcode, valueMeaning_braced]
      simp [hbraced]
    · have hcode : Attribute.textCode s = "\"" ++ s ++ "\"" :=
        if_neg (by simpa [Text.contains] using hbraced)
      rw [hcode, valueMeaning_quotes fun hquote => hbraced (.inl hquote), Option.some_inj,
        decode_eq_codes_iff, or_iff_right hbraced]
  · by_cases hbraced : (∃ c ∈ s.toList, Element.isMarkupChar c = true) ∨ Text.trim s ≠ s
    · have hcode : Element.contentCode (.text s) = Attribute.braced (Text.quoted s) :=
        if_pos (by simpa using hbraced)
      rw [hcode, contentMeaning_braced]
      simp [hbraced]
    · have hcode : Element.contentCode (.text s) = s := if_neg (by simpa using hbraced)
      obtain ⟨hplain, htrim⟩ := not_or.mp hbraced
      rw [hcode, contentMeaning_plain (by simpa using hplain), Option.some_inj,
        textMeaning_eq_codes_iff (lineText_eq_of_trim (not_not.mp htrim)), or_iff_right hbraced]

end Pagewright

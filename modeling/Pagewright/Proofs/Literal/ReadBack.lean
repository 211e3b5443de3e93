import Pagewright.Generator.Basic
import Pagewright.Proofs.Literal.Reader

/-!
# Literals read back

The tokens of a literal do not depend on how deep it is indented, only on its value:
lists of scalars have commas between their items, all else has one after each entry.
A row of such tokens puts the value into the frame that waits for it, so that a literal
is read as the value it was written for. The metadata of a page, written as a constant
or as the result of a function, is therefore the same object.
-/

set_option autoImplicit false

namespace Pagewright

/-! ## Numbers -/

namespace Json

mutual

def numbers : Json → List Json
  | .null => []
  | .bool _ => []
  | .whole n => [.whole n]
  | .real x => [.real x]
  | .text _ => []
  | .list items => numbersOfItems items
  | .object fields => numbersOfFields fields

def numbersOfItems : List Json → List Json
  | [] => []
  | item :: rest => numbers item ++ numbersOfItems rest

def numbersOfFields : List (String × Json) → List Json
  | [] => []
  | (_, value) :: rest => numbers value ++ numbersOfFields rest

end

end Json

namespace Decimal

def HasDigit (s : String) : Prop := ∃ c ∈ s.toList, c.isDigit = true

theorem hasDigit_append_left {a : String} (h : HasDigit a) (b : String) : HasDigit (a ++ b) := by
  obtain ⟨c, hc, digit⟩ := h
  exact ⟨c, by simp [hc], digit⟩

theorem hasDigit_append_right (a : String) {b : String} (h : HasDigit b) : HasDigit (a ++ b) := by
  obtain ⟨c, hc, digit⟩ := h
  exact ⟨c, by simp [hc], digit⟩

theorem hasDigit_digitText (n : Nat) : HasDigit (digitText n) := by
  obtain ⟨c, rest, hdigits⟩ := List.exists_cons_of_ne_nil (Nat.toDigits_ne_nil (n := n) (b := 10))
  have hc : c ∈ Nat.toDigits 10 n := by simp [hdigits]
  refine ⟨c, by simpa [digitText] using hc, ?_⟩
  exact Nat.isDigit_of_mem_toDigits (by decide) (by decide) hc

theorem hasDigit_positional (d : Decimal) (wholeEnding : String) :
    HasDigit (d.positional wholeEnding) := by
  have digits := hasDigit_digitText d.digits
  unfold positional
  simp only
  split
  · exact hasDigit_append_left (hasDigit_append_left digits _) _
  split
  · obtain ⟨c, hc, digit⟩ := digits
    refine ⟨c, ?_, digit⟩
    rw [← List.take_append_drop ((digitText d.digits).length - (-d.exponent).toNat)
      (digitText d.digits).toList, List.mem_append] at hc
    simp only [String.toList_append, String.toList_ofList, List.mem_append]
    tauto
  · exact hasDigit_append_right _ digits

theorem hasDigit_text (layout : Layout) (d : Decimal) : HasDigit (d.text layout) := by
  unfold text
  split
  · exact hasDigit_append_left ⟨'0', by decide, by decide⟩ _
  split
  · exact hasDigit_positional d _
  · exact hasDigit_append_right _ (hasDigit_digitText _)

end Decimal

namespace Literal

def IsNumeral (w : String) : Prop := w ∉ ["", "null", "true", "false"] ∧ Plain w.toList

theorem not_constant_of_hasDigit {w : String} (h : Decimal.HasDigit w) :
    w ∉ ["", "null", "true", "false"] := by
  obtain ⟨c, hc, digit⟩ := h
  have none : ∀ s ∈ ["", "null", "true", "false"], s.toList.any Char.isDigit = false := by decide
  intro hw
  have some : w.toList.any Char.isDigit = true := List.any_eq_true.mpr ⟨c, hc, digit⟩
  rw [none w hw] at some
  cases some

theorem isNumeral_whole (n : Int) : IsNumeral (Json.whole n).compact := by
  rw [Json.compact]
  refine ⟨not_constant_of_hasDigit ?_, Plain.wholeText n⟩
  unfold Json.wholeText
  split
  · exact Decimal.hasDigit_append_right _ (Decimal.hasDigit_digitText _)
  · exact Decimal.hasDigit_digitText _

theorem isNumeral_real (x : Binary64) : IsNumeral (Json.real x).compact := by
  rw [Json.compact]
  refine ⟨?_, Plain.realText x⟩
  cases x with
  | finite negative m e =>
    exact not_constant_of_hasDigit (Decimal.hasDigit_append_right _ (Decimal.hasDigit_text _ _))
  | infinite negative => cases negative <;> (rw [Binary64.text]; decide)
  | nan => rw [Binary64.text]; decide

theorem IsNumeral.scans {w : String} (h : IsNumeral w) : Scans w.toList [.word w] := by
  refine Scans.word ?_ h.2
  intro hnil
  exact h.1 (by simp [String.toList_eq_nil_iff.mp hnil])

theorem IsNumeral.wordValue {w : String} (h : IsNumeral w) (number : String → Option Json) :
    wordValue? number w = number w := by
  have other := h.1
  simp only [List.mem_cons, not_or] at other
  simp [wordValue?, other]

/-! ## The tokens of a literal -/

def keyToken (key : String) : Token := if Name.isWellFormed key then .word key else .text key

mutual

def tokensOf : Json → List Token
  | .null => [.word "null"]
  | .bool b => [.word (Json.bool b).compact]
  | .whole n => [.word (Json.whole n).compact]
  | .real x => [.word (Json.real x).compact]
  | .text s => [.text s]
  | .list items =>
    .mark '[' ::
      ((if items.all Json.isScalar then [.mark ','].intercalate (tokensOfItems items)
        else ((tokensOfItems items).map (· ++ [.mark ','])).flatten) ++ [.mark ']'])
  | .object fields => .mark '\x7b' :: ((tokensOfFields fields).flatten ++ [.mark '\x7d'])

def tokensOfItems : List Json → List (List Token)
  | [] => []
  | item :: rest => tokensOf item :: tokensOfItems rest

def tokensOfFields : List (String × Json) → List (List Token)
  | [] => []
  | (key, value) :: rest =>
    (keyToken key :: .mark ':' :: (tokensOf value ++ [.mark ','])) :: tokensOfFields rest

end

theorem scans_objectKey (key : String) : Scans (Name.objectKey key).toList [keyToken key] := by
  unfold Name.objectKey keyToken
  split
  · rename_i hkey
    exact Scans.word (Name.toList_ne_nil hkey) (Plain.wellFormed hkey)
  · exact (ScansClosed.quoted key).scans

/-- A line for one entry ends with a comma. -/
theorem Scans.entryLine {part : String} {ts : List Token} (h : Scans part.toList ts)
    (depth : Nat) : Scans (Text.indent depth ++ part ++ ",").toList (ts ++ [.mark ',']) := by
  have comma : ScansClosed ",".toList [.mark ','] := ScansClosed.marks (by decide)
  rw [String.toList_append, String.toList_append]
  exact (((ScansClosed.indent depth).before h).close comma (by decide)).scans

/-- The lines of a list or an object between its brackets. -/
theorem Scans.block {opening closing : String} {first last : Token}
    (hopening : ScansClosed opening.toList [first]) (hclosing : ScansClosed closing.toList [last])
    {lines : List String} {rows : List (List Token)}
    (h : List.Forall₂ (fun line ts => Scans line.toList ts) lines rows) (depth : Nat) :
    Scans (opening ++ Text.unlines lines ++ "\n" ++ Text.indent depth ++ closing).toList
      (first :: (rows.flatten ++ [last])) := by
  have feed : ScansClosed "\n".toList [] := ScansClosed.marks (by decide)
  have body := (hopening.before (Scans.unlines h)).close feed (by decide)
  have whole := (body.append (ScansClosed.indent depth)).append hclosing
  simpa [String.toList_append] using whole.scans

mutual

theorem scans_render (depth : Nat) : (v : Json) → Scans (render depth v).toList (tokensOf v)
  | .null => Scans.word (w := "null") (by decide) (by decide)
  | .bool true => Scans.word (w := "true") (by decide) (by decide)
  | .bool false => Scans.word (w := "false") (by decide) (by decide)
  | .whole n => (isNumeral_whole n).scans
  | .real x => (isNumeral_real x).scans
  | .text s => (ScansClosed.quoted s).scans
  | .list items => by
    rw [render, tokensOf]
    have opened : ScansClosed "[".toList [.mark '['] := ScansClosed.marks (by decide)
    have closed : ScansClosed "]".toList [.mark ']'] := ScansClosed.marks (by decide)
    split
    · have inner := Scans.join (ScansClosed.marks (a := ", ".toList) (by decide))
        (by decide) (scans_renderItems depth items)
      rw [String.toList_append, String.toList_append]
      exact ((opened.before inner).close closed (by decide)).scans
    · have lines : List.Forall₂ (fun line ts => Scans line.toList ts)
          ((renderItems (depth + 1) items).map fun item =>
            Text.indent (depth + 1) ++ item ++ ",")
          ((tokensOfItems items).map (· ++ [.mark ','])) := by
        rw [List.forall₂_map_left_iff, List.forall₂_map_right_iff]
        exact (scans_renderItems (depth + 1) items).imp fun _ _ h => h.entryLine (depth + 1)
      exact Scans.block (ScansClosed.marks (by decide)) closed lines depth
  | .object [] => (ScansClosed.marks (a := "\x7b\x7d".toList) (by decide)).scans
  | .object (field :: fields) =>
    Scans.block (ScansClosed.marks (by decide)) (ScansClosed.marks (by decide))
      (scans_renderFields (depth + 1) (field :: fields)) depth

theorem scans_renderItems (depth : Nat) : (items : List Json) →
    List.Forall₂ (fun part ts => Scans part.toList ts) (renderItems depth items)
      (tokensOfItems items)
  | [] => .nil
  | item :: rest => .cons (scans_render depth item) (scans_renderItems depth rest)

theorem scans_renderFields (depth : Nat) : (fields : List (String × Json)) →
    List.Forall₂ (fun line ts => Scans line.toList ts) (renderFields depth fields)
      (tokensOfFields fields)
  | [] => .nil
  | (key, value) :: rest => by
    refine .cons ?_ (scans_renderFields depth rest)
    have colon : ScansClosed ": ".toList [.mark ':'] := ScansClosed.marks (by decide)
    have named := (scans_objectKey key).close colon (by decide)
    have entry : Scans (Name.objectKey key ++ ": " ++ render depth value).toList
        ([keyToken key] ++ [.mark ':'] ++ tokensOf value) := by
      rw [String.toList_append, String.toList_append]
      exact named.before (scans_render depth value)
    simpa [String.append_assoc] using entry.entryLine depth

end

/-! ## The machine on the tokens of a literal -/

section Machine

variable {number : String → Option Json} {frames outer : List Frame} {next : Progress}

theorem run_step {t : Token} (h : step number frames t = some next) (rest : List Token) :
    run number (.within frames) (t :: rest) = run number next rest := by
  rw [run, h]

/-- A word stands for its value wherever a value may stand. -/
theorem step_word {chars : String} {v : Json} (hv : wordValue? number chars = some v)
    (h : put v frames = some next) : step number frames (.word chars) = some next := by
  simp only [step]
  split
  · cases h
  · rw [hv, Option.bind_some, h]

theorem step_text {s : String} (h : put (.text s) frames = some next) :
    step number frames (.text s) = some next := by
  simp only [step]
  split
  · cases h
  · exact h

theorem step_closeList (items : List Json) (ready : Bool) :
    step number (.list items ready :: outer) (.mark ']') = put (.list items) outer := rfl

theorem step_closeObject (fields : List (String × Json)) (ready : Bool) :
    step number (.object fields ready :: outer) (.mark '\x7d') = put (.object fields) outer := rfl

theorem step_keyToken (fields : List (String × Json)) (key : String) :
    step number (.object fields true :: outer) (keyToken key) =
      some (.within (.key fields key :: outer)) := by
  unfold keyToken
  split
  · rename_i hkey
    simp [step, hkey]
  · rfl

mutual

theorem run_tokensOf : (v : Json) → (∀ n ∈ v.numbers, number n.compact = some n) →
    ∀ {frames : List Frame} {next : Progress}, put v frames = some next → ∀ rest,
      run number (.within frames) (tokensOf v ++ rest) = run number next rest
  | .null, _, _, _, h, rest => run_step (step_word rfl h) rest
  | .bool true, _, _, _, h, rest => run_step (step_word rfl h) rest
  | .bool false, _, _, _, h, rest => run_step (step_word rfl h) rest
  | .whole n, read, _, _, h, rest => by
    refine run_step (step_word ?_ h) rest
    rw [(isNumeral_whole n).wordValue]
    exact read _ (by simp [Json.numbers])
  | .real x, read, _, _, h, rest => by
    refine run_step (step_word ?_ h) rest
    rw [(isNumeral_real x).wordValue]
    exact read _ (by simp [Json.numbers])
  | .text s, _, _, _, h, rest => run_step (step_text h) rest
  | .list items, read, frames, next, h, rest => by
    rw [Json.numbers] at read
    have close : ∀ ready, run number (.within (.list items ready :: frames)) (.mark ']' :: rest) =
        run number next rest := fun ready => run_step ((step_closeList items ready).trans h) rest
    rw [tokensOf, List.cons_append, run_step rfl, List.append_assoc]
    split
    · rw [run_commas items read []]
      exact close _
    · rw [run_lines items read []]
      exact close _
  | .object fields, read, frames, next, h, rest => by
    rw [Json.numbers] at read
    rw [tokensOf, List.cons_append, run_step rfl, List.append_assoc, run_fields fields read []]
    exact run_step ((step_closeObject fields true).trans h) rest

/-- Items with commas between them: a list is ready for more only if it is empty. -/
theorem run_commas : (items : List Json) →
    (∀ n ∈ Json.numbersOfItems items, number n.compact = some n) →
    ∀ (before : List Json) {outer : List Frame} {rest : List Token},
      run number (.within (.list before true :: outer))
          ([.mark ','].intercalate (tokensOfItems items) ++ rest) =
        run number (.within (.list (before ++ items) items.isEmpty :: outer)) rest
  | [], _, before, _, _ => by simp [tokensOfItems, List.intercalate]
  | [item], read, before, _, _ => by
    have hitem : ∀ n ∈ item.numbers, number n.compact = some n :=
      fun n hn => read n (by simp [Json.numbersOfItems, hn])
    have whole : [Token.mark ','].intercalate (tokensOfItems [item]) = tokensOf item := by
      simp [tokensOfItems, List.intercalate]
    rw [whole, run_tokensOf item hitem rfl]
    rfl
  | item :: second :: more, read, before, _, rest => by
    rw [Json.numbersOfItems, List.forall_mem_append] at read
    have whole : [Token.mark ','].intercalate (tokensOfItems (item :: second :: more)) =
        tokensOf item ++
          .mark ',' :: [Token.mark ','].intercalate (tokensOfItems (second :: more)) := by
      simp [tokensOfItems, List.intercalate]
    rw [whole, List.append_assoc, run_tokensOf item read.1 rfl, List.cons_append, run_step rfl,
      run_commas (second :: more) read.2, List.append_assoc]
    rfl

/-- Items with a comma after each. -/
theorem run_lines : (items : List Json) →
    (∀ n ∈ Json.numbersOfItems items, number n.compact = some n) →
    ∀ (before : List Json) {outer : List Frame} {rest : List Token},
      run number (.within (.list before true :: outer))
          (((tokensOfItems items).map (· ++ [.mark ','])).flatten ++ rest) =
        run number (.within (.list (before ++ items) true :: outer)) rest
  | [], _, before, _, _ => by simp [tokensOfItems]
  | item :: more, read, before, _, rest => by
    rw [Json.numbersOfItems, List.forall_mem_append] at read
    simp only [tokensOfItems, List.map_cons, List.flatten_cons, List.append_assoc,
      List.cons_append, List.nil_append]
    rw [run_tokensOf item read.1 rfl, run_step rfl, run_lines more read.2, List.append_assoc]
    rfl

theorem run_fields : (fields : List (String × Json)) →
    (∀ n ∈ Json.numbersOfFields fields, number n.compact = some n) →
    ∀ (before : List (String × Json)) {outer : List Frame} {rest : List Token},
      run number (.within (.object before true :: outer))
          ((tokensOfFields fields).flatten ++ rest) =
        run number (.within (.object (before ++ fields) true :: outer)) rest
  | [], _, before, _, _ => by simp [tokensOfFields]
  | (key, value) :: more, read, before, _, rest => by
    rw [Json.numbersOfFields, List.forall_mem_append] at read
    simp only [tokensOfFields, List.flatten_cons, List.cons_append, List.append_assoc,
      List.nil_append]
    rw [run_step (step_keyToken before key), run_step rfl, run_tokensOf value read.1 rfl,
      run_step rfl, run_fields more read.2, List.append_assoc]
    rfl

end

end Machine

/-! ## Literals and declarations -/

variable {number : String → Option Json} {v : Json}

theorem tokens_of_scans {code : String} {ts : List Token} (h : Scans code.toList ts) :
    tokens code = some ts := by
  have whole := h [] [] (by simp [EndsWord])
  simpa [tokens, Scanner.run, Scanner.finish, wordTokens] using whole

theorem valueBefore?_tokensOf (h : ∀ n ∈ v.numbers, number n.compact = some n)
    (ending : List Token) : valueBefore? number ending (tokensOf v ++ ending) = some v := by
  rw [valueBefore?, run_tokensOf v h rfl, run]
  simp

theorem read_render (depth : Nat) (h : ∀ n ∈ v.numbers, number n.compact = some n) :
    read number (render depth v) = some v := by
  have value := valueBefore?_tokensOf h []
  rw [List.append_nil] at value
  rw [read, tokens_of_scans (scans_render depth v), Option.bind_some, value]

end Literal

namespace Metadata

open Literal

def declaredValue? (opening : List Token) (lead : Token) (ending : List Token)
    (number : String → Option Json) (code : String) : Option Json :=
  (tokens code).bind fun ts =>
    if ts.take opening.length = opening then
      valueBefore? number ending ((ts.drop opening.length).dropWhile (· ≠ lead)).tail
    else none

def boundValue? (number : String → Option Json) (code : String) : Option Json :=
  declaredValue? [.word "export", .word "const", .word "metadata"] (.mark '=') [.mark ';']
    number code

def returnedValue? (number : String → Option Json) (code : String) : Option Json :=
  declaredValue?
    [.word "export", .word "async", .word "function", .word "generateMetadata", .mark '(',
      .mark ')'] (.word "return") [.mark ';', .mark '\x7d'] number code

variable {number : String → Option Json} {v : Json}

theorem declaredValue?_code {opening ending : List Token} {lead : Token} {front back : String}
    (noted : List Token) (hfront : ScansClosed front.toList (opening ++ noted ++ [lead]))
    (hlead : lead ∉ noted) (hback : ScansClosed back.toList ending)
    (hends : back.toList.head?.any (fun c => !isPlainChar c) = true) (depth : Nat)
    (h : ∀ n ∈ v.numbers, number n.compact = some n) :
    declaredValue? opening lead ending number (front ++ render depth v ++ back) = some v := by
  have scanned : Scans (front ++ render depth v ++ back).toList
      (opening ++ (noted ++ lead :: (tokensOf v ++ ending))) := by
    have whole := ((hfront.before (scans_render depth v)).close hback hends).scans
    simpa [String.toList_append] using whole
  have skip : (noted ++ lead :: (tokensOf v ++ ending)).dropWhile (· ≠ lead) =
      lead :: (tokensOf v ++ ending) := by
    rw [List.dropWhile_append_of_pos]
    · simp
    · intro t ht
      have other : t ≠ lead := fun same => hlead (same ▸ ht)
      simpa using other
  rw [declaredValue?, tokens_of_scans scanned, Option.bind_some, List.take_left, if_pos rfl,
    List.drop_left, skip, List.tail_cons, valueBefore?_tokensOf h]

theorem boundValue?_staticCode (typeScript : Bool)
    (h : ∀ n ∈ v.numbers, number n.compact = some n) :
    boundValue? number (staticCode v typeScript) = some v := by
  have back : ScansClosed ";".toList [.mark ';'] := ScansClosed.marks (by decide)
  cases typeScript with
  | false => exact declaredValue?_code [] (.of_run fun _ => rfl) (by decide) back (by decide) 0 h
  | true =>
    exact declaredValue?_code [.mark ':', .word "Metadata"] (.of_run fun _ => rfl) (by decide) back
      (by decide) 0 h

theorem returnedValue?_dynamicCode (typeScript : Bool)
    (h : ∀ n ∈ v.numbers, number n.compact = some n) :
    returnedValue? number (dynamicCode v typeScript) = some v := by
  have opening : ScansClosed "export async function generateMetadata()".toList
      [.word "export", .word "async", .word "function", .word "generateMetadata", .mark '(',
        .mark ')'] := .of_run fun _ => rfl
  have body : ScansClosed (" \x7b\n" ++ Text.indent 1 ++ "return ").toList
      [.mark '\x7b', .word "return"] := .of_run fun _ => rfl
  have back : ScansClosed ";\n\x7d".toList [.mark ';', .mark '\x7d'] :=
    ScansClosed.marks (by decide)
  unfold returnedValue? dynamicCode
  cases typeScript with
  | false =>
    refine declaredValue?_code [.mark '\x7b'] ?_ (by decide) back (by decide) 1 h
    simpa [String.toList_append] using opening.append body
  | true =>
    have type : ScansClosed ": Promise<Metadata>".toList
        [.mark ':', .word "Promise", .mark '<', .word "Metadata", .mark '>'] :=
      .of_run fun _ => rfl
    refine declaredValue?_code
      [.mark ':', .word "Promise", .mark '<', .word "Metadata", .mark '>', .mark '\x7b'] ?_
      (by decide) back (by decide) 1 h
    simpa [String.toList_append] using (opening.append type).append body

end Metadata

/-! ## Metadata -/

theorem Json.numbersOfFields_append (a b : List (String × Json)) :
    numbersOfFields (a ++ b) = numbersOfFields a ++ numbersOfFields b := by
  induction a with
  | nil => rfl
  | cons field a ih =>
    obtain ⟨key, value⟩ := field
    simp [numbersOfFields, ih]

theorem Json.numbersOfItems_texts (texts : List String) :
    numbersOfItems (texts.map .text) = [] := by
  induction texts with
  | nil => rfl
  | cons s texts ih => simpa [numbersOfItems, numbers] using ih

theorem numbers_optionalField (key : String) (value : Option String) :
    Json.numbersOfFields (optionalField key value) = [] := by
  cases value <;> rfl

/-- Metadata is made of texts alone. -/
theorem PageRequest.numbers_metadataValue (page : PageRequest) :
    page.metadataValue.numbers = [] := by
  have graph : ∀ og : OpenGraph, og.value.numbers = [] := by
    intro og
    cases h : og.image <;>
      simp [OpenGraph.value, Json.numbers, Json.numbersOfFields_append, numbers_optionalField,
        Json.numbersOfFields, Json.numbersOfItems, h]
  generalize hm : page.metadata.getD {} = m
  have descriptions : ∀ s : String, Json.numbersOfFields
      (if s.isEmpty then [] else [("description", .text s)]) = [] := by
    intro s
    split <;> rfl
  have keywords : Json.numbersOfFields
      (if m.keywords.isEmpty then [] else [("keywords", .list (m.keywords.map .text))]) = [] := by
    split <;> simp [Json.numbersOfFields, Json.numbers, Json.numbersOfItems_texts]
  have graphs : Json.numbersOfFields
      (m.openGraph.toList.map fun og => ("openGraph", og.value)) = [] := by
    cases m.openGraph <;> simp [Json.numbersOfFields, graph]
  have alternates : Json.numbersOfFields (m.canonical.toList.map fun url =>
      ("alternates", .object [("canonical", .text url)])) = [] := by
    cases m.canonical <;> rfl
  rw [metadataValue, hm]
  simp only [Metadata.value, Json.numbers, Json.numbersOfFields_append, descriptions, keywords,
    graphs, alternates, numbers_optionalField]
  rfl

/-- A literal at any depth is read as its value, with the fields of all objects in their
order, by every reader that reads the numbers in it as they are written. The constant and
the function of a page's metadata stand for one object, whatever reads the numbers. -/
theorem literals_read_back (number : String → Option Json) :
    (∀ (v : Json) (depth : Nat), (∀ n ∈ v.numbers, number n.compact = some n) →
      Literal.read number (Literal.render depth v) = some v) ∧
    ∀ (options : Options) (page : PageRequest),
      Metadata.boundValue? number (generateMetadata options page false) =
        some page.metadataValue ∧
      Metadata.returnedValue? number (generateMetadata options page true) =
        some page.metadataValue := by
  refine ⟨fun v depth h => Literal.read_render depth h, fun options page => ?_⟩
  have textual : ∀ n ∈ page.metadataValue.numbers, number n.compact = some n := by
    simp [page.numbers_metadataValue]
  exact ⟨Metadata.boundValue?_staticCode options.typeScript textual,
    Metadata.returnedValue?_dynamicCode options.typeScript textual⟩

namespace Sample

def numeral? (chars : String) : Option Json :=
  match Document.readNumeral chars.toList with
  | some (n, []) => n.value?
  | _ => none

def settings : Json :=
  .object [
    ("size", .list [.whole (-3), .real (.finite false 6755399441055744 (-52)), .null]),
    ("on click", .list [.object [], .text "\x7b \"a\",\n]"]),
    ("null", .bool true)]

theorem literals_read_back_settings :
    (∀ n ∈ settings.numbers, numeral? n.compact = some n) ∧
      Literal.read numeral? (Literal.render 2 settings) = some settings := by
  have numbers : ∀ n ∈ settings.numbers, numeral? n.compact = some n := by
    simp only [settings, Json.numbers, Json.numbersOfItems, Json.numbersOfFields]
    rintro n (_ | ⟨_, _ | ⟨_, hn⟩⟩)
    · rfl
    · rfl
    · cases hn
  exact ⟨numbers, (literals_read_back numeral?).1 settings 2 numbers⟩

-- Another layout of the same kind of value, and two texts that are no literals.
example : Literal.read numeral? "[ null,\x7ba:[7 ,], \"b c\" : \x7b\x7d\x7d ]" =
    some (.list [.null, .object [("a", .list [.whole 7]), ("b c", .object [])]]) := rfl

example : Literal.read numeral? "[1 2]" = none ∧ Literal.read numeral? "\x7ba b: 1\x7d" = none :=
  ⟨rfl, rfl⟩

end Sample

end Pagewright

import Pagewright.Markup.Attribute
import Pagewright.Proofs.Code.Name
import Pagewright.Proofs.Json.Quoted
import Pagewright.Proofs.Text.Split

/-!
# Balanced expressions

A reader that looks for the end of an expression keeps the brackets it has still to
see closed, and takes nothing between double quotes for a bracket. A text is
balanced when it leaves such a reader where it found it. Quoted texts are balanced
whatever they hold, and so is every value that is emitted as an expression: JSON,
style objects, numbers and references.
-/

set_option autoImplicit false

namespace Pagewright

/-! ## Plain characters -/

def isPlainChar (c : Char) : Bool := Name.isPart c || c == '-' || c == '+' || c == '.'

theorem isPlainChar_bounds {c : Char} (h : isPlainChar c = true) :
    0x21 ≤ c.toNat ∧ c.toNat ≤ 0x7a := by
  simp only [isPlainChar, Bool.or_eq_true, beq_iff_eq] at h
  rcases h with ((part | rfl) | rfl) | rfl
  · exact Name.isPart_bounds part
  · decide
  · decide
  · decide

def Plain (cs : List Char) : Prop := ∀ c ∈ cs, isPlainChar c = true

instance (cs : List Char) : Decidable (Plain cs) :=
  decidable_of_iff (cs.all isPlainChar = true) List.all_eq_true

namespace Plain

theorem append {a b : List Char} (ha : Plain a) (hb : Plain b) : Plain (a ++ b) := by
  intro c hc
  rcases List.mem_append.mp hc with hc | hc
  · exact ha c hc
  · exact hb c hc

theorem of_subset {a b : List Char} (hb : Plain b) (h : a ⊆ b) : Plain a :=
  fun c hc => hb c (h hc)

/-- A plain text is one word. -/
theorem unbroken {s : String} (hne : s ≠ "") (h : Plain s.toList) : Text.Unbroken s := by
  refine ⟨hne, List.all_eq_true.mpr fun c hc => ?_⟩
  have bounds := isPlainChar_bounds (h c hc)
  rw [Text.isBlankChar_printable bounds.1 (by omega), Bool.not_false]

theorem wellFormed {name : String} (h : Name.isWellFormed name = true) : Plain name.toList := by
  intro c hc
  simp [isPlainChar, Name.isPart_of_mem h hc]

theorem path {name : String} (h : Name.isPath name = true) : Plain name.toList := by
  simp only [Name.isPath, Text.split, List.all_map, List.all_eq_true] at h
  intro c hc
  rcases Text.mem_splitChars '.' hc with rfl | ⟨part, hpart, hcp⟩
  · decide
  · exact wellFormed (h part hpart) c (by simpa using hcp)

theorem digits (n : Nat) : Plain (Nat.toDigits 10 n) := by
  intro c hc
  have digit : c.isDigit = true := Nat.isDigit_of_mem_toDigits (by decide) (by decide) hc
  simp [isPlainChar, Name.isPart, digit]

theorem digitText (n : Nat) : Plain (Decimal.digitText n).toList := by
  rw [Decimal.digitText, String.toList_ofList]
  exact digits n

theorem zeros (n : Nat) : Plain (Decimal.zeros n).toList := by
  intro c hc
  rw [Decimal.zeros, String.toList_ofList] at hc
  rw [List.eq_of_mem_replicate hc]
  decide

theorem wholeText (n : Int) : Plain (Json.wholeText n).toList := by
  unfold Json.wholeText
  split
  · rw [String.toList_append]
    exact append (by decide) (digitText _)
  · exact digitText _

theorem positional (d : Decimal) {wholeEnding : String} (h : Plain wholeEnding.toList) :
    Plain (d.positional wholeEnding).toList := by
  have text := digitText d.digits
  have point : Plain ".".toList := by decide
  have start : Plain "0.".toList := by decide
  unfold Decimal.positional
  simp only
  split
  · simp only [String.toList_append]
    exact (text.append (zeros _)).append h
  split
  · simp only [String.toList_append, String.toList_ofList]
    exact ((text.of_subset (List.take_subset _ _)).append point).append
      (text.of_subset (List.drop_subset _ _))
  · simp only [String.toList_append]
    exact (start.append (zeros _)).append text

theorem scientific (d : Decimal) {exponentSign : String} (h : Plain exponentSign.toList) :
    Plain (d.scientific exponentSign).toList := by
  have hdigits := digits d.digits
  have sign : Plain (if d.leading < 0 then "-" else exponentSign).toList := by
    split
    · decide
    · exact h
  unfold Decimal.scientific
  simp only [String.toList_append]
  refine ((append ?_ (by decide)).append sign).append (digitText _)
  split
  · simp [Plain]
  · rename_i hone
    rw [String.toList_ofList, ← hone]
    exact hdigits
  · rename_i c rest _ hmore
    rw [hmore] at hdigits
    rw [String.toList_ofList]
    intro x hx
    rcases List.mem_cons.mp hx with rfl | hx
    · exact hdigits _ (by simp)
    rcases List.mem_cons.mp hx with rfl | hx
    · decide
    · exact hdigits x (by simp [hx])

theorem binary64 {layout : Layout} (hw : Plain layout.wholeEnding.toList)
    (he : Plain layout.exponentSign.toList) (x : Binary64) : Plain (x.text layout).toList := by
  have zero : Plain "0".toList := by decide
  cases x with
  | finite negative m e =>
    simp only [Binary64.text, String.toList_append]
    refine append (by cases negative <;> decide) ?_
    unfold Decimal.text
    split
    · rw [String.toList_append]
      exact zero.append hw
    split
    · exact positional _ hw
    · exact scientific _ he
  | infinite negative => cases negative <;> (rw [Binary64.text]; decide)
  | nan => rw [Binary64.text]; decide

theorem numberText (x : Binary64) : Plain (StyleValue.numberText x).toList := by
  have real : Plain (x.text StyleValue.plainLayout).toList :=
    binary64 (by decide) (by decide) x
  unfold StyleValue.numberText
  split
  · split
    · exact wholeText _
    · exact real
  · exact real

theorem realText (x : Binary64) : Plain (x.text Json.numberLayout).toList :=
  binary64 (by decide) (by decide) x

end Plain

/-! ## Balance -/

inductive Quotation where
  | outside
  | inside
  /-- Inside, after a backslash. -/
  | escaped
  deriving DecidableEq, Repr

structure Balance where
  awaited : List Char
  quotation : Quotation
  deriving DecidableEq, Repr

namespace Balance

def closer? : Char → Option Char
  | '(' => some ')'
  | '[' => some ']'
  | '\x7b' => some '\x7d'
  | _ => none

def isCloser (c : Char) : Bool := c == ')' || c == ']' || c == '\x7d'

def step (b : Balance) (c : Char) : Option Balance :=
  match b.quotation with
  | .escaped => some { b with quotation := .inside }
  | .inside =>
    if c = '\\' then some { b with quotation := .escaped }
    else if c = '"' then some { b with quotation := .outside }
    else some b
  | .outside =>
    if c = '"' then some { b with quotation := .inside }
    else
      match closer? c with
      | some close => some { b with awaited := close :: b.awaited }
      | none =>
        if isCloser c then
          match b.awaited with
          | close :: rest => if close = c then some { b with awaited := rest } else none
          | [] => none
        else some b

def run (b : Balance) : List Char → Option Balance
  | [] => some b
  | c :: rest =>
    match b.step c with
    | some next => run next rest
    | none => none

theorem run_append (b : Balance) (xs ys : List Char) :
    b.run (xs ++ ys) = (b.run xs).bind fun next => next.run ys := by
  induction xs generalizing b with
  | nil => rfl
  | cons c rest ih =>
    rw [List.cons_append, run, run]
    cases b.step c with
    | none => rfl
    | some next => exact ih next

end Balance

def Balanced (code : List Char) : Prop :=
  ∀ awaited, Balance.run ⟨awaited, .outside⟩ code = some ⟨awaited, .outside⟩

def isNeutral (c : Char) : Bool :=
  c != '"' && (Balance.closer? c).isNone && !Balance.isCloser c

theorem Balance.step_neutral {c : Char} (h : isNeutral c = true) (awaited : List Char) :
    step ⟨awaited, .outside⟩ c = some ⟨awaited, .outside⟩ := by
  simp only [isNeutral, Bool.and_eq_true, bne_iff_ne, ne_eq, Option.isNone_iff_eq_none,
    Bool.not_eq_true'] at h
  simp [step, h.1.1, h.1.2, h.2]

/-- A character of one kind is none of some characters of another. -/
theorem ne_of_excluded {kind : Char → Bool} {c : Char} (h : kind c = true) {others : List Char}
    (hothers : others.all (fun d => !kind d) = true) : ∀ d ∈ others, c ≠ d := by
  rintro d hd rfl
  have hkind := List.all_eq_true.mp hothers c hd
  simp [h] at hkind

theorem isNeutral_of_isPlainChar {c : Char} (h : isPlainChar c = true) : isNeutral c = true := by
  have other : ∀ d ∈ "\"()[]\x7b\x7d".toList, c ≠ d := ne_of_excluded h (by decide)
  simp only [String.reduceToList, List.forall_mem_cons] at other
  have opens : Balance.closer? c = none := by
    unfold Balance.closer?
    split <;> simp_all
  simp [isNeutral, opens, Balance.isCloser, other]

namespace Balanced

theorem nil : Balanced [] := fun _ => rfl

theorem append {a b : List Char} (ha : Balanced a) (hb : Balanced b) : Balanced (a ++ b) := by
  intro awaited
  rw [Balance.run_append, ha awaited]
  exact hb awaited

theorem neutral {code : List Char} (h : code.all isNeutral = true) : Balanced code := by
  induction code with
  | nil => exact nil
  | cons c rest ih =>
    intro awaited
    obtain ⟨hc, hrest⟩ := Bool.and_eq_true_iff.mp (List.all_cons.symm.trans h)
    rw [Balance.run, Balance.step_neutral hc awaited]
    exact ih hrest awaited

theorem enclosed (opening closing : Char)
    (hpair : (opening, closing) ∈ [('(', ')'), ('[', ']'), ('\x7b', '\x7d')])
    {code : List Char} (h : Balanced code) : Balanced (opening :: (code ++ [closing])) := by
  intro awaited
  have pushed : Balance.step ⟨awaited, .outside⟩ opening = some ⟨closing :: awaited, .outside⟩ := by
    simp only [List.mem_cons, Prod.mk.injEq, List.not_mem_nil, or_false] at hpair
    rcases hpair with ⟨rfl, rfl⟩ | ⟨rfl, rfl⟩ | ⟨rfl, rfl⟩ <;> rfl
  have popped : Balance.step ⟨closing :: awaited, .outside⟩ closing = some ⟨awaited, .outside⟩ := by
    simp only [List.mem_cons, Prod.mk.injEq, List.not_mem_nil, or_false] at hpair
    rcases hpair with ⟨rfl, rfl⟩ | ⟨rfl, rfl⟩ | ⟨rfl, rfl⟩ <;> simp [Balance.step, Balance.closer?,
      Balance.isCloser]
  rw [Balance.run, pushed]
  simp only [Balance.run_append, h _, Option.bind_some, Balance.run, popped]

/-- Within quotes a quoted character leaves the reader within quotes. -/
theorem quoteChar (c : Char) (awaited : List Char) :
    Balance.run ⟨awaited, .inside⟩ (Text.quoteChar c) = some ⟨awaited, .inside⟩ := by
  have hex : ∀ d : Char, (Text.hexValue? d).isSome = true → d ≠ '\\' ∧ d ≠ '"' :=
    fun d hd => ⟨Text.ne_of_hexValue? hd (by decide), Text.ne_of_hexValue? hd (by decide)⟩
  cases Text.quoteForm c with
  | plain form _ quote backslash => simp [form, Balance.run, Balance.step, quote, backslash]
  | short e form => simp [form, Balance.run, Balance.step]
  | coded high low form _ hhigh hlow =>
    simp [form, Balance.run, Balance.step, hex high hhigh, hex low hlow]

theorem quoted (s : String) : Balanced (Text.quoted s).toList := by
  intro awaited
  have within : Balance.run ⟨awaited, .inside⟩ (s.toList.flatMap Text.quoteChar) =
      some ⟨awaited, .inside⟩ := by
    induction s.toList with
    | nil => rfl
    | cons c rest ih =>
      rw [List.flatMap_cons, Balance.run_append, quoteChar c awaited]
      exact ih
  rw [Text.quoted, String.toList_ofList]
  simp only [Balance.run, Balance.step, if_true, Balance.run_append, within, Option.bind_some]
  simp

theorem plain {code : List Char} (h : Plain code) : Balanced code :=
  neutral (List.all_eq_true.mpr fun c hc => isNeutral_of_isPlainChar (h c hc))

theorem join {separator : String} (hs : Balanced separator.toList) {parts : List String}
    (h : ∀ part ∈ parts, Balanced part.toList) : Balanced (Text.join separator parts).toList := by
  induction parts with
  | nil => exact nil
  | cons part rest ih =>
    have first := h part (by simp)
    have others := ih fun p hp => h p (by simp [hp])
    cases rest with
    | nil => exact first
    | cons next more =>
      simp only [Text.join, String.toList_append] at others ⊢
      exact (first.append hs).append others

mutual

theorem compact : (v : Json) → Balanced v.compact.toList
  | .null => neutral (by decide)
  | .bool true => neutral (by decide)
  | .bool false => neutral (by decide)
  | .whole n => plain (Plain.wholeText n)
  | .real x => plain (Plain.realText x)
  | .text s => quoted s
  | .list items => by
    have inner := join (neutral (by decide) : Balanced ",".toList) (compactItems items)
    simpa [Json.compact] using inner.enclosed '[' ']' (by decide)
  | .object fields => by
    have inner := join (neutral (by decide) : Balanced ",".toList) (compactFields fields)
    simpa [Json.compact] using inner.enclosed '\x7b' '\x7d' (by decide)

theorem compactItems : (items : List Json) → ∀ part ∈ Json.compactItems items,
    Balanced part.toList
  | [] => by simp [Json.compactItems]
  | item :: rest => by
    simp only [Json.compactItems, List.mem_cons]
    rintro part (rfl | hpart)
    · exact compact item
    · exact compactItems rest part hpart

theorem compactFields : (fields : List (String × Json)) → ∀ part ∈ Json.compactFields fields,
    Balanced part.toList
  | [] => by simp [Json.compactFields]
  | (key, value) :: rest => by
    simp only [Json.compactFields, List.mem_cons]
    rintro part (rfl | hpart)
    · simp only [String.toList_append]
      exact ((quoted key).append (neutral (by decide))).append (compact value)
    · exact compactFields rest part hpart

end

theorem objectKey (key : String) : Balanced (Name.objectKey key).toList := by
  unfold Name.objectKey
  split
  · rename_i hkey
    exact plain (Plain.wellFormed hkey)
  · exact quoted key

theorem styleEntry (entry : String × StyleValue) : Balanced (Attribute.styleEntry entry).toList := by
  obtain ⟨key, value⟩ := entry
  simp only [Attribute.styleEntry, String.toList_append]
  refine ((objectKey key).append (neutral (by decide))).append ?_
  cases value with
  | number x => exact plain (Plain.numberText x)
  | text s => exact quoted s

theorem stylesCode (styles : OrderedMap StyleValue) :
    Balanced (Attribute.stylesCode styles).toList := by
  have entries : Balanced (Text.join ", " (styles.entries.map Attribute.styleEntry)).toList := by
    apply join (neutral (by decide))
    intro part hpart
    obtain ⟨entry, _, rfl⟩ := List.mem_map.mp hpart
    exact styleEntry entry
  have space : Balanced " ".toList := neutral (by decide)
  have inner := ((space.append entries).append space).enclosed '\x7b' '\x7d' (by decide)
  simpa [Attribute.stylesCode, Attribute.braced] using inner

end Balanced

end Pagewright

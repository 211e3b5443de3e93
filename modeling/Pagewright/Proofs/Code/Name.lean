import Mathlib.Data.List.TakeWhile
import Pagewright.Code.Name
import Pagewright.Proofs.Json.Quoted
import Pagewright.Proofs.Text.Blank

/-!
# Characters of names

What a well-formed name is made of, and where it ends in a text. The component name
of a page consists of letters and digits whatever the title is, and always ends in the
same word, which no other name of an emitted module does. A title of this form is a name
already, and names its page unchanged.
-/

set_option autoImplicit false

namespace Pagewright.Name

theorem isPart_bounds {c : Char} (h : isPart c = true) : 0x21 ≤ c.toNat ∧ c.toNat ≤ 0x7a := by
  simp only [isPart, isStart, Bool.or_eq_true, beq_iff_eq] at h
  rcases h with ((letter | rfl) | rfl) | digit
  · rcases Bool.or_eq_true_iff.mp letter with upper | lower
    · have bounds : 65 ≤ c.toNat ∧ c.toNat ≤ 90 := of_decide_eq_true upper
      omega
    · obtain ⟨low, high⟩ := Bool.and_eq_true_iff.mp lower
      have bounds : 97 ≤ c.toNat ∧ c.toNat ≤ 122 :=
        ⟨of_decide_eq_true low, of_decide_eq_true high⟩
      omega
  · decide
  · decide
  · have bounds : 48 ≤ c.toNat ∧ c.toNat ≤ 57 := Char.isDigit_iff_toNat.mp digit
    omega

section WellFormed

variable {name : String}

theorem wellFormed_chars (h : isWellFormed name = true) :
    ∃ c rest, name.toList = c :: rest ∧ isStart c = true ∧ ∀ d ∈ rest, isPart d = true := by
  unfold isWellFormed at h
  split at h
  · cases h
  · rename_i c rest hname
    simp only [Bool.and_eq_true, List.all_eq_true] at h
    exact ⟨c, rest, hname, h.1, h.2⟩

theorem isPart_of_mem (h : isWellFormed name = true) {c : Char} (hc : c ∈ name.toList) :
    isPart c = true := by
  obtain ⟨first, rest, hname, hfirst, hrest⟩ := wellFormed_chars h
  rw [hname] at hc
  rcases List.mem_cons.mp hc with rfl | hc
  · simp [isPart, hfirst]
  · exact hrest c hc

theorem not_mem_of_not_isPart (h : isWellFormed name = true) {c : Char} (hc : isPart c = false) :
    c ∉ name.toList := by
  intro hmem
  rw [isPart_of_mem h hmem] at hc
  cases hc

theorem toList_ne_nil (h : isWellFormed name = true) : name.toList ≠ [] := by
  obtain ⟨c, rest, hname, _, _⟩ := wellFormed_chars h
  simp [hname]

theorem unbroken_of_isWellFormed (h : isWellFormed name = true) : Text.Unbroken name := by
  constructor
  · intro hempty
    exact toList_ne_nil h (by simp [hempty])
  · rw [List.all_eq_true]
    intro c hc
    have bounds := isPart_bounds (isPart_of_mem h hc)
    rw [Text.isBlankChar_printable bounds.1 (by omega), Bool.not_false]

theorem isWellFormed_of_isIdentifier (h : isIdentifier name = true) : isWellFormed name = true :=
  (Bool.and_eq_true_iff.mp h).1

theorem isWellFormed_append (h : isWellFormed name = true) {ending : String}
    (hending : ∀ c ∈ ending.toList, isPart c = true) : isWellFormed (name ++ ending) = true := by
  obtain ⟨c, rest, hname, hstart, hrest⟩ := wellFormed_chars h
  rw [isWellFormed, String.toList_append, hname, List.cons_append]
  simp only [hstart, Bool.true_and, List.all_append, Bool.and_eq_true, List.all_eq_true]
  exact ⟨hrest, hending⟩

theorem oneLine_of_isWellFormed (h : isWellFormed name = true) : Text.OneLine name :=
  not_mem_of_not_isPart h (by decide)

theorem oneLine_objectKey (key : String) : Text.OneLine (objectKey key) := by
  unfold objectKey
  split
  · rename_i wellFormed
    exact oneLine_of_isWellFormed wellFormed
  · exact Text.oneLine_quoted key

end WellFormed

/-- A name ends where a character follows that cannot be part of one. -/
theorem takeWhile_isPart {cs : List Char} (h : ∀ c ∈ cs, isPart c = true) {stop : Char}
    (hstop : isPart stop = false) (rest : List Char) :
    (cs ++ stop :: rest).takeWhile isPart = cs := by
  rw [List.takeWhile_append_of_pos h, List.takeWhile_cons_of_neg (by simp [hstop]), List.append_nil]

/-! ## Names of titles -/

/-- Raising moves the small letters and nothing else. -/
theorem toUpper_cases (c : Char) :
    c.toUpper = c ∧ ¬ (97 ≤ c.toNat ∧ c.toNat ≤ 122) ∨
      97 ≤ c.toNat ∧ c.toNat ≤ 122 ∧ c.toUpper.toNat = c.toNat - 32 := by
  unfold Char.toUpper
  split
  · rename_i lower
    have low : 97 ≤ c.val.toNat := UInt32.le_iff_toNat_le.mp lower.1
    have high : c.val.toNat ≤ 122 := UInt32.le_iff_toNat_le.mp lower.2
    refine .inr ⟨low, high, ?_⟩
    change (c.val + ('A'.val - 'a'.val)).toNat = c.val.toNat - 32
    rw [UInt32.toNat_add]
    change (c.val.toNat + 4294967264) % 4294967296 = _
    omega
  · rename_i other
    refine .inl ⟨rfl, fun ⟨low, high⟩ => other ?_⟩
    exact ⟨UInt32.le_iff_toNat_le.mpr low, UInt32.le_iff_toNat_le.mpr high⟩

theorem isUpper_of_toNat {c : Char} (low : 65 ≤ c.toNat) (high : c.toNat ≤ 90) :
    c.isUpper = true :=
  decide_eq_true ⟨UInt32.le_iff_toNat_le.mpr low, UInt32.le_iff_toNat_le.mpr high⟩

theorem toNat_of_isUpper {c : Char} (h : c.isUpper = true) : 65 ≤ c.toNat ∧ c.toNat ≤ 90 := by
  obtain ⟨low, high⟩ := of_decide_eq_true h
  exact ⟨UInt32.le_iff_toNat_le.mp low, UInt32.le_iff_toNat_le.mp high⟩

theorem isWordPart_of_isUpper {c : Char} (h : c.isUpper = true) : isWordPart c = true := by
  have letter : c.isAlpha = true := Bool.or_eq_true_iff.mpr (.inl h)
  simp [isWordPart, letter]

theorem isWordPart_toUpper {c : Char} (h : isWordPart c = true) : isWordPart c.toUpper = true := by
  rcases toUpper_cases c with ⟨heq, _⟩ | ⟨low, high, hraised⟩
  · rwa [heq]
  · exact isWordPart_of_isUpper (isUpper_of_toNat (by omega) (by omega))

theorem isDigit_toUpper (c : Char) : c.toUpper.isDigit = c.isDigit := by
  rcases toUpper_cases c with ⟨heq, _⟩ | ⟨low, high, hraised⟩
  · rw [heq]
  · have digit : '9'.toNat = 57 := rfl
    rw [Bool.eq_iff_iff, Char.isDigit_iff_toNat, Char.isDigit_iff_toNat]
    omega

theorem toUpper_of_isUpper {c : Char} (h : c.isUpper = true) : c.toUpper = c := by
  have bounds := toNat_of_isUpper h
  rcases toUpper_cases c with ⟨heq, _⟩ | ⟨low, _, _⟩
  · exact heq
  · omega

theorem isUpper_toUpper {c : Char} (h : c.isAlpha = true) : c.toUpper.isUpper = true := by
  rcases Bool.or_eq_true_iff.mp h with upper | lower
  · rwa [toUpper_of_isUpper upper]
  · obtain ⟨low, high⟩ := Bool.and_eq_true_iff.mp lower
    have bounds : 97 ≤ c.toNat ∧ c.toNat ≤ 122 :=
      ⟨of_decide_eq_true low, of_decide_eq_true high⟩
    rcases toUpper_cases c with ⟨_, other⟩ | ⟨_, _, hraised⟩
    · exact absurd bounds other
    · exact isUpper_of_toNat (by omega) (by omega)

theorem raiseWords_isWordPart (inWord : Bool) (cs : List Char) :
    ∀ c ∈ raiseWords inWord cs, isWordPart c = true := by
  induction cs generalizing inWord with
  | nil => simp [raiseWords]
  | cons d rest ih =>
    rw [raiseWords]
    by_cases hd : isWordPart d = true
    · rw [if_pos hd, List.forall_mem_cons]
      refine ⟨?_, ih true⟩
      cases inWord with
      | true => exact hd
      | false => exact isWordPart_toUpper hd
    · rw [if_neg hd]
      exact ih false

/-- What opens the outcome is the first letter or digit, raised. -/
theorem head?_raiseWords (cs : List Char) :
    (raiseWords false cs).head? = (cs.find? isWordPart).map Char.toUpper := by
  induction cs with
  | nil => rfl
  | cons c rest ih =>
    by_cases hc : isWordPart c = true
    · simp [raiseWords, hc]
    · simp [raiseWords, hc, ih]

theorem raiseWords_inWord {cs : List Char} (h : ∀ c ∈ cs, isWordPart c = true) :
    raiseWords true cs = cs := by
  induction cs with
  | nil => rfl
  | cons c rest ih =>
    rw [raiseWords, if_pos (h c (by simp)), ih fun d hd => h d (List.mem_cons_of_mem _ hd)]
    rfl

def Capitalised (name : String) : Prop :=
  ∃ first rest, name.toList = first :: rest ∧ first.isUpper = true ∧
    ∀ c ∈ rest, isWordPart c = true

theorem Capitalised.first_not_digit {name : String} (h : Capitalised name) {c : Char}
    (hc : name.toList.find? isWordPart = some c) : c.isDigit = false := by
  obtain ⟨first, rest, hname, hfirst, _⟩ := h
  rw [hname, List.find?_cons_of_pos (isWordPart_of_isUpper hfirst), Option.some.injEq] at hc
  subst hc
  have bounds := toNat_of_isUpper hfirst
  have digit : '9'.toNat = 57 := rfl
  rw [← Bool.not_eq_true, Char.isDigit_iff_toNat]
  omega

theorem pascalCase_of_capitalised {name : String} (h : Capitalised name) :
    pascalCase name = name := by
  obtain ⟨first, rest, hname, hfirst, hrest⟩ := h
  rw [pascalCase, hname, raiseWords, if_pos (isWordPart_of_isUpper hfirst),
    raiseWords_inWord hrest, if_neg (by decide), toUpper_of_isUpper hfirst, ← hname,
    String.ofList_toList]

theorem isPart_of_isWordPart {c : Char} (h : isWordPart c = true) : isPart c = true := by
  rcases Bool.or_eq_true_iff.mp h with letter | digit
  · simp [isPart, isStart, letter]
  · simp [isPart, digit]

theorem toNat_of_isStart {c : Char} (h : isStart c = true) : c.toNat < 48 ∨ 57 < c.toNat := by
  simp only [isStart, Bool.or_eq_true, beq_iff_eq] at h
  rcases h with (letter | rfl) | rfl
  · rcases Bool.or_eq_true_iff.mp letter with upper | lower
    · have bounds := toNat_of_isUpper upper
      omega
    · have low : 97 ≤ c.toNat := of_decide_eq_true (Bool.and_eq_true_iff.mp lower).1
      omega
  · decide
  · decide

/-- Of letters and digits, the letters can open a name. -/
theorem isStart_of_isWordPart {c : Char} (h : isWordPart c = true) : isStart c = !c.isDigit := by
  cases digit : c.isDigit with
  | false =>
    have letter : c.isAlpha = true := by simpa [isWordPart, digit] using h
    simp [isStart, letter]
  | true =>
    have bounds : 48 ≤ c.toNat ∧ c.toNat ≤ 57 := Char.isDigit_iff_toNat.mp digit
    rw [Bool.not_true, ← Bool.not_eq_true]
    intro hstart
    have outside := toNat_of_isStart hstart
    omega

def Closed (name : String) : Prop :=
  ∃ base : String, name = base ++ "Page" ∧ ∀ c ∈ base.toList, isWordPart c = true

theorem closed_of_isWordPart {base : String} (h : ∀ c ∈ base.toList, isWordPart c = true) :
    Closed (if Text.endsWith base "Page" then base else base ++ "Page") := by
  split
  · rename_i hclosed
    obtain ⟨start, hstart⟩ := List.isSuffixOf_iff_suffix.mp hclosed
    refine ⟨String.ofList start, ?_, ?_⟩
    · apply String.toList_inj.mp
      rw [String.toList_append, String.toList_ofList, hstart]
    · rw [String.toList_ofList]
      exact fun c hc => h c (hstart ▸ List.mem_append_left _ hc)
  · exact ⟨base, rfl, h⟩

theorem ofTitle_closed (title : String) : Closed (ofTitle title) := by
  have words := raiseWords_isWordPart false title.toList
  unfold ofTitle
  cases hwords : raiseWords false title.toList with
  | nil => exact ⟨"Generated", rfl, List.all_eq_true.mp (by decide)⟩
  | cons c rest =>
    rw [hwords] at words
    apply closed_of_isWordPart
    -- a digit cannot open a name, so that the closing word is put in front of it as well
    split
    · rw [String.toList_append, List.forall_mem_append]
      exact ⟨List.all_eq_true.mp (by decide), by rwa [String.toList_ofList]⟩
    · rwa [String.toList_ofList]

namespace Closed

variable {name : String}

theorem isPart (h : Closed name) : ∀ c ∈ name.toList, Name.isPart c = true := by
  obtain ⟨base, rfl, hbase⟩ := h
  rw [String.toList_append, List.forall_mem_append]
  exact ⟨fun c hc => isPart_of_isWordPart (hbase c hc), List.all_eq_true.mp (by decide)⟩

theorem suffix (h : Closed name) : "Page".toList <:+ name.toList := by
  obtain ⟨base, rfl, _⟩ := h
  rw [String.toList_append]
  exact List.suffix_append _ _

end Closed

/-! ## Names of pages are canonical -/

theorem Capitalised.append {name ending : String} (h : Capitalised name)
    (hending : ∀ c ∈ ending.toList, isWordPart c = true) : Capitalised (name ++ ending) := by
  obtain ⟨first, rest, hname, hfirst, hrest⟩ := h
  refine ⟨first, rest ++ ending.toList, ?_, hfirst, ?_⟩
  · rw [String.toList_append, hname, List.cons_append]
  · rw [List.forall_mem_append]
    exact ⟨hrest, hending⟩

/-- Words that open with a letter are joined to a capitalised text. -/
theorem raiseWords_capitalised {cs rest : List Char} {c : Char}
    (h : raiseWords false cs = c :: rest) (hdigit : c.isDigit = false) :
    Capitalised (String.ofList (c :: rest)) := by
  have words : ∀ d ∈ c :: rest, isWordPart d = true := h ▸ raiseWords_isWordPart false cs
  have opening := head?_raiseWords cs
  rw [h, List.head?_cons] at opening
  obtain ⟨d, hd, rfl⟩ := Option.map_eq_some_iff.mp opening.symm
  have letter : d.isAlpha = true := by
    have word : isWordPart d = true := List.find?_some hd
    rw [isDigit_toUpper] at hdigit
    simpa [isWordPart, hdigit] using word
  exact ⟨_, rest, String.toList_ofList, isUpper_toUpper letter,
    fun e he => words e (List.mem_cons_of_mem _ he)⟩

theorem ofTitle_capitalised (title : String) : Capitalised (ofTitle title) := by
  have page : ∀ c ∈ "Page".toList, isWordPart c = true := List.all_eq_true.mp (by decide)
  have closed : ∀ base : String, Capitalised base →
      Capitalised (if Text.endsWith base "Page" then base else base ++ "Page") := by
    intro base hbase
    split
    · exact hbase
    · exact hbase.append page
  have words := raiseWords_isWordPart false title.toList
  unfold ofTitle
  cases hwords : raiseWords false title.toList with
  | nil => exact ⟨'G', "eneratedPage".toList, by decide, by decide, List.all_eq_true.mp (by decide)⟩
  | cons c rest =>
    rw [hwords] at words
    apply closed
    split
    · have opening : Capitalised "Page" :=
        ⟨'P', "age".toList, by decide, by decide, List.all_eq_true.mp (by decide)⟩
      exact opening.append (by rwa [String.toList_ofList])
    · rename_i hdigit
      exact raiseWords_capitalised hwords (by simpa using hdigit)

theorem ofTitle_endsWith (title : String) : Text.endsWith (ofTitle title) "Page" = true :=
  List.isSuffixOf_iff_suffix.mpr (ofTitle_closed title).suffix

/-- The titles that are names already: one capitalised word with the closing word at its end. -/
theorem ofTitle_eq_self_iff (name : String) :
    ofTitle name = name ↔ Capitalised name ∧ Text.endsWith name "Page" = true := by
  constructor
  · intro h
    rw [← h]
    exact ⟨ofTitle_capitalised name, ofTitle_endsWith name⟩
  · rintro ⟨hname, hpage⟩
    -- the words of the title are the title, whose first letter is no digit
    have same : raiseWords false name.toList = name.toList :=
      String.ofList_injective (by simpa [pascalCase] using pascalCase_of_capitalised hname)
    obtain ⟨first, rest, hchars, hfirst, _⟩ := id hname
    have letter : first.isDigit = false :=
      hname.first_not_digit (by rw [hchars, List.find?_cons_of_pos (isWordPart_of_isUpper hfirst)])
    rw [hchars] at same
    rw [ofTitle, hchars, same]
    simp only [letter, Bool.false_eq_true, if_false]
    rw [← hchars, String.ofList_toList, if_pos hpage]

/-- No reserved word has a capital letter. -/
theorem Capitalised.not_reserved {name : String} (h : Capitalised name) :
    isReserved name = false := by
  have small : reservedWords.all (fun word => word.toList.all fun c => !c.isUpper) = true := by
    decide
  obtain ⟨first, rest, hname, hfirst, _⟩ := h
  rw [isReserved, List.contains_eq_mem, decide_eq_false_iff_not]
  intro hword
  have lower := List.all_eq_true.mp (List.all_eq_true.mp small name hword) first (by simp [hname])
  rw [hfirst] at lower
  cases lower

/-- The component name of a page is one word of letters and digits with a capital first letter and
the closing word at its end, never a reserved word, and the name of a page that is titled so. -/
theorem page_name_canonical (title : String) :
    Capitalised (ofTitle title) ∧ Text.endsWith (ofTitle title) "Page" = true ∧
      isReserved (ofTitle title) = false ∧ ofTitle (ofTitle title) = ofTitle title := by
  have capital := ofTitle_capitalised title
  have closing := ofTitle_endsWith title
  exact ⟨capital, closing, capital.not_reserved, (ofTitle_eq_self_iff _).mpr ⟨capital, closing⟩⟩

example : ofTitle "404 page" = "Page404Page" ∧ ofTitle "my landing PAGE" = "MyLandingPAGEPage" := by
  decide

end Pagewright.Name

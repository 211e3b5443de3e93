import Pagewright.Proofs.Code.Balance
import Pagewright.Proofs.Ordered.FirstSeen
import Pagewright.Proofs.Ordered.Lookup
import Pagewright.Proofs.Style.Classification
import Pagewright.Proofs.Text.Words

/-!
# Classes are words

Whatever a style is called and whatever its value is, the class that stands for it is
one word: tables hold words, a stem and a unit are joined by a hyphen, percentages are
digits, and of the texts that are taken over as they are only names of small letters
become classes. A sheet that starts empty and only ever takes in styles and other
sheets therefore holds words, and the joined class list can be cut into them again.
-/

set_option autoImplicit false

namespace Pagewright

namespace Style

open Text

/-! ## Tables -/

def Words {κ : Type} (table : List (κ × String)) : Prop := ∀ entry ∈ table, Unbroken entry.2

theorem Words.lookup {κ : Type} [DecidableEq κ] {table : List (κ × String)} (h : Words table)
    {key : κ} {name : String} (hname : Pagewright.lookup key table = some name) : Unbroken name :=
  h _ (mem_of_lookup hname)

theorem keywordClasses_words : ∀ entry ∈ keywordClasses, Words entry.2 := by
  unfold Words
  decide +kernel

theorem spacingScale_words : Words spacingScale := by
  unfold Words
  decide

theorem colors_words : Words namedColors ∧ Words hexColors := by
  unfold Words
  decide +kernel

/-- The tables that give whole classes. -/
theorem scales_words :
    Words fontWeights ∧ Words fontSizes ∧ Words layers ∧ Words minHeights ∧ Words borderWidths := by
  unfold Words
  decide +kernel

def Rule.stem? : Rule → Option String
  | .spacing stem _ => some stem
  | .extent stem => some stem
  | .color stem => some stem
  | _ => none

theorem rules_stems : ∀ entry ∈ rules, ∀ stem ∈ entry.2.stem?, Unbroken stem := by decide

/-! ## Rules -/

section Rules

variable {stem cls : String} {v : StyleValue}

theorem hyphen_unbroken : Unbroken "-" := by decide

theorem hyphenated (hstem : Unbroken stem) {name : String} (hname : Unbroken name) :
    Unbroken (stem ++ "-" ++ name) :=
  (hstem.append hyphen_unbroken).append hname

theorem spacingToken_unbroken {margin : Bool} (hstem : Unbroken stem)
    (h : spacingToken stem margin v = some cls) : Unbroken cls := by
  unfold spacingToken at h
  split at h
  · obtain ⟨_, ⟨⟩⟩ := Option.ite_none_right_eq_some.mp h
    exact hstem.append (by decide)
  · obtain ⟨px, _, h⟩ := Option.bind_eq_some_iff.mp h
    obtain ⟨whole, _, h⟩ := Option.bind_eq_some_iff.mp h
    obtain ⟨unit, hunit, h⟩ := Option.bind_eq_some_iff.mp h
    have hname := spacingScale_words.lookup hunit
    split at h
    · obtain ⟨_, ⟨⟩⟩ := Option.ite_none_right_eq_some.mp h
      exact hyphenated (hyphen_unbroken.append hstem) hname
    · cases h
      exact hyphenated hstem hname

theorem extentToken_unbroken (hstem : Unbroken stem) (h : extentToken stem v = some cls) :
    Unbroken cls := by
  have keywords : Words extentKeywords := by
    unfold Words
    decide
  unfold extentToken at h
  split at h
  · rename_i name hname
    obtain ⟨keyword, _, hname⟩ := Option.bind_eq_some_iff.mp hname
    cases h
    exact hyphenated hstem (keywords.lookup hname)
  · obtain ⟨unit, hunit, rfl⟩ := Option.map_eq_some_iff.mp h
    obtain ⟨pixels, _, hunit⟩ := Option.bind_eq_some_iff.mp hunit
    exact hyphenated hstem (spacingScale_words.lookup hunit)

theorem colorName?_unbroken {text name : String} (h : colorName? text = some name) :
    Unbroken name := by
  unfold colorName? at h
  split at h
  · rename_i named hnamed
    cases h
    exact colors_words.1.lookup hnamed
  · obtain ⟨digits, _, hdigits⟩ := Option.bind_eq_some_iff.mp h
    exact colors_words.2.lookup hdigits

theorem opacityToken_unbroken (h : opacityToken v = some cls) : Unbroken cls := by
  unfold opacityToken at h
  obtain ⟨x, _, h⟩ := Option.bind_eq_some_iff.mp h
  obtain ⟨_, ⟨⟩⟩ := Option.ite_none_right_eq_some.mp h
  apply Plain.unbroken
  · intro hempty
    exact absurd (String.append_eq_empty_iff.mp hempty).1 (by decide)
  · rw [String.toList_append]
    exact Plain.append (by decide) (Plain.digitText _)

theorem radiusToken_unbroken (v : StyleValue) : Unbroken (radiusToken v) := by
  -- the plain class has the empty name, which is never appended
  have scale : ∀ entry ∈ radiusScale, entry.2 ≠ "" → Unbroken entry.2 := by decide
  unfold radiusToken
  split
  · decide
  · split
    · decide
    · rename_i name hname hvalue
      obtain ⟨pixels, _, hpixels⟩ := Option.bind_eq_some_iff.mp hvalue
      exact Unbroken.append (by decide) (scale _ (mem_of_lookup hpixels) hname)
    · decide

/-- The names of cursors are taken over as they are. -/
theorem cursor_unbroken {name : String} (h : isCursorName name.toList = true) :
    Unbroken ("cursor-" ++ name) := by
  have small : ∀ c, isLowerLetter c = true → isPlainChar c = true := by
    intro c hc
    have letter : c.isAlpha = true := by
      obtain ⟨low, high⟩ := Bool.and_eq_true_iff.mp hc
      refine Bool.or_eq_true_iff.mpr (.inr ?_)
      exact Bool.and_eq_true_iff.mpr ⟨low, high⟩
    simp [isPlainChar, Name.isPart, Name.isStart, letter]
  apply Plain.unbroken
  · intro hempty
    exact absurd (String.append_eq_empty_iff.mp hempty).1 (by decide)
  · rw [String.toList_append]
    refine Plain.append (by decide) ?_
    unfold isCursorName at h
    split at h
    · cases h
    · rename_i c rest hchars
      obtain ⟨hc, hrest⟩ := Bool.and_eq_true_iff.mp h
      rw [hchars]
      intro d hd
      rcases List.mem_cons.mp hd with rfl | hd
      · exact small _ hc
      · rcases Bool.or_eq_true_iff.mp (List.all_eq_true.mp hrest d hd) with hletter | hhyphen
        · exact small _ hletter
        · rw [eq_of_beq hhyphen]
          decide

theorem Rule.token_unbroken {rule : Rule} (hstem : ∀ stem ∈ rule.stem?, Unbroken stem)
    (h : rule.token v = some cls) : Unbroken cls := by
  obtain ⟨weights, sizes, layered, heights, widths⟩ := scales_words
  cases rule with
  | fontWeight => exact weights.lookup h
  | fontSize =>
    unfold Rule.token at h
    obtain ⟨pixels, _, h⟩ := Option.bind_eq_some_iff.mp h
    exact sizes.lookup h
  | cursor =>
    unfold Rule.token at h
    obtain ⟨hname, ⟨⟩⟩ := Option.ite_none_right_eq_some.mp h
    exact cursor_unbroken hname
  | opacity => exact opacityToken_unbroken h
  | layer => exact layered.lookup h
  | spacing stem margin => exact spacingToken_unbroken (hstem stem rfl) h
  | extent stem => exact extentToken_unbroken (hstem stem rfl) h
  | minHeight => exact heights.lookup h
  | color stem =>
    obtain ⟨name, hname, rfl⟩ := Option.map_eq_some_iff.mp h
    exact hyphenated (hstem stem rfl) (colorName?_unbroken hname)
  | borderWidth =>
    unfold Rule.token at h
    obtain ⟨pixels, _, h⟩ := Option.bind_eq_some_iff.mp h
    exact widths.lookup h
  | radius =>
    cases h
    exact radiusToken_unbroken v

end Rules

/-- The class of a style is a word, whatever the style is. -/
theorem token_unbroken {property cls : String} {v : StyleValue} (h : token property v = some cls) :
    Unbroken cls := by
  unfold token at h
  split at h
  · rename_i name hkeyword
    cases h
    obtain ⟨table, htable, hname⟩ := Option.bind_eq_some_iff.mp hkeyword
    exact (keywordClasses_words _ (mem_of_lookup htable)).lookup hname
  · obtain ⟨rule, hrule, h⟩ := Option.bind_eq_some_iff.mp h
    exact Rule.token_unbroken (rules_stems _ (mem_of_lookup hrule)) h

end Style

/-! ## Sheets -/

namespace StyleSheet

inductive Built : StyleSheet → Prop where
  | empty : Built empty
  | add {sheet : StyleSheet} (h : Built sheet) (property : String) (value : StyleValue) :
      Built (sheet.add property value)
  | merge {sheet other : StyleSheet} (h : Built sheet) (hother : Built other) :
      Built (sheet.merge other)

structure WellSpaced (sheet : StyleSheet) : Prop where
  words : ∀ cls ∈ sheet.classes, Text.Unbroken cls
  nodup : sheet.classes.Nodup

namespace WellSpaced

variable {sheet other : StyleSheet}

theorem empty : WellSpaced empty := ⟨by simp [StyleSheet.empty], List.nodup_nil⟩

theorem add (h : sheet.WellSpaced) (property : String) (value : StyleValue) :
    (sheet.add property value).WellSpaced := by
  cases htoken : Style.token (StyleProperty.camelCase property) value with
  | none =>
    rw [add_of_no_token sheet htoken]
    exact ⟨h.words, h.nodup⟩
  | some cls =>
    rw [add_of_token sheet htoken]
    refine ⟨fun name hname => ?_, FirstSeen.nodup_add _ _ h.nodup⟩
    rcases (FirstSeen.mem_add _ _ _).mp hname with hold | rfl
    · exact h.words name hold
    · exact Style.token_unbroken htoken

theorem merge (h : sheet.WellSpaced) (hother : other.WellSpaced) :
    (sheet.merge other).WellSpaced := by
  refine ⟨fun name hname => ?_, FirstSeen.nodup_addAll _ _ h.nodup⟩
  rcases (FirstSeen.mem_addAll _ _ _).mp hname with hold | hnew
  · exact h.words name hold
  · exact hother.words name hnew

/-- The classes are found again in the joined class list. -/
theorem words_className (h : sheet.WellSpaced) : Text.words sheet.className = sheet.classes :=
  Text.words_join h.words

theorem split_className (h : sheet.WellSpaced) (hne : sheet.classes ≠ []) :
    Text.split ' ' sheet.className = sheet.classes := by
  apply Text.split_join hne
  intro cls hcls hspace
  exact absurd ((h.words cls hcls).not_blank hspace) (by decide)

end WellSpaced

theorem Built.wellSpaced {sheet : StyleSheet} (h : sheet.Built) : sheet.WellSpaced := by
  induction h with
  | empty => exact .empty
  | add _ property value ih => exact ih.add property value
  | merge _ _ ih ihother => exact ih.merge ihother

theorem Built.addAll {sheet : StyleSheet} (h : sheet.Built) (styles : List (String × StyleValue)) :
    (sheet.addAll styles).Built := by
  induction styles generalizing sheet with
  | nil => exact h
  | cons style rest ih =>
    rw [addAll_cons]
    exact ih (h.add style.1 style.2)

end StyleSheet

end Pagewright

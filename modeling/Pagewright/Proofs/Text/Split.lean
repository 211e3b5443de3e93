import Pagewright.Text.Lines

/-!
# Parts of a text

Cutting a text at a separator and joining parts with it are inverse to each other on
parts that do not hold the separator, and cutting turns an appended separator into an
appended list. The parts that matter most are lines, the texts without a line feed. A
text can also be known by some of what it holds: texts in order, whatever stands
between them.
-/

set_option autoImplicit false

namespace Pagewright.Text

variable {separator : Char}

theorem splitChars_ne_nil (separator : Char) (cs : List Char) : splitChars separator cs ≠ [] := by
  cases cs with
  | nil => simp [splitChars]
  | cons c rest =>
    rw [splitChars]
    split
    · simp
    · split <;> simp

/-- The characters of a text in parts are those of the parts and the separator. -/
theorem mem_splitChars (separator : Char) {c : Char} {cs : List Char} (h : c ∈ cs) :
    c = separator ∨ ∃ part ∈ splitChars separator cs, c ∈ part := by
  induction cs with
  | nil => simp at h
  | cons d rest ih =>
    rw [splitChars]
    by_cases hd : d = separator
    · rw [if_pos hd]
      rcases List.mem_cons.mp h with rfl | hrest
      · exact .inl hd
      · rcases ih hrest with hc | ⟨part, hpart, hc⟩
        · exact .inl hc
        · exact .inr ⟨part, List.mem_cons_of_mem _ hpart, hc⟩
    · rw [if_neg hd]
      rcases List.mem_cons.mp h with rfl | hrest
      · cases splitChars separator rest <;> simp
      · rcases ih hrest with hc | ⟨part, hpart, hc⟩
        · exact .inl hc
        · cases hsplit : splitChars separator rest with
          | nil => simp [hsplit] at hpart
          | cons first others =>
            rw [hsplit] at hpart
            rcases List.mem_cons.mp hpart with rfl | hothers
            · exact .inr ⟨d :: part, by simp, List.mem_cons_of_mem _ hc⟩
            · exact .inr ⟨part, List.mem_cons_of_mem _ hothers, hc⟩

theorem splitChars_unbroken {cs : List Char} (h : separator ∉ cs) :
    splitChars separator cs = [cs] := by
  induction cs with
  | nil => rfl
  | cons c rest ih =>
    simp only [List.mem_cons, not_or] at h
    rw [splitChars, if_neg (Ne.symm h.1), ih h.2]

theorem splitChars_append (separator : Char) (a b : List Char) :
    splitChars separator (a ++ separator :: b) =
      splitChars separator a ++ splitChars separator b := by
  induction a with
  | nil => simp [splitChars]
  | cons c rest ih =>
    by_cases hc : c = separator
    · simp [splitChars, hc, ih]
    · rw [List.cons_append, splitChars, if_neg hc, ih, splitChars, if_neg hc]
      cases hrest : splitChars separator rest with
      | nil => exact absurd hrest (splitChars_ne_nil separator rest)
      | cons part parts => rfl

theorem separator_not_mem {cs part : List Char} (h : part ∈ splitChars separator cs) :
    separator ∉ part := by
  induction cs generalizing part with
  | nil => simp_all [splitChars]
  | cons c rest ih =>
    rw [splitChars] at h
    by_cases hc : c = separator
    · rw [if_pos hc] at h
      rcases List.mem_cons.mp h with rfl | h
      · simp
      · exact ih h
    · rw [if_neg hc] at h
      cases hrest : splitChars separator rest with
      | nil => exact absurd hrest (splitChars_ne_nil separator rest)
      | cons first others =>
        rw [hrest] at h ih
        rcases List.mem_cons.mp h with rfl | h
        · simp [Ne.symm hc, ih (List.mem_cons_self)]
        · exact ih (List.mem_cons_of_mem _ h)

/-- Searching for a separator stops at the first one. -/
theorem span_separator {before : List Char} (h : separator ∉ before) (after : List Char) :
    (before ++ separator :: after).takeWhile (· ≠ separator) = before ∧
      (before ++ separator :: after).dropWhile (· ≠ separator) = separator :: after := by
  have free : ∀ c ∈ before, decide (c ≠ separator) = true := by
    intro c hc
    exact decide_eq_true fun heq => h (heq ▸ hc)
  constructor
  · rw [List.takeWhile_append_of_pos free, List.takeWhile_cons_of_neg (by simp), List.append_nil]
  · rw [List.dropWhile_append_of_pos free, List.dropWhile_cons_of_neg (by simp)]

/-! ## Texts -/

theorem startsWith_append (s rest : String) : startsWith (s ++ rest) s = true := by
  rw [startsWith, String.toList_append, List.isPrefixOf_iff_prefix]
  exact List.prefix_append _ _

theorem between_injective (opening ending : String) :
    Function.Injective fun s : String => opening ++ s ++ ending := by
  intro a b h
  have hchars := congrArg String.toList h
  simp only [String.toList_append, List.append_assoc] at hchars
  exact String.toList_inj.mp (List.append_cancel_right (List.append_cancel_left hchars))

theorem join_cons_cons (separator s t : String) (rest : List String) :
    join separator (s :: t :: rest) = s ++ separator ++ join separator (t :: rest) := rfl

theorem join_cons (separator s : String) (rest : List String) :
    ∃ tail, join separator (s :: rest) = s ++ tail := by
  cases rest with
  | nil => exact ⟨"", by simp [join]⟩
  | cons r others => exact ⟨separator ++ join separator (r :: others), by
      simp [join, String.append_assoc]⟩

/-- The characters of a joined text are those of the parts and the separator. -/
theorem mem_join {between : String} {parts : List String} {c : Char}
    (h : c ∈ (join between parts).toList) :
    c ∈ between.toList ∨ ∃ part ∈ parts, c ∈ part.toList := by
  induction parts with
  | nil => simp [join] at h
  | cons part rest ih =>
    cases rest with
    | nil => exact .inr ⟨part, by simp, h⟩
    | cons next others =>
      rw [join, String.toList_append, String.toList_append, List.mem_append, List.mem_append] at h
      · rcases h with (hpart | hbetween) | hrest
        · exact .inr ⟨part, by simp, hpart⟩
        · exact .inl hbetween
        · rcases ih hrest with hbetween | ⟨p, hp, hc⟩
          · exact .inl hbetween
          · exact .inr ⟨p, List.mem_cons_of_mem _ hp, hc⟩
      · simp

/-- The parts of a list are found again, each but the first with the blank before it. -/
theorem splitChars_join {part : String} {rest : List String}
    (h : ∀ p ∈ part :: rest, ',' ∉ p.toList) :
    splitChars ',' (join ", " (part :: rest)).toList =
      part.toList :: rest.map fun p => ' ' :: p.toList := by
  induction rest generalizing part with
  | nil => simpa [join] using splitChars_unbroken (h part (by simp))
  | cons next others ih =>
    have later := ih fun p hp => h p (List.mem_cons_of_mem _ hp)
    have cut : (join ", " (part :: next :: others)).toList =
        part.toList ++ ',' :: ' ' :: (join ", " (next :: others)).toList := by
      simp [join_cons_cons]
    have pad : splitChars ',' (' ' :: (join ", " (next :: others)).toList) =
        (next :: others).map fun p => ' ' :: p.toList := by
      rw [splitChars, if_neg (by decide), later]
      rfl
    rw [cut, splitChars_append, splitChars_unbroken (h part (by simp)), pad]
    rfl

theorem split_append (separator : Char) (s t : String) :
    split separator (s ++ String.singleton separator ++ t) =
      split separator s ++ split separator t := by
  simp [split, String.toList_append, splitChars_append]

theorem split_unbroken {s : String} (h : separator ∉ s.toList) : split separator s = [s] := by
  simp [split, splitChars_unbroken h]

theorem split_join {parts : List String} (hne : parts ≠ [])
    (h : ∀ part ∈ parts, separator ∉ part.toList) :
    split separator (join (String.singleton separator) parts) = parts := by
  induction parts with
  | nil => exact absurd rfl hne
  | cons part rest ih =>
    have first := split_unbroken (h part (by simp))
    cases rest with
    | nil => simpa [join] using first
    | cons next others =>
      rw [join, split_append, first, ih (by simp) fun p hp => h p (List.mem_cons_of_mem _ hp)]
      · rfl
      · simp

/-! ## Texts of one line -/

def OneLine (s : String) : Prop := '\n' ∉ s.toList

instance (s : String) : Decidable (OneLine s) := inferInstanceAs (Decidable ('\n' ∉ s.toList))

theorem oneLine_append {s t : String} : OneLine (s ++ t) ↔ OneLine s ∧ OneLine t := by
  simp [OneLine]

theorem oneLine_join {between : String} (hbetween : OneLine between) {parts : List String}
    (h : ∀ part ∈ parts, OneLine part) : OneLine (join between parts) := by
  intro hmem
  rcases mem_join hmem with hbreak | ⟨part, hpart, hbreak⟩
  · exact hbetween hbreak
  · exact h part hpart hbreak

theorem oneLine_indent (depth : Nat) : OneLine (indent depth) := by
  induction depth with
  | zero => decide
  | succ depth ih => exact oneLine_append.mpr ⟨by decide, ih⟩

theorem lineFeed_not_mem {cs line : List Char} (h : line ∈ lineChars cs) : '\n' ∉ line := by
  fun_induction lineChars cs generalizing line with
  | case1 => simp at h
  | case2 rest ih =>
    rcases List.mem_cons.mp h with rfl | h
    · simp
    · exact ih h
  | case3 rest ih =>
    rcases List.mem_cons.mp h with rfl | h
    · simp
    · exact ih h
  | case4 c rest hfeed _ _ _ =>
    rw [List.mem_singleton.mp h, List.mem_singleton]
    exact Ne.symm hfeed
  | case5 c rest hfeed _ first others hrest ih =>
    rw [hrest] at ih
    rcases List.mem_cons.mp h with rfl | h
    · rw [List.mem_cons, not_or]
      exact ⟨Ne.symm hfeed, ih List.mem_cons_self⟩
    · exact ih (List.mem_cons_of_mem _ h)

theorem oneLine_of_mem_lines {s line : String} (h : line ∈ lines s) : OneLine line := by
  obtain ⟨cs, hcs, rfl⟩ := List.mem_map.mp h
  rw [OneLine, String.toList_ofList]
  exact lineFeed_not_mem hcs

theorem split_unlines {ls : List String} (hne : ls ≠ []) (h : ∀ line ∈ ls, OneLine line) :
    split '\n' (unlines ls) = ls :=
  split_join hne h

/-! ## Texts in a text -/

/-- The parts stand in the text, in order and apart. -/
def Holds : List String → String → Prop
  | [], _ => True
  | part :: parts, s => ∃ before after, s = before ++ part ++ after ∧ Holds parts after

theorem Holds.append {parts others : List String} {s t : String} (hs : Holds parts s)
    (ht : Holds others t) : Holds (parts ++ others) (s ++ t) := by
  induction parts generalizing s with
  | cons part parts ih =>
    obtain ⟨before, after, rfl, hafter⟩ := hs
    exact ⟨before, after ++ t, by simp only [String.append_assoc], ih hafter⟩
  | nil =>
    -- the text in front joins what stands before the first part
    cases others with
    | nil => trivial
    | cons part others =>
      obtain ⟨before, after, rfl, hafter⟩ := ht
      exact ⟨s ++ before, after, by simp only [String.append_assoc], hafter⟩

theorem holds_join {α : Type} {parts : α → List String} {text : α → String} (separator : String)
    {xs : List α} (h : ∀ x ∈ xs, Holds (parts x) (text x)) :
    Holds (xs.flatMap parts) (join separator (xs.map text)) := by
  induction xs with
  | nil => trivial
  | cons x rest ih =>
    have first := h x (by simp)
    have later := ih fun y hy => h y (List.mem_cons_of_mem _ hy)
    cases rest with
    | nil => simpa [join] using first
    | cons y others =>
      have spaced : Holds (parts x ++ []) (text x ++ separator) := first.append trivial
      rw [List.append_nil] at spaced
      exact spaced.append later

end Pagewright.Text

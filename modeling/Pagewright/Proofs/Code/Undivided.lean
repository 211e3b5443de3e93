import Pagewright.Proofs.Code.Balance

/-!
# Parts between marks

A mark divides a text only where no bracket and no quotation is open. A text that is
balanced and not divided by a mark can be cut off again from what stands behind the
next one, so that a row of such texts, joined by separators around the mark, is told
by the joined text. What is in brackets or in quotes may hold the mark at will.
-/

set_option autoImplicit false

namespace Pagewright

namespace Balance

def clear : Balance := ⟨[], .outside⟩

def runPart (mark : Char) (b : Balance) : List Char → Option Balance
  | [] => some b
  | c :: rest =>
    if b = clear ∧ c = mark then none
    else
      match b.step c with
      | some next => runPart mark next rest
      | none => none

theorem runPart_append (mark : Char) (b : Balance) (xs ys : List Char) :
    b.runPart mark (xs ++ ys) = (b.runPart mark xs).bind fun next => next.runPart mark ys := by
  induction xs generalizing b with
  | nil => rfl
  | cons c rest ih =>
    rw [List.cons_append, runPart, runPart]
    split
    · rfl
    · cases b.step c with
      | none => rfl
      | some next => exact ih next

theorem runPart_step {mark c : Char} {b next : Balance} (hopen : b ≠ clear)
    (h : b.step c = some next) (rest : List Char) :
    b.runPart mark (c :: rest) = next.runPart mark rest := by
  rw [runPart, if_neg fun hclear => hopen hclear.1, h]

/-- What is awaited further out does not matter to a step. -/
theorem step_within {b next : Balance} {c : Char} (h : b.step c = some next) (outer : List Char) :
    step ⟨b.awaited ++ outer, b.quotation⟩ c = some ⟨next.awaited ++ outer, next.quotation⟩ := by
  obtain ⟨awaited, quotation⟩ := b
  cases quotation with
  | escaped =>
    cases h
    rfl
  | inside =>
    simp only [step] at h ⊢
    by_cases hslash : c = '\\'
    · rw [if_pos hslash] at h ⊢
      cases h
      rfl
    rw [if_neg hslash] at h ⊢
    by_cases hquote : c = '"'
    · rw [if_pos hquote] at h ⊢
      cases h
      rfl
    · rw [if_neg hquote] at h ⊢
      cases h
      rfl
  | outside =>
    simp only [step] at h ⊢
    by_cases hquote : c = '"'
    · rw [if_pos hquote] at h ⊢
      cases h
      rfl
    rw [if_neg hquote] at h ⊢
    cases hcloser : closer? c with
    | some close =>
      rw [hcloser] at h
      cases h
      rfl
    | none =>
      rw [hcloser] at h
      simp only at h ⊢
      by_cases hcloses : isCloser c = true
      · rw [if_pos hcloses] at h ⊢
        cases awaited with
        | nil => cases h
        | cons close rest =>
          simp only [List.cons_append] at h ⊢
          by_cases hclose : close = c
          · rw [if_pos hclose] at h ⊢
            cases h
            rfl
          · rw [if_neg hclose] at h
            cases h
      · rw [if_neg hcloses] at h ⊢
        cases h
        rfl

theorem run_cons_eq_some {b next : Balance} {c : Char} {rest : List Char} :
    b.run (c :: rest) = some next ↔
      ∃ middle, b.step c = some middle ∧ middle.run rest = some next := by
  rw [run]
  cases b.step c <;> simp

theorem run_within {b next : Balance} {code : List Char} (h : b.run code = some next)
    (outer : List Char) :
    run ⟨b.awaited ++ outer, b.quotation⟩ code = some ⟨next.awaited ++ outer, next.quotation⟩ := by
  induction code generalizing b with
  | nil =>
    cases h
    rfl
  | cons c rest ih =>
    obtain ⟨middle, hstep, hrest⟩ := run_cons_eq_some.mp h
    exact run_cons_eq_some.mpr ⟨_, step_within hstep outer, ih hrest⟩

/-- Within a bracket no mark is met with nothing open. -/
theorem runPart_within {b next : Balance} {code : List Char} (h : b.run code = some next)
    (mark close : Char) :
    runPart mark ⟨b.awaited ++ [close], b.quotation⟩ code =
      some ⟨next.awaited ++ [close], next.quotation⟩ := by
  induction code generalizing b with
  | nil =>
    cases h
    rfl
  | cons c rest ih =>
    obtain ⟨middle, hstep, hrest⟩ := run_cons_eq_some.mp h
    rw [runPart_step (by simp [clear]) (step_within hstep [close])]
    exact ih hrest

theorem run_of_runPart {mark : Char} {b next : Balance} {code : List Char}
    (h : b.runPart mark code = some next) : b.run code = some next := by
  induction code generalizing b with
  | nil => exact h
  | cons c rest ih =>
    rw [runPart] at h
    split at h
    · cases h
    · cases hstep : b.step c with
      | none =>
        rw [hstep] at h
        cases h
      | some middle =>
        rw [hstep] at h
        exact run_cons_eq_some.mpr ⟨middle, hstep, ih h⟩

end Balance

open Balance

def Undivided (mark : Char) (code : List Char) : Prop :=
  clear.runPart mark code = some clear

namespace Undivided

variable {mark : Char} {a b : List Char}

theorem balanced (h : Undivided mark a) : Balanced a := fun awaited =>
  run_within (run_of_runPart h) awaited

theorem append (ha : Undivided mark a) (hb : Undivided mark b) : Undivided mark (a ++ b) := by
  rw [Undivided, runPart_append, ha]
  exact hb

theorem neutral (h : a.all (fun c => isNeutral c && c != mark) = true) : Undivided mark a := by
  induction a with
  | nil => rfl
  | cons c rest ih =>
    simp only [List.all_cons, Bool.and_eq_true, bne_iff_ne] at h
    rw [Undivided, runPart, if_neg fun hmark => h.1.2 hmark.2, clear, step_neutral h.1.1]
    exact ih (by simpa using h.2)

theorem enclosed (opening closing : Char)
    (hpair : (opening, closing) ∈ [('(', ')'), ('[', ']'), ('\x7b', '\x7d')])
    (hmark : mark ≠ opening) (h : Balanced a) :
    Undivided mark (opening :: (a ++ [closing])) := by
  have opened : clear.step opening = some ⟨[closing], .outside⟩ := by
    simp only [List.mem_cons, Prod.mk.injEq, List.not_mem_nil, or_false] at hpair
    rcases hpair with ⟨rfl, rfl⟩ | ⟨rfl, rfl⟩ | ⟨rfl, rfl⟩ <;> rfl
  have closed : step ⟨[closing], .outside⟩ closing = some clear := by
    simp only [List.mem_cons, Prod.mk.injEq, List.not_mem_nil, or_false] at hpair
    rcases hpair with ⟨rfl, rfl⟩ | ⟨rfl, rfl⟩ | ⟨rfl, rfl⟩ <;> simp [step, closer?, isCloser, clear]
  have inner : runPart mark ⟨[closing], .outside⟩ a = some ⟨[closing], .outside⟩ :=
    runPart_within (h []) mark closing
  rw [Undivided, runPart, if_neg fun hopen => hmark hopen.2.symm, opened]
  simp only
  rw [runPart_append, inner, Option.bind_some, runPart_step (by simp [clear]) closed]
  rfl

/-- Between quotes the reader is never clear, whatever is quoted. -/
theorem quoteChar (mark c : Char) :
    runPart mark ⟨[], .inside⟩ (Text.quoteChar c) = some ⟨[], .inside⟩ := by
  have hex : ∀ d : Char, (Text.hexValue? d).isSome = true → d ≠ '\\' ∧ d ≠ '"' :=
    fun d hd => ⟨Text.ne_of_hexValue? hd (by decide), Text.ne_of_hexValue? hd (by decide)⟩
  cases Text.quoteForm c with
  | plain form _ quote backslash => simp [form, runPart, step, clear, quote, backslash]
  | short e form => simp [form, runPart, step, clear]
  | coded high low form _ hhigh hlow =>
    simp [form, runPart, step, clear, hex high hhigh, hex low hlow]

theorem quoted (hmark : mark ≠ '"') (s : String) : Undivided mark (Text.quoted s).toList := by
  have within : runPart mark ⟨[], .inside⟩ (s.toList.flatMap Text.quoteChar) =
      some ⟨[], .inside⟩ := by
    induction s.toList with
    | nil => rfl
    | cons c rest ih =>
      rw [List.flatMap_cons, runPart_append, quoteChar mark c]
      exact ih
  have opened : clear.step '"' = some ⟨[], .inside⟩ := rfl
  have closed : step ⟨[], .inside⟩ '"' = some clear := rfl
  rw [Text.quoted, String.toList_ofList, Undivided, runPart,
    if_neg fun hopen => hmark hopen.2.symm, opened]
  simp only
  rw [runPart_append, within, Option.bind_some, runPart_step (by decide) closed]
  rfl

/-! ## Cutting at the mark -/

/-- A text is not the same text with more behind a mark. -/
theorem ne_append (ha : Undivided mark a) (hb : Undivided mark b) (rest : List Char) :
    a ≠ b ++ mark :: rest := by
  rintro rfl
  rw [Undivided, runPart_append, hb, Option.bind_some, runPart, if_pos ⟨rfl, rfl⟩] at ha
  cases ha

/-- What stands before the first mark is told by the whole. -/
theorem cut (ha : Undivided mark a) (hb : Undivided mark b) {rest others : List Char}
    (h : a ++ mark :: rest = b ++ mark :: others) : a = b ∧ rest = others := by
  rcases List.append_eq_append_iff.mp h with ⟨more, hmore, hrest⟩ | ⟨more, hmore, hrest⟩
  · cases more with
    | nil => exact ⟨by simpa using hmore.symm, (List.cons.inj hrest).2⟩
    | cons c tail =>
      obtain ⟨rfl, _⟩ := List.cons.inj hrest
      exact absurd hmore (hb.ne_append ha tail)
  · cases more with
    | nil => exact ⟨by simpa using hmore, (List.cons.inj hrest).2.symm⟩
    | cons c tail =>
      obtain ⟨rfl, _⟩ := List.cons.inj hrest
      exact absurd hmore (ha.ne_append hb tail)

/-- The parts of a row are told by the row, if the separator between them holds the mark. -/
theorem join_injective (before after : List Char) {separator : String}
    (hseparator : separator.toList = before ++ mark :: after) (hbefore : Undivided mark before)
    {parts others : List String} (hne : parts ≠ []) (hother : others ≠ [])
    (hparts : ∀ part ∈ parts, Undivided mark part.toList)
    (hothers : ∀ part ∈ others, Undivided mark part.toList)
    (h : Text.join separator parts = Text.join separator others) : parts = others := by
  have divided : ∀ part next rest, (Text.join separator (part :: next :: rest)).toList =
      (part.toList ++ before) ++
        mark :: (after ++ (Text.join separator (next :: rest)).toList) := by
    intro part next rest
    simp [Text.join, hseparator]
  induction parts generalizing others with
  | nil => exact absurd rfl hne
  | cons part rest ih =>
    cases others with
    | nil => exact absurd rfl hother
    | cons other more =>
      have hpart := hparts part (by simp)
      have hfirst := hothers other (by simp)
      have chars := congrArg String.toList h
      cases rest with
      | nil =>
        cases more with
        | nil => rw [show part = other from h]
        | cons next tail =>
          rw [divided] at chars
          exact absurd chars (hpart.ne_append (hfirst.append hbefore) _)
      | cons following last =>
        cases more with
        | nil =>
          rw [divided] at chars
          exact absurd chars.symm (hfirst.ne_append (hpart.append hbefore) _)
        | cons next tail =>
          rw [divided, divided] at chars
          obtain ⟨same, behind⟩ := (hpart.append hbefore).cut (hfirst.append hbefore) chars
          have later := ih (by simp) (by simp) (fun p hp => hparts p (List.mem_cons_of_mem _ hp))
            (fun p hp => hothers p (List.mem_cons_of_mem _ hp))
            (String.toList_inj.mp (List.append_cancel_left behind))
          rw [later, String.toList_inj.mp (List.append_cancel_right same)]

end Undivided

end Pagewright

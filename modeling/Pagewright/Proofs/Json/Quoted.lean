import Pagewright.Json.Document
import Pagewright.Proofs.Text.Split

/-!
# Quoted text reads back

A character is quoted as itself, by a short escape or by its code. Each of the three
forms is one piece of a written text, and that piece stands for the character again:
reading a quoted text gives the text itself, whatever follows the closing quote.
-/

set_option autoImplicit false

namespace Pagewright

namespace Text

inductive QuoteForm (c : Char) : Prop where
  | plain (form : quoteChar c = [c]) (printable : 0x20 ≤ c.toNat) (quote : c ≠ '"')
      (backslash : c ≠ '\\')
  | short (e : Char) (form : quoteChar c = ['\\', e]) (simple : e ≠ 'u')
      (escape : Document.simpleEscape? e = some c)
  | coded (high low : Char) (form : quoteChar c = ['\\', 'u', '0', '0', high, low])
      (control : c.toNat < 0x20) (high_hex : (hexValue? high).isSome = true)
      (low_hex : (hexValue? low).isSome = true)
      (code : Document.unitOf? '0' '0' high low = some c.toNat)

theorem hexValue?_hexDigit : ∀ n < 16, hexValue? (hexDigit n) = some n := by decide

theorem ne_of_hexValue? {c d : Char} (hc : (hexValue? c).isSome = true)
    (hd : hexValue? d = none) : c ≠ d := by
  rintro rfl
  rw [hd] at hc
  cases hc

theorem eq_of_toNat {c d : Char} (h : c.toNat = d.toNat) : c = d := by
  rw [← Char.ofNat_toNat c, h, Char.ofNat_toNat]

theorem quoteForm (c : Char) : QuoteForm c := by
  by_cases hquote : c = '"'
  · exact .short '"' (by simp [quoteChar, hquote]) (by decide) (by rw [hquote]; rfl)
  by_cases hbackslash : c = '\\'
  · exact .short '\\' (by simp [quoteChar, hbackslash]) (by decide) (by rw [hbackslash]; rfl)
  by_cases hb : c.toNat = 0x8
  · have hc : c = Char.ofNat 0x8 := eq_of_toNat hb
    exact .short 'b' (by simp [quoteChar, hquote, hbackslash, hb]) (by decide) (by rw [hc]; rfl)
  by_cases hf : c.toNat = 0xc
  · have hc : c = Char.ofNat 0xc := eq_of_toNat hf
    exact .short 'f' (by simp [quoteChar, hquote, hbackslash, hf]) (by decide) (by rw [hc]; rfl)
  by_cases hn : c = '\n'
  · exact .short 'n' (by rw [hn]; rfl) (by decide) (by rw [hn]; rfl)
  by_cases hr : c = '\r'
  · exact .short 'r' (by rw [hr]; rfl) (by decide) (by rw [hr]; rfl)
  by_cases ht : c = '\t'
  · exact .short 't' (by rw [ht]; rfl) (by decide) (by rw [ht]; rfl)
  by_cases hcontrol : c.toNat < 0x20
  · have high := hexValue?_hexDigit (c.toNat / 16) (by omega)
    have low := hexValue?_hexDigit (c.toNat % 16) (by omega)
    have zero : hexValue? '0' = some 0 := by decide
    refine .coded (hexDigit (c.toNat / 16)) (hexDigit (c.toNat % 16)) ?_ hcontrol (by simp [high])
      (by simp [low]) ?_
    · simp [quoteChar, hquote, hbackslash, hb, hf, hn, hr, ht, hcontrol]
    · simp only [Document.unitOf?, zero, high, low, Option.bind_eq_bind, Option.bind_some,
        Option.some.injEq]
      omega
  · refine .plain ?_ (by omega) hquote hbackslash
    simp [quoteChar, hquote, hbackslash, hb, hf, hn, hr, ht, hcontrol]

/-- Line feeds are escaped, so that a quoted text stands on one line. -/
theorem oneLine_quoted (s : String) : OneLine (quoted s) := by
  have escaped : ∀ c, '\n' ∉ quoteChar c := by
    intro c
    cases quoteForm c with
    | plain form printable _ _ =>
      rw [form, List.mem_singleton]
      rintro rfl
      exact absurd printable (by decide)
    | short e form _ escape =>
      rw [form]
      simp only [List.mem_cons, List.not_mem_nil, or_false, not_or]
      refine ⟨by decide, ?_⟩
      rintro rfl
      cases escape
    | coded high low form _ high_hex low_hex _ =>
      rw [form]
      simp only [List.mem_cons, List.not_mem_nil, or_false, not_or]
      exact ⟨by decide, by decide, by decide, by decide, (ne_of_hexValue? high_hex (by decide)).symm,
        (ne_of_hexValue? low_hex (by decide)).symm⟩
  simp [OneLine, quoted, escaped]

end Text

namespace Document

/-- A unit below the surrogates stands for its own character. -/
theorem assemble_unit {code : Nat} (h : code < 0xd800) (ps : List Piece) :
    assemble (.unit code :: ps) = (assemble ps).map (Char.ofNat code :: ·) := by
  have low : isLeading code = false ∧ isTrailing code = false := by
    simp only [isLeading, isTrailing, Bool.and_eq_false_iff, decide_eq_false_iff_not]
    omega
  cases ps with
  | nil => simp [assemble, low]
  | cons p rest => cases p <;> simp [assemble, low]

/-- One quoted character is read as one piece, which stands for it. -/
theorem pieces_quoteChar (c : Char) : ∃ p : Piece,
    (∀ rest, pieces (Text.quoteChar c ++ rest) =
      (pieces rest).map fun read => (p :: read.1, read.2)) ∧
    ∀ ps, assemble (p :: ps) = (assemble ps).map (c :: ·) := by
  cases Text.quoteForm c with
  | plain form printable quote backslash =>
    refine ⟨.char c, fun rest => ?_, fun ps => by simp [assemble]⟩
    have visible : ¬ c.toNat < 0x20 := by omega
    rw [form]
    cases hrest : pieces rest <;> simp [pieces, backslash, visible, hrest]
  | short e form simple escape =>
    refine ⟨.char c, fun rest => ?_, fun ps => by simp [assemble]⟩
    rw [form]
    cases hrest : pieces rest <;> simp [pieces, escape, simple, hrest]
  | coded high low form control _ _ code =>
    refine ⟨.unit c.toNat, fun rest => ?_, fun ps => ?_⟩
    · rw [form]
      cases hrest : pieces rest <;> simp [pieces, code, hrest]
    · rw [assemble_unit (by omega), Char.ofNat_toNat]

theorem pieces_quoted (cs rest : List Char) : ∃ ps,
    pieces (cs.flatMap Text.quoteChar ++ '"' :: rest) = some (ps, rest) ∧ assemble ps = some cs := by
  induction cs with
  | nil => exact ⟨[], by simp [pieces], rfl⟩
  | cons c cs ih =>
    obtain ⟨ps, hps, hcs⟩ := ih
    obtain ⟨p, hp, hc⟩ := pieces_quoteChar c
    refine ⟨p :: ps, ?_, by rw [hc, hcs]; rfl⟩
    rw [List.flatMap_cons, List.append_assoc, hp, hps]
    rfl

theorem readText_quoted (s : String) (rest : List Char) :
    readText (s.toList.flatMap Text.quoteChar ++ '"' :: rest) = some (some s, rest) := by
  obtain ⟨ps, hps, hs⟩ := pieces_quoted s.toList rest
  simp [readText, hps, hs]

end Document

theorem Text.quoted_injective : Function.Injective quoted := by
  intro s t h
  have chars : s.toList.flatMap quoteChar ++ ['"'] = t.toList.flatMap quoteChar ++ ['"'] :=
    (List.cons.inj (String.ofList_injective h)).2
  have read := Document.readText_quoted s []
  rw [chars, Document.readText_quoted] at read
  simpa using read.symm

end Pagewright

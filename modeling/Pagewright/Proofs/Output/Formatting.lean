import Mathlib.Data.List.Forall2
import Pagewright.Proofs.Page.FormatOption
import Pagewright.Proofs.Page.Warning

/-!
# Files with and without formatting

A script is emitted as it was drafted, or as the formatter prints it where formatting
is on and succeeds; a failure leaves the draft and one warning. So the file with
formatting on is a function of the file with formatting off, `Toolchain.reprint`, and
so is the warning, `Toolchain.skipNote?`. Formatter and checker are arbitrary.
-/

set_option autoImplicit false

namespace Pagewright

theorem extension?_append (s : String) {ending : String} (h : '.' ∉ ending.toList) :
    extension? (s ++ "." ++ ending) = some ending := by
  have chars : (s ++ "." ++ ending).toList = s.toList ++ '.' :: ending.toList := by
    rw [String.toList_append, String.toList_append, List.append_assoc]
    rfl
  have last : (Text.split '.' (s ++ "." ++ ending)).getLast? = some ending := by
    rw [Text.split, chars, Text.splitChars_append, Text.splitChars_unbroken h, List.map_append,
      List.map_singleton, String.ofList_toList, List.getLast?_concat]
  rw [extension?, Text.afterLast?, last, chars]
  simp

/-! ## Formatting on and off -/

namespace Toolchain

def withFormat (t : Toolchain) (on : Bool) : Toolchain :=
  { t with options := t.options.withFormat on }

def reprint (t : Toolchain) (file : OutputFile) : String :=
  if file.kind = .stylesheet then file.content
  else
    match t.formatter file.content file.path with
    | .ok content => content
    | .error _ => file.content

def skipNote? (t : Toolchain) (file : OutputFile) : Option String :=
  if file.kind = .stylesheet then none
  else
    match t.formatter file.content file.path with
    | .ok _ => none
    | .error e => some ("formatting skipped: " ++ e.message)

def FailsOn (t : Toolchain) (files : List OutputFile) : Prop :=
  ∀ file ∈ files, file.kind ≠ .stylesheet → ∃ e, t.formatter file.content file.path = .error e

end Toolchain

def isSkipNote (w : String) : Bool := Text.startsWith w "formatting skipped: "

theorem isSkipNote_of_head {w : String} {c : Char} (h : w.toList.head? = some c) (hc : c ≠ 'f') :
    isSkipNote w = false := by
  rw [isSkipNote, Text.startsWith, Bool.eq_false_iff]
  intro hprefix
  obtain ⟨rest, hrest⟩ := List.isPrefixOf_iff_prefix.mp hprefix
  rw [← hrest, List.head?_append] at h
  exact hc (Option.some.inj h).symm

structure Toolchain.Reprints (t : Toolchain) (before after : OutputFile) : Prop where
  kind : after.kind = before.kind
  path : after.path = before.path
  language : after.language = before.language
  script : before.kind ≠ .stylesheet → before.language ∈ ["typescript", "javascript"]
  content : after.content = t.reprint before
  fingerprintBefore : before.fingerprint = Digest.sha256 before.content
  fingerprintAfter : after.fingerprint = Digest.sha256 after.content

/-- A draft that a formatter takes. No finding about it can be mistaken for a warning of the
formatter, because of the first character of its path. -/
structure Draft.IsScript (d : Draft) : Prop where
  kind : d.kind ≠ .stylesheet
  extension : ∃ stem, ∃ ending ∈ ["tsx", "jsx", "ts"], d.path = stem ++ "." ++ ending
  head : ∃ c, d.path.toList.head? = some c ∧ c ≠ 'f'

namespace Draft.IsScript

variable {d : Draft}

theorem extension?_eq (h : d.IsScript) : extension? d.path = some "tsx" ∨
    extension? d.path = some "jsx" ∨ extension? d.path = some "ts" := by
  obtain ⟨stem, ending, hending, hpath⟩ := h.extension
  rw [hpath]
  simp only [List.mem_cons, List.not_mem_nil, or_false] at hending
  rcases hending with rfl | rfl | rfl
  · exact .inl (extension?_append stem (by decide))
  · exact .inr (.inl (extension?_append stem (by decide)))
  · exact .inr (.inr (extension?_append stem (by decide)))

theorem dialect?_isSome (h : d.IsScript) : (dialect? d.path).isSome = true := by
  rcases h.extension?_eq with heq | heq | heq <;> simp [dialect?, heq]

theorem language (h : d.IsScript) : languageOf d.path ∈ ["typescript", "javascript"] := by
  rcases h.extension?_eq with heq | heq | heq <;> simp [languageOf, dialect?, heq]

/-! The findings of the checker are no warnings of the formatter. -/

theorem checked (h : d.IsScript) (t : Toolchain) (content : String) :
    ∀ w ∈ t.checked d.path content, isSkipNote w = false := by
  obtain ⟨c, hc, hne⟩ := h.head
  exact fun w hw => isSkipNote_of_head (t.checked_head hc hw) hne

theorem checked_skipped (h : d.IsScript) (t : Toolchain) (content : String) :
    (t.checked d.path content).filter isSkipNote = [] := by
  rw [List.filter_eq_nil_iff]
  intro w hw
  simp [h.checked t content w hw]

theorem checked_kept (h : d.IsScript) (t : Toolchain) (content : String) :
    (t.checked d.path content).filter (fun w => !isSkipNote w) = t.checked d.path content := by
  rw [List.filter_eq_self]
  intro w hw
  simp [h.checked t content w hw]

end Draft.IsScript

structure Toolchain.Refinishes (t : Toolchain) (before after : Finished) : Prop where
  file : t.Reprints before.file after.file
  skipped : after.warnings.filter isSkipNote = (t.skipNote? before.file).toList
  kept : t.FailsOn [before.file] →
    after.warnings.filter (fun w => !isSkipNote w) = before.warnings

namespace Toolchain

theorem finish_off (t : Toolchain) (d : Draft) :
    (t.withFormat false).finish d =
      ⟨OutputFile.of d.kind d.path d.source, t.checked d.path d.source⟩ := rfl

theorem formatted_on (t : Toolchain) {d : Draft} (h : d.IsScript) :
    (t.withFormat true).formatted d =
      match t.formatter d.source d.path with
      | .ok content => (content, [])
      | .error e => (d.source, ["formatting skipped: " ++ e.message]) := by
  have script : ((t.withFormat true).options.format && (dialect? d.path).isSome) = true := by
    rw [h.dialect?_isSome]
    rfl
  rw [formatted, if_pos script]
  rfl

theorem finish_refinishes (t : Toolchain) {d : Draft} (h : d.IsScript) :
    t.Refinishes ((t.withFormat false).finish d) ((t.withFormat true).finish d) := by
  rw [finish_off]
  cases hformatter : t.formatter d.source d.path with
  | ok content =>
    have on : (t.withFormat true).finish d =
        ⟨OutputFile.of d.kind d.path content, t.checked d.path content⟩ := by
      rw [finish, t.formatted_on h, hformatter]
      rfl
    rw [on]
    refine ⟨⟨rfl, rfl, rfl, fun _ => h.language, ?_, rfl, rfl⟩, ?_, fun hfails => ?_⟩
    · simp [reprint, OutputFile.of, h.kind, hformatter]
    · have note : t.skipNote? (OutputFile.of d.kind d.path d.source) = none := by
        simp [skipNote?, OutputFile.of, h.kind, hformatter]
      rw [note, h.checked_skipped]
      rfl
    · obtain ⟨e, he⟩ := hfails _ (List.mem_singleton.mpr rfl) h.kind
      cases hformatter.symm.trans he
  | error e =>
    have on : (t.withFormat true).finish d =
        ⟨OutputFile.of d.kind d.path d.source,
          ("formatting skipped: " ++ e.message) :: t.checked d.path d.source⟩ := by
      rw [finish, t.formatted_on h, hformatter]
      rfl
    have opening : isSkipNote ("formatting skipped: " ++ e.message) = true :=
      Text.startsWith_append _ _
    rw [on]
    refine ⟨⟨rfl, rfl, rfl, fun _ => h.language, ?_, rfl, rfl⟩, ?_, fun _ => ?_⟩
    · simp [reprint, OutputFile.of, h.kind, hformatter]
    · have note : t.skipNote? (OutputFile.of d.kind d.path d.source) =
          some ("formatting skipped: " ++ e.message) := by
        simp [skipNote?, OutputFile.of, h.kind, hformatter]
      rw [note, List.filter_cons_of_pos opening, h.checked_skipped]
      rfl
    · rw [List.filter_cons_of_neg (by simp [opening]), h.checked_kept]

/-! ## Several files -/

variable {t : Toolchain} {drafts : List Draft}

theorem skipped_drafts (h : ∀ d ∈ drafts, d.IsScript) :
    (drafts.flatMap fun d => ((t.withFormat true).finish d).warnings).filter isSkipNote =
      (drafts.map fun d => ((t.withFormat false).finish d).file).filterMap t.skipNote? := by
  induction drafts with
  | nil => rfl
  | cons d rest ih =>
    have step := (t.finish_refinishes (h d (by simp))).skipped
    rw [List.flatMap_cons, List.filter_append, step, ih fun x hx => h x (by simp [hx]),
      List.map_cons, List.filterMap_cons]
    cases t.skipNote? ((t.withFormat false).finish d).file <;> rfl

theorem kept_drafts (h : ∀ d ∈ drafts, d.IsScript)
    (hfails : t.FailsOn (drafts.map fun d => ((t.withFormat false).finish d).file)) :
    (drafts.flatMap fun d => ((t.withFormat true).finish d).warnings).filter
        (fun w => !isSkipNote w) =
      drafts.flatMap fun d => ((t.withFormat false).finish d).warnings := by
  rw [List.filter_flatMap]
  apply List.flatMap_congr
  intro d hd
  apply (t.finish_refinishes (h d hd)).kept
  intro file hfile
  exact hfails file (List.mem_singleton.mp hfile ▸ List.mem_map_of_mem hd)

end Toolchain

end Pagewright

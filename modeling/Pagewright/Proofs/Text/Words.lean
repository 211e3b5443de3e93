import Pagewright.Proofs.Text.Blank
import Pagewright.Proofs.Text.Split

/-!
# Words

The words of a text are not empty and hold no white space. Words of this kind, joined
by single spaces, are the words of the joined text again.
-/

set_option autoImplicit false

namespace Pagewright.Text

theorem wordsFrom_append (word : List Char) {cs : List Char}
    (h : ∀ c ∈ cs, isBlankChar c = false) (rest : List Char) :
    wordsFrom word (cs ++ rest) = wordsFrom (cs.reverse ++ word) rest := by
  induction cs generalizing word with
  | nil => rfl
  | cons c cs ih =>
    rw [List.cons_append, wordsFrom, h c (by simp), if_neg (by decide),
      ih _ fun d hd => h d (by simp [hd])]
    simp

theorem unbroken_ofList {cs : List Char} (hne : cs ≠ [])
    (h : ∀ c ∈ cs, isBlankChar c = false) : Unbroken (String.ofList cs) :=
  ⟨by simpa using hne, by simpa using h⟩

theorem unbroken_of_mem_wordsFrom {word cs : List Char} {s : String}
    (hword : ∀ c ∈ word, isBlankChar c = false) (h : s ∈ wordsFrom word cs) : Unbroken s := by
  have finished : word ≠ [] → Unbroken (String.ofList word.reverse) := fun hne =>
    unbroken_ofList (by simpa using hne) (by simpa using hword)
  induction cs generalizing word with
  | nil =>
    rw [wordsFrom] at h
    split at h
    · simp at h
    · rename_i hne
      rw [List.mem_singleton.mp h]
      exact finished (by simpa using hne)
  | cons c rest ih =>
    rw [wordsFrom] at h
    cases hc : isBlankChar c with
    | true =>
      have later : s ∈ wordsFrom [] rest → Unbroken s := fun hs => ih (by simp) hs (by simp)
      rw [hc, if_pos rfl] at h
      split at h
      · exact later h
      · rename_i hne
        rcases List.mem_cons.mp h with rfl | h
        · exact finished (by simpa using hne)
        · exact later h
    | false =>
      have hnext : ∀ d ∈ c :: word, isBlankChar d = false := by
        intro d hd
        rcases List.mem_cons.mp hd with rfl | hd
        · exact hc
        · exact hword d hd
      rw [hc, if_neg (by decide)] at h
      exact ih hnext h fun _ => unbroken_ofList (by simp) fun d hd =>
        hnext d (List.mem_reverse.mp hd)

theorem unbroken_of_mem_words {s word : String} (h : word ∈ words s) : Unbroken word :=
  unbroken_of_mem_wordsFrom (by simp) h

theorem words_join {parts : List String} (h : ∀ part ∈ parts, Unbroken part) :
    words (join " " parts) = parts := by
  induction parts with
  | nil => rfl
  | cons part rest ih =>
    have hpart := h part (by simp)
    have hne : part.toList.reverse.isEmpty = false := by
      have := hpart.1
      simpa using this
    cases rest with
    | nil =>
      have last := wordsFrom_append [] (fun _ hc => hpart.not_blank hc) []
      rw [List.append_nil, List.append_nil] at last
      rw [join, words, last, wordsFrom, hne]
      simp
    | cons next others =>
      have blank : isBlankChar ' ' = true := by decide
      have later := ih fun p hp => h p (by simp [hp])
      rw [join_cons_cons, words, String.toList_append, String.toList_append, List.append_assoc,
        wordsFrom_append [] fun _ hc => hpart.not_blank hc]
      rw [words] at later
      simp [wordsFrom, blank, hpart.1, later]

theorem join_words_eq_empty_iff {s : String} : join " " (words s) = "" ↔ words s = [] := by
  constructor
  · intro h
    rw [← words_join fun _ => unbroken_of_mem_words (s := s), h]
    rfl
  · intro h
    rw [h]
    rfl

end Pagewright.Text

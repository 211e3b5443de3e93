import Mathlib.Data.List.Forall2
import Pagewright.Proofs.Code.Balance
import Pagewright.Proofs.Text.Words

/-!
# Reading literals

A reader of object literals that knows nothing of how they are laid out. Code is cut
into words, quoted texts and marks, with white space between them as it comes. The
tokens of a literal then go through a machine that keeps the open lists and objects on
a stack: a key is a bare name or a quoted text, a comma may follow the last entry, and
the fields of an object stay as they are written, in their order. How numbers are
written is left to a parameter.
-/

set_option autoImplicit false

namespace Pagewright.Literal

/-! ## Tokens -/

inductive Token where
  | word (chars : String)
  | text (meant : String)
  | mark (c : Char)
  deriving DecidableEq, Repr

inductive ScanMode where
  /-- In a word, or between two tokens if the word is empty. -/
  | word (chars : List Char)
  /-- After an opening quote. -/
  | text (chars : List Char)
  /-- In a text, after a backslash. -/
  | escape (chars : List Char)

def wordTokens (chars : List Char) : List Token :=
  if chars.isEmpty then [] else [.word (String.ofList chars)]

def markTokens (c : Char) : List Token := if Document.isSpace c then [] else [.mark c]

structure Scanner where
  found : List Token
  mode : ScanMode

namespace Scanner

def step (s : Scanner) (c : Char) : Option Scanner :=
  match s.mode with
  | .word chars =>
    if isPlainChar c then some ⟨s.found, .word (chars ++ [c])⟩
    else if c = '"' then some ⟨s.found ++ wordTokens chars, .text []⟩
    else some ⟨s.found ++ wordTokens chars ++ markTokens c, .word []⟩
  | .text chars =>
    if c = '"' then
      match Document.readText (chars ++ [c]) with
      | some (some meant, _) => some ⟨s.found ++ [.text meant], .word []⟩
      | _ => none
    else if c = '\\' then some ⟨s.found, .escape (chars ++ [c])⟩
    else some ⟨s.found, .text (chars ++ [c])⟩
  | .escape chars => some ⟨s.found, .text (chars ++ [c])⟩

def finish (s : Scanner) : Option (List Token) :=
  match s.mode with
  | .word chars => some (s.found ++ wordTokens chars)
  | _ => none

def run (s : Scanner) : List Char → Option (List Token)
  | [] => s.finish
  | c :: rest =>
    match s.step c with
    | some next => next.run rest
    | none => none

end Scanner

def tokens (code : String) : Option (List Token) := Scanner.run ⟨[], .word []⟩ code.toList

/-! ## Values -/

/-- A list or an object that is still open. An entry may come if it is `ready`, and a comma
if it is not; it may be closed either way. -/
inductive Frame where
  | list (items : List Json) (ready : Bool)
  | object (fields : List (String × Json)) (ready : Bool)
  /-- An object after a key. -/
  | key (fields : List (String × Json)) (name : String)
  /-- An object after a key and its colon. -/
  | field (fields : List (String × Json)) (name : String)

inductive Progress where
  /-- In a literal, with the open frames innermost first. -/
  | within (frames : List Frame)
  | complete (v : Json)

def put (v : Json) : List Frame → Option Progress
  | [] => some (.complete v)
  | .list items true :: outer => some (.within (.list (items ++ [v]) false :: outer))
  | .field fields name :: outer =>
    some (.within (.object (fields ++ [(name, v)]) false :: outer))
  | _ => none

def wordValue? (number : String → Option Json) (chars : String) : Option Json :=
  if chars = "null" then some .null
  else if chars = "true" then some (.bool true)
  else if chars = "false" then some (.bool false)
  else number chars

-- A list or an object that opens where no value may stand is refused when it is closed.
def step (number : String → Option Json) (frames : List Frame) : Token → Option Progress
  | .word chars =>
    match frames with
    | .object fields true :: outer =>
      if Name.isWellFormed chars then some (.within (.key fields chars :: outer)) else none
    | _ => (wordValue? number chars).bind (put · frames)
  | .text meant =>
    match frames with
    | .object fields true :: outer => some (.within (.key fields meant :: outer))
    | _ => put (.text meant) frames
  | .mark '[' => some (.within (.list [] true :: frames))
  | .mark '\x7b' => some (.within (.object [] true :: frames))
  | .mark ']' =>
    match frames with
    | .list items _ :: outer => put (.list items) outer
    | _ => none
  | .mark '\x7d' =>
    match frames with
    | .object fields _ :: outer => put (.object fields) outer
    | _ => none
  | .mark ',' =>
    match frames with
    | .list items false :: outer => some (.within (.list items true :: outer))
    | .object fields false :: outer => some (.within (.object fields true :: outer))
    | _ => none
  | .mark ':' =>
    match frames with
    | .key fields name :: outer => some (.within (.field fields name :: outer))
    | _ => none
  | .mark _ => none

def run (number : String → Option Json) : Progress → List Token → Option (Json × List Token)
  | .complete v, rest => some (v, rest)
  | .within _, [] => none
  | .within frames, t :: rest =>
    match step number frames t with
    | some next => run number next rest
    | none => none

def valueBefore? (number : String → Option Json) (ending ts : List Token) : Option Json :=
  match run number (.within []) ts with
  | some (v, rest) => if rest = ending then some v else none
  | none => none

def read (number : String → Option Json) (code : String) : Option Json :=
  (tokens code).bind (valueBefore? number [])

/-! ## What a scan finds -/

def EndsWord (rest : List Char) : Prop := ∀ c ∈ rest.head?, isPlainChar c = false

def ScansClosed (cs : List Char) (ts : List Token) : Prop :=
  ∀ found rest, Scanner.run ⟨found, .word []⟩ (cs ++ rest) =
    Scanner.run ⟨found ++ ts, .word []⟩ rest

def Scans (cs : List Char) (ts : List Token) : Prop :=
  ∀ found rest, EndsWord rest → Scanner.run ⟨found, .word []⟩ (cs ++ rest) =
    Scanner.run ⟨found ++ ts, .word []⟩ rest

namespace ScansClosed

variable {a b : List Char} {ts us : List Token}

theorem nil : ScansClosed [] [] := by
  intro found rest
  simp

theorem scans (h : ScansClosed a ts) : Scans a ts := fun found rest _ => h found rest

theorem append (ha : ScansClosed a ts) (hb : ScansClosed b us) :
    ScansClosed (a ++ b) (ts ++ us) := by
  intro found rest
  rw [List.append_assoc, ha, hb, List.append_assoc]

theorem before (ha : ScansClosed a ts) (hb : Scans b us) : Scans (a ++ b) (ts ++ us) := by
  intro found rest hrest
  rw [List.append_assoc, ha, hb _ _ hrest, List.append_assoc]

/-- White space and marks. -/
theorem marks (h : a.all (fun c => !isPlainChar c && c != '"') = true) :
    ScansClosed a (a.flatMap markTokens) := by
  induction a with
  | nil => exact nil
  | cons c rest ih =>
    rw [List.all_cons, Bool.and_eq_true] at h
    have one : ScansClosed [c] (markTokens c) := by
      intro found rest
      obtain ⟨hword, hquote⟩ : isPlainChar c = false ∧ c ≠ '"' := by simpa using h.1
      simp [Scanner.run, Scanner.step, hword, hquote, wordTokens]
    exact one.append (ih h.2)

theorem indent (depth : Nat) : ScansClosed (Text.indent depth).toList [] := by
  induction depth with
  | zero => exact nil
  | succ depth ih =>
    rw [Text.indent, String.toList_append]
    exact (marks (a := Text.indentUnit.toList) (by decide)).append ih

end ScansClosed

namespace Scans

variable {a b : List Char} {ts us : List Token}

theorem close (ha : Scans a ts) (hb : ScansClosed b us)
    (hends : b.head?.any (fun c => !isPlainChar c) = true) :
    ScansClosed (a ++ b) (ts ++ us) := by
  intro found rest
  have ends : EndsWord (b ++ rest) := by
    cases b with
    | nil => cases hends
    | cons c b =>
      rintro d ⟨⟩
      simpa using hends
  rw [List.append_assoc, ha _ _ ends, hb, List.append_assoc]

/-- A word is found when it ends. -/
theorem run_word (found : List Token) (chars : List Char) {rest : List Char}
    (h : EndsWord rest) : Scanner.run ⟨found, .word chars⟩ rest =
      Scanner.run ⟨found ++ wordTokens chars, .word []⟩ rest := by
  cases rest with
  | nil => simp [Scanner.run, Scanner.finish, wordTokens]
  | cons c rest =>
    have hc : isPlainChar c = false := h c (by simp)
    simp [Scanner.run, Scanner.step, hc, wordTokens]

theorem word {w : String} (hne : w.toList ≠ []) (h : Plain w.toList) :
    Scans w.toList [.word w] := by
  intro found rest hrest
  have grow : ∀ (chars cs : List Char), Plain cs →
      Scanner.run ⟨found, .word chars⟩ (cs ++ rest) =
        Scanner.run ⟨found, .word (chars ++ cs)⟩ rest := by
    intro chars cs hcs
    induction cs generalizing chars with
    | nil => simp
    | cons c cs ih =>
      have hc : isPlainChar c = true := hcs c (by simp)
      simp only [List.cons_append, Scanner.run, Scanner.step, hc, if_true]
      rw [ih _ fun d hd => hcs d (by simp [hd]), List.append_assoc, List.singleton_append]
  rw [grow [] _ h, List.nil_append, run_word _ _ hrest, wordTokens]
  simp [hne]

end Scans

/-- In a text, a quoted character is kept as it stands. -/
theorem run_quoteChar (found : List Token) (chars : List Char) (c : Char) (rest : List Char) :
    Scanner.run ⟨found, .text chars⟩ (Text.quoteChar c ++ rest) =
      Scanner.run ⟨found, .text (chars ++ Text.quoteChar c)⟩ rest := by
  have hex : ∀ d : Char, (Text.hexValue? d).isSome = true → d ≠ '"' ∧ d ≠ '\\' :=
    fun d hd => ⟨Text.ne_of_hexValue? hd (by decide), Text.ne_of_hexValue? hd (by decide)⟩
  cases Text.quoteForm c with
  | plain form _ quote backslash =>
    rw [form]
    simp [Scanner.run, Scanner.step, quote, backslash]
  | short e form _ _ =>
    rw [form]
    simp [Scanner.run, Scanner.step]
  | coded high low form _ high_hex low_hex _ =>
    rw [form]
    simp [Scanner.run, Scanner.step, hex high high_hex, hex low low_hex]

theorem ScansClosed.quoted (s : String) : ScansClosed (Text.quoted s).toList [.text s] := by
  intro found rest
  have grow : ∀ (chars cs more : List Char),
      Scanner.run ⟨found, .text chars⟩ (cs.flatMap Text.quoteChar ++ more) =
        Scanner.run ⟨found, .text (chars ++ cs.flatMap Text.quoteChar)⟩ more := by
    intro chars cs more
    induction cs generalizing chars with
    | nil => simp
    | cons c cs ih =>
      rw [List.flatMap_cons, List.append_assoc, run_quoteChar, ih, List.append_assoc]
  have opened : isPlainChar '"' = false := by decide
  rw [Text.quoted, String.toList_ofList, List.cons_append, List.append_assoc, Scanner.run,
    Scanner.step]
  simp only [opened, Bool.false_eq_true, if_false, if_true, wordTokens, List.isEmpty_nil,
    List.append_nil]
  rw [grow, List.nil_append, List.singleton_append, Scanner.run, Scanner.step]
  simp only [if_true, Document.readText_quoted s []]

/-! ## Evaluated scans -/

/-- What was found before is only kept. -/
theorem Scanner.step_found (before found : List Token) (mode : ScanMode) (c : Char) :
    Scanner.step ⟨before ++ found, mode⟩ c =
      (Scanner.step ⟨found, mode⟩ c).map fun next => ⟨before ++ next.found, next.mode⟩ := by
  cases mode with
  | word chars =>
    simp only [step]
    split_ifs <;> simp
  | text chars =>
    simp only [step]
    split_ifs
    · split <;> simp
    all_goals simp
  | escape chars => simp [step]

theorem Scanner.run_found (before found : List Token) (mode : ScanMode) (cs : List Char) :
    Scanner.run ⟨before ++ found, mode⟩ cs = (Scanner.run ⟨found, mode⟩ cs).map (before ++ ·) := by
  induction cs generalizing found mode with
  | nil => cases mode <;> simp [run, finish]
  | cons c rest ih =>
    rw [run, run, step_found]
    cases Scanner.step ⟨found, mode⟩ c with
    | none => rfl
    | some next => exact ih next.found next.mode

/-- A scan from nothing decides what is found after anything. -/
theorem ScansClosed.of_run {cs : List Char} {ts : List Token}
    (h : ∀ rest, Scanner.run ⟨[], .word []⟩ (cs ++ rest) = Scanner.run ⟨ts, .word []⟩ rest) :
    ScansClosed cs ts := by
  intro found rest
  have start := Scanner.run_found found [] (.word []) (cs ++ rest)
  rw [List.append_nil] at start
  rw [start, h, Scanner.run_found]

/-! ## Rows of parts -/

/-- Parts with a separator between them, which ends the last word of each. -/
theorem Scans.join {separator : String} {us : List Token}
    (hseparator : ScansClosed separator.toList us)
    (hends : separator.toList.head?.any (fun c => !isPlainChar c) = true)
    {parts : List String} {rows : List (List Token)}
    (h : List.Forall₂ (fun part ts => Scans part.toList ts) parts rows) :
    Scans (Text.join separator parts).toList (us.intercalate rows) := by
  induction h with
  | nil => exact ScansClosed.nil.scans
  | cons first others ih =>
    cases others with
    | nil => simpa [Text.join] using first
    | cons _ _ =>
      rw [Text.join_cons_cons, String.toList_append, String.toList_append,
        List.intercalate_cons_cons]
      exact (first.close hseparator hends).before ih

/-- Line feeds give no tokens. -/
theorem Scans.unlines {lines : List String} {rows : List (List Token)}
    (h : List.Forall₂ (fun line ts => Scans line.toList ts) lines rows) :
    Scans (Text.unlines lines).toList rows.flatten := by
  have flat : ∀ rows : List (List Token), [].intercalate rows = rows.flatten := by
    intro rows
    induction rows with
    | nil => rfl
    | cons ts rows ih => cases rows <;> simp_all [List.intercalate_cons_cons]
  rw [← flat]
  exact Scans.join (ScansClosed.marks (a := "\n".toList) (by decide)) (by decide) h

end Pagewright.Literal

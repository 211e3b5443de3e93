import Mathlib.Data.List.Basic
import Pagewright.Proofs.Code.Name
import Pagewright.Proofs.Import.Merge
import Pagewright.Proofs.Json.Quoted
import Pagewright.Proofs.Text.Split

/-!
# Import lines read back

A reader of import lines that knows nothing of the statements they come from. A line is
cut at its first quote: what stands before it is a row of words and marks, what follows
is the module. One line gives what it declares for its module, and lines for one module
that follow each other are put together. Whenever the names are identifiers and the
specifiers are identifiers or pairs of them, the lines of a collection are read as its
statements, so that the lines tell the statements.
-/

set_option autoImplicit false

namespace Pagewright

/-! ## The reader -/

inductive ImportToken where
  | word (name : String)
  | mark (c : Char)
  deriving DecidableEq, Repr

namespace ImportToken

def ofWord (reversed : List Char) : List ImportToken :=
  if reversed.isEmpty then [] else [.word (String.ofList reversed.reverse)]

def ofMark (c : Char) : List ImportToken := if c = ' ' then [] else [.mark c]

def scan (reversed : List Char) : List Char → List ImportToken
  | [] => ofWord reversed
  | c :: rest =>
    if Name.isPart c then scan (c :: reversed) rest
    else ofWord reversed ++ ofMark c ++ scan [] rest

def tokens (s : String) : List ImportToken := scan [] s.toList

end ImportToken

open ImportToken

namespace ImportStatement

def readSpecifier : List ImportToken → Option (Bool × String)
  | [.word a] => some (false, a)
  | [.word marker, .word a] => if marker = "type" then some (true, a) else none
  | [.word a, .word link, .word b] => if link = "as" then some (false, a ++ " as " ++ b) else none
  | [.word marker, .word a, .word link, .word b] =>
    if marker = "type" ∧ link = "as" then some (true, a ++ " as " ++ b) else none
  | _ => none

def readSpecifiers (ts : List ImportToken) : Option (List (Bool × String)) :=
  if ts.getLast? = some (.mark '\x7d') then (ts.dropLast.splitOn (.mark ',')).mapM readSpecifier
  else none

def readClause (module : String) (defaultName : Option String) (ts : List ImportToken) :
    Option ImportStatement :=
  (readSpecifiers ts).map fun specifiers =>
    { module, defaultName
      namespaceName := none
      named := (specifiers.filter (!·.1)).map Prod.snd
      types := (specifiers.filter (·.1)).map Prod.snd }

def readDeclared (module : String) : List ImportToken → Option ImportStatement
  | [.word d] => some ⟨module, some d, none, [], []⟩
  | [.mark '*', .word link, .word n] =>
    if link = "as" then some ⟨module, none, some n, [], []⟩ else none
  | [.word d, .mark ',', .mark '*', .word link, .word n] =>
    if link = "as" then some ⟨module, some d, some n, [], []⟩ else none
  | .mark '\x7b' :: rest => readClause module none rest
  | .word d :: .mark ',' :: .mark '\x7b' :: rest => readClause module (some d) rest
  | .word marker :: .mark '\x7b' :: rest =>
    if marker = "type" then
      (readSpecifiers rest).map fun specifiers => ⟨module, none, none, [], specifiers.map Prod.snd⟩
    else none
  | _ => none

def readTokens (module : String) : List ImportToken → Option ImportStatement
  | .word lead :: rest =>
    if lead ≠ "import" then none
    else if rest = [] then some ⟨module, none, none, [], []⟩
    else if rest.getLast? = some (.word "from") then readDeclared module rest.dropLast
    else none
  | _ => none

def readLine (line : String) : Option ImportStatement :=
  match line.toList.dropWhile (· ≠ '"') with
  | _ :: rest =>
    match Document.readText rest with
    | some (some module, [';']) =>
      readTokens module (tokens (String.ofList (line.toList.takeWhile (· ≠ '"'))))
    | _ => none
  | [] => none

def gather : List ImportStatement → List ImportStatement
  | [] => []
  | s :: rest =>
    match gather rest with
    | t :: others =>
      if s.module = t.module then
        ⟨s.module, s.defaultName.or t.defaultName, s.namespaceName.or t.namespaceName,
          s.named ++ t.named, s.types ++ t.types⟩ :: others
      else s :: t :: others
    | [] => [s]

def readLines (lines : List String) : Option (List ImportStatement) :=
  (lines.mapM readLine).map gather

end ImportStatement

/-! ## Words and marks -/

namespace ImportToken

theorem scan_append (reversed cs : List Char) {c : Char} (hc : Name.isPart c = false)
    (rest : List Char) :
    scan reversed (cs ++ c :: rest) = scan reversed cs ++ ofMark c ++ scan [] rest := by
  induction cs generalizing reversed with
  | nil => simp [scan, hc]
  | cons d cs ih =>
    rw [List.cons_append, scan, scan]
    cases Name.isPart d with
    | true => exact ih _
    | false => simp [ih]

theorem scan_parts (reversed : List Char) {cs : List Char} (h : ∀ c ∈ cs, Name.isPart c = true) :
    scan reversed cs = ofWord (cs.reverse ++ reversed) := by
  induction cs generalizing reversed with
  | nil => rfl
  | cons c cs ih =>
    rw [scan, h c (by simp), if_pos rfl, ih _ fun d hd => h d (by simp [hd])]
    simp

theorem tokens_name {name : String} (h : Name.isWellFormed name = true) :
    tokens name = [.word name] := by
  have hne := Name.toList_ne_nil h
  rw [tokens, scan_parts [] fun _ hc => Name.isPart_of_mem h hc]
  simp [ofWord, hne]

theorem tokens_space (s t : String) : tokens (s ++ " " ++ t) = tokens s ++ tokens t := by
  have chars : (s ++ " " ++ t).toList = s.toList ++ ' ' :: t.toList := by simp
  rw [tokens, chars, scan_append [] _ (by decide)]
  simp [ofMark, tokens]

theorem tokens_comma (s t : String) :
    tokens (s ++ ", " ++ t) = tokens s ++ .mark ',' :: tokens t := by
  have chars : (s ++ ", " ++ t).toList = s.toList ++ ',' :: ("" ++ " " ++ t).toList := by simp
  rw [tokens, chars, scan_append [] _ (by decide), ← tokens, ← tokens, tokens_space]
  simp [ofMark, tokens, scan, ofWord]

theorem tokens_join (parts : List String) :
    tokens (Text.join ", " parts) = [ImportToken.mark ','].intercalate (parts.map tokens) := by
  induction parts with
  | nil => rfl
  | cons part rest ih =>
    cases rest with
    | nil => simp [Text.join]
    | cons next others =>
      rw [Text.join_cons_cons, tokens_comma, ih]
      simp [List.intercalate_cons_cons]

end ImportToken

/-! ## Specifiers -/

def IsSpecifier (name : String) : Prop :=
  Name.isWellFormed name = true ∨ ∃ a b, Name.isWellFormed a = true ∧
    Name.isWellFormed b = true ∧ name = a ++ " as " ++ b

theorem IsSpecifier.tokens_eq {name : String} (h : IsSpecifier name) :
    tokens name = [.word name] ∨
      ∃ a b, name = a ++ " as " ++ b ∧ tokens name = [.word a, .word "as", .word b] := by
  rcases h with h | ⟨a, b, ha, hb, rfl⟩
  · exact .inl (tokens_name h)
  · have split : a ++ " as " ++ b = a ++ " " ++ ("as" ++ " " ++ b) := by
      rw [← String.toList_inj]
      simp
    refine .inr ⟨a, b, rfl, ?_⟩
    rw [split, tokens_space, tokens_space, tokens_name ha, tokens_name hb]
    rfl

theorem IsSpecifier.quote_not_mem {name : String} (h : IsSpecifier name) : '"' ∉ name.toList := by
  rcases h with h | ⟨a, b, ha, hb, rfl⟩
  · exact Name.not_mem_of_not_isPart h (by decide)
  · simp [Name.not_mem_of_not_isPart ha (c := '"') (by decide),
      Name.not_mem_of_not_isPart hb (c := '"') (by decide)]

namespace ImportStatement

def written (specifier : Bool × String) : String :=
  if specifier.1 then "type " ++ specifier.2 else specifier.2

theorem tokens_marked (s : String) : tokens ("type " ++ s) = .word "type" :: tokens s := by
  have split : "type " ++ s = "type" ++ " " ++ s := by simp
  rw [split, tokens_space]
  rfl

/-- A written specifier is read as what it is. The number of its words tells whether it is
marked: one or three without, two or four with a mark. -/
theorem reads_written {specifier : Bool × String} (h : IsSpecifier specifier.2) :
    readSpecifier (tokens (written specifier)) = some specifier ∧
      ImportToken.mark ',' ∉ tokens (written specifier) := by
  obtain ⟨marked, name⟩ := specifier
  rcases h.tokens_eq with htokens | ⟨a, b, rfl, htokens⟩
  · cases marked <;> simp_all [written, tokens_marked, readSpecifier]
  · cases marked <;> simp_all [written, tokens_marked, readSpecifier]

theorem mapM_map_eq_some {α β γ : Type} {f : β → Option γ} {g : α → β} {r : α → γ} {xs : List α}
    (h : ∀ x ∈ xs, f (g x) = some (r x)) : (xs.map g).mapM f = some (xs.map r) := by
  induction xs with
  | nil => rfl
  | cons x rest ih =>
    simp [List.mapM_cons, h x (by simp), ih fun y hy => h y (by simp [hy])]

theorem readSpecifiers_written {specifiers : List (Bool × String)} (hne : specifiers ≠ [])
    (h : ∀ specifier ∈ specifiers, IsSpecifier specifier.2) :
    readSpecifiers (tokens (Text.join ", " (specifiers.map written)) ++ [.mark '\x7d']) =
      some specifiers := by
  have whole : ∀ ts ∈ (specifiers.map written).map tokens, ImportToken.mark ',' ∉ ts := by
    simp only [List.mem_map, forall_exists_index, and_imp, forall_apply_eq_imp_iff₂]
    exact fun specifier hs => (reads_written (h specifier hs)).2
  rw [readSpecifiers, if_pos (by simp), List.dropLast_concat, tokens_join,
    List.splitOn_intercalate _ whole (by simpa using hne), List.map_map]
  have read := mapM_map_eq_some fun specifier hs => (reads_written (h specifier hs)).1
  rw [List.map_id'] at read
  exact read

/-! ## Lines -/

def braces (specifiers : List (Bool × String)) : String :=
  "\x7b " ++ Text.join ", " (specifiers.map written) ++ " \x7d"

theorem tokens_braces {specifiers : List (Bool × String)} (hne : specifiers ≠ [])
    (h : ∀ specifier ∈ specifiers, IsSpecifier specifier.2) :
    ∃ rest, tokens (braces specifiers) = .mark '\x7b' :: rest ∧
      readSpecifiers rest = some specifiers := by
  refine ⟨_, ?_, readSpecifiers_written hne h⟩
  have split : braces specifiers =
      "\x7b" ++ " " ++ (Text.join ", " (specifiers.map written) ++ " " ++ "\x7d") := by
    rw [braces, ← String.toList_inj]
    simp
  rw [split, tokens_space, tokens_space]
  rfl

def specifierList (s : ImportStatement) : List (Bool × String) :=
  s.named.map (false, ·) ++ s.types.map (true, ·)

structure Spelled (s : ImportStatement) : Prop where
  default : ∀ name ∈ s.defaultName, Name.isWellFormed name = true
  namespaced : ∀ name ∈ s.namespaceName, Name.isWellFormed name = true
  named : ∀ name ∈ s.named, IsSpecifier name
  types : ∀ name ∈ s.types, IsSpecifier name

theorem readLine_quoted {head : String} (h : '"' ∉ head.toList) (module : String) :
    readLine (head ++ Text.quoted module ++ ";") = readTokens module (tokens head) := by
  have chars : (head ++ Text.quoted module ++ ";").toList =
      head.toList ++ '"' :: (module.toList.flatMap Text.quoteChar ++ '"' :: [';']) := by
    simp [Text.quoted]
  obtain ⟨hbefore, hafter⟩ :=
    Text.span_separator h (module.toList.flatMap Text.quoteChar ++ '"' :: [';'])
  rw [readLine, chars, hbefore, hafter, String.ofList_toList]
  simp only [Document.readText_quoted]

theorem readLine_line (s : ImportStatement) {what : String} (h : '"' ∉ what.toList) :
    readLine (s.line what) = readDeclared s.module (tokens what) := by
  have split : "import " ++ what ++ " from " =
      "import" ++ " " ++ (what ++ " " ++ ("from" ++ " " ++ "")) := by
    rw [← String.toList_inj]
    simp
  have head : '"' ∉ ("import " ++ what ++ " from ").toList := by simp [h]
  have row : tokens ("import " ++ what ++ " from ") =
      .word "import" :: (tokens what ++ [.word "from"]) := by
    rw [split, tokens_space, tokens_space]
    rfl
  rw [line, readLine_quoted head, row]
  simp [readTokens]

/-! ## What each form of a line declares -/

section Forms

variable {module d n : String} {specifiers : List (Bool × String)}

theorem reads_default (hd : Name.isWellFormed d = true) :
    readDeclared module (tokens d) = some ⟨module, some d, none, [], []⟩ := by
  rw [tokens_name hd]
  rfl

theorem tokens_namespace (hn : Name.isWellFormed n = true) :
    tokens ("* as " ++ n) = [.mark '*', .word "as", .word n] := by
  have split : "* as " ++ n = "*" ++ " " ++ ("as" ++ " " ++ n) := by
    rw [← String.toList_inj]
    simp
  rw [split, tokens_space, tokens_space, tokens_name hn]
  rfl

theorem reads_namespace (hn : Name.isWellFormed n = true) :
    readDeclared module (tokens ("* as " ++ n)) = some ⟨module, none, some n, [], []⟩ := by
  rw [tokens_namespace hn]
  rfl

theorem reads_default_namespace (hd : Name.isWellFormed d = true)
    (hn : Name.isWellFormed n = true) :
    readDeclared module (tokens (d ++ ", * as " ++ n)) =
      some ⟨module, some d, some n, [], []⟩ := by
  have split : d ++ ", * as " ++ n = d ++ ", " ++ ("* as " ++ n) := by
    rw [← String.toList_inj]
    simp
  rw [split, tokens_comma, tokens_name hd, tokens_namespace hn]
  rfl

def ofSpecifiers (module : String) (defaultName : Option String)
    (specifiers : List (Bool × String)) : ImportStatement :=
  ⟨module, defaultName, none, (specifiers.filter (!·.1)).map Prod.snd,
    (specifiers.filter (·.1)).map Prod.snd⟩

theorem reads_braces (hne : specifiers ≠ [])
    (h : ∀ specifier ∈ specifiers, IsSpecifier specifier.2) :
    readDeclared module (tokens (braces specifiers)) =
      some (ofSpecifiers module none specifiers) := by
  obtain ⟨rest, htokens, hrest⟩ := tokens_braces hne h
  simp only [htokens, readDeclared, readClause, hrest]
  rfl

theorem reads_default_braces (hd : Name.isWellFormed d = true) (hne : specifiers ≠ [])
    (h : ∀ specifier ∈ specifiers, IsSpecifier specifier.2) :
    readDeclared module (tokens (d ++ ", " ++ braces specifiers)) =
      some (ofSpecifiers module (some d) specifiers) := by
  obtain ⟨rest, htokens, hrest⟩ := tokens_braces hne h
  rw [tokens_comma, tokens_name hd, htokens]
  simp only [List.singleton_append, readDeclared, readClause, hrest]
  rfl

theorem reads_types (hne : specifiers ≠ [])
    (h : ∀ specifier ∈ specifiers, IsSpecifier specifier.2) :
    readDeclared module (tokens ("type " ++ braces specifiers)) =
      some ⟨module, none, none, [], specifiers.map Prod.snd⟩ := by
  obtain ⟨rest, htokens, hrest⟩ := tokens_braces hne h
  rw [tokens_marked, htokens]
  simp [readDeclared, hrest]

theorem quote_not_mem_braces (h : ∀ specifier ∈ specifiers, IsSpecifier specifier.2) :
    '"' ∉ (braces specifiers).toList := by
  have inner : '"' ∉ (Text.join ", " (specifiers.map written)).toList := by
    intro hmem
    rcases Text.mem_join hmem with hcomma | ⟨part, hpart, hquote⟩
    · simp at hcomma
    · obtain ⟨⟨marked, name⟩, hspecifier, rfl⟩ := List.mem_map.mp hpart
      have hname := (h _ hspecifier).quote_not_mem
      cases marked <;> simp_all [written]
  simp [braces, inner]

end Forms

/-! ## Whole statements -/

theorem specifierList_spelled {s : ImportStatement} (h : s.Spelled) :
    ∀ specifier ∈ s.specifierList, IsSpecifier specifier.2 := by
  intro specifier hspecifier
  rcases List.mem_append.mp hspecifier with hnamed | htypes
  · obtain ⟨name, hname, rfl⟩ := List.mem_map.mp hnamed
    exact h.named name hname
  · obtain ⟨name, hname, rfl⟩ := List.mem_map.mp htypes
    exact h.types name hname

theorem ofSpecifiers_specifierList (s : ImportStatement) (module : String)
    (defaultName : Option String) :
    ofSpecifiers module defaultName s.specifierList =
      ⟨module, defaultName, none, s.named, s.types⟩ := by
  simp [ofSpecifiers, specifierList, List.filter_map, Function.comp_def]

theorem specifierList_eq_nil_iff {s : ImportStatement} :
    s.specifierList = [] ↔ s.named = [] ∧ s.types = [] := by
  simp [specifierList]

/-- The specifiers of a statement are written in braces. Types are marked unless the whole
statement is. -/
theorem clause?_eq (s : ImportStatement) :
    s.clause? =
      if s.specifierList = [] then none
      else some (braces (if s.isTypeOnly then s.types.map (false, ·) else s.specifierList)) := by
  have marked : s.specifierList.map written = s.named ++ s.types.map ("type " ++ ·) := by
    simp [specifierList, written, Function.comp_def]
  have unmarked : (s.types.map (false, ·)).map written = s.types := by
    simp [written, Function.comp_def]
  by_cases hnil : s.specifierList = []
  · rw [if_pos hnil]
    obtain ⟨hnamed, htypes⟩ := specifierList_eq_nil_iff.mp hnil
    simp [clause?, hnamed, htypes]
  · have some_left : (s.named.isEmpty && s.types.isEmpty) = false := by
      rw [specifierList_eq_nil_iff, ← List.isEmpty_iff, ← List.isEmpty_iff,
        ← Bool.and_eq_true] at hnil
      exact Bool.eq_false_iff.mpr hnil
    rw [if_neg hnil, clause?, some_left]
    cases htype : s.isTypeOnly with
    | true =>
      have hnamed : s.named = [] := by simp_all [isTypeOnly]
      simp [braces, unmarked, hnamed]
    | false => simp [braces, marked]

def lineParts (s : ImportStatement) : List ImportStatement :=
  if s.namespaceName.isSome ∧ s.specifierList ≠ [] then
    [⟨s.module, s.defaultName, s.namespaceName, [], []⟩, ⟨s.module, none, none, s.named, s.types⟩]
  else [s]

section Lines

variable {s : ImportStatement} {d n : String} (h : s.Spelled)
include h

theorem reads_clause_line (hne : s.specifierList ≠ []) :
    readLine (s.line (braces s.specifierList)) =
      some ⟨s.module, none, none, s.named, s.types⟩ := by
  have spelled := specifierList_spelled h
  rw [readLine_line s (quote_not_mem_braces spelled), reads_braces hne spelled,
    ofSpecifiers_specifierList]

/-- Lines with neither a default name nor a namespace. -/
theorem reads_lines_plain (hd : s.defaultName = none) (hn : s.namespaceName = none) :
    s.lines.mapM readLine = some s.lineParts := by
  have parts : s.lineParts = [⟨s.module, none, none, s.named, s.types⟩] := by
    obtain ⟨module, d, n, named, types⟩ := s
    simp_all [lineParts]
  by_cases hnil : s.specifierList = []
  · have bare : readLine ("import " ++ Text.quoted s.module ++ ";") =
        some ⟨s.module, none, none, [], []⟩ := readLine_quoted (by decide) s.module
    obtain ⟨hnamed, htypes⟩ := specifierList_eq_nil_iff.mp hnil
    simp [lines, hd, hn, clause?_eq, hnil, bare, parts, hnamed, htypes]
  · by_cases hnamed : s.named = []
    · have types : ∀ specifier ∈ s.types.map (false, ·), IsSpecifier specifier.2 := by
        simpa using h.types
      have hne : s.types.map (false, ·) ≠ [] := by simpa [specifierList, hnamed] using hnil
      have quoteless : '"' ∉ ("type " ++ braces (s.types.map (false, ·))).toList := by
        simp [quote_not_mem_braces types]
      have whole := readLine_line s quoteless
      rw [reads_types hne types] at whole
      simp [lines, hd, hn, clause?_eq, hnil, isTypeOnly, hnamed, whole, parts]
    · simp [lines, hd, hn, clause?_eq, hnil, isTypeOnly, hnamed, reads_clause_line h hnil, parts]

theorem reads_lines_default (hd : s.defaultName = some d) (hn : s.namespaceName = none) :
    s.lines.mapM readLine = some s.lineParts := by
  have hname := h.default d hd
  have quoteless : '"' ∉ d.toList := Name.not_mem_of_not_isPart hname (by decide)
  have parts : s.lineParts = [⟨s.module, some d, none, s.named, s.types⟩] := by
    obtain ⟨module, d, n, named, types⟩ := s
    simp_all [lineParts]
  by_cases hnil : s.specifierList = []
  · have alone := readLine_line s quoteless
    rw [reads_default hname] at alone
    obtain ⟨hnamed, htypes⟩ := specifierList_eq_nil_iff.mp hnil
    simp [lines, hd, hn, clause?_eq, hnil, alone, parts, hnamed, htypes]
  · have spelled := specifierList_spelled h
    have bothQuoteless : '"' ∉ (d ++ ", " ++ braces s.specifierList).toList := by
      simp [quoteless, quote_not_mem_braces spelled]
    have both := readLine_line s bothQuoteless
    rw [reads_default_braces hname hnil spelled, ofSpecifiers_specifierList] at both
    simp [lines, hd, hn, clause?_eq, hnil, isTypeOnly, both, parts]

theorem reads_lines_namespace (hn : s.namespaceName = some n) :
    s.lines.mapM readLine = some s.lineParts := by
  have hname := h.namespaced n hn
  have quoteless : '"' ∉ n.toList := Name.not_mem_of_not_isPart hname (by decide)
  have unmarked : s.isTypeOnly = false := by simp [isTypeOnly, hn]
  -- the first line depends on the default name, a second one only on the specifiers
  obtain ⟨whole, hwhole, hread⟩ : ∃ whole,
      s.lines = s.line whole :: s.clause?.toList.map s.line ∧
      readLine (s.line whole) = some ⟨s.module, s.defaultName, some n, [], []⟩ := by
    cases hd : s.defaultName with
    | none =>
      refine ⟨"* as " ++ n, ?_, ?_⟩
      · cases hclause : s.clause? <;> simp [lines, hd, hn, hclause]
      · rw [readLine_line s (by simp [quoteless]), reads_namespace hname]
    | some d =>
      have hdefault := h.default d hd
      have hquote : '"' ∉ d.toList := Name.not_mem_of_not_isPart hdefault (by decide)
      refine ⟨d ++ ", * as " ++ n, ?_, ?_⟩
      · cases hclause : s.clause? <;> simp [lines, hd, hn, hclause]
      · rw [readLine_line s (by simp [quoteless, hquote]), reads_default_namespace hdefault hname]
  by_cases hnil : s.specifierList = []
  · have parts : s.lineParts = [⟨s.module, s.defaultName, some n, [], []⟩] := by
      obtain ⟨hnamed, htypes⟩ := specifierList_eq_nil_iff.mp hnil
      obtain ⟨module, d, n, named, types⟩ := s
      simp_all [lineParts]
    simp [hwhole, clause?_eq, hnil, hread, parts]
  · simp [hwhole, clause?_eq, hnil, unmarked, hread, reads_clause_line h hnil, lineParts, hn]

/-- Each line of a statement is read as what it declares. -/
theorem reads_lines : s.lines.mapM readLine = some s.lineParts := by
  cases hn : s.namespaceName with
  | some n => exact reads_lines_namespace h hn
  | none =>
    cases hd : s.defaultName with
    | some d => exact reads_lines_default h hd hn
    | none => exact reads_lines_plain h hd hn

end Lines

theorem gather_lineParts (s : ImportStatement) {rest : List ImportStatement}
    (h : ∀ t ∈ (gather rest).head?, s.module ≠ t.module) :
    gather (s.lineParts ++ rest) = s :: gather rest := by
  have alone : ∀ t : ImportStatement, t.module = s.module →
      gather (t :: rest) = t :: gather rest := by
    intro t ht
    rw [gather]
    cases hrest : gather rest with
    | nil => rfl
    | cons u others =>
      have hne : t.module ≠ u.module := ht ▸ h u (by rw [hrest]; rfl)
      simp [hne]
  unfold lineParts
  split
  · have second := alone ⟨s.module, none, none, s.named, s.types⟩ rfl
    rw [List.cons_append, gather, List.singleton_append, second]
    simp
  · exact alone s rfl

theorem mapM_flatMap_lines {statements : List ImportStatement} (h : ∀ s ∈ statements, s.Spelled) :
    (statements.flatMap lines).mapM readLine = some (statements.flatMap lineParts) := by
  induction statements with
  | nil => rfl
  | cons s rest ih =>
    have later := ih fun t ht => h t (by simp [ht])
    simp [List.mapM_append, reads_lines (h s (by simp)), later]

theorem gather_flatMap_lineParts {statements : List ImportStatement}
    (h : (statements.map module).Nodup) :
    gather (statements.flatMap lineParts) = statements := by
  induction statements with
  | nil => rfl
  | cons s rest ih =>
    obtain ⟨hs, hrest⟩ := List.nodup_cons.mp h
    have later := ih hrest
    rw [List.flatMap_cons, gather_lineParts, later]
    rw [later]
    intro t ht hmodule
    exact hs (List.mem_map.mpr ⟨t, List.mem_of_head? ht, hmodule.symm⟩)

theorem readLines_lines {statements : List ImportStatement} (h : ∀ s ∈ statements, s.Spelled)
    (hn : (statements.map module).Nodup) :
    readLines (statements.flatMap lines) = some statements := by
  rw [readLines, mapM_flatMap_lines h, Option.map_some, gather_flatMap_lineParts hn]

theorem Before.module_ne {s t : ImportStatement} (h : s.Before t) : s.module ≠ t.module := by
  intro heq
  rcases h with hrank | ⟨-, hlt⟩
  · rw [tier, tier, heq] at hrank
    exact Nat.lt_irrefl _ hrank
  · exact hlt.ne heq

end ImportStatement

namespace Imports

variable {a b imports : Imports}

theorem readLines_imports (h : imports.Reachable)
    (hspelled : ∀ s ∈ imports.statements, s.Spelled) :
    ImportStatement.readLines imports.lines = some imports.statements := by
  apply ImportStatement.readLines_lines hspelled
  rw [List.Nodup, List.pairwise_map]
  exact (statements_ordered h.kept.increasing).imp ImportStatement.Before.module_ne

/-- The lines of a collection are read as its statements. Two collections with the same lines
have the same statements. -/
theorem statements_eq_of_lines (ha : a.Reachable) (hb : b.Reachable)
    (hspelled : ∀ s ∈ a.statements, s.Spelled) (hspelled' : ∀ s ∈ b.statements, s.Spelled)
    (h : a.lines = b.lines) :
    a.statements = b.statements ∧ ImportStatement.readLines a.lines = some a.statements := by
  have first := readLines_imports ha hspelled
  have second := readLines_imports hb hspelled'
  rw [← h, first] at second
  exact ⟨Option.some.inj second, first⟩

end Imports

namespace Sample

open Imports

def chartImports : Imports :=
  empty.run [.addDefault "Chart" "./a \"chart\"", .addNamespace "All" "./a \"chart\"",
    .addTypes ["Point as P"] "./a \"chart\"", .addNamed ["scale", "axis as y"] "./a \"chart\"",
    .addTypes ["Unit"] "./units", .addSideEffect "./chart.css"]

def laterChartImports : Imports :=
  (empty.run [.addSideEffect "./chart.css", .addTypes ["Unit"] "./units", .addLink,
    .addDefault "Plot" "./a \"chart\"", .remove "next/link"]).merge
    (empty.run [.addNamed ["axis as y"] "./a \"chart\"", .addDefault "Chart" "./a \"chart\"",
      .addNamespace "All" "./a \"chart\"", .addTypes ["Point  as P"] "./a \"chart\"",
      .addNamed ["scale"] "./a \"chart\""])

def chartStatements : List ImportStatement := [
  ⟨"./a \"chart\"", some "Chart", some "All", ["axis as y", "scale"], ["Point as P"]⟩,
  ⟨"./chart.css", none, none, [], []⟩, ⟨"./units", none, none, [], ["Unit"]⟩]

theorem chartStatements_spelled : ∀ s ∈ chartStatements, s.Spelled := by
  have axis : IsSpecifier "axis as y" := .inr ⟨"axis", "y", by decide, by decide, by decide⟩
  have point : IsSpecifier "Point as P" := .inr ⟨"Point", "P", by decide, by decide, by decide⟩
  have scale : IsSpecifier "scale" := .inl (by decide)
  have unit : IsSpecifier "Unit" := .inl (by decide)
  simp only [chartStatements, List.forall_mem_cons]
  refine ⟨⟨?_, ?_, ?_, ?_⟩, ⟨?_, ?_, ?_, ?_⟩, ⟨?_, ?_, ?_, ?_⟩, ?_⟩ <;>
    simp [axis, point, scale, unit] <;> decide

/-- Two ways to the same lines, over a module whose name is escaped and that takes two lines. -/
theorem statements_eq_of_lines_chart :
    chartImports.lines = laterChartImports.lines ∧ chartImports.lines.length = 4 ∧
    chartImports.statements = laterChartImports.statements ∧
    ImportStatement.readLines chartImports.lines = some chartImports.statements := by
  have earlier : chartImports.statements = chartStatements := by decide +kernel
  have later : laterChartImports.statements = chartStatements := by decide +kernel
  have same : chartImports.lines = laterChartImports.lines := by decide +kernel
  have reached := Reachable.empty.run
  exact ⟨same, by decide +kernel,
    statements_eq_of_lines (reached _) ((reached _).merge (reached _))
      (earlier ▸ chartStatements_spelled) (later ▸ chartStatements_spelled) same⟩

end Sample

end Pagewright

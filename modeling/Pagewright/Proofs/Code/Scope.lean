import Mathlib.Data.List.DropRight
import Pagewright.Code.Module
import Pagewright.Proofs.Code.Name
import Pagewright.Proofs.Text.Split

/-!
# Names that code declares

A reader of declarations: which names a pattern binds, which a statement declares as
constants, and which name a top-level block introduces. It looks at the printed text
alone. What functions and blocks are said to bind is what the reader finds in their
text, whenever the names they are given have the form of names. In a whole module it
can be told to look at the lines without indentation only; then an indented block holds
nothing for it, whatever its lines are.
-/

set_option autoImplicit false

namespace Pagewright

namespace Scope

def fieldTarget (field : List Char) : String :=
  Text.trim (String.ofList (field.rtakeWhile (· != ':')))

def patternNames (cs : List Char) : List String :=
  let targets := if cs.head? = some '\x7b' then
      (Text.splitChars ',' (cs.tail.takeWhile (· != '\x7d'))).map fieldTarget
    else [String.ofList (cs.takeWhile Name.isPart)]
  targets.filter (!·.isEmpty)

def statementNames (code : String) : List String :=
  if Text.startsWith code "const " then patternNames (code.toList.drop 6) else []

def declarationWords : List String :=
  ["export ", "default ", "async ", "type ", "const ", "function "]

def afterWords (cs : List Char) : List Char :=
  declarationWords.foldl (fun cs word =>
    if word.toList.isPrefixOf cs then cs.drop word.length else cs) cs

def declarationName (code : String) : String :=
  String.ofList ((afterWords code.toList).takeWhile Name.isPart)

def leadingName (cs : List Char) : String :=
  String.ofList ((cs.dropWhile Text.isBlankChar).takeWhile Name.isPart)

def topLines (source : String) : List String :=
  (Text.split '\n' source).filter fun line => !Text.startsWith line Text.indentUnit

def fromTop (read : String → List String) (source : String) : List String :=
  (topLines source).flatMap read

/-! ## Patterns -/

theorem space_isBlank : ∀ c ∈ [' '], Text.isBlankChar c = true := List.all_eq_true.mp (by decide)

section Patterns

variable {name : String} (h : Name.isWellFormed name = true)

include h

theorem patternNames_name {stop : Char} (hstop : Name.isPart stop = false) (rest : List Char) :
    patternNames (name.toList ++ stop :: rest) = [name] := by
  obtain ⟨c, others, hname, hstart, _⟩ := Name.wellFormed_chars h
  have brace : (name.toList ++ stop :: rest).head? ≠ some '\x7b' := by
    rw [hname, List.cons_append, List.head?_cons, Ne, Option.some.injEq]
    rintro rfl
    exact absurd hstart (by decide)
  have taken : (name.toList ++ stop :: rest).takeWhile Name.isPart = name.toList :=
    Name.takeWhile_isPart (fun _ hc => Name.isPart_of_mem h hc) hstop rest
  simp only [patternNames, if_neg brace, taken, String.ofList_toList]
  simp [(Name.unbroken_of_isWellFormed h).1]

theorem colon_free {before after : List Char}
    (hbefore : ∀ c ∈ before, Text.isBlankChar c = true)
    (hafter : ∀ c ∈ after, Text.isBlankChar c = true) :
    ∀ c ∈ before ++ name.toList ++ after, (c != ':') = true := by
  simp only [List.forall_mem_append, bne_iff_ne]
  refine ⟨⟨?_, ?_⟩, ?_⟩
  · rintro c hc rfl
    exact absurd (hbefore _ hc) (by decide)
  · rintro c hc rfl
    exact absurd (Name.isPart_of_mem h hc) (by decide)
  · rintro c hc rfl
    exact absurd (hafter _ hc) (by decide)

theorem trim_padded {before after : List Char}
    (hbefore : ∀ c ∈ before, Text.isBlankChar c = true)
    (hafter : ∀ c ∈ after, Text.isBlankChar c = true) :
    Text.trim (String.ofList (before ++ name.toList ++ after)) = name := by
  have unbroken := Name.unbroken_of_isWellFormed h
  rw [Text.trim, String.toList_ofList, Text.trim_pad _ _ _ hbefore hafter]
  exact Text.trim_unbroken fun _ hc => unbroken.not_blank hc

theorem fieldTarget_name {before after : List Char}
    (hbefore : ∀ c ∈ before, Text.isBlankChar c = true)
    (hafter : ∀ c ∈ after, Text.isBlankChar c = true) :
    fieldTarget (before ++ name.toList ++ after) = name := by
  rw [fieldTarget, List.rtakeWhile_eq_self_iff.mpr (colon_free h hbefore hafter)]
  exact trim_padded h hbefore hafter

theorem fieldTarget_renamed (key : List Char) {before after : List Char}
    (hbefore : ∀ c ∈ before, Text.isBlankChar c = true)
    (hafter : ∀ c ∈ after, Text.isBlankChar c = true) :
    fieldTarget (key ++ ':' :: (before ++ name.toList ++ after)) = name := by
  have free : ∀ c ∈ (before ++ name.toList ++ after).reverse, (c != ':') = true :=
    fun c hc => colon_free h hbefore hafter c (List.mem_reverse.mp hc)
  have last : (key ++ ':' :: (before ++ name.toList ++ after)).rtakeWhile (· != ':') =
      before ++ name.toList ++ after := by
    rw [List.rtakeWhile, List.reverse_append, List.reverse_cons, List.append_assoc,
      List.takeWhile_append_of_pos free, List.singleton_append,
      List.takeWhile_cons_of_neg (by decide), List.append_nil, List.reverse_reverse]
  rw [fieldTarget, last]
  exact trim_padded h hbefore hafter

end Patterns

theorem patternNames_fields {fields : List Char} (h : '\x7d' ∉ fields) (rest : List Char) :
    patternNames ('\x7b' :: fields ++ '\x7d' :: rest) =
      ((Text.splitChars ',' fields).map fieldTarget).filter (!·.isEmpty) := by
  have inner : (fields ++ '\x7d' :: rest).takeWhile (· != '\x7d') = fields := by
    have free : ∀ c ∈ fields, (c != '\x7d') = true := by
      rintro c hc
      rw [bne_iff_ne]
      rintro rfl
      exact h hc
    rw [List.takeWhile_append_of_pos free, List.takeWhile_cons_of_neg (by decide), List.append_nil]
  simp only [patternNames, List.cons_append, List.head?_cons, if_true, List.tail_cons, inner]

theorem filter_wellFormed {names : List String}
    (h : ∀ name ∈ names, Name.isWellFormed name = true) : names.filter (!·.isEmpty) = names := by
  rw [List.filter_eq_self]
  intro name hname
  simp [(Name.unbroken_of_isWellFormed (h name hname)).1]

theorem statementNames_const {code : String} {cs : List Char}
    (h : code.toList = "const ".toList ++ cs) : statementNames code = patternNames cs := by
  have opened : Text.startsWith code "const " = true := by
    rw [Text.startsWith, h, List.isPrefixOf_iff_prefix]
    exact List.prefix_append _ _
  rw [statementNames, if_pos opened, h]
  rfl

theorem statementNames_name {code name : String} (h : Name.isWellFormed name = true)
    (hcode : "const ".toList ++ name.toList ++ [' '] <+: code.toList) :
    statementNames code = [name] := by
  obtain ⟨rest, hrest⟩ := hcode
  rw [List.append_assoc, List.append_assoc, List.singleton_append] at hrest
  rw [statementNames_const hrest.symm, patternNames_name h (by decide)]

/-- After `const` the reader still looks for `function`. -/
theorem afterWords_const {cs : List Char} (h : "function ".toList.isPrefixOf cs = false) :
    afterWords ("const ".toList ++ cs) = cs := by
  change (if "function ".toList.isPrefixOf cs = true then cs.drop "function ".length else cs) = cs
  rw [h]
  rfl

theorem leadingName_name {name : String} (h : Name.isWellFormed name = true)
    {ending : List Char} (hending : ending.takeWhile Name.isPart = []) :
    leadingName (name.toList ++ ending) = name := by
  have start : (name.toList ++ ending).dropWhile Text.isBlankChar = name.toList ++ ending := by
    obtain ⟨c, others, hname, _, _⟩ := Name.wellFormed_chars h
    have solid := (Name.unbroken_of_isWellFormed h).not_blank (by simp [hname] : c ∈ name.toList)
    rw [hname, List.cons_append, List.dropWhile_cons_of_neg (by simp [solid])]
  have parts : ∀ c ∈ name.toList, Name.isPart c = true := fun _ hc => Name.isPart_of_mem h hc
  rw [leadingName, start, List.takeWhile_append_of_pos parts, hending, List.append_nil,
    String.ofList_toList]

theorem leadingName_space (cs : List Char) : leadingName (' ' :: cs) = leadingName cs := by
  rw [leadingName, List.dropWhile_cons_of_pos (by decide)]
  rfl

/-! ## Lines without indentation -/

section FromTop

open Text

variable {read : String → List String}

theorem fromTop_append (s t : String) :
    fromTop read (s ++ "\n" ++ t) = fromTop read s ++ fromTop read t := by
  rw [fromTop, topLines, show ("\n" : String) = String.singleton '\n' from rfl, split_append,
    List.filter_append, List.flatMap_append]
  rfl

theorem fromTop_line {line : String} (hline : OneLine line)
    (htop : startsWith line indentUnit = false) : fromTop read line = read line := by
  rw [fromTop, topLines, split_unbroken hline, List.filter_cons_of_pos (by simp [htop])]
  simp

theorem fromTop_indented {line : String} (hline : OneLine line)
    (hindented : startsWith line indentUnit = true) : fromTop read line = [] := by
  rw [fromTop, topLines, split_unbroken hline, List.filter_cons_of_neg (by simp [hindented])]
  rfl

variable (hempty : read "" = [])

include hempty

theorem fromTop_empty : fromTop read "" = [] := (fromTop_line (by decide) (by decide)).trans hempty

theorem fromTop_join {between : String}
    (hbetween : ∀ s t, fromTop read (s ++ between ++ t) = fromTop read s ++ fromTop read t)
    (parts : List String) : fromTop read (join between parts) = parts.flatMap (fromTop read) := by
  induction parts with
  | nil => exact fromTop_empty hempty
  | cons part rest ih =>
    cases rest with
    | nil => simp [join]
    | cons next others =>
      rw [join_cons_cons, hbetween, ih]
      rfl

theorem fromTop_unlines (parts : List String) :
    fromTop read (unlines parts) = parts.flatMap (fromTop read) :=
  fromTop_join hempty fromTop_append parts

theorem fromTop_paragraph (s t : String) :
    fromTop read (s ++ "\n\n" ++ t) = fromTop read s ++ fromTop read t := by
  have gap : s ++ "\n\n" ++ t = s ++ "\n" ++ ("" ++ "\n" ++ t) := by
    rw [← String.toList_inj]
    simp
  rw [gap, fromTop_append, fromTop_append, fromTop_empty hempty, List.nil_append]

theorem fromTop_assembleModule (directive : Option String) (imports blocks : List String) :
    fromTop read (assembleModule directive imports blocks) =
      directive.toList.flatMap (fromTop read) ++ fromTop read (unlines imports) ++
        blocks.flatMap (fromTop read) := by
  have block : (if imports.isEmpty then [] else [unlines imports]).flatMap (fromTop read) =
      fromTop read (unlines imports) := by
    cases imports with
    | nil => exact (fromTop_empty hempty).symm
    | cons line rest => simp
  have ending : assembleModule directive imports blocks =
      join "\n\n" (directive.toList ++ (if imports.isEmpty then [] else [unlines imports]) ++
        blocks) ++ "\n" ++ "" := by
    simp [assembleModule]
  rw [ending, fromTop_append, fromTop_join hempty (fromTop_paragraph hempty),
    fromTop_empty hempty, List.flatMap_append, List.flatMap_append, block, List.append_nil]

/-- A block that is indented has nothing for a reader of the other lines. -/
theorem fromTop_indentBlock (depth : Nat) (block : String) :
    fromTop read (indentBlock (depth + 1) block) = [] := by
  rw [indentBlock, fromTop_unlines hempty, List.flatMap_eq_nil_iff]
  intro line hline
  obtain ⟨bare, hbare, rfl⟩ := List.mem_map.mp hline
  split
  · exact fromTop_empty hempty
  · apply fromTop_indented
    · exact oneLine_append.mpr ⟨oneLine_indent _, oneLine_of_mem_lines hbare⟩
    · rw [indent, String.append_assoc]
      exact startsWith_append _ _

end FromTop

end Scope

/-! ## Route parameters -/

namespace RouteParam

open Scope

variable {p : RouteParam}

theorem rawName_isWellFormed (h : Name.isWellFormed p.name = true) :
    Name.isWellFormed p.rawName = true := by
  obtain ⟨name, kind⟩ := p
  cases kind with
  | number => exact Name.isWellFormed_append h (List.all_eq_true.mp (by decide))
  | string => exact h
  | catchAll => exact h
  | optionalCatchAll => exact h

theorem pattern_chars (h : Name.isWellFormed p.name = true) :
    ∀ c ∈ p.pattern.toList, Name.isPart c = true ∨ c = ':' ∨ c = ' ' := by
  have name : ∀ c ∈ p.name.toList, Name.isPart c = true ∨ c = ':' ∨ c = ' ' :=
    fun c hc => .inl (Name.isPart_of_mem h hc)
  have raw : ∀ c ∈ p.rawName.toList, Name.isPart c = true ∨ c = ':' ∨ c = ' ' :=
    fun c hc => .inl (Name.isPart_of_mem (rawName_isWellFormed h) hc)
  unfold pattern
  split
  · rw [String.toList_append, String.toList_append, List.forall_mem_append,
      List.forall_mem_append]
    exact ⟨⟨name, by simp⟩, raw⟩
  · exact name

theorem fieldTarget_pattern (h : Name.isWellFormed p.name = true) {before after : List Char}
    (hbefore : ∀ c ∈ before, Text.isBlankChar c = true)
    (hafter : ∀ c ∈ after, Text.isBlankChar c = true) :
    fieldTarget (before ++ p.pattern.toList ++ after) = p.rawName := by
  have raw := rawName_isWellFormed h
  obtain ⟨name, kind⟩ := p
  cases kind with
  | number =>
    have renamed := fieldTarget_renamed raw (before ++ name.toList) space_isBlank hafter
    simpa [pattern] using renamed
  | string => exact fieldTarget_name h hbefore hafter
  | catchAll => exact fieldTarget_name h hbefore hafter
  | optionalCatchAll => exact fieldTarget_name h hbefore hafter

/-- The fields of a pattern for parameters bind the parameters' names before conversion. -/
theorem fieldTargets_patterns {params : List RouteParam} (hne : params ≠ [])
    (h : ∀ p ∈ params, Name.isWellFormed p.name = true) {before after : List Char}
    (hbefore : ∀ c ∈ before, Text.isBlankChar c = true)
    (hafter : ∀ c ∈ after, Text.isBlankChar c = true) :
    (Text.splitChars ',' (before ++ (Text.join ", " (params.map pattern)).toList ++ after)).map
      fieldTarget = params.map rawName := by
  have commaFree : ∀ p ∈ params, ',' ∉ p.pattern.toList := fun p hp hc =>
    absurd (pattern_chars (h p hp) _ hc) (by decide)
  have blankFree : ∀ cs : List Char, (∀ c ∈ cs, Text.isBlankChar c = true) → ',' ∉ cs :=
    fun cs hcs hc => absurd (hcs _ hc) (by decide)
  induction params generalizing before with
  | nil => exact absurd rfl hne
  | cons p rest ih =>
    have first : ',' ∉ before ++ p.pattern.toList := by
      simp [blankFree before hbefore, commaFree p (by simp)]
    cases rest with
    | nil =>
      have whole : ',' ∉ before ++ p.pattern.toList ++ after := by
        simp only [List.mem_append, not_or] at first ⊢
        exact ⟨first, blankFree after hafter⟩
      simp only [List.map_cons, List.map_nil, Text.join, Text.splitChars_unbroken whole,
        fieldTarget_pattern (h p (by simp)) hbefore hafter]
    | cons q others =>
      have later := ih (by simp) (fun r hr => h r (List.mem_cons_of_mem _ hr))
        space_isBlank (fun r hr => commaFree r (List.mem_cons_of_mem _ hr))
      have cut : before ++ (Text.join ", " ((p :: q :: others).map pattern)).toList ++ after =
          (before ++ p.pattern.toList) ++ ',' ::
            ([' '] ++ (Text.join ", " ((q :: others).map pattern)).toList ++ after) := by
        simp [Text.join]
      have here := fieldTarget_pattern (h p (by simp)) hbefore (by simp : ∀ c ∈ [], _)
      rw [List.append_nil] at here
      rw [cut, Text.splitChars_append, Text.splitChars_unbroken first, List.map_append, later,
        List.map_singleton, here]
      rfl

theorem patternNames_patterns {params : List RouteParam} (hne : params ≠ [])
    (h : ∀ p ∈ params, Name.isWellFormed p.name = true) (rest : List Char) :
    patternNames ('\x7b' :: ([' '] ++ (Text.join ", " (params.map pattern)).toList ++ [' ']) ++
      '\x7d' :: rest) = params.map rawName := by
  have brace : '\x7d' ∉ [' '] ++ (Text.join ", " (params.map pattern)).toList ++ [' '] := by
    simp only [List.mem_append, not_or]
    refine ⟨⟨by decide, fun hc => ?_⟩, by decide⟩
    rcases Text.mem_join hc with hc | ⟨part, hpart, hc⟩
    · exact absurd hc (by decide)
    · obtain ⟨p, hp, rfl⟩ := List.mem_map.mp hpart
      exact absurd (pattern_chars (h p hp) _ hc) (by decide)
  rw [patternNames_fields brace, fieldTargets_patterns hne h space_isBlank space_isBlank]
  apply filter_wellFormed
  rw [List.forall_mem_map]
  exact fun p hp => rawName_isWellFormed (h p hp)

end RouteParam

/-! ## Functions -/

open Scope

def Setup.binds : Setup → List String
  | .stub name => [name]
  | .fetched name => [name]
  | .paramsHook _ => ["params"]
  | .paramsField p => [p.rawName]
  | .paramsPattern params => params.map RouteParam.rawName
  | .conversion p => [p.name]
  | .effect _ => []

def Setup.WellNamed : Setup → Prop
  | .stub name => Name.isWellFormed name = true
  | .fetched name => Name.isWellFormed name = true
  | .paramsHook _ => True
  | .paramsField p => Name.isWellFormed p.name = true
  | .paramsPattern params => params ≠ [] ∧ ∀ p ∈ params, Name.isWellFormed p.name = true
  | .conversion p => Name.isWellFormed p.name = true
  | .effect code => Text.startsWith code "const " = false

theorem Setup.statementNames_code (typeScript : Bool) {s : Setup} (h : s.WellNamed) :
    statementNames (s.code typeScript) = s.binds := by
  cases s with
  | stub name =>
    change statementNames ("const " ++ name ++ " = () => \x7b\x7d;") = [name]
    exact statementNames_name h (by simp)
  | fetched name =>
    change statementNames ("const " ++ name ++ " = await getData();") = [name]
    exact statementNames_name h (by simp)
  | paramsHook params =>
    have opening :
        "const ".toList ++ "params".toList ++ [' '] <+: "const params = useParams".toList := by
      decide
    change statementNames ("const params = useParams" ++ _ ++ "();") = ["params"]
    rw [String.append_assoc]
    refine statementNames_name (by decide) (opening.trans ?_)
    rw [String.toList_append]
    exact List.prefix_append _ _
  | paramsField p =>
    change statementNames ("const " ++ p.rawName ++ " = params." ++ p.name ++ ";") = [p.rawName]
    exact statementNames_name (RouteParam.rawName_isWellFormed h) (by simp)
  | paramsPattern params =>
    have chars : (code typeScript (.paramsPattern params)).toList = "const ".toList ++
        ('\x7b' :: ([' '] ++ (Text.join ", " (params.map RouteParam.pattern)).toList ++ [' ']) ++
          '\x7d' :: " = await params;".toList) := by
      change ("const \x7b " ++ _ ++ " \x7d = await params;").toList = _
      simp
    rw [statementNames_const chars]
    exact RouteParam.patternNames_patterns h.1 h.2 _
  | conversion p =>
    change statementNames ("const " ++ p.name ++ " = Number(" ++ p.rawName ++ ");") = [p.name]
    exact statementNames_name h (by simp)
  | effect code =>
    change Text.startsWith code "const " = false at h
    change statementNames code = []
    rw [statementNames, h]
    rfl

def Parameters.binds : Parameters → List String
  | .none => []
  | .data name => [name]
  | .routeParams => ["params"]
  | .fixed typed _ => patternNames typed.toList

def ComponentFunction.locals (f : ComponentFunction) : List String :=
  f.parameters.binds ++ f.setup.flatMap Setup.binds

/-- The parameters are given names where their text needs names; a fixed pattern binds the same
with types and without. -/
def Parameters.WellNamed : Parameters → Prop
  | .none => True
  | .data name => Name.isWellFormed name = true
  | .routeParams => True
  | .fixed typed untyped => patternNames untyped.toList = patternNames typed.toList

theorem Parameters.patternNames_code (typeScript : Bool) {parameters : Parameters}
    (h : parameters.WellNamed) :
    patternNames (parameters.code typeScript).toList = parameters.binds := by
  cases parameters with
  | none => rfl
  | data name =>
    have comma : ',' ∉ [' '] ++ name.toList ++ [' '] := by
      simp [Name.not_mem_of_not_isPart h (by decide : Name.isPart ',' = false)]
    have brace : '\x7d' ∉ [' '] ++ name.toList ++ [' '] := by
      simp [Name.not_mem_of_not_isPart h (by decide : Name.isPart '\x7d' = false)]
    have field : ∀ rest, patternNames
        ('\x7b' :: ([' '] ++ name.toList ++ [' ']) ++ '\x7d' :: rest) = [name] := by
      intro rest
      rw [patternNames_fields brace, Text.splitChars_unbroken comma, List.map_singleton,
        fieldTarget_name h space_isBlank space_isBlank]
      exact filter_wellFormed (List.forall_mem_singleton.mpr h)
    cases typeScript with
    | true =>
      have chars : ("\x7b " ++ name ++ " \x7d: \x7b " ++ name ++ ": unknown \x7d").toList =
          '\x7b' :: ([' '] ++ name.toList ++ [' ']) ++
            '\x7d' :: (": \x7b " ++ name ++ ": unknown \x7d").toList := by
        simp
      exact (congrArg patternNames chars).trans (field _)
    | false =>
      have chars : ("\x7b " ++ name ++ " \x7d").toList =
          '\x7b' :: ([' '] ++ name.toList ++ [' ']) ++ '\x7d' :: [] := by
        simp
      exact (congrArg patternNames chars).trans (field _)
  | routeParams => cases typeScript <;> decide
  | fixed typed untyped =>
    cases typeScript with
    | true => rfl
    | false => exact h

/-! ## Blocks -/

namespace ComponentFunction

theorem render_opening (options : Options) (f : ComponentFunction) :
    ∃ tail, f.render options = (if f.isDefault then "export default " else "export ") ++
      ((if f.isAsync then "async " else "") ++ ("function " ++ (f.name ++ ("(" ++ tail)))) := by
  unfold render
  simp only [String.append_assoc]
  exact ⟨_, rfl⟩

theorem declarationName_render (options : Options) {f : ComponentFunction}
    (h : ∀ c ∈ f.name.toList, Name.isPart c = true) :
    declarationName (f.render options) = f.name := by
  obtain ⟨tail, htail⟩ := f.render_opening options
  -- the words before the name depend on two flags, and the reader passes over them in any case
  have words : afterWords (f.render options).toList = f.name.toList ++ '(' :: tail.toList := by
    rw [htail]
    simp only [String.toList_append]
    cases f.isDefault <;> cases f.isAsync <;> rfl
  rw [declarationName, words, Name.takeWhile_isPart h (by decide), String.ofList_toList]

end ComponentFunction

def Block.declares : Block → String
  | .metadata _ => "metadata"
  | .fetch _ => "getData"
  | .routeProps _ => "PageProps"
  | .staticParams => "generateStaticParams"
  | .component f => f.name

theorem Block.declarationName_render (options : Options) {b : Block}
    (h : ∀ c ∈ b.declares.toList, Name.isPart c = true) :
    declarationName (b.render options) = b.declares := by
  cases b with
  | metadata value =>
    change declarationName (Metadata.staticCode value options.typeScript) = "metadata"
    unfold declarationName Metadata.staticCode
    simp only [String.toList_append, List.append_assoc]
    cases options.typeScript <;> rfl
  | fetch fetching =>
    obtain ⟨tail, htail⟩ : ∃ tail, fetching.fetchCode options.typeScript =
        "async function getData()" ++ tail := by
      obtain ⟨tail, htail⟩ := Text.join_cons "\n" ("async function getData()" ++
        (if options.typeScript then ": Promise<unknown>" else "") ++ " \x7b") _
      rw [String.append_assoc, String.append_assoc] at htail
      exact ⟨_, htail⟩
    change declarationName (fetching.fetchCode options.typeScript) = "getData"
    rw [htail, declarationName, String.toList_append]
    rfl
  | routeProps params =>
    change declarationName ("type PageProps = \x7b\n" ++ _ ++ _ ++ _ ++ _) = "PageProps"
    simp only [declarationName, String.toList_append, List.append_assoc]
    rfl
  | staticParams =>
    change declarationName ("export async function generateStaticParams() \x7b\n" ++ _ ++ _) = _
    simp only [declarationName, String.toList_append, List.append_assoc]
    rfl
  | component f => exact f.declarationName_render options h

end Pagewright

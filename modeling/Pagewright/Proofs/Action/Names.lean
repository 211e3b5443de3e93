import Pagewright.Generator.Basic
import Pagewright.Proofs.Code.Scope
import Pagewright.Proofs.Import.ReadBack
import Pagewright.Proofs.Page.IslandNames

/-!
# Names in an action module

The module is read by its lines without indentation. The given body is indented and
cannot be mistaken for one of them, whatever it holds. So the reader finds the imported
names, the schema and the action, and the parameters of the function, in the order of
the text. The schema never shares its name. The action may be called like what its
module imports, and nothing keeps parameters apart from each other or from the constant
that holds the checked arguments.
-/

set_option autoImplicit false

namespace Pagewright

open Text

/-! ## Reading a line -/

namespace Scope

def lineNames (line : String) : List String :=
  if startsWith line "import " then
    ((ImportStatement.readLine line).map ImportStatement.bindings).getD []
  else if declarationWords.any (startsWith line) then [declarationName line]
  else []

def sourceNames (source : String) : List String := fromTop lineNames source

def lineParameters (line : String) : List String :=
  if startsWith line "export async function " then
    ((splitChars ',' ((line.toList.dropWhile (· ≠ '(')).tail.takeWhile (· ≠ ')'))).map
      leadingName).filter (!·.isEmpty)
  else []

def sourceParameters (source : String) : List String := fromTop lineParameters source

theorem lineNames_declaration {line name word : String} {stop : Char} {rest : List Char}
    (hname : Name.isWellFormed name = true) (himport : startsWith line "import " = false)
    (hword : word ∈ declarationWords) (hopened : startsWith line word = true)
    (hstop : Name.isPart stop = false)
    (hafter : afterWords line.toList = name.toList ++ stop :: rest) : lineNames line = [name] := by
  have declared : declarationName line = name := by
    rw [declarationName, hafter,
      Name.takeWhile_isPart (fun _ hc => Name.isPart_of_mem hname hc) hstop, String.ofList_toList]
  rw [lineNames, if_neg (by simp [himport]), if_pos (List.any_eq_true.mpr ⟨word, hword, hopened⟩),
    declared]

end Scope

/-! ## The text of an action module -/

namespace Action

def signature (name parameters : String) : String :=
  "export async function " ++ name ++ "(" ++ parameters ++ ") \x7b"

def schemaOpening (action : String) : String :=
  "const " ++ schemaName action ++ " = z.object(\x7b"

structure PassesMarks (read : String → List String) : Prop where
  empty : read "" = []
  directive : read Action.directive = []
  brace : read "\x7d" = []
  parenthesis : read "\x7d);" = []

theorem passesMarks_lineNames : PassesMarks Scope.lineNames :=
  ⟨by decide, by decide, by decide, by decide⟩

theorem passesMarks_lineParameters : PassesMarks Scope.lineParameters :=
  ⟨by decide, by decide, by decide, by decide⟩

theorem function_eq (name parameters : String) (statements : List String) :
    function name parameters statements = signature name parameters ++ "\n" ++
      indentBlock 1 (unlines statements) ++ "\n" ++ "\x7d" := by
  have opening : ") \x7b\n" = ") \x7b" ++ "\n" := rfl
  have ending : "\n\x7d" = "\n" ++ "\x7d" := rfl
  unfold function signature
  rw [opening, ending]
  simp only [String.append_assoc]

theorem oneLine_schemaLine (coerce : Bool) (field : ActionField) :
    OneLine (schemaLine coerce field) := by
  obtain ⟨name, type, required⟩ := field
  have rule : OneLine (type.schema coerce) := by cases type <;> cases coerce <;> decide
  have missing : OneLine (if coerce then ".nullish()" else ".optional()") := by
    cases coerce <;> decide
  simp only [schemaLine, oneLine_append]
  refine ⟨⟨⟨⟨⟨oneLine_indent 1, Name.oneLine_objectKey name⟩, by decide⟩, rule⟩, ?_⟩, by decide⟩
  cases required with
  | true => exact (by decide : OneLine "")
  | false => exact missing

theorem schemaLine_indented (coerce : Bool) (field : ActionField) :
    startsWith (schemaLine coerce field) indentUnit = true := by
  simp only [schemaLine, indent, String.append_assoc]
  exact startsWith_append _ _

section Reading

variable {read : String → List String} (h : PassesMarks read)

include h

open Scope in
theorem fromTop_function {name parameters : String} (hname : OneLine name)
    (hparameters : OneLine parameters) (statements : List String) :
    fromTop read (function name parameters statements) = read (signature name parameters) := by
  have line : OneLine (signature name parameters) := by
    unfold signature
    simp only [oneLine_append]
    exact ⟨⟨⟨⟨by decide, hname⟩, by decide⟩, hparameters⟩, by decide⟩
  have top : startsWith (signature name parameters) indentUnit = false := by
    unfold signature startsWith
    simp only [String.toList_append, List.append_assoc]
    rfl
  have brace : fromTop read "\x7d" = [] := (fromTop_line (by decide) (by decide)).trans h.brace
  rw [function_eq, fromTop_append, fromTop_append, fromTop_line line top,
    fromTop_indentBlock h.empty, brace, List.append_nil, List.append_nil]

open Scope in
theorem fromTop_schemaBlock {action : String} (haction : OneLine action)
    (fields : List ActionField) (coerce : Bool) :
    fromTop read (schemaBlock action fields coerce) = read (schemaOpening action) := by
  have line : OneLine (schemaOpening action) := by
    unfold schemaOpening schemaName
    simp only [oneLine_append]
    exact ⟨⟨by decide, haction, by decide⟩, by decide⟩
  have top : startsWith (schemaOpening action) indentUnit = false := by
    unfold schemaOpening startsWith
    simp only [String.toList_append, List.append_assoc]
    rfl
  have fieldLines : (fields.map (schemaLine coerce)).flatMap (fromTop read) = [] := by
    rw [List.flatMap_map, List.flatMap_eq_nil_iff]
    exact fun field _ =>
      fromTop_indented (oneLine_schemaLine coerce field) (schemaLine_indented coerce field)
  have ending : fromTop read "\x7d);" = [] :=
    (fromTop_line (by decide) (by decide)).trans h.parenthesis
  rw [schemaBlock, ← schemaOpening, fromTop_unlines h.empty, List.cons_append, List.flatMap_cons,
    List.flatMap_append, fieldLines, fromTop_line line top, List.flatMap_singleton, ending,
    List.append_nil, List.append_nil]

end Reading

/-! ## What the lines bind -/

/-- The last letter of the schema's name is that of the ending. -/
theorem schemaName_ne {action name : String} (h : name.toList.getLast? ≠ some 'a') :
    schemaName action ≠ name := by
  rintro rfl
  apply h
  rw [schemaName, String.toList_append, List.getLast?_append_of_ne_nil _ (by decide)]
  rfl

theorem imports_lines (validates revalidates : Bool) : (imports validates revalidates).lines =
    (if revalidates then ["import \x7b revalidatePath \x7d from \"next/cache\";"] else []) ++
      (if validates then ["import \x7b z \x7d from \"zod\";"] else []) := by
  cases validates <;> cases revalidates <;> decide +kernel

theorem imports_bindings (validates revalidates : Bool) : (imports validates revalidates).bindings =
    (if revalidates then ["revalidatePath"] else []) ++ (if validates then ["z"] else []) := by
  cases validates <;> cases revalidates <;> decide +kernel

theorem sourceNames_imports (validates revalidates : Bool) :
    Scope.sourceNames (unlines (imports validates revalidates).lines) =
      (imports validates revalidates).bindings := by
  have cache : Scope.fromTop Scope.lineNames
      "import \x7b revalidatePath \x7d from \"next/cache\";" = ["revalidatePath"] := by
    decide +kernel
  have schema : Scope.fromTop Scope.lineNames "import \x7b z \x7d from \"zod\";" = ["z"] := by
    decide +kernel
  rw [Scope.sourceNames, Scope.fromTop_unlines passesMarks_lineNames.empty, imports_lines,
    imports_bindings, List.flatMap_append]
  cases validates <;> cases revalidates <;> simp [cache, schema]

theorem sourceParameters_imports (validates revalidates : Bool) :
    Scope.sourceParameters (unlines (imports validates revalidates).lines) = [] := by
  have cache : Scope.fromTop Scope.lineParameters
      "import \x7b revalidatePath \x7d from \"next/cache\";" = [] := by decide +kernel
  have schema : Scope.fromTop Scope.lineParameters "import \x7b z \x7d from \"zod\";" = [] := by
    decide +kernel
  rw [Scope.sourceParameters, Scope.fromTop_unlines passesMarks_lineParameters.empty, imports_lines,
    List.flatMap_append]
  cases validates <;> cases revalidates <;> simp [cache, schema]

theorem lineNames_signature {name : String} (h : Name.isWellFormed name = true)
    (parameters : String) : Scope.lineNames (signature name parameters) = [name] := by
  have chars : (signature name parameters).toList = "export async function ".toList ++
      (name.toList ++ '(' :: (parameters ++ ") \x7b").toList) := by
    unfold signature
    simp only [String.toList_append, List.append_assoc]
    rfl
  have foreign : startsWith (signature name parameters) "import " = false := by
    rw [startsWith, chars]
    rfl
  have opened : startsWith (signature name parameters) "export " = true := by
    rw [startsWith, chars]
    rfl
  have words : Scope.afterWords (signature name parameters).toList =
      name.toList ++ '(' :: (parameters ++ ") \x7b").toList := by
    rw [chars]
    rfl
  exact Scope.lineNames_declaration h foreign (by decide) opened (by decide) words

theorem lineNames_schemaOpening {action : String} (h : Name.isWellFormed action = true) :
    Scope.lineNames (schemaOpening action) = [schemaName action] := by
  have chars : (schemaOpening action).toList = "const ".toList ++
      ((schemaName action).toList ++ ' ' :: "= z.object(\x7b".toList) := by
    unfold schemaOpening
    simp only [String.toList_append, List.append_assoc]
    rfl
  have name : Name.isWellFormed (schemaName action) = true :=
    Name.isWellFormed_append h (List.all_eq_true.mp (by decide))
  have foreign : startsWith (schemaOpening action) "import " = false := by
    rw [startsWith, chars]
    rfl
  have opened : startsWith (schemaOpening action) "const " = true := by
    rw [startsWith, chars]
    rfl
  have noFunction : "function ".toList.isPrefixOf
      ((schemaName action).toList ++ ' ' :: "= z.object(\x7b".toList) = false := by
    rw [← Bool.not_eq_true, List.isPrefixOf_iff_prefix]
    rintro ⟨rest, hrest⟩
    have word : (("function".toList ++ ' ' :: rest).takeWhile Name.isPart) = "function".toList :=
      Name.takeWhile_isPart (List.all_eq_true.mp (by decide)) (by decide) rest
    have named := Name.takeWhile_isPart (fun _ hc => Name.isPart_of_mem name hc)
      (by decide : Name.isPart ' ' = false) "= z.object(\x7b".toList
    rw [← hrest] at named
    exact schemaName_ne (by decide) (String.toList_inj.mp (named.symm.trans word))
  have words : Scope.afterWords (schemaOpening action).toList =
      (schemaName action).toList ++ ' ' :: "= z.object(\x7b".toList := by
    rw [chars, Scope.afterWords_const noFunction]
  exact Scope.lineNames_declaration name foreign (by decide) opened (by decide) words

theorem lineParameters_schemaOpening (action : String) :
    Scope.lineParameters (schemaOpening action) = [] := by
  unfold Scope.lineParameters schemaOpening startsWith
  simp only [String.toList_append, List.append_assoc]
  rfl

theorem mem_bindings_imports (validates revalidates : Bool) (name : String) :
    name ∈ (imports validates revalidates).bindings ↔
      validates = true ∧ name = "z" ∨ revalidates = true ∧ name = "revalidatePath" := by
  rw [imports_bindings, List.mem_append, or_comm]
  cases validates <;> cases revalidates <;> simp

theorem nodup_bindings_imports (validates revalidates : Bool) :
    (imports validates revalidates).bindings.Nodup := by
  rw [imports_bindings]
  cases validates <;> cases revalidates <;> decide

end Action

/-! ## Parameters -/

namespace ServerAction

def typing (typeScript required : Bool) (type : FieldType) : String :=
  if typeScript then (if required then "" else "?") ++ ": " ++ type.scriptType else ""

theorem parameter_eq (typeScript : Bool) (p : ActionField) :
    parameter typeScript p = p.name ++ typing typeScript p.required p.type := by
  cases typeScript with
  | true => simp [parameter, typing, String.append_assoc]
  | false => simp [parameter, typing]

/-- No type is mistaken for a part of the name or of the list. -/
theorem typing_chars (typeScript required : Bool) (type : FieldType) :
    (typing typeScript required type).toList.takeWhile Name.isPart = [] ∧
      ',' ∉ (typing typeScript required type).toList ∧
      ')' ∉ (typing typeScript required type).toList ∧
      OneLine (typing typeScript required type) := by
  cases typeScript <;> cases required <;> cases type <;> decide

section Parameters

variable {typeScript : Bool}

theorem leadingName_parameter {p : ActionField} (h : Name.isWellFormed p.name = true) :
    Scope.leadingName (parameter typeScript p).toList = p.name := by
  rw [parameter_eq, String.toList_append]
  exact Scope.leadingName_name h (typing_chars typeScript p.required p.type).1

theorem not_mem_parameter {p : ActionField} (h : Name.isWellFormed p.name = true) :
    ',' ∉ (parameter typeScript p).toList ∧ ')' ∉ (parameter typeScript p).toList ∧
      OneLine (parameter typeScript p) := by
  obtain ⟨_, comma, parenthesis, line⟩ := typing_chars typeScript p.required p.type
  have apart : ∀ c, Name.isPart c = false → c ∉ p.name.toList :=
    fun c hc => Name.not_mem_of_not_isPart h hc
  rw [parameter_eq, oneLine_append, String.toList_append, List.mem_append, List.mem_append,
    not_or, not_or]
  exact ⟨⟨apart _ (by decide), comma⟩, ⟨apart _ (by decide), parenthesis⟩,
    apart _ (by decide), line⟩

def parameterList (typeScript : Bool) (params : List ActionField) : String :=
  join ", " (params.map (parameter typeScript))

variable {params : List ActionField} (h : ∀ p ∈ params, Name.isWellFormed p.name = true)

include h

theorem parameterList_chars :
    ')' ∉ (parameterList typeScript params).toList ∧
      OneLine (parameterList typeScript params) := by
  constructor
  · intro hmem
    rcases mem_join hmem with hbetween | ⟨part, hpart, hc⟩
    · exact absurd hbetween (by decide)
    · obtain ⟨p, hp, rfl⟩ := List.mem_map.mp hpart
      exact (not_mem_parameter (h p hp)).2.1 hc
  · apply oneLine_join (by decide)
    rw [List.forall_mem_map]
    exact fun p hp => (not_mem_parameter (h p hp)).2.2

theorem leadingNames_parameterList :
    ((splitChars ',' (parameterList typeScript params).toList).map Scope.leadingName).filter
      (!·.isEmpty) = params.map ActionField.name := by
  cases params with
  | nil => rfl
  | cons p rest =>
    have commaFree : ∀ part ∈ (p :: rest).map (parameter typeScript), ',' ∉ part.toList := by
      rw [List.forall_mem_map]
      exact fun q hq => (not_mem_parameter (h q hq)).1
    have first : Scope.leadingName (parameter typeScript p).toList = p.name :=
      leadingName_parameter (h p (by simp))
    have later : (rest.map (parameter typeScript)).map
        (fun part => Scope.leadingName (' ' :: part.toList)) = rest.map ActionField.name := by
      rw [List.map_map, List.map_inj_left]
      intro q hq
      exact (Scope.leadingName_space _).trans
        (leadingName_parameter (h q (List.mem_cons_of_mem _ hq)))
    have names : (splitChars ',' (parameterList typeScript (p :: rest)).toList).map
        Scope.leadingName = (p :: rest).map ActionField.name := by
      rw [parameterList, List.map_cons, splitChars_join commaFree, List.map_cons, first,
        List.map_map]
      exact congrArg (p.name :: ·) later
    rw [names]
    apply Scope.filter_wellFormed
    rw [List.forall_mem_map]
    exact h

theorem lineParameters_signature {name : String} (hname : Name.isWellFormed name = true) :
    Scope.lineParameters (Action.signature name (parameterList typeScript params)) =
      params.map ActionField.name := by
  have chars : (Action.signature name (parameterList typeScript params)).toList =
      ("export async function ".toList ++ name.toList) ++
        '(' :: ((parameterList typeScript params).toList ++ ')' :: " \x7b".toList) := by
    unfold Action.signature
    simp only [String.toList_append, List.append_assoc]
    rfl
  have opened : startsWith (Action.signature name (parameterList typeScript params))
      "export async function " = true := by
    rw [startsWith, chars, List.append_assoc, List.isPrefixOf_iff_prefix]
    exact List.prefix_append _ _
  have before : '(' ∉ "export async function ".toList ++ name.toList := by
    rw [List.mem_append, not_or]
    exact ⟨by decide, Name.not_mem_of_not_isPart hname (by decide)⟩
  rw [Scope.lineParameters, if_pos opened, chars, (span_separator before _).2, List.tail_cons,
    (span_separator (parameterList_chars h).1 _).1, leadingNames_parameterList h]

end Parameters

/-! ## The module and the function -/

def opening (a : ServerAction) : List String :=
  if a.validates then
    ["const input = " ++ Action.schemaName a.name ++ ".parse(\x7b " ++
      join ", " (a.params.map ActionField.name) ++ " \x7d);"]
  else []

def closing (a : ServerAction) : List String :=
  Action.revalidation a.revalidatePath ++
    (if !(trim a.body).isEmpty then []
      else if a.validates then ["return \x7b success: true, data: input \x7d;"]
      else ["return \x7b success: true \x7d;"])

theorem statements_eq (a : ServerAction) :
    a.statements = a.opening ++ Action.bodyStatements a.body ++ a.closing := by
  unfold statements opening closing
  rw [List.append_assoc]

def generatedNames (a : ServerAction) : List String :=
  (a.opening ++ a.closing).flatMap Scope.statementNames

theorem generatedNames_eq (a : ServerAction) :
    a.generatedNames = if a.validates then ["input"] else [] := by
  have before : a.opening.flatMap Scope.statementNames =
      if a.validates then ["input"] else [] := by
    unfold opening
    split
    · rw [List.flatMap_singleton]
      refine Scope.statementNames_name (by decide) ?_
      simp only [String.toList_append, List.append_assoc]
      exact List.prefix_append _ _
    · rfl
  have revalidation : (Action.revalidation a.revalidatePath).flatMap Scope.statementNames = [] := by
    rw [Action.revalidation, List.flatMap_map, List.flatMap_eq_nil_iff]
    intro path _
    unfold Scope.statementNames startsWith
    simp only [String.toList_append, List.append_assoc]
    rfl
  have answer : (if !(trim a.body).isEmpty then []
      else if a.validates then ["return \x7b success: true, data: input \x7d;"]
      else ["return \x7b success: true \x7d;"]).flatMap Scope.statementNames = [] := by
    split
    · rfl
    · split <;> decide
  have after : a.closing.flatMap Scope.statementNames = [] := by
    rw [closing, List.flatMap_append, revalidation, answer, List.append_nil]
  rw [generatedNames, List.flatMap_append, before, after, List.append_nil]

def moduleNames (a : ServerAction) : List String :=
  a.imports.bindings ++ (if a.validates then [Action.schemaName a.name] else []) ++ [a.name]

def locals (a : ServerAction) : List String :=
  a.params.map ActionField.name ++ (if a.validates then ["input"] else [])

structure WellNamed (a : ServerAction) : Prop where
  name : Name.isWellFormed a.name = true
  params : ∀ p ∈ a.params, Name.isWellFormed p.name = true

section WellNamed

variable {a : ServerAction} (h : a.WellNamed) (typeScript : Bool)

include h

theorem fromTop_render {read : String → List String} (hread : Action.PassesMarks read) :
    Scope.fromTop read (a.render typeScript) =
      Scope.fromTop read (unlines a.imports.lines) ++
        (if a.validates then read (Action.schemaOpening a.name) else []) ++
        read (Action.signature a.name (parameterList typeScript a.params)) := by
  have name : OneLine a.name := Name.oneLine_of_isWellFormed h.name
  have parameters : OneLine (parameterList typeScript a.params) := (parameterList_chars h.params).2
  have directive : Scope.fromTop read Action.directive = [] :=
    (Scope.fromTop_line (by decide) (by decide)).trans hread.directive
  have schema : (if a.validates then [Action.schemaBlock a.name a.params false] else []).flatMap
      (Scope.fromTop read) = if a.validates then read (Action.schemaOpening a.name) else [] := by
    split
    · rw [List.flatMap_singleton, Action.fromTop_schemaBlock hread name]
    · rfl
  rw [render, Scope.fromTop_assembleModule hread.empty, List.flatMap_append, schema,
    List.flatMap_singleton, ← parameterList, Action.fromTop_function hread name parameters]
  change [Action.directive].flatMap _ ++ _ ++ _ = _
  rw [List.flatMap_singleton, directive, List.nil_append, List.append_assoc]

theorem sourceNames_render : Scope.sourceNames (a.render typeScript) = a.moduleNames := by
  rw [Scope.sourceNames, fromTop_render h typeScript Action.passesMarks_lineNames,
    ← Scope.sourceNames, imports, Action.sourceNames_imports, Action.lineNames_signature h.name,
    Action.lineNames_schemaOpening h.name, moduleNames, imports]

theorem sourceParameters_render :
    Scope.sourceParameters (a.render typeScript) = a.params.map ActionField.name := by
  rw [Scope.sourceParameters, fromTop_render h typeScript Action.passesMarks_lineParameters,
    ← Scope.sourceParameters, imports, Action.sourceParameters_imports,
    lineParameters_signature h.params h.name, Action.lineParameters_schemaOpening, ite_self]
  rfl

end WellNamed

theorem schemaName_unbound (a : ServerAction) :
    Action.schemaName a.name ∉ a.imports.bindings ∧ Action.schemaName a.name ≠ a.name := by
  constructor
  · rw [imports, Action.mem_bindings_imports]
    rintro (⟨_, heq⟩ | ⟨_, heq⟩)
    · exact Action.schemaName_ne (by decide) heq
    · exact Action.schemaName_ne (by decide) heq
  · intro heq
    have length := congrArg String.length heq
    rw [Action.schemaName, String.length_append] at length
    have ending : "Schema".length = 6 := by decide
    omega

/-- The schema shares its name with nothing, so that only the action can meet an import. -/
theorem moduleNames_nodup_iff (a : ServerAction) :
    a.moduleNames.Nodup ↔ (a.validates = true → a.name ≠ "z") ∧
      (a.revalidatePath.isSome = true → a.name ≠ "revalidatePath") := by
  obtain ⟨free, apart⟩ := a.schemaName_unbound
  have distinct : a.imports.bindings.Nodup := Action.nodup_bindings_imports _ _
  have before : (a.imports.bindings ++
      (if a.validates then [Action.schemaName a.name] else [])).Nodup := by
    split
    · exact distinct.append (List.nodup_singleton _) (by simpa using free)
    · simpa using distinct
  have other : a.name ∉ if a.validates then [Action.schemaName a.name] else [] := by
    split
    · simpa using Ne.symm apart
    · exact List.not_mem_nil
  have only : a.moduleNames.Nodup ↔ a.name ∉ a.imports.bindings := by
    rw [moduleNames, List.nodup_append', and_iff_right before,
      and_iff_right (List.nodup_singleton _), List.disjoint_singleton, List.mem_append, not_or,
      and_iff_left other]
  rw [only, imports, Action.mem_bindings_imports, not_or, not_and, not_and]

theorem locals_nodup_iff (a : ServerAction) :
    a.locals.Nodup ↔ (a.params.map ActionField.name).Nodup ∧
      (a.validates = true → "input" ∉ a.params.map ActionField.name) := by
  unfold locals
  cases a.validates <;> simp [List.nodup_append]

end ServerAction

namespace Toolchain

variable {t : Toolchain} {a : ServerAction} {file : OutputFile}

theorem file_of_generateServerAction (h : t.generateServerAction a = .ok file) :
    a.WellNamed ∧ file = t.actionFile a.name (a.render t.options.typeScript) := by
  unfold generateServerAction at h
  split at h
  · cases h
  rename_i hname
  rw [Bool.not_eq_true', Bool.not_eq_false] at hname
  split at h
  · rename_i hparams
    cases h
    rw [actionViolations, List.map_eq_nil_iff, List.filter_eq_nil_iff] at hparams
    refine ⟨⟨Name.isWellFormed_of_isIdentifier hname, fun p hp => ?_⟩, rfl⟩
    exact Name.isWellFormed_of_isIdentifier (by simpa using hparams p hp)
  · cases h

/-- An action module binds each name of module scope once exactly if the action is not called like
an import that the module has, and its function binds each name once exactly if no two parameters
share a name and none has that of the constant for the checked arguments. -/
theorem action_names_distinct_iff (h : t.generateServerAction a = .ok file) :
    let source := a.render t.options.typeScript
    file = t.actionFile a.name source ∧
    a.statements = a.opening ++ Action.bodyStatements a.body ++ a.closing ∧
    ((Scope.sourceNames source).Nodup ↔ (a.validates = true → a.name ≠ "z") ∧
      (a.revalidatePath.isSome = true → a.name ≠ "revalidatePath")) ∧
    ((Scope.sourceParameters source ++ a.generatedNames).Nodup ↔
      (a.params.map ActionField.name).Nodup ∧
        (a.validates = true → "input" ∉ a.params.map ActionField.name)) := by
  intro source
  obtain ⟨named, hfile⟩ := file_of_generateServerAction h
  refine ⟨hfile, a.statements_eq, ?_, ?_⟩
  · rw [ServerAction.sourceNames_render named]
    exact a.moduleNames_nodup_iff
  · rw [ServerAction.sourceParameters_render named, a.generatedNames_eq]
    exact a.locals_nodup_iff

end Toolchain

namespace Sample

def clash : ServerAction where
  name := "z"
  params := [⟨"input", .string, true⟩]
  body := ""
  validate := true
  revalidatePath := none

theorem action_names_distinct_iff_clash :
    ∃ file, toolchain.generateServerAction clash = .ok file ∧
      let source := clash.render toolchain.options.typeScript
      file = toolchain.actionFile "z" source ∧
      ¬ (Scope.sourceNames source).Nodup ∧
      ¬ (Scope.sourceParameters source ++ clash.generatedNames).Nodup := by
  obtain ⟨file, hfile⟩ : ∃ file, toolchain.generateServerAction clash = .ok file := ⟨_, rfl⟩
  obtain ⟨content, _, outer, inner⟩ := Toolchain.action_names_distinct_iff hfile
  refine ⟨file, hfile, content, ?_, ?_⟩
  · exact fun distinct => (outer.mp distinct).1 rfl rfl
  · exact fun distinct => (inner.mp distinct).2 rfl (List.mem_singleton_self _)

end Sample

end Pagewright

import Pagewright.Proofs.Code.Name
import Pagewright.Proofs.Types.Inference

/-!
# Names in the types file

A reader of the types file that looks at the openings of its lines finds one name for each
declaration. A name is made from a kind by dropping all but letters and digits, raising
those that open a word, and adding an ending. So two kinds share a name exactly if this
leaves nothing to tell them apart, and a name is no identifier exactly if what it opens
with is a digit. Neither can happen with kinds that are capitalised words.
-/

set_option autoImplicit false

namespace Pagewright

open Text

/-! ## Reading the file -/

def typeOpenings : List String := ["export type ", "export interface "]

def declaredName? (line : String) : Option String :=
  (typeOpenings.find? (startsWith line)).map fun opening =>
    String.ofList ((line.toList.drop opening.length).takeWhile Name.isPart)

def declaredNames (file : String) : List String := (split '\n' file).filterMap declaredName?

theorem declaredName?_eq_none {line : String} {c : Char} (hfirst : line.toList.head? = some c)
    (hc : c ≠ 'e') : declaredName? line = none := by
  obtain ⟨rest, hline⟩ := List.head?_eq_some_iff.mp hfirst
  have closed : ∀ opening ∈ typeOpenings, startsWith line opening = false := by
    simp [typeOpenings, startsWith, hline, List.isPrefixOf, Ne.symm hc]
  rw [declaredName?, List.find?_eq_none.mpr fun opening h => by simp [closed opening h]]
  rfl

/-- The name goes up to the first character that cannot be part of one. -/
theorem declaredName?_eq_some {opening name ending : String} {stop : Char} {rest : List Char}
    (hfind : typeOpenings.find? (startsWith (opening ++ name ++ ending)) = some opening)
    (hname : ∀ c ∈ name.toList, Name.isPart c = true) (hending : ending.toList = stop :: rest)
    (hstop : Name.isPart stop = false) :
    declaredName? (opening ++ name ++ ending) = some name := by
  have after : (opening ++ name ++ ending).toList.drop opening.length =
      name.toList ++ stop :: rest := by
    rw [String.toList_append, String.toList_append, hending, List.append_assoc,
      ← String.length_toList, List.drop_left]
  rw [declaredName?, hfind, Option.map_some, after, Name.takeWhile_isPart hname hstop,
    String.ofList_toList]

theorem oneLine_unionType {types : List String} (h : ∀ type ∈ types, OneLine type) :
    OneLine (unionType types) :=
  oneLine_join (by decide) fun type htype => h type ((Sorted.mem_ofList types type).mp htype)

theorem oneLine_listType {types : List String} (h : ∀ type ∈ types, OneLine type) :
    OneLine (listType types) := by
  have distinct : ∀ type ∈ FirstSeen.ofList types, OneLine type :=
    fun type htype => h type ((FirstSeen.mem_ofList types type).mp htype)
  unfold listType
  split
  · decide
  · rename_i one hone
    exact oneLine_append.mpr ⟨distinct one (by simp [hone]), by decide⟩
  · exact oneLine_append.mpr ⟨oneLine_append.mpr ⟨by decide, oneLine_unionType distinct⟩, by decide⟩

namespace Json

mutual

theorem oneLine_typeText : ∀ value : Json, OneLine value.typeText
  | .null | .bool _ | .whole _ | .real _ | .text _ => by
    rw [typeText]
    decide
  | .list items => by
    rw [typeText]
    exact oneLine_listType (oneLine_itemTypes items)
  | .object [] => by decide
  | .object (field :: fields) => by
    rw [typeText, oneLine_append, oneLine_append]
    · exact ⟨⟨by decide, oneLine_join (by decide) (oneLine_fieldTypes (field :: fields))⟩,
        by decide⟩
    · simp

theorem oneLine_itemTypes : ∀ items : List Json, ∀ type ∈ itemTypes items, OneLine type
  | [] => by simp [itemTypes]
  | item :: rest => by
    rw [itemTypes, List.forall_mem_cons]
    exact ⟨oneLine_typeText item, oneLine_itemTypes rest⟩

theorem oneLine_fieldTypes : ∀ fields : List (String × Json),
    ∀ type ∈ fieldTypes fields, OneLine type
  | [] => by simp [fieldTypes]
  | (key, value) :: rest => by
    rw [fieldTypes, List.forall_mem_cons, oneLine_append, oneLine_append]
    exact ⟨⟨⟨Name.oneLine_objectKey key, by decide⟩, oneLine_typeText value⟩,
      oneLine_fieldTypes rest⟩

end

end Json

theorem oneLine_propertyType (name : String) (value : Json) :
    OneLine (propertyType name value) := by
  unfold propertyType
  split
  · decide
  · exact value.oneLine_typeText

namespace PropertyDeclaration

theorem oneLine_render {p : PropertyDeclaration} (h : OneLine p.type) : OneLine p.render := by
  simp only [render, oneLine_append]
  refine ⟨⟨⟨⟨⟨oneLine_indent 1, Name.oneLine_objectKey p.name⟩, ?_⟩, by decide⟩, h⟩, by decide⟩
  cases p.optional <;> decide

/-- Properties are indented, and no declaration is. -/
theorem declaredName?_render (p : PropertyDeclaration) : declaredName? p.render = none := by
  refine declaredName?_eq_none (c := ' ') ?_ (by decide)
  simp only [render, String.toList_append, List.append_assoc]
  rfl

end PropertyDeclaration

namespace TypeDeclaration

def lines (d : TypeDeclaration) : List String :=
  if d.properties.isEmpty then ["export type " ++ d.interfaceName ++ " = Record<string, never>;"]
  else
    ("export interface " ++ d.interfaceName ++ " \x7b") ::
      d.properties.map PropertyDeclaration.render ++ ["\x7d"]

theorem render_eq (d : TypeDeclaration) : d.render = unlines d.lines := by
  unfold render lines
  split <;> rfl

/-- A declaration declares its name, whatever its properties are. -/
theorem declaredNames_lines {d : TypeDeclaration}
    (h : ∀ c ∈ d.interfaceName.toList, Name.isPart c = true) :
    d.lines.filterMap declaredName? = [d.interfaceName] := by
  unfold lines
  split
  · have name : declaredName? ("export type " ++ d.interfaceName ++ " = Record<string, never>;") =
        some d.interfaceName := by
      refine declaredName?_eq_some ?_ h rfl (by decide)
      simp [typeOpenings, startsWith, List.isPrefixOf]
    rw [List.filterMap_cons_some name]
    rfl
  · have name : declaredName? ("export interface " ++ d.interfaceName ++ " \x7b") =
        some d.interfaceName := by
      refine declaredName?_eq_some ?_ h rfl (by decide)
      simp [typeOpenings, startsWith, List.isPrefixOf]
    have inside : (d.properties.map PropertyDeclaration.render).filterMap declaredName? = [] := by
      simp [PropertyDeclaration.declaredName?_render]
    have brace : declaredName? "\x7d" = none := declaredName?_eq_none rfl (by decide)
    rw [List.cons_append, List.filterMap_cons_some name, List.filterMap_append, inside,
      List.filterMap_cons_none brace]
    rfl

theorem declaredNames_render {d : TypeDeclaration}
    (h : ∀ c ∈ d.interfaceName.toList, Name.isPart c = true)
    (htypes : ∀ p ∈ d.properties, OneLine p.type) : declaredNames d.render = [d.interfaceName] := by
  have oneLine : ∀ line ∈ d.lines, OneLine line := by
    have name : OneLine d.interfaceName := by
      intro hbreak
      exact absurd (h _ hbreak) (by decide)
    unfold lines
    split
    · simp only [List.mem_singleton, forall_eq, oneLine_append]
      exact ⟨⟨by decide, name⟩, by decide⟩
    · simp only [List.cons_append, List.forall_mem_cons, List.forall_mem_append, oneLine_append]
      refine ⟨⟨⟨by decide, name⟩, by decide⟩, ?_, by decide⟩
      intro line hline
      obtain ⟨p, hp, rfl⟩ := List.mem_map.mp hline
      exact PropertyDeclaration.oneLine_render (htypes p hp)
  have nonempty : d.lines ≠ [] := by
    unfold lines
    split <;> simp
  rw [declaredNames, render_eq, split_unlines nonempty oneLine, declaredNames_lines h]

end TypeDeclaration

theorem declaredNames_append (s t : String) :
    declaredNames (s ++ "\n" ++ t) = declaredNames s ++ declaredNames t := by
  rw [declaredNames, show ("\n" : String) = String.singleton '\n' from rfl, split_append,
    List.filterMap_append]
  rfl

theorem declaredNames_empty : declaredNames "" = [] := by decide

/-- Declarations are set apart by empty lines, which declare nothing. -/
theorem declaredNames_renderTypes {ds : List TypeDeclaration}
    (h : ∀ d ∈ ds, declaredNames d.render = [d.interfaceName]) :
    declaredNames (renderTypes ds) = ds.map TypeDeclaration.interfaceName := by
  have joined : declaredNames (join "\n\n" (ds.map TypeDeclaration.render)) =
      ds.map TypeDeclaration.interfaceName := by
    induction ds with
    | nil => exact declaredNames_empty
    | cons d rest ih =>
      have later := ih fun e he => h e (List.mem_cons_of_mem _ he)
      cases rest with
      | nil => exact h d (by simp)
      | cons e rest =>
        have spaced : join "\n\n" ((d :: e :: rest).map TypeDeclaration.render) =
            d.render ++ "\n" ++
              ("" ++ "\n" ++ join "\n\n" ((e :: rest).map TypeDeclaration.render)) := by
          rw [List.map_cons, List.map_cons, join_cons_cons]
          simp only [String.append_assoc, String.empty_append]
          rfl
        rw [spaced, declaredNames_append, declaredNames_append, later, h d (by simp),
          declaredNames_empty]
        rfl
  rw [renderTypes, ← String.append_empty (s := _ ++ "\n"), declaredNames_append, joined,
    declaredNames_empty, List.append_nil]

/-! ## Names of kinds -/

def interfaceNameOf (kind : String) : String := Name.pascalCase kind ++ "Props"

theorem toList_interfaceNameOf (kind : String) :
    (interfaceNameOf kind).toList = Name.raiseWords false kind.toList ++ "Props".toList := by
  rw [interfaceNameOf, String.toList_append, Name.pascalCase, String.toList_ofList]

theorem interfaceNameOf_isPart (kind : String) :
    ∀ c ∈ (interfaceNameOf kind).toList, Name.isPart c = true := by
  rw [toList_interfaceNameOf, List.forall_mem_append]
  refine ⟨fun c hc => ?_, List.all_eq_true.mp (by decide)⟩
  exact Name.isPart_of_isWordPart (Name.raiseWords_isWordPart false kind.toList c hc)

/-- No reserved word has the ending of these names. -/
theorem interfaceNameOf_not_reserved (kind : String) :
    Name.isReserved (interfaceNameOf kind) = false := by
  have ending : ∀ word ∈ Name.reservedWords, endsWith word "Props" = false := by
    simpa using (by decide : (Name.reservedWords.all fun word => !(endsWith word "Props")) = true)
  rw [Name.isReserved, ← Bool.not_eq_true, List.contains_iff_mem]
  intro hmem
  have closed : endsWith (interfaceNameOf kind) "Props" = true := by
    rw [endsWith, toList_interfaceNameOf, List.isSuffixOf_iff_suffix]
    exact List.suffix_append _ _
  rw [ending _ hmem] at closed
  cases closed

/-- A name is an identifier unless the first letter or digit of the kind is a digit. -/
theorem isIdentifier_interfaceNameOf_iff (kind : String) :
    Name.isIdentifier (interfaceNameOf kind) = true ↔
      ∀ first, kind.toList.find? Name.isWordPart = some first → first.isDigit = false := by
  have parts := interfaceNameOf_isPart kind
  have opening := Name.head?_raiseWords kind.toList
  rw [toList_interfaceNameOf] at parts
  rw [Name.isIdentifier, interfaceNameOf_not_reserved, Bool.not_false, Bool.and_true,
    Name.isWellFormed, toList_interfaceNameOf]
  cases hraised : Name.raiseWords false kind.toList with
  | nil =>
    rw [hraised, List.head?_nil, eq_comm, Option.map_eq_none_iff] at opening
    rw [opening]
    refine ⟨fun _ first h => ?_, fun _ => by decide⟩
    cases h
  | cons c rest =>
    rw [hraised, List.head?_cons, eq_comm, Option.map_eq_some_iff] at opening
    obtain ⟨first, hfirst, rfl⟩ := opening
    have word : Name.isWordPart first.toUpper = true :=
      Name.raiseWords_isWordPart false kind.toList _ (by simp [hraised])
    have later : (rest ++ "Props".toList).all Name.isPart = true :=
      List.all_eq_true.mpr fun d hd => parts d (by rw [hraised]; exact List.mem_cons_of_mem _ hd)
    simp only [List.cons_append, later, Bool.and_true, Name.isStart_of_isWordPart word,
      Name.isDigit_toUpper, hfirst, Option.some.injEq, forall_eq', Bool.not_eq_true']

theorem inferTypes_interfaceNames (components : List Component) :
    (inferTypes components).map TypeDeclaration.interfaceName =
      (Sorted.ofList (components.map Component.kind)).map interfaceNameOf := by
  rw [inferTypes, List.map_map]
  rfl

theorem mem_kinds {components : List Component} {kind : String} :
    kind ∈ Sorted.ofList (components.map Component.kind) ↔ ∃ c ∈ components, c.kind = kind := by
  rw [Sorted.mem_ofList, List.mem_map]

theorem declaredNames_inferTypes (components : List Component) :
    declaredNames (renderTypes (inferTypes components)) =
      (inferTypes components).map TypeDeclaration.interfaceName := by
  apply declaredNames_renderTypes
  intro d hd
  obtain ⟨kind, _, rfl⟩ := List.mem_map.mp hd
  refine TypeDeclaration.declaredNames_render (interfaceNameOf_isPart kind) ?_
  intro p hp
  obtain ⟨name, _, rfl⟩ := List.mem_map.mp hp
  refine oneLine_unionType fun type htype => ?_
  obtain ⟨value, _, rfl⟩ := List.mem_map.mp htype
  exact oneLine_propertyType name value

/-- Names differ exactly if the kinds differ in more than separators and the case of letters that
open a word. -/
theorem interfaceNames_nodup_iff (components : List Component) :
    ((inferTypes components).map TypeDeclaration.interfaceName).Nodup ↔
      ∀ c ∈ components, ∀ d ∈ components,
        Name.pascalCase c.kind = Name.pascalCase d.kind → c.kind = d.kind := by
  have once : (Sorted.ofList (components.map Component.kind)).Nodup :=
    (Sorted.ofList_increasing _).nodup
  rw [inferTypes_interfaceNames, List.nodup_map_iff_inj_on once]
  constructor
  · intro h c hc d hd heq
    refine h c.kind (mem_kinds.mpr ⟨c, hc, rfl⟩) d.kind (mem_kinds.mpr ⟨d, hd, rfl⟩) ?_
    rw [interfaceNameOf, heq, interfaceNameOf]
  · intro h a ha b hb heq
    obtain ⟨c, hc, rfl⟩ := mem_kinds.mp ha
    obtain ⟨d, hd, rfl⟩ := mem_kinds.mp hb
    exact h c hc d hd (between_injective "" "Props" (by simpa [interfaceNameOf] using heq))

theorem interfaceNames_isIdentifier_iff (components : List Component) :
    (∀ name ∈ (inferTypes components).map TypeDeclaration.interfaceName,
        Name.isIdentifier name = true) ↔
      ∀ c ∈ components, ∀ first, c.kind.toList.find? Name.isWordPart = some first →
        first.isDigit = false := by
  rw [inferTypes_interfaceNames, List.forall_mem_map]
  constructor
  · intro h c hc
    exact (isIdentifier_interfaceNameOf_iff c.kind).mp (h c.kind (mem_kinds.mpr ⟨c, hc, rfl⟩))
  · intro h kind hkind
    obtain ⟨c, hc, rfl⟩ := mem_kinds.mp hkind
    exact (isIdentifier_interfaceNameOf_iff c.kind).mpr (h c hc)

/-- The types file declares the names of the inferred declarations. They are pairwise distinct
exactly if no two kinds have the same words in capitals, and identifiers exactly if no kind has a
digit before its first letter. Both hold if the kinds are capitalised words. -/
theorem declared_names_valid_iff (components : List Component) :
    let names := declaredNames (renderTypes (inferTypes components))
    names = (inferTypes components).map TypeDeclaration.interfaceName ∧
    (names.Nodup ↔ ∀ c ∈ components, ∀ d ∈ components,
      Name.pascalCase c.kind = Name.pascalCase d.kind → c.kind = d.kind) ∧
    ((∀ name ∈ names, Name.isIdentifier name = true) ↔
      ∀ c ∈ components, ∀ first, c.kind.toList.find? Name.isWordPart = some first →
        first.isDigit = false) ∧
    ((∀ c ∈ components, Name.Capitalised c.kind) →
      names.Nodup ∧ ∀ name ∈ names, Name.isIdentifier name = true) := by
  intro names
  have declared : names = (inferTypes components).map TypeDeclaration.interfaceName :=
    declaredNames_inferTypes components
  rw [declared, interfaceNames_nodup_iff, interfaceNames_isIdentifier_iff]
  refine ⟨rfl, Iff.rfl, Iff.rfl, fun capitalised => ⟨?_, ?_⟩⟩
  · intro c hc d hd heq
    rwa [Name.pascalCase_of_capitalised (capitalised c hc),
      Name.pascalCase_of_capitalised (capitalised d hd)] at heq
  · intro c hc first hfirst
    exact (capitalised c hc).first_not_digit hfirst

namespace Sample

def mixed : List Component :=
  [component "a" "card" none [] .empty, component "b" "Card" none [] .empty,
    component "c" "3d-viewer" none [] .empty]

example : (inferTypes mixed).map TypeDeclaration.interfaceName =
    ["3dViewerProps", "CardProps", "CardProps"] := by decide

theorem declared_names_valid_iff_buttons :
    (∀ c ∈ [save, box, count], Name.Capitalised c.kind) ∧
      let names := declaredNames (renderTypes (inferTypes [save, box, count]))
      names.Nodup ∧ ∀ name ∈ names, Name.isIdentifier name = true := by
  have capitalised : ∀ c ∈ [save, box, count], Name.Capitalised c.kind := by
    simp only [List.forall_mem_cons]
    exact ⟨⟨'B', "utton".toList, rfl, rfl, List.all_eq_true.mp (by decide)⟩,
      ⟨'C', "ontainer".toList, rfl, rfl, List.all_eq_true.mp (by decide)⟩,
      ⟨'B', "utton".toList, rfl, rfl, List.all_eq_true.mp (by decide)⟩, by simp⟩
  exact ⟨capitalised, (declared_names_valid_iff [save, box, count]).2.2.2 capitalised⟩

end Sample

end Pagewright

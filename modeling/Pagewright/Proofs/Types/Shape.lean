import Pagewright.Proofs.Code.Undivided
import Pagewright.Proofs.Types.Inference

/-!
# Types tell shapes

The shape of a scalar is its kind, that of a list the set of the shapes of its items, and
that of an object the row of its keys with the shapes of their values. The type of a
value is a printed form of its shape: values of one shape have one type, and no two
shapes are printed alike, however keys are spelled and values nested. The last
character of a type tells which kind of value it is for; what stands before it is cut
into the types of items or fields again, because a type holds the marks between them
only within brackets or quotes.
-/

set_option autoImplicit false

namespace Pagewright

namespace Json

inductive ScalarKind where
  | null
  | boolean
  | number
  | text
  deriving DecidableEq, Repr

def scalarKind? : Json → Option ScalarKind
  | .null => some .null
  | .bool _ => some .boolean
  | .whole _ => some .number
  | .real _ => some .number
  | .text _ => some .text
  | .list _ => none
  | .object _ => none

theorem sizeOf_item_lt {items : List Json} {x : Json} (h : x ∈ items) :
    sizeOf x < sizeOf (Json.list items) := by
  have within := List.sizeOf_lt_of_mem h
  rw [list.sizeOf_spec]
  omega

theorem sizeOf_value_lt {fields : List (String × Json)} {field : String × Json}
    (h : field ∈ fields) : sizeOf field.2 < sizeOf (Json.object fields) := by
  have within := List.sizeOf_lt_of_mem h
  have part : sizeOf field = 1 + sizeOf field.1 + sizeOf field.2 := Prod.mk.sizeOf_spec _ _
  rw [object.sizeOf_spec]
  omega

/-- Scalars agree in their kind, lists in the set of the shapes of their items, and objects in the
row of their keys and the shape of each value. -/
def SameShape : Json → Json → Prop
  | .list items, .list others =>
    (∀ x ∈ items, ∃ y ∈ others, SameShape x y) ∧
      ∀ y ∈ others, ∃ x, ∃ _ : x ∈ items, SameShape x y
  | .object fields, .object others =>
    fields.map Prod.fst = others.map Prod.fst ∧
      ∀ pair ∈ fields.zip others, SameShape pair.1.2 pair.2.2
  | v, w => ∃ kind, v.scalarKind? = some kind ∧ w.scalarKind? = some kind
termination_by v => v
decreasing_by
  · exact sizeOf_item_lt ‹x ∈ items›
  · exact sizeOf_item_lt ‹x ∈ items›
  · exact sizeOf_value_lt (List.of_mem_zip ‹pair ∈ fields.zip others›).1

/-- Induction on values, with all items of a list and all values of an object at once. -/
theorem values_induction {P : Json → Prop}
    (scalar : ∀ v kind, v.scalarKind? = some kind → P v)
    (list : ∀ items, (∀ x ∈ items, P x) → P (.list items))
    (object : ∀ fields, (∀ field ∈ fields, P field.2) → P (.object fields)) : ∀ v, P v
  | .null => scalar _ .null rfl
  | .bool _ => scalar _ .boolean rfl
  | .whole _ => scalar _ .number rfl
  | .real _ => scalar _ .number rfl
  | .text _ => scalar _ .text rfl
  | .list items => list items fun x _ => values_induction scalar list object x
  | .object fields => object fields fun field _ => values_induction scalar list object field.2
termination_by v => v
decreasing_by
  · exact sizeOf_item_lt ‹x ∈ items›
  · exact sizeOf_value_lt ‹field ∈ fields›

/-! ## Shapes -/

theorem sameShape_scalar {v : Json} {kind : ScalarKind} (hv : v.scalarKind? = some kind) (w : Json) :
    SameShape v w ↔ w.scalarKind? = some kind := by
  unfold SameShape
  split
  · cases hv
  · cases hv
  · simp [hv]

theorem sameShape_list (items : List Json) (w : Json) :
    SameShape (.list items) w ↔ ∃ others, w = .list others ∧
      (∀ x ∈ items, ∃ y ∈ others, SameShape x y) ∧ ∀ y ∈ others, ∃ x ∈ items, SameShape x y := by
  cases w <;> simp [SameShape, scalarKind?]

theorem sameShape_object (fields : List (String × Json)) (w : Json) :
    SameShape (.object fields) w ↔ ∃ others, w = .object others ∧
      fields.map Prod.fst = others.map Prod.fst ∧
      ∀ pair ∈ fields.zip others, SameShape pair.1.2 pair.2.2 := by
  cases w <;> simp [SameShape, scalarKind?]

/-! ## The types of parts -/

theorem itemTypes_eq_map (items : List Json) : itemTypes items = items.map typeText := by
  induction items with
  | nil => rfl
  | cons item rest ih => rw [itemTypes, ih, List.map_cons]

def fieldType (field : String × Json) : String :=
  Name.objectKey field.1 ++ ": " ++ field.2.typeText

theorem fieldTypes_eq_map (fields : List (String × Json)) :
    fieldTypes fields = fields.map fieldType := by
  induction fields with
  | nil => rfl
  | cons field rest ih => rw [fieldTypes, ih, List.map_cons, fieldType]

def ScalarKind.typeText : ScalarKind → String
  | .null => "null"
  | .boolean => "boolean"
  | .number => "number"
  | .text => "string"

theorem typeText_scalar {v : Json} {kind : ScalarKind} (h : v.scalarKind? = some kind) :
    v.typeText = kind.typeText := by
  cases v <;> cases h <;> rw [Json.typeText] <;> rfl

theorem typeText_fields (field : String × Json) (rest : List (String × Json)) :
    (object (field :: rest)).typeText =
      "\x7b " ++ Text.join "; " ((field :: rest).map fieldType) ++ " \x7d" := by
  rw [Json.typeText, fieldTypes_eq_map]
  simp

end Json

inductive ListForm (types : List String) : Prop where
  | none (empty : types = []) (text : listType types = "unknown" ++ "[]")
  | one (type : String) (only : ∀ t, t ∈ types ↔ t = type) (text : listType types = type ++ "[]")
  | several (first second : String) (hfirst : first ∈ types) (hsecond : second ∈ types)
      (apart : first ≠ second) (text : listType types = "(" ++ unionType types ++ ")" ++ "[]")

theorem listForm (types : List String) : ListForm types := by
  have mem := FirstSeen.mem_ofList types
  have nodup := FirstSeen.nodup_ofList types
  have union := KindRecord.unionType_ofList types
  cases hkept : FirstSeen.ofList types with
  | nil =>
    refine .none (List.eq_nil_iff_forall_not_mem.mpr fun t ht => ?_) ?_
    · simpa [hkept] using (mem t).mpr ht
    · rw [listType, hkept]
      rfl
  | cons first rest =>
    rw [hkept] at mem nodup union
    cases rest with
    | nil => exact .one first (fun t => by rw [← mem, List.mem_singleton]) (by rw [listType, hkept])
    | cons second others =>
      have apart : first ≠ second := by
        rintro rfl
        simp at nodup
      refine .several first second ((mem _).mp (by simp)) ((mem _).mp (by simp)) apart ?_
      rw [listType, hkept, ← union]
      simp [String.append_assoc]

/-- The type of a list depends on the set of the types of its items. -/
theorem listType_congr {types others : List String} (h : ∀ t, t ∈ types ↔ t ∈ others) :
    listType types = listType others := by
  have union : unionType types = unionType others := by
    rw [unionType, unionType, Sorted.ofList_congr h]
  cases listForm types with
  | none empty text =>
    have same : others = [] := List.eq_nil_iff_forall_not_mem.mpr fun t ht => by
      simpa [empty] using (h t).mpr ht
    rw [empty, same]
  | one type only text =>
    cases listForm others with
    | none empty => exact absurd ((h type).mp ((only type).mpr rfl)) (by simp [empty])
    | one other onlyOther textOther =>
      rw [text, textOther, (onlyOther type).mp ((h type).mp ((only type).mpr rfl))]
    | several first second hfirst hsecond apart =>
      exact absurd (((only _).mp ((h _).mpr hfirst)).trans
        ((only _).mp ((h _).mpr hsecond)).symm) apart
  | several first second hfirst hsecond apart text =>
    cases listForm others with
    | none empty => exact absurd ((h first).mp hfirst) (by simp [empty])
    | one other onlyOther =>
      exact absurd (((onlyOther _).mp ((h _).mp hfirst)).trans
        ((onlyOther _).mp ((h _).mp hsecond)).symm) apart
    | several _ _ _ _ _ textOther => rw [text, textOther, union]

namespace Json

/-! ## The last character -/

def typeEnding : Json → Char
  | .null => 'l'
  | .bool _ => 'n'
  | .whole _ => 'r'
  | .real _ => 'r'
  | .text _ => 'g'
  | .list _ => ']'
  | .object [] => '>'
  | .object (_ :: _) => '\x7d'

def ScalarKind.ofEnding? : Char → Option ScalarKind
  | 'l' => some .null
  | 'n' => some .boolean
  | 'r' => some .number
  | 'g' => some .text
  | _ => none

theorem scalarKind?_eq (v : Json) : v.scalarKind? = ScalarKind.ofEnding? v.typeEnding := by
  cases v with
  | object fields => cases fields <;> rfl
  | _ => rfl

theorem getLast?_typeText (v : Json) : v.typeText.toList.getLast? = some v.typeEnding := by
  cases v with
  | list items =>
    have closed : ∃ inner, listType (itemTypes items) = inner ++ "[]" := by
      cases listForm (itemTypes items) with
      | none _ text => exact ⟨_, text⟩
      | one type _ text => exact ⟨_, text⟩
      | several _ _ _ _ _ text => exact ⟨_, text⟩
    obtain ⟨inner, hinner⟩ := closed
    rw [Json.typeText, hinner, String.toList_append, List.getLast?_append]
    rfl
  | object fields =>
    cases fields with
    | nil =>
      rw [Json.typeText]
      rfl
    | cons field rest =>
      rw [typeText_fields, String.toList_append, List.getLast?_append]
      rfl
  | _ =>
    rw [Json.typeText]
    rfl

theorem typeEnding_eq {v w : Json} (h : v.typeText = w.typeText) :
    v.typeEnding = w.typeEnding := by
  have ending := getLast?_typeText v
  rw [h, getLast?_typeText w] at ending
  exact (Option.some.inj ending).symm

theorem typeText_ne_unknown (v : Json) : v.typeText ≠ "unknown" := by
  intro h
  have ending := getLast?_typeText v
  rw [h] at ending
  -- of the kinds of values only one has types that end like this
  have kind : v.scalarKind? = some .boolean := by
    rw [scalarKind?_eq, ← Option.some.inj ending]
    rfl
  rw [typeText_scalar kind] at h
  exact absurd h (by decide)

theorem typeText_ne_parenthesised (v : Json) (inner : String) :
    v.typeText ≠ "(" ++ inner ++ ")" := by
  intro h
  have ending := getLast?_typeText v
  rw [h, String.toList_append, List.getLast?_append] at ending
  have closing : ')' = v.typeEnding := Option.some.inj ending
  cases v with
  | object fields => cases fields <;> simp [typeEnding] at closing
  | _ => simp [typeEnding] at closing

/-! ## Types are not divided -/

def typeMarks : List Char := ['|', ';', ':']

theorem mark_ne {mark : Char} (h : mark ∈ typeMarks) :
    mark ≠ '(' ∧ mark ≠ '[' ∧ mark ≠ '\x7b' ∧ mark ≠ '"' ∧ isPlainChar mark = false := by
  simp only [typeMarks, List.mem_cons, List.not_mem_nil, or_false] at h
  rcases h with rfl | rfl | rfl <;> decide

def typeWords : List String :=
  ["null", "boolean", "number", "string", "unknown", "Record<string, unknown>"]

theorem word_undivided {mark : Char} (hmark : mark ∈ typeMarks) {word : String}
    (h : word ∈ typeWords) : Undivided mark word.toList := by
  have words : typeMarks.all (fun mark => typeWords.all fun word =>
      word.toList.all fun c => isNeutral c && c != mark) = true := by
    decide
  exact .neutral (List.all_eq_true.mp (List.all_eq_true.mp words mark hmark) word h)

theorem brackets_undivided {mark : Char} (hmark : mark ∈ typeMarks) :
    Undivided mark "[]".toList :=
  Undivided.enclosed '[' ']' (by decide) (mark_ne hmark).2.1 Balanced.nil

theorem objectKey_undivided {mark : Char} (hmark : mark ∈ typeMarks) (key : String) :
    Undivided mark (Name.objectKey key).toList := by
  obtain ⟨_, _, _, quote, plain⟩ := mark_ne hmark
  unfold Name.objectKey
  split
  · rename_i hkey
    apply Undivided.neutral
    rw [List.all_eq_true]
    intro c hc
    have hplain := Plain.wellFormed hkey c hc
    have other : c ≠ mark := by
      rintro rfl
      rw [hplain] at plain
      cases plain
    simp [isNeutral_of_isPlainChar hplain, other]
  · exact .quoted quote key

theorem unionType_balanced {types : List String} (h : ∀ t ∈ types, Balanced t.toList) :
    Balanced (unionType types).toList := by
  apply Balanced.join (Balanced.neutral (by decide))
  intro t ht
  exact h t ((Sorted.mem_ofList types t).mp ht)

theorem listType_undivided {mark : Char} (hmark : mark ∈ typeMarks) {types : List String}
    (h : ∀ t ∈ types, Undivided mark t.toList) : Undivided mark (listType types).toList := by
  have brackets := brackets_undivided hmark
  cases listForm types with
  | none _ text =>
    rw [text, String.toList_append]
    exact (word_undivided hmark (by decide)).append brackets
  | one type only text =>
    rw [text, String.toList_append]
    exact (h type ((only type).mpr rfl)).append brackets
  | several _ _ _ _ _ text =>
    have union := unionType_balanced fun t ht => (h t ht).balanced
    have members := Undivided.enclosed '(' ')' (by decide) (mark_ne hmark).1 union
    rw [text, String.toList_append]
    refine Undivided.append ?_ brackets
    simpa using members

theorem typeText_undivided {mark : Char} (hmark : mark ∈ typeMarks) (v : Json) :
    Undivided mark v.typeText.toList := by
  induction v using values_induction with
  | scalar v kind hkind =>
    rw [typeText_scalar hkind]
    apply word_undivided hmark
    cases kind <;> decide
  | list items ih =>
    rw [Json.typeText, itemTypes_eq_map]
    apply listType_undivided hmark
    intro t ht
    obtain ⟨x, hx, rfl⟩ := List.mem_map.mp ht
    exact ih x hx
  | object fields ih =>
    cases fields with
    | nil =>
      rw [Json.typeText]
      exact word_undivided hmark (by decide)
    | cons field rest =>
      have space : Balanced " ".toList := Balanced.neutral (by decide)
      have row : Balanced (Text.join "; " ((field :: rest).map fieldType)).toList := by
        apply Balanced.join (Balanced.neutral (by decide))
        intro part hpart
        obtain ⟨f, hf, rfl⟩ := List.mem_map.mp hpart
        rw [fieldType, String.toList_append, String.toList_append]
        exact ((Balanced.objectKey f.1).append (Balanced.neutral (by decide))).append
          (ih f hf).balanced
      have inner := Undivided.enclosed '\x7b' '\x7d' (by decide) (mark_ne hmark).2.2.1
        ((space.append row).append space)
      rw [typeText_fields]
      simpa using inner

/-! ## Types are made as shapes are -/

theorem objectKey_injective : Function.Injective Name.objectKey := by
  -- a quoted key opens with a quote, which no bare key does
  have differ : ∀ key other, Name.isWellFormed key = true → key ≠ Text.quoted other := by
    rintro key other hkey rfl
    exact absurd (Name.isPart_of_mem (c := '"') hkey (by simp [Text.quoted])) (by decide)
  intro key other h
  unfold Name.objectKey at h
  split at h
  · rename_i hkey
    split at h
    · exact h
    · exact absurd h (differ key other hkey)
  · split at h
    · rename_i hother
      exact absurd h.symm (differ other key hother)
    · exact Text.quoted_injective h

theorem fieldType_eq_iff {field other : String × Json} :
    fieldType field = fieldType other ↔
      field.1 = other.1 ∧ field.2.typeText = other.2.typeText := by
  refine ⟨fun h => ?_, fun ⟨keys, types⟩ => by rw [fieldType, fieldType, keys, types]⟩
  have colon : ':' ∈ typeMarks := by decide
  have chars := congrArg String.toList h
  simp only [fieldType, String.toList_append, List.append_assoc] at chars
  obtain ⟨keys, types⟩ := (objectKey_undivided colon field.1).cut
    (objectKey_undivided colon other.1) chars
  refine ⟨objectKey_injective (String.toList_inj.mp keys), String.toList_inj.mp ?_⟩
  exact (List.cons.inj types).2

theorem map_fieldType_eq_iff {fields others : List (String × Json)} :
    fields.map fieldType = others.map fieldType ↔
      fields.map Prod.fst = others.map Prod.fst ∧
      ∀ pair ∈ fields.zip others, pair.1.2.typeText = pair.2.2.typeText := by
  induction fields generalizing others with
  | nil => cases others <;> simp
  | cons field rest ih =>
    cases others with
    | nil => simp
    | cons other more =>
      simp only [List.map_cons, List.cons.injEq, List.zip_cons_cons, List.forall_mem_cons,
        fieldType_eq_iff, ih, and_and_and_comm]

/-- The fields of a row are told by its text. -/
theorem fieldTypes_of_join {fields others : List (String × Json)} (hne : fields ≠ [])
    (hother : others ≠ [])
    (h : Text.join "; " (fields.map fieldType) = Text.join "; " (others.map fieldType)) :
    fields.map fieldType = others.map fieldType := by
  have semicolon : ';' ∈ typeMarks := by decide
  have parts : ∀ fs : List (String × Json), ∀ part ∈ fs.map fieldType,
      Undivided ';' part.toList := by
    intro fs part hpart
    obtain ⟨field, _, rfl⟩ := List.mem_map.mp hpart
    rw [fieldType, String.toList_append, String.toList_append]
    exact ((objectKey_undivided semicolon _).append (.neutral (by decide))).append
      (typeText_undivided semicolon _)
  exact Undivided.join_injective [] [' '] rfl rfl (by simpa using hne)
    (by simpa using hother) (parts fields) (parts others) h

theorem object_typeText_iff (fields : List (String × Json)) (w : Json) :
    (object fields).typeText = w.typeText ↔ ∃ others, w = .object others ∧
      fields.map Prod.fst = others.map Prod.fst ∧
      ∀ pair ∈ fields.zip others, pair.1.2.typeText = pair.2.2.typeText := by
  simp only [← map_fieldType_eq_iff]
  constructor
  · intro h
    have ending := typeEnding_eq h
    cases w with
    | object others =>
      refine ⟨others, rfl, ?_⟩
      cases fields with
      | nil =>
        cases others with
        | nil => rfl
        | cons other more => simp [typeEnding] at ending
      | cons field rest =>
        cases others with
        | nil => simp [typeEnding] at ending
        | cons other more =>
          rw [typeText_fields, typeText_fields, String.append_left_inj,
            String.append_right_inj] at h
          exact fieldTypes_of_join (by simp) (by simp) h
    | _ => cases fields <;> simp [typeEnding] at ending
  · rintro ⟨others, rfl, same⟩
    cases fields with
    | nil => rw [List.map_eq_nil_iff.mp same.symm]
    | cons field rest =>
      cases others with
      | nil => cases same
      | cons other more => rw [typeText_fields, typeText_fields, same]

def IsType (type : String) : Prop := ∃ v : Json, v.typeText = type

/-- The members of a union are told by its text. -/
theorem mem_of_unionType {types others : List String} (htypes : ∀ t ∈ types, IsType t)
    (hothers : ∀ t ∈ others, IsType t) (hne : types ≠ []) (hother : others ≠ [])
    (h : unionType types = unionType others) : types ⊆ others := by
  have undivided : ∀ ts : List String, (∀ t ∈ ts, IsType t) →
      ∀ t ∈ Sorted.ofList ts, Undivided '|' t.toList := by
    intro ts hts t ht
    obtain ⟨v, rfl⟩ := hts t ((Sorted.mem_ofList ts t).mp ht)
    exact typeText_undivided (by decide) v
  have filled : ∀ ts : List String, ts ≠ [] → Sorted.ofList ts ≠ [] := by
    intro ts hts hempty
    obtain ⟨t, ht⟩ := List.exists_mem_of_ne_nil ts hts
    have member := (Sorted.mem_ofList ts t).mpr ht
    rw [hempty] at member
    cases member
  have same : Sorted.ofList types = Sorted.ofList others :=
    Undivided.join_injective [' '] [' '] rfl (.neutral (by decide))
      (filled types hne) (filled others hother) (undivided types htypes)
      (undivided others hothers) h
  intro t ht
  rw [← Sorted.mem_ofList, ← same, Sorted.mem_ofList]
  exact ht

theorem mem_of_listType {types others : List String} (htypes : ∀ t ∈ types, IsType t)
    (hothers : ∀ t ∈ others, IsType t) (h : listType types = listType others) :
    types ⊆ others := by
  cases listForm types with
  | none empty => simp [empty]
  | one type only text =>
    obtain ⟨v, hv⟩ := htypes type ((only type).mpr rfl)
    rw [text] at h
    cases listForm others with
    | none _ textOther =>
      rw [textOther, String.append_left_inj] at h
      exact absurd (hv.trans h) v.typeText_ne_unknown
    | one other onlyOther textOther =>
      rw [textOther, String.append_left_inj] at h
      intro t ht
      rw [onlyOther, ← h]
      exact (only t).mp ht
    | several _ _ _ _ _ textOther =>
      rw [textOther, String.append_left_inj] at h
      exact absurd (hv.trans h) (v.typeText_ne_parenthesised _)
  | several first second hfirst _ _ text =>
    rw [text] at h
    cases listForm others with
    | none _ textOther =>
      rw [textOther, String.append_left_inj] at h
      have opening := congrArg (fun s => s.toList.head?) h
      simp at opening
    | one other onlyOther textOther =>
      rw [textOther, String.append_left_inj] at h
      obtain ⟨w, hw⟩ := hothers other ((onlyOther other).mpr rfl)
      exact absurd (hw.trans h.symm) (w.typeText_ne_parenthesised _)
    | several _ _ hother _ _ textOther =>
      rw [textOther, String.append_left_inj, String.append_left_inj, String.append_right_inj] at h
      exact mem_of_unionType htypes hothers (List.ne_nil_of_mem hfirst)
        (List.ne_nil_of_mem hother) h

theorem isType_of_mem {values : List Json} {t : String} (h : t ∈ values.map typeText) :
    IsType t := by
  obtain ⟨v, _, rfl⟩ := List.mem_map.mp h
  exact ⟨v, rfl⟩

theorem list_typeText_iff (items : List Json) (w : Json) :
    (list items).typeText = w.typeText ↔ ∃ others, w = .list others ∧
      (∀ x ∈ items, ∃ y ∈ others, x.typeText = y.typeText) ∧
      ∀ y ∈ others, ∃ x ∈ items, x.typeText = y.typeText := by
  constructor
  · intro h
    have ending := typeEnding_eq h
    cases w with
    | list others =>
      rw [Json.typeText, Json.typeText, itemTypes_eq_map, itemTypes_eq_map] at h
      have forth := mem_of_listType (fun _ => isType_of_mem) (fun _ => isType_of_mem) h
      have back := mem_of_listType (fun _ => isType_of_mem) (fun _ => isType_of_mem) h.symm
      refine ⟨others, rfl, fun x hx => ?_, fun y hy => ?_⟩
      · obtain ⟨y, hy, hxy⟩ := List.mem_map.mp (forth (List.mem_map_of_mem hx))
        exact ⟨y, hy, hxy.symm⟩
      · exact List.mem_map.mp (back (List.mem_map_of_mem hy))
    | object fields => cases fields <;> simp [typeEnding] at ending
    | _ => simp [typeEnding] at ending
  · rintro ⟨others, rfl, forth, back⟩
    rw [Json.typeText, Json.typeText, itemTypes_eq_map, itemTypes_eq_map]
    apply listType_congr
    intro type
    rw [List.mem_map, List.mem_map]
    constructor
    · rintro ⟨x, hx, rfl⟩
      obtain ⟨y, hy, hxy⟩ := forth x hx
      exact ⟨y, hy, hxy.symm⟩
    · rintro ⟨y, hy, rfl⟩
      exact back y hy

theorem scalar_typeText_iff {v : Json} {kind : ScalarKind} (hv : v.scalarKind? = some kind)
    (w : Json) : v.typeText = w.typeText ↔ w.scalarKind? = some kind := by
  constructor
  · intro h
    rw [scalarKind?_eq, ← typeEnding_eq h, ← scalarKind?_eq, hv]
  · intro hw
    rw [typeText_scalar hv, typeText_scalar hw]

/-- To have the same type and to have the same shape are the same relation, since both satisfy the
same equations on scalars, lists and objects. -/
theorem typeText_eq_iff (v w : Json) : v.typeText = w.typeText ↔ SameShape v w := by
  induction v using values_induction generalizing w with
  | scalar v kind hkind => rw [scalar_typeText_iff hkind, sameShape_scalar hkind]
  | list items ih =>
    rw [list_typeText_iff, sameShape_list]
    refine exists_congr fun others => and_congr_right fun _ => and_congr ?_ ?_
    · exact forall₂_congr fun x hx => exists_congr fun y => and_congr_right fun _ => ih x hx y
    · exact forall₂_congr fun y _ => exists_congr fun x => and_congr_right fun hx => ih x hx y
  | object fields ih =>
    rw [object_typeText_iff, sameShape_object]
    refine exists_congr fun others => and_congr_right fun _ => and_congr_right fun _ => ?_
    exact forall₂_congr fun pair hpair => ih pair.1 (List.of_mem_zip hpair).1 pair.2.2

instance (v w : Json) : Decidable (SameShape v w) := decidable_of_iff _ (typeText_eq_iff v w)

/-- Lists are compared as sets, objects with the order of their keys. -/
example :
    SameShape (.list [.whole 1, .null, .whole 2]) (.list [.null, .real (Binary64.ofInt 3)]) ∧
      ¬ SameShape (.object [("a", .null), ("b", .null)])
        (.object [("b", .null), ("a", .null)]) := by
  decide

structure Represents (kept values : List Json) : Prop where
  sublist : kept.Sublist values
  apart : kept.Pairwise fun v w => ¬ SameShape v w
  covers : ∀ v ∈ values, ∃ k ∈ kept, SameShape k v

/-- To keep each type once is to keep one value of each shape. -/
theorem exists_represents (values : List Json) :
    ∃ kept, Represents kept values ∧
      FirstSeen.ofList (values.map typeText) = kept.map typeText := by
  obtain ⟨kept, hsublist, hkept⟩ := FirstSeen.exists_ofList_map typeText values
  refine ⟨kept, ⟨hsublist, ?_, fun v hv => ?_⟩, hkept⟩
  · have nodup := FirstSeen.nodup_ofList (values.map typeText)
    rw [hkept, List.Nodup, List.pairwise_map] at nodup
    exact nodup.imp fun hne hshape => hne ((typeText_eq_iff _ _).mpr hshape)
  · have type : v.typeText ∈ FirstSeen.ofList (values.map typeText) :=
      (FirstSeen.mem_ofList _ _).mpr (List.mem_map_of_mem hv)
    rw [hkept] at type
    obtain ⟨k, hk, hkv⟩ := List.mem_map.mp type
    exact ⟨k, hk, (typeText_eq_iff k v).mp hkv⟩

end Json

open Json

/-- A declared property has as its type the sorted types of the shapes that its values have. -/
theorem property_represents {components : List Component} {d : TypeDeclaration}
    (hd : d ∈ inferTypes components) {p : PropertyDeclaration} (hp : p ∈ d.properties)
    (hname : HandlerBinding.isKey p.name = false) :
    ∃ kept types,
      Represents kept (KindRecord.valuesOf p.name (components.filter (·.kind == d.kind))) ∧
      types.Perm (kept.map typeText) ∧ types.Pairwise (· < ·) ∧ p.type = Text.join " | " types := by
  obtain ⟨kind, _, rfl⟩ := List.mem_map.mp hd
  obtain ⟨name, _, rfl⟩ := List.mem_map.mp hp
  obtain ⟨kept, represents, types⟩ :=
    exists_represents (KindRecord.valuesOf name (components.filter (·.kind == kind)))
  have increasing := Sorted.ofList_increasing (kept.map typeText)
  refine ⟨kept, Sorted.ofList (kept.map typeText), represents, ?_, increasing, ?_⟩
  · have distinct : (kept.map typeText).Nodup := types ▸ FirstSeen.nodup_ofList _
    exact (List.perm_ext_iff_of_nodup (increasing.imp ne_of_lt) distinct).mpr
      (Sorted.mem_ofList (kept.map typeText))
  · have plain : propertyType name = typeText := by
      funext value
      rw [propertyType, show HandlerBinding.isKey name = false from hname]
      rfl
    have union := KindRecord.unionType_ofList
      ((KindRecord.valuesOf name (components.filter (·.kind == kind))).map typeText)
    rw [types] at union
    rw [declareProperty, plain]
    exact union.symm

/-- Two values have the same type exactly if they have the same shape. To keep each type once, in a
list or for a declared property, is therefore to keep one value of each shape. -/
theorem types_tell_shapes :
    (∀ v w : Json, v.typeText = w.typeText ↔ SameShape v w) ∧
    (∀ items : List Json, ∃ kept, Represents kept items ∧
      FirstSeen.ofList (itemTypes items) = kept.map typeText) ∧
    ∀ (components : List Component), ∀ d ∈ inferTypes components, ∀ p ∈ d.properties,
      HandlerBinding.isKey p.name = false → ∃ kept types,
        Represents kept (KindRecord.valuesOf p.name (components.filter (·.kind == d.kind))) ∧
        types.Perm (kept.map typeText) ∧ types.Pairwise (· < ·) ∧
        p.type = Text.join " | " types := by
  refine ⟨typeText_eq_iff, fun items => ?_, fun components d hd p hp hname => ?_⟩
  · rw [itemTypes_eq_map]
    exact exists_represents items
  · exact property_represents hd hp hname

namespace Sample

def buttons : TypeDeclaration :=
  ⟨"Button", "ButtonProps", [⟨"label", "number | string", false⟩, ⟨"onClick", "() => void", true⟩,
    ⟨"size", "null", true⟩]⟩

theorem types_tell_shapes_buttons :
    buttons ∈ inferTypes [save, box, count] ∧ ∃ kept types,
      Represents kept [.text "Save", .whole 3] ∧ types.Perm (kept.map typeText) ∧
      types.Pairwise (· < ·) ∧ "number | string" = Text.join " | " types := by
  have declared : buttons ∈ inferTypes [save, box, count] := by decide
  exact ⟨declared, types_tell_shapes.2.2 [save, box, count] buttons declared
    ⟨"label", "number | string", false⟩ (by decide) (by decide)⟩

end Sample

end Pagewright

import SkillEngine.Json.Basic
import SkillEngine.Proofs.Dict
import SkillEngine.Proofs.Number.Conversion

/-!
# Documents by their parts

Induction over a document goes from the items of an array and the contents of
an object to the whole.  With it the canonical form is understood: it forgets
the order of fields, it is its own canonical form, and a document that is in
canonical form has parts that are.
-/

namespace SkillEngine

/-- The number is finite. -/
def Number.IsFinite : Number → Prop
  | .integer _ => True
  | .single value => value.isFinite = true
  | .double value => value.isFinite = true

namespace Json

/-- Induction over documents from their items and contents. -/
@[elab_as_elim, induction_eliminator]
theorem induction {motive : Json → Prop}
    (null : motive null)
    (bool : ∀ value, motive (bool value))
    (number : ∀ value, motive (number value))
    (string : ∀ value, motive (string value))
    (array : ∀ items, (∀ item ∈ items, motive item) → motive (array items))
    (object : ∀ fields, (∀ entry ∈ fields, motive entry.2) →
      motive (object fields)) :
    ∀ document, motive document
  | .null => null
  | .bool value => bool value
  | .number value => number value
  | .string value => string value
  | .array items =>
    array items fun item hitem =>
      have := List.sizeOf_lt_of_mem hitem
      induction null bool number string array object item
  | .object fields =>
    object fields fun entry hentry =>
      have := List.sizeOf_lt_of_mem hentry
      induction null bool number string array object entry.2
termination_by document => sizeOf document
decreasing_by
  · simp only [Json.array.sizeOf_spec]
    omega
  · obtain ⟨name, value⟩ := entry
    simp only [Json.object.sizeOf_spec, Prod.mk.sizeOf_spec] at this ⊢
    omega

theorem canonicalItems_eq_map (items : List Json) :
    canonicalItems items = items.map canonical := by
  induction items with
  | nil => rfl
  | cons item items ih => rw [canonicalItems, ih, List.map_cons]

theorem canonicalFields_eq_mapValues (fields : List (String × Json)) :
    canonicalFields fields = Dict.mapValues canonical fields := by
  induction fields with
  | nil => rfl
  | cons entry fields ih =>
      obtain ⟨name, value⟩ := entry
      rw [canonicalFields, ih]
      rfl

theorem isNull_eq_false_iff {document : Json} :
    document.isNull = false ↔ document ≠ null := by
  cases document <;> simp [isNull]

theorem string?_eq_some_iff {document : Json} {text : String} :
    document.string? = some text ↔ document = string text := by
  cases document <;> simp [string?]

theorem array?_eq_some_iff {document : Json} {items : List Json} :
    document.array? = some items ↔ document = array items := by
  cases document <;> simp [array?]

/-- A field is found in a document that is an object and has it. -/
theorem field?_eq_some_iff {document value : Json} {name : String} :
    document.field? name = some value ↔
      ∃ fields : Object, document = .object fields ∧
        fields.find? name = some value := by
  cases document with
  | object fields => simp [field?, object?]
  | _ => simp [field?, object?]

/-- Only null may stand for a field that is not there. -/
theorem field_eq_iff {document value : Json} (hvalue : value ≠ null)
    {name : String} :
    document.field name = value ↔ document.field? name = some value := by
  rw [field]
  cases document.field? name with
  | none => simp [hvalue.symm]
  | some found => simp

/-! ## Documents in canonical form -/

theorem canonical_array (items : List Json) :
    (array items).canonical = array (items.map canonical) := by
  rw [canonical, canonicalItems_eq_map]

theorem canonical_object (fields : List (String × Json)) :
    (object fields).canonical =
      object (Dict.ofList (Dict.mapValues canonical fields)) := by
  rw [canonical, canonicalFields_eq_mapValues]

theorem items_of_canonical {items : List Json}
    (h : (array items).canonical = array items) :
    ∀ item ∈ items, item.canonical = item := by
  rw [canonical_array, array.injEq] at h
  exact List.map_inj_left.mp (h.trans (List.map_id items).symm)

/-- The fields of an object in canonical form stand in order, and their
contents are in canonical form. -/
theorem fields_of_canonical {fields : List (String × Json)}
    (h : (object fields).canonical = object fields) :
    Dict.Sorted fields ∧ ∀ entry ∈ fields, entry.2.canonical = entry.2 := by
  rw [canonical_object, object.injEq] at h
  have hsorted : Dict.Sorted fields := h ▸ Dict.sorted_ofList _
  have hvalues : Dict.Sorted (Dict.mapValues canonical fields) := by
    rw [Dict.Sorted, Dict.names_mapValues]
    exact hsorted
  refine ⟨hsorted, ?_⟩
  rw [hvalues.ofList_eq] at h
  intro entry hentry
  have heq := List.map_inj_left.mp (h.trans (List.map_id fields).symm) entry hentry
  exact congrArg Prod.snd heq

/-- The canonical form is its own canonical form. -/
theorem canonical_canonical (document : Json) :
    document.canonical.canonical = document.canonical := by
  induction document with
  | null => rfl
  | bool value => rfl
  | string value => rfl
  | number value =>
      cases value with
      | integer value => rfl
      | single value =>
          rw [canonical, ofNumber]
          split
          next hfinite =>
            have hwide := (Floating.convert_widen hfinite).1
            simp [canonical, ofNumber, hwide]
          next => rfl
      | double value =>
          rw [canonical, ofNumber]
          split
          next hfinite => simp [canonical, ofNumber, hfinite]
          next => rfl
  | array items ih =>
      rw [canonical_array, canonical_array, List.map_map, array.injEq]
      exact List.map_inj_left.mpr ih
  | object fields ih =>
      have hvalues : Dict.mapValues canonical (Dict.mapValues canonical fields) =
          Dict.mapValues canonical fields := by
        rw [Dict.mapValues, Dict.mapValues, List.map_map]
        refine List.map_inj_left.mpr fun entry hentry => ?_
        exact Prod.ext rfl (ih entry hentry)
      rw [canonical_object, canonical_object, Dict.mapValues_ofList, hvalues,
        (Dict.sorted_ofList _).ofList_eq]

/-! ## The parts of a document -/

mutual

/-- How deep arrays and objects are nested. -/
def depth : Json → Nat
  | array items => depthOfItems items + 1
  | object fields => depthOfFields fields + 1
  | null | bool _ | number _ | string _ => 0

/-- How deep the deepest item is nested. -/
def depthOfItems : List Json → Nat
  | [] => 0
  | item :: items => max (depth item) (depthOfItems items)

/-- How deep the deepest content is nested. -/
def depthOfFields : List (String × Json) → Nat
  | [] => 0
  | (_, value) :: fields => max (depth value) (depthOfFields fields)

end

mutual

/-- The numbers in a document. -/
def numbers : Json → List Number
  | number value => [value]
  | array items => numbersOfItems items
  | object fields => numbersOfFields fields
  | null | bool _ | string _ => []

/-- The numbers in the items of an array. -/
def numbersOfItems : List Json → List Number
  | [] => []
  | item :: items => numbers item ++ numbersOfItems items

/-- The numbers in the contents of an object. -/
def numbersOfFields : List (String × Json) → List Number
  | [] => []
  | (_, value) :: fields => numbers value ++ numbersOfFields fields

end

theorem depthOfItems_le_iff {items : List Json} {limit : Nat} :
    depthOfItems items ≤ limit ↔ ∀ item ∈ items, item.depth ≤ limit := by
  induction items with
  | nil => simp [depthOfItems]
  | cons item items ih =>
      rw [depthOfItems, Nat.max_le, ih, List.forall_mem_cons]

theorem depthOfFields_le_iff {fields : List (String × Json)} {limit : Nat} :
    depthOfFields fields ≤ limit ↔
      ∀ entry ∈ fields, entry.2.depth ≤ limit := by
  induction fields with
  | nil => simp [depthOfFields]
  | cons entry fields ih =>
      rw [depthOfFields, Nat.max_le, ih, List.forall_mem_cons]

theorem numbersOfItems_eq_flatMap (items : List Json) :
    numbersOfItems items = items.flatMap numbers := by
  induction items with
  | nil => rfl
  | cons item items ih => rw [numbersOfItems, ih, List.flatMap_cons]

theorem numbersOfFields_eq_flatMap (fields : List (String × Json)) :
    numbersOfFields fields = fields.flatMap (·.2.numbers) := by
  induction fields with
  | nil => rfl
  | cons entry fields ih => rw [numbersOfFields, ih, List.flatMap_cons]

theorem numbersOfItems_of_mem {items : List Json} {item : Json}
    (hitem : item ∈ items) {number : Number} (hnumber : number ∈ item.numbers) :
    number ∈ numbersOfItems items := by
  rw [numbersOfItems_eq_flatMap]
  exact List.mem_flatMap.mpr ⟨item, hitem, hnumber⟩

theorem numbersOfFields_of_mem {fields : List (String × Json)}
    {entry : String × Json} (hentry : entry ∈ fields) {number : Number}
    (hnumber : number ∈ entry.2.numbers) : number ∈ numbersOfFields fields := by
  rw [numbersOfFields_eq_flatMap]
  exact List.mem_flatMap.mpr ⟨entry, hentry, hnumber⟩

/-! ## Documents with finite numbers -/

/-- All numbers in the document are finite. -/
def AllFinite (document : Json) : Prop :=
  ∀ number ∈ document.numbers, number.IsFinite

/-- A document in canonical form has no other numbers than finite ones. -/
theorem allFinite_of_canonical {document : Json}
    (hcanonical : document.canonical = document) : document.AllFinite := by
  induction document with
  | null => simp [AllFinite, numbers]
  | bool value => simp [AllFinite, numbers]
  | string value => simp [AllFinite, numbers]
  | number value =>
      rw [AllFinite, numbers, List.forall_mem_singleton]
      cases value with
      | integer value => trivial
      | single value =>
          rw [canonical, ofNumber] at hcanonical
          split at hcanonical <;> simp at hcanonical
      | double value =>
          rw [canonical, ofNumber] at hcanonical
          split at hcanonical
          next hfinite => exact hfinite
          next => simp at hcanonical
  | array items ih =>
      rw [AllFinite, numbers, numbersOfItems_eq_flatMap, List.forall_mem_flatMap]
      exact fun item hitem => ih item hitem (items_of_canonical hcanonical item hitem)
  | object fields ih =>
      rw [AllFinite, numbers, numbersOfFields_eq_flatMap,
        List.forall_mem_flatMap]
      exact fun entry hentry =>
        ih entry hentry ((fields_of_canonical hcanonical).2 entry hentry)

end Json

end SkillEngine

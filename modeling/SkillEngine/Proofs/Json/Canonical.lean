import SkillEngine.Proofs.Json.Basic

/-!
# Putting documents in canonical form together

An object is in canonical form when its fields stand in order and hold documents
in canonical form.  Every change of fields that keeps both keeps the form.
-/

namespace SkillEngine.Json

/-- The fields stand in order and hold documents in canonical form. -/
structure Tidy (fields : Object) : Prop where
  sorted : Dict.Sorted fields
  contents : ∀ entry ∈ fields, entry.2.canonical = entry.2

variable {fields : Object}

theorem canonical_array_iff {items : List Json} :
    (array items).canonical = array items ↔
      ∀ item ∈ items, item.canonical = item := by
  refine ⟨items_of_canonical, fun hitems => ?_⟩
  rw [canonical_array, array.injEq]
  exact (List.map_congr_left hitems).trans (List.map_id items)

theorem canonical_object_iff :
    (object fields).canonical = object fields ↔ Tidy fields := by
  constructor
  · intro hcanonical
    obtain ⟨hsorted, hcontents⟩ := fields_of_canonical hcanonical
    exact ⟨hsorted, hcontents⟩
  · rintro ⟨hsorted, hcontents⟩
    have hvalues : Dict.mapValues canonical fields = fields := by
      refine (List.map_congr_left fun entry hentry => ?_).trans (List.map_id _)
      exact Prod.ext rfl (hcontents entry hentry)
    rw [canonical_object, hvalues, hsorted.ofList_eq]

theorem tidy_nil : Tidy [] := ⟨Dict.sorted_nil, by simp⟩

theorem tidy_ofList {entries : List (String × Json)}
    (hcontents : ∀ entry ∈ entries, entry.2.canonical = entry.2) :
    Tidy (Dict.ofList entries) :=
  ⟨Dict.sorted_ofList entries, fun entry hentry =>
    hcontents entry (Dict.mem_of_mem_ofList hentry)⟩

namespace Tidy

theorem find? (h : Tidy fields) {name : String} {value : Json}
    (hfound : Dict.find? fields name = some value) :
    value.canonical = value :=
  h.contents (name, value) (Dict.mem_of_find? hfound)

theorem insert (h : Tidy fields) (name : String) {value : Json}
    (hvalue : value.canonical = value) :
    Tidy (Dict.insert fields name value) := by
  refine ⟨h.sorted.insert name value, fun entry hentry => ?_⟩
  rcases Dict.mem_of_mem_insert hentry with rfl | hheld
  · exact hvalue
  · exact h.contents entry hheld

theorem mapValues (h : Tidy fields) {f : Json → Json}
    (hf : ∀ value, value.canonical = value → (f value).canonical = f value) :
    Tidy (Dict.mapValues f fields) := by
  constructor
  · rw [Dict.Sorted, Dict.names_mapValues]
    exact h.sorted
  · intro entry hentry
    obtain ⟨held, hheld, rfl⟩ := List.mem_map.mp hentry
    exact hf held.2 (h.contents held hheld)

end Tidy

end SkillEngine.Json

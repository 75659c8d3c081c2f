import SkillEngine.Proofs.Json.Numeral

/-!
# Printed documents

A document that is printed and parsed again is the same document but for its
numbers: those that are not finite become null, and numbers of single precision
are read as what their texts stand for.  Here that document is defined, and the
way there and back is shown to convey values as the codecs want it.
-/

namespace SkillEngine

/-- A number that is read from the text that is written for it. -/
def Number.ReadsBack : Number → Prop
  | .integer value => Codec.fitsWord value = true
  | .single value => value.isFinite = true →
    ∃ found, Json.number? (Json.numberText (.single value)) =
        some (.number found, []) ∧
      Codec.nearest found = .ok value
  | .double value => value.isFinite = true →
    Json.number? (Json.numberText (.double value)) =
      some (.number (.double value), [])

/-- The test of whether a number is read from its text. -/
def Number.rereads (number : Number) : Bool :=
  match number, Json.number? (Json.numberText number) with
  | .integer value, _ => Codec.fitsWord value
  | .single value, some (.number found, []) =>
    !value.isFinite || decide (Codec.nearest found = .ok value)
  | .double value, some (.number found, []) =>
    !value.isFinite || decide (found = .double value)
  | .single value, _ | .double value, _ => !value.isFinite

theorem Number.rereads_iff (number : Number) :
    number.rereads = true ↔ number.ReadsBack := by
  unfold rereads
  split
  next => rfl
  next value found hfound =>
    rw [ReadsBack, hfound]
    simp [Classical.or_iff_not_imp_left]
  next value found hfound =>
    rw [ReadsBack, hfound]
    simp [Classical.or_iff_not_imp_left]
  next value hother =>
    have hnone : ∀ found, Json.number? (Json.numberText (.single value)) ≠
        some (.number found, []) := fun found hfound => hother found hfound
    simp [ReadsBack, hnone]
  next value hother =>
    have hnone : ∀ found, Json.number? (Json.numberText (.double value)) ≠
        some (.number found, []) := fun found hfound => hother found hfound
    simp [ReadsBack, hnone]

instance : DecidablePred Number.ReadsBack := fun number =>
  decidable_of_iff _ number.rereads_iff

namespace Json

/-! ## What a printed document is read as -/

/-- The number that is read from the text of one of single precision, as long
as that is the nearest to it. -/
def foundFor (value : Single) : Number :=
  match number? (numberText (.single value)) with
  | some (number found, []) =>
    if Codec.nearest found = .ok value then found else .single value
  | _ => .single value

/-- What the text of a number is read as. -/
def rereadNumber : Number → Json
  | .integer value => number (.integer value)
  | .single value => if value.isFinite then number (foundFor value) else null
  | .double value => if value.isFinite then number (.double value) else null

mutual

/-- What the text of a document is read as. -/
def reread : Json → Json
  | null => null
  | bool value => bool value
  | number value => rereadNumber value
  | string value => string value
  | array items => array (rereadItems items)
  | object fields => object (rereadFields fields)

/-- What the texts of the items of an array are read as. -/
def rereadItems : List Json → List Json
  | [] => []
  | item :: items => reread item :: rereadItems items

/-- What the texts of the fields of an object are read as. -/
def rereadFields : List (String × Json) → List (String × Json)
  | [] => []
  | (name, value) :: fields => (name, reread value) :: rereadFields fields

end

theorem rereadItems_eq_map (items : List Json) :
    rereadItems items = items.map reread := by
  induction items with
  | nil => rfl
  | cons item items ih => rw [rereadItems, ih, List.map_cons]

theorem rereadFields_eq_mapValues (fields : List (String × Json)) :
    rereadFields fields = Dict.mapValues reread fields := by
  induction fields with
  | nil => rfl
  | cons entry fields ih =>
      obtain ⟨name, value⟩ := entry
      rw [rereadFields, ih]
      rfl

theorem nearest_foundFor {value : Single} (hfinite : value.isFinite = true) :
    Codec.nearest (foundFor value) = .ok value := by
  rw [foundFor]
  split
  · split
    next hfound => exact hfound
    next => exact Codec.nearest_single hfinite
  · exact Codec.nearest_single hfinite

/-- A document in canonical form is read as itself. -/
theorem reread_of_canonical {document : Json}
    (hcanonical : document.canonical = document) :
    document.reread = document := by
  induction document with
  | null => rfl
  | bool value => rfl
  | string value => rfl
  | number value =>
      cases value with
      | integer value => rfl
      | single value =>
          rw [canonical, ofNumber] at hcanonical
          split at hcanonical <;> simp at hcanonical
      | double value =>
          rw [canonical, ofNumber] at hcanonical
          split at hcanonical
          next hfinite => simp [reread, rereadNumber, hfinite]
          next => simp at hcanonical
  | array items ih =>
      have hitems := items_of_canonical hcanonical
      rw [reread, rereadItems_eq_map, array.injEq]
      refine (List.map_inj_left.mpr fun item hitem => ?_).trans (List.map_id _)
      exact ih item hitem (hitems item hitem)
  | object fields ih =>
      obtain ⟨-, hfields⟩ := fields_of_canonical hcanonical
      rw [reread, rereadFields_eq_mapValues, object.injEq]
      refine (List.map_inj_left.mpr fun entry hentry => ?_).trans (List.map_id _)
      exact Prod.ext rfl (ih entry hentry (hfields entry hentry))

/-- Printing and parsing as a conveyance. -/
def printedConveyance : Conveyance where
  carry := reread
  carryFields := rereadFields
  carry_null := rfl
  carry_bool _ := rfl
  carry_string _ := rfl
  carry_integer _ := rfl
  carry_single value hfinite :=
    ⟨foundFor value, by simp [reread, rereadNumber, hfinite],
      nearest_foundFor hfinite⟩
  carry_double value hfinite :=
    ⟨.double value, by simp [reread, rereadNumber, hfinite],
      Codec.nearest_double hfinite⟩
  lose_single value hlost := by simp [reread, rereadNumber, hlost]
  lose_double value hlost := by simp [reread, rereadNumber, hlost]
  carry_array items := by rw [reread, rereadItems_eq_map]
  carry_object fields := rfl
  carryFields_perm fields _ := by rw [rereadFields_eq_mapValues]
  carry_canonical document hcanonical := by
    rw [reread_of_canonical hcanonical, hcanonical]

end Json

end SkillEngine

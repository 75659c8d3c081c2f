import SkillEngine.Codec.Tagged
import SkillEngine.Proofs.Codec.Record
import SkillEngine.Proofs.Json.Reading

/-!
# Shapes of what is written

A reader passes over the parts of a document that its shape does not want.  A
codec is *shaped* when its shape wants all of every document that it writes, so
that nothing of them is passed over; then the text of a value is read like the
document that it was printed from.
-/

namespace SkillEngine

open Json (Shape)

variable {α β ρ : Type}

/-- The shape of the codec wants all of every document that it writes. -/
class Codec.Shaped (codec : Codec α) : Prop where
  covers : ∀ value, codec.shape.Covers (codec.encode value)

/-- Every field that the description writes is described with a shape that
wants all of it. -/
class Record.Shaped (record : Record ρ α) : Prop where
  covers : ∀ value, ∀ entry ∈ record.write value, ∃ known ∈ record.checks,
    known.name = entry.1 ∧ known.shape.Covers entry.2

/-! ## Plain values, options and lists -/

namespace Codec

theorem Shaped.of_whole {codec : Codec α} (h : codec.shape = .whole) :
    codec.Shaped :=
  ⟨fun _ => h ▸ Shape.whole_covers _⟩

instance : text.Shaped := .of_whole rfl

instance : bool.Shaped := .of_whole rfl

instance : word32.Shaped := .of_whole rfl

instance : word64.Shaped := .of_whole rfl

instance (values : List α) (name : α → String) : (choice values name).Shaped :=
  .of_whole rfl

instance (variants : List (Variant α))
    (write : α → String × List (String × Json)) :
    (tagged variants write).Shaped :=
  .of_whole rfl

instance (codec : Codec α) [codec.Shaped] : codec.option.Shaped where
  covers := by
    intro held
    cases held with
    | none => exact .null
    | some value => exact Shaped.covers value

instance (codec : Codec α) [codec.Shaped] : codec.list.Shaped where
  covers := by
    intro values
    refine .array fun index item hitem => ?_
    obtain ⟨value, -, rfl⟩ := List.mem_map.mp (List.mem_of_getElem? hitem)
    exact Shaped.covers value

end Codec

/-! ## Records -/

namespace Record

instance (name : String) (codec : Codec β) [codec.Shaped]
    (absent : Except DecodeError β) (hidden : β → Bool) (get : ρ → β) :
    (field name codec absent hidden get).Shaped where
  covers := by
    intro value entry hentry
    rw [write_field] at hentry
    split at hentry
    · simp at hentry
    · obtain rfl := List.mem_singleton.mp hentry
      exact ⟨_, List.mem_singleton_self _, rfl, Codec.Shaped.covers (get value)⟩

instance (name : String) (codec : Codec β) [codec.Shaped] (get : ρ → β) :
    (required name codec get).Shaped :=
  inferInstanceAs (field ..).Shaped

instance (name : String) (codec : Codec β) [codec.Shaped] (default : β)
    (get : ρ → β) : (withDefault name codec default get).Shaped :=
  inferInstanceAs (field ..).Shaped

instance (name : String) (codec : Codec β) [codec.Shaped]
    (get : ρ → Option β) : (optional name codec get).Shaped :=
  inferInstanceAs (field ..).Shaped

instance (name : String) (codec : Codec β) [codec.Shaped] (get : ρ → List β) :
    (unlessEmpty name codec get).Shaped :=
  inferInstanceAs (field ..).Shaped

instance (f : α → β) (record : Record ρ α) [record.Shaped] :
    (f <$> record).Shaped where
  covers := @Shaped.covers α ρ record _

instance (function : Record ρ (α → β)) (argument : Record ρ α)
    [function.Shaped] [argument.Shaped] : (function <*> argument).Shaped where
  covers := by
    intro value entry hentry
    rcases List.mem_append.mp hentry with hentry | hentry
    · obtain ⟨known, hknown, hcovers⟩ := Shaped.covers value entry hentry
      exact ⟨known, List.mem_append_left _ hknown, hcovers⟩
    · obtain ⟨known, hknown, hcovers⟩ := Shaped.covers value entry hentry
      exact ⟨known, List.mem_append_right _ hknown, hcovers⟩

/-- The shape of a record finds a field that is described. -/
theorem field?_shape {record : Record ρ ρ} (hnodup : record.names.Nodup)
    {known : FieldCheck} (hknown : known ∈ record.checks) :
    record.codec.shape.field? known.name = some known.shape := by
  have hentries : (Dict.names
      (record.checks.map fun known => (known.name, known.shape))).Nodup := by
    rw [Dict.names, List.map_map]
    exact hnodup
  exact (Dict.find?_eq_some_iff hentries).mpr
    (List.mem_map.mpr ⟨known, hknown, rfl⟩)

theorem shaped {record : Record ρ ρ} [record.Shaped]
    (hnodup : record.names.Nodup) : record.codec.Shaped where
  covers := by
    intro value
    refine .object (fun entry hentry => ?_) fun entry hentry wanted hwanted => ?_
    · obtain ⟨known, hknown, hname, -⟩ := Shaped.covers value entry hentry
      rw [← hname, field?_shape hnodup hknown]
      rfl
    · obtain ⟨known, hknown, hname, hcovers⟩ := Shaped.covers value entry hentry
      rw [← hname, field?_shape hnodup hknown, Option.some.injEq] at hwanted
      rwa [← hwanted]

end Record

end SkillEngine

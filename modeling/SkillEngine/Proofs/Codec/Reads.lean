import SkillEngine.Codec.Record
import SkillEngine.Proofs.Outcome

/-!
# What records read

What a record yields depends on the contents of its fields.  `Record.Reads`
relates the two, field by field: what is said of a whole description is what is
said of its parts, and of parts that do not matter nothing is said.
-/

namespace SkillEngine.Record

variable {α β ρ : Type}

/-- What is said of the contents of fields and of the value that is read from
them. -/
abbrev Reading (α : Type) : Type :=
  Passage → (String → Option Json) → α → Prop

/-- The reading holds of every value that the description reads. -/
def Reads (record : Record ρ α) (reading : Reading α) : Prop :=
  ∀ passage find value, record.build passage find = .ok value →
    reading passage find value

theorem Reads.map {record : Record ρ α} {f : α → β} {reading : Reading β}
    (h : record.Reads fun passage find value => reading passage find (f value)) :
    (f <$> record).Reads reading := by
  intro passage find result hread
  obtain ⟨value, hbuild, rfl⟩ := exceptMap_eq_ok_iff.mp hread
  exact h passage find value hbuild

/-- The last field of a description together with those before it. -/
theorem Reads.seq {function : Record ρ (α → β)} {argument : Record ρ α}
    {reading : Reading β} {last : Reading α} (hargument : argument.Reads last)
    (hfunction : function.Reads fun passage find f => ∀ value,
      last passage find value → reading passage find (f value)) :
    (function <*> argument).Reads reading := by
  intro passage find result hread
  obtain ⟨f, hbuild, hread⟩ := bind_eq_ok_iff.mp hread
  obtain ⟨value, hvalue, hread⟩ := bind_eq_ok_iff.mp hread
  obtain rfl := Except.ok.inj hread
  exact hfunction passage find f hbuild value
    (hargument passage find value hvalue)

/-- The last field of a description does not matter. -/
theorem Reads.skip {function : Record ρ (α → β)} {argument : Record ρ α}
    {reading : Reading β}
    (hfunction : function.Reads fun passage find f => ∀ value,
      reading passage find (f value)) :
    (function <*> argument).Reads reading := by
  have hargument : argument.Reads fun _ _ _ => True := fun _ _ _ _ => trivial
  exact Reads.seq hargument fun passage find f hbuild value _ =>
    hfunction passage find f hbuild value

/-- Where a field has a content, the codec of the field reads it. -/
theorem reads_field (name : String) (codec : Codec α)
    (absent : Except DecodeError α) (hidden : α → Bool) (get : ρ → α) :
    (field name codec absent hidden get).Reads fun passage find value =>
      ∀ document, find name = some document →
        codec.decode passage document = .ok value := by
  intro passage find value hread document hfound
  simpa only [field, hfound] using hread

/-- A field that has to be there is read from its content. -/
theorem reads_required (name : String) (codec : Codec α) (get : ρ → α) :
    (required name codec get).Reads fun passage find value =>
      ∃ document, find name = some document ∧
        codec.decode passage document = .ok value := by
  intro passage find value hread
  cases hfound : find name with
  | none => simp [required, field, hfound] at hread
  | some document =>
      exact ⟨document, rfl, reads_field name codec _ _ get passage find value
        hread document hfound⟩

theorem Reads.decode_object {record : Record ρ α} {reading : Reading α}
    (h : record.Reads reading) {passage : Passage}
    {fields : List (String × Json)} {value : α}
    (hread : record.decode passage (.object fields) = .ok value) :
    reading passage (Dict.find? fields) value := by
  rw [Record.decode, ofFields] at hread
  split at hread
  next found hbuild =>
    split at hread
    · obtain rfl := Except.ok.inj hread
      exact h _ _ found hbuild
    · simp at hread
  next => simp at hread

end SkillEngine.Record

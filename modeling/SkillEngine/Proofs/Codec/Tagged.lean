import SkillEngine.Codec.Tagged
import SkillEngine.Proofs.Codec.Record

/-!
# Tagged records on the way

A tagged record is read as the outcome of the record of its kind, as one that
was collected behind its tag.
-/

namespace SkillEngine.Codec

variable {ρ α : Type} {view : Conveyance} {passage : Passage}
  {variants : List (Variant α)} {write : α → String × List (String × Json)}

/-- What a tagged record is read from is its tag and its other fields. -/
theorem decodeTagged_of_perm (passage : Passage)
    {fields rest : List (String × Json)} {tag : String} {variant : Variant α}
    (hperm : fields.Perm ((tagField, .string tag) :: rest))
    (hrest : tagField ∉ Dict.names rest)
    (hvariant : variants.find? (·.tag == tag) = some variant) :
    ∃ others, others.Perm rest ∧
      decodeTagged variants passage (.object fields) =
        variant.decode .collected (.object others) := by
  have hother : ∀ entry ∈ rest, entry.1 ≠ tagField := by
    rintro entry hentry heq
    exact hrest (heq ▸ List.mem_map_of_mem hentry)
  have htag : fields.filter (·.1 == tagField) = [(tagField, .string tag)] := by
    rw [← List.perm_singleton]
    refine (hperm.filter _).trans ?_
    have hnone : rest.filter (·.1 == tagField) = [] := by
      simpa [List.filter_eq_nil_iff] using hother
    simp [hnone]
  refine ⟨fields.filter (·.1 != tagField), ?_, ?_⟩
  · refine (hperm.filter _).trans ?_
    have hall : rest.filter (·.1 != tagField) = rest := by
      simpa [List.filter_eq_self] using hother
    simp [hall]
  · simp [decodeTagged, htag, variantOf, chosen, hvariant, bind, Except.bind]

/-- A tagged record is read as the outcome of the record of its kind. -/
theorem restore_tagged (record : Record ρ ρ) [record.Honest] {tag : String}
    (wrap : ρ → α) {value result : ρ}
    (hnodup : record.names.Nodup) (htag : tagField ∉ record.names)
    (hvariant : variants.find? (·.tag == tag) =
      some (record.variant tag wrap))
    (hwrite : write (wrap value) = (tag, record.write value))
    (h : record.outcome view .collected value = .ok result) :
    (tagged variants write).restore view passage (wrap value) =
      .ok (wrap result) := by
  have hnames : tagField ∉ Dict.names (record.write value) := fun hmem =>
    htag (Record.mem_names_of_written hmem)
  have hperm := view.carryFields_perm
    ((tagField, .string tag) :: record.write value)
    (List.nodup_cons.mpr ⟨hnames, Record.nodup_written hnodup value⟩)
  rw [Dict.mapValues, List.map_cons, view.carry_string] at hperm
  have hrest : tagField ∉
      Dict.names (Dict.mapValues view.carry (record.write value)) := by
    rwa [Dict.names_mapValues]
  obtain ⟨others, hothers, hdecode⟩ :=
    decodeTagged_of_perm passage hperm hrest hvariant
  have hread : record.ofFields .collected others = .ok result :=
    (Record.ofFields_eq_ok_iff .collected hnodup hothers result).mpr h
  have hencode : (tagged variants write).encode (wrap value) =
      .object ((tagField, .string tag) :: record.write value) := by
    simp only [tagged, hwrite]
  have hrestore : (tagged variants write).restore view passage (wrap value) =
      (record.ofFields .collected others).map wrap := by
    rw [restore, hencode, view.carry_object]
    exact hdecode
  rw [hrestore, hread]
  rfl

end SkillEngine.Codec

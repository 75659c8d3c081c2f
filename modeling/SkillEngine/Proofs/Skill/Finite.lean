import SkillEngine.Proofs.Codec.Yield
import SkillEngine.Proofs.Skill.Storable

/-!
# The numbers of skills that are read

From a document with finite numbers a skill is read whose bounds are finite and
whose defaults are not null.  Its temperatures need not be finite: they are
numbers of single precision, and a number of the document may lie beyond the
greatest of these.  So they alone decide whether such a skill can be stored.
-/

namespace SkillEngine

open Json (AllFinite)

theorem ParameterHints.codec_yields :
    ParameterHints.codec.Yields (fun hints => hints.recovered = hints)
      AllFinite := by
  refine Record.Yields.codec ?_
  unfold ParameterHints.record
  refine .seq (.optional Codec.double_yields)
    (.seq (.optional Codec.double_yields) (.ignore (.ignore (.map_ignore ?_))))
  intro label placeholder multiline min hmin max hmax
  simp [recovered, filter_eq_self_iff.mpr hmin, filter_eq_self_iff.mpr hmax]

theorem Parameter.codec_yields_kept :
    Parameter.codec.Yields (fun parameter => parameter.recovered = parameter)
      AllFinite := by
  refine Record.Yields.codec ?_
  unfold Parameter.record
  refine .seq (.optional ParameterHints.codec_yields)
    (.ignore (.seq (Record.Yields.field Codec.default_yields (by simp)) ?_))
  refine .ignore (.ignore (.ignore (.map_ignore ?_)))
  intro name description kind required default hdefault allowed hints hhints
  simp [recovered, filter_eq_self_iff.mpr (ne_null_iff.mp hdefault),
    optionMap_eq_self_iff.mpr hhints]

theorem Prompt.record_yields_kept :
    Prompt.record.Yields
      (fun prompt => ∀ parameter ∈ (Definition.prompt prompt).parameters,
        parameter.recovered = parameter) AllFinite := by
  unfold Prompt.record
  refine .ignore (.ignore (.seq
    (.withDefault Parameter.codec_yields_kept.list (by simp)) (.map_ignore ?_)))
  exact fun _ _ hparameters _ _ => hparameters

theorem Workflow.record_yields_kept :
    Workflow.record.Yields
      (fun workflow => ∀ parameter ∈ (Definition.workflow workflow).parameters,
        parameter.recovered = parameter) AllFinite := by
  unfold Workflow.record
  refine .ignore (.ignore (.ignore (.ignore (.seq
    (.withDefault Parameter.codec_yields_kept.list (by simp))
    (.map_ignore ?_)))))
  exact fun _ _ hparameters _ _ _ _ => hparameters

theorem Definition.codec_yields_kept :
    Definition.codec.Yields
      (fun definition => ∀ parameter ∈ definition.parameters,
        parameter.recovered = parameter) AllFinite := by
  refine Codec.yields_tagged ?_
  simp only [variants, List.forall_mem_cons]
  exact ⟨Prompt.record_yields_kept.variant fun _ h => h,
    Workflow.record_yields_kept.variant fun _ h => h,
    Record.Yields.variant (Record.yields_true _) (by simp [parameters]),
    Record.Yields.variant (Record.yields_true _) (by simp [parameters]), by simp⟩

namespace Skill

theorem codec_yields_kept :
    codec.Yields (fun skill => ∀ parameter ∈ skill.definition.parameters,
      parameter.recovered = parameter) AllFinite := by
  refine Record.Yields.codec ?_
  unfold record
  refine .ignore (.ignore (.ignore (.ignore (.ignore ?_))))
  refine .seq (.required Definition.codec_yields_kept) ?_
  refine .ignore (.ignore (.ignore (.ignore (.ignore (.ignore
    (.map_ignore ?_))))))
  exact fun _ _ _ _ _ _ _ _ hdefinition _ _ _ _ _ => hdefinition

/-- A skill that was read from a document with finite numbers loses nothing
but its temperatures on the way to another reader. -/
theorem recovered_eq_self_iff_of_read {document : Json} {skill : Skill}
    (hfinite : document.AllFinite) (hread : codec.read document = .ok skill) :
    skill.recovered = skill ↔
      ∀ temperature ∈ skill.temperatures, temperature.isFinite = true := by
  have hparameters := codec_yields_kept .direct document skill hfinite hread
  rw [recovered_eq_self_iff_definition, Definition.recovered_eq_self_iff,
    and_iff_left hparameters, temperatures]

end Skill

end SkillEngine

import Mathlib.Data.List.Induction
import Mathlib.Data.List.Nodup
import SkillEngine.Skill.Validation

/-!
# What validation promises about workflows

A workflow without faults declares its steps in an order that respects the
dependencies: every id is new when its step is declared, and a step depends
only on steps declared before it.  `Workflow.Ordered` states this without
the list of faults, by splitting the steps before any one of them.
-/

namespace SkillEngine

theorem Skill.validate_eq_nil {skill : Skill} :
    skill.validate = [] ↔ skill.violations = [] := by
  simp [Skill.validate]

namespace Step

theorem idViolations_eq_nil {earlier : List String} {step : Step} :
    step.idViolations earlier = [] ↔
      Text.isBlankString step.id = false ∧ step.id ∉ earlier := by
  unfold idViolations
  split
  next h => simp [h]
  next h => split <;> simp_all

theorem kindViolations_eq_nil {step : Step} :
    step.kindViolations = [] ↔ step.kind = step.task.kind := by
  simp [kindViolations]

theorem dependencyViolation?_eq_none
    {all earlier : List String} {step : Step} {dependency : String} :
    step.dependencyViolation? all earlier dependency = none ↔
      dependency ≠ step.id ∧ dependency ∈ all ∧ dependency ∈ earlier := by
  unfold dependencyViolation?
  split
  next h => simp [h]
  next h =>
    split
    next => simp_all
    next => split <;> simp_all

theorem violations_eq_nil
    {all earlier : List String} {step : Step} :
    step.violations all earlier = [] ↔
      (Text.isBlankString step.id = false ∧ step.id ∉ earlier) ∧
        step.kind = step.task.kind ∧
          ∀ dependency ∈ step.dependsOn,
            dependency ≠ step.id ∧ dependency ∈ all ∧ dependency ∈ earlier := by
  simp only [violations, List.append_eq_nil_iff, idViolations_eq_nil,
    kindViolations_eq_nil, List.filterMap_eq_nil_iff,
    dependencyViolation?_eq_none, and_assoc]

/-- The faults of a list of steps are those of each step, seen from its
place in the list. -/
theorem listViolations_eq_nil
    {all earlier : List String} {steps : List Step} :
    listViolations all earlier steps = [] ↔
      ∀ done step rest, steps = done ++ step :: rest →
        step.violations all ((done.map (·.id)).reverse ++ earlier) = [] := by
  induction steps generalizing earlier with
  | nil => simp [listViolations]
  | cons first steps ih =>
      rw [listViolations, List.append_eq_nil_iff, ih]
      constructor
      · rintro ⟨hfirst, hlater⟩ done step rest hsplit
        cases done with
        | nil =>
            obtain ⟨rfl, rfl⟩ := List.cons.inj hsplit
            exact hfirst
        | cons head done =>
            obtain ⟨rfl, htail⟩ := List.cons.inj hsplit
            simpa using hlater done step rest htail
      · intro h
        refine ⟨h [] first steps rfl, ?_⟩
        intro done step rest hsplit
        simpa using h (first :: done) step rest (by rw [hsplit]; rfl)

end Step

namespace Workflow

/-- Every step has a new id and depends only on steps declared before it. -/
def Ordered (workflow : Workflow) : Prop :=
  ∀ done step rest, workflow.steps = done ++ step :: rest →
    step.id ∉ done.map (·.id) ∧
      ∀ dependency ∈ step.dependsOn, dependency ∈ done.map (·.id)

theorem Ordered.nodup {workflow : Workflow} (h : workflow.Ordered) :
    (workflow.steps.map (·.id)).Nodup := by
  unfold Ordered at h
  generalize workflow.steps = steps at h
  induction steps using List.reverseRecOn with
  | nil => exact List.nodup_nil
  | append_singleton steps step ih =>
      have hearlier : (steps.map (·.id)).Nodup := by
        apply ih
        intro done other rest hsplit
        exact h done other (rest ++ [step]) (by simp [hsplit])
      have hnew := (h steps step [] rfl).1
      rw [List.map_append, List.nodup_append]
      refine ⟨hearlier, List.nodup_singleton _, ?_⟩
      intro id hid other hother heq
      obtain rfl : other = step.id := by simpa using hother
      exact hnew (heq ▸ hid)

theorem Ordered.eq_of_id_eq {workflow : Workflow} (h : workflow.Ordered)
    {first second : Step} (hfirst : first ∈ workflow.steps)
    (hsecond : second ∈ workflow.steps) (hid : first.id = second.id) :
    first = second :=
  List.inj_on_of_nodup_map h.nodup hfirst hsecond hid

theorem ordered_of_graphViolations {workflow : Workflow}
    (h : workflow.graphViolations = []) : workflow.Ordered := by
  intro done step rest hsplit
  have hstep := Step.listViolations_eq_nil.mp h done step rest hsplit
  obtain ⟨⟨-, hnew⟩, -, hdepends⟩ := Step.violations_eq_nil.mp hstep
  refine ⟨by simpa using hnew, ?_⟩
  intro dependency hdependency
  simpa using (hdepends dependency hdependency).2.2

end Workflow

theorem Skill.ordered_of_validate {skill : Skill} {workflow : Workflow}
    (hdefinition : skill.definition = .workflow workflow)
    (hvalid : skill.validate = []) : workflow.Ordered := by
  have hall := Skill.validate_eq_nil.mp hvalid
  simp only [Skill.violations, hdefinition, Definition.violations,
    List.append_eq_nil_iff] at hall
  exact Workflow.ordered_of_graphViolations hall.1.2.2

end SkillEngine

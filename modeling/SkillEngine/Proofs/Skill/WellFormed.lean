import Mathlib.Data.List.DropRight
import SkillEngine.Proofs.Skill.Parameters
import SkillEngine.Proofs.Workflow.Dependencies

/-!
# What validation decides

A skill has no fault exactly when it is well-formed, and that is said here
without the list of faults: its texts hold more than white space, its
parameters have different names, and its definition has what a definition of
its kind needs.

Validation is a chain of checks in which one complaint can stand for another:
a blank id is not reported as a repeated one, and a dependency is reported
once, as the first of three things that can be wrong with it.  Nothing is lost
by that, since whatever is passed over was reported in another way.
-/

namespace SkillEngine

namespace Text

/-- The text without the white space at its ends. -/
def trim (text : List Char) : List Char :=
  (text.dropWhile isBlank).rdropWhile isBlank

/-- Something is left of the text when it is trimmed. -/
def HasInk (text : String) : Prop := trim text.toList ≠ []

theorem trim_eq_nil_iff {text : List Char} :
    trim text = [] ↔ allBlank text = true := by
  rw [trim, List.rdropWhile_eq_nil_iff, allBlank, List.all_eq_true]
  constructor
  · intro h c hc
    rw [← List.takeWhile_append_dropWhile (p := isBlank) (l := text)] at hc
    rcases List.mem_append.mp hc with hc | hc
    · exact List.mem_takeWhile_imp hc
    · exact h c hc
  · intro h c hc
    exact h c ((List.dropWhile_sublist isBlank).subset hc)

theorem hasInk_iff {text : String} :
    HasInk text ↔ isBlankString text = false := by
  rw [HasInk, ne_eq, trim_eq_nil_iff, Bool.not_eq_true]
  rfl

end Text

/-! ## Well-formed skills -/

/-- The steps of the workflow are sound one by one and in their order. -/
structure Workflow.WellFormed (workflow : Workflow) : Prop where
  nonempty : workflow.steps ≠ []
  ids : ∀ step ∈ workflow.steps, Text.HasInk step.id
  distinct : (workflow.steps.map (·.id)).Nodup
  kinds : ∀ step ∈ workflow.steps, step.kind = step.task.kind
  /-- A step depends only on steps that are declared before it. -/
  earlier : ∀ done step rest, workflow.steps = done ++ step :: rest →
    ∀ dependency ∈ step.dependsOn, ∃ other ∈ done, other.id = dependency

/-- A definition of a skill with the id has what its kind needs. -/
def Definition.WellFormed (id : String) : Definition → Prop
  | .prompt value => Text.HasInk value.template
  | .workflow value => value.WellFormed
  | .tool value => Text.HasInk value.tool
  | .hybrid value => value.skills ≠ [] ∧
    ∀ entry ∈ value.skills, Text.HasInk entry.skill ∧ entry.skill ≠ id

/-- The skill has a name and all that belongs to it. -/
structure Skill.WellFormed (skill : Skill) : Prop where
  id : Text.HasInk skill.id
  name : Text.HasInk skill.name
  description : Text.HasInk skill.description
  parameters : (skill.parameters.map (·.name)).Nodup
  definition : skill.definition.WellFormed skill.id

/-- No step depends on itself, directly or through others. -/
def Workflow.Acyclic (workflow : Workflow) : Prop :=
  ∀ step, ¬Relation.TransGen workflow.DependsOn step step

/-! ## The checks one by one -/

theorem Skill.ownViolations_eq_nil {skill : Skill} :
    skill.ownViolations = [] ↔ Text.HasInk skill.id ∧
      Text.HasInk skill.name ∧ Text.HasInk skill.description := by
  simp [ownViolations, Text.hasInk_iff]

theorem SubSkill.violation?_eq_none {id : String} {entry : SubSkill} :
    entry.violation? id = none ↔
      Text.HasInk entry.skill ∧ entry.skill ≠ id := by
  unfold violation?
  split
  next hblank => simp [Text.hasInk_iff, hblank]
  next hink => split <;> simp_all [Text.hasInk_iff]

namespace Workflow

variable {workflow : Workflow}

theorem wellFormed_of_graphViolations (hsteps : workflow.steps ≠ [])
    (h : workflow.graphViolations = []) : workflow.WellFormed := by
  have hordered := ordered_of_graphViolations h
  have hstep : ∀ step ∈ workflow.steps,
      Text.HasInk step.id ∧ step.kind = step.task.kind := by
    intro step hmem
    obtain ⟨done, rest, hsplit⟩ := List.append_of_mem hmem
    have hclean := Step.listViolations_eq_nil.mp h done step rest hsplit
    obtain ⟨⟨hink, -⟩, hkind, -⟩ := Step.violations_eq_nil.mp hclean
    exact ⟨Text.hasInk_iff.mpr hink, hkind⟩
  constructor
  case nonempty => exact hsteps
  case ids => exact fun step hmem => (hstep step hmem).1
  case distinct => exact hordered.nodup
  case kinds => exact fun step hmem => (hstep step hmem).2
  case earlier =>
    intro done step rest hsplit dependency hdependency
    exact List.mem_map.mp
      ((hordered done step rest hsplit).2 dependency hdependency)

theorem WellFormed.ordered (h : workflow.WellFormed) : workflow.Ordered := by
  intro done step rest hsplit
  constructor
  · have hnodup := h.distinct
    rw [hsplit, List.map_append, List.map_cons] at hnodup
    intro hmem
    exact List.disjoint_of_nodup_append hnodup hmem List.mem_cons_self
  · intro dependency hdependency
    exact List.mem_map.mpr (h.earlier done step rest hsplit dependency
      hdependency)

/-- An earlier step is one of the workflow, and another than the step itself,
so a dependency on it passes all three checks. -/
theorem WellFormed.graphViolations (h : workflow.WellFormed) :
    workflow.graphViolations = [] := by
  rw [Workflow.graphViolations, Step.listViolations_eq_nil]
  intro done step rest hsplit
  obtain ⟨hnew, hearlier⟩ := h.ordered done step rest hsplit
  have hmem : step ∈ workflow.steps := by simp [hsplit]
  rw [Step.violations_eq_nil]
  refine ⟨⟨Text.hasInk_iff.mp (h.ids step hmem), by simpa using hnew⟩,
    h.kinds step hmem, ?_⟩
  intro dependency hdependency
  have hdone := hearlier dependency hdependency
  refine ⟨?_, ?_, by simpa using hdone⟩
  · rintro rfl
    exact hnew hdone
  · rw [hsplit, List.map_append]
    exact List.mem_append_left _ hdone

/-! ## No cycles -/

/-- A dependency is declared before the step that depends on it. -/
theorem Ordered.idxOf_lt (h : workflow.Ordered) {step other : Step}
    (hstep : step ∈ workflow.steps) (hdepends : workflow.DependsOn step other) :
    (workflow.steps.map (·.id)).idxOf other.id <
      (workflow.steps.map (·.id)).idxOf step.id := by
  obtain ⟨done, rest, hsplit⟩ := List.append_of_mem hstep
  obtain ⟨hnew, hearlier⟩ := h done step rest hsplit
  have hdone := hearlier other.id hdepends.2
  rw [hsplit, List.map_append, List.map_cons, List.idxOf_append_of_mem hdone,
    List.idxOf_append_of_notMem hnew, List.idxOf_cons_self]
  exact List.idxOf_lt_length_iff.mpr hdone

theorem Ordered.acyclic (h : workflow.Ordered) : workflow.Acyclic := by
  have hdecreases : ∀ {step other},
      Relation.TransGen workflow.DependsOn step other →
        step ∈ workflow.steps → other ∈ workflow.steps ∧
          (workflow.steps.map (·.id)).idxOf other.id <
            (workflow.steps.map (·.id)).idxOf step.id := by
    intro step other hpath hstep
    induction hpath with
    | single hdepends => exact ⟨hdepends.1, h.idxOf_lt hstep hdepends⟩
    | tail _ hdepends ih =>
      obtain ⟨hmem, hlt⟩ := ih
      exact ⟨hdepends.1, (h.idxOf_lt hmem hdepends).trans hlt⟩
  intro step hcycle
  have hstep : step ∈ workflow.steps := by
    obtain ⟨_, -, hdepends⟩ := Relation.TransGen.tail'_iff.mp hcycle
    exact hdepends.1
  exact lt_irrefl _ (hdecreases hcycle hstep).2

end Workflow

/-! ## The checks together -/

theorem Definition.violations_eq_nil {id : String} {definition : Definition} :
    definition.violations id = [] ↔ definition.WellFormed id := by
  cases definition with
  | prompt prompt => simp [violations, WellFormed, Text.hasInk_iff]
  | tool use => simp [violations, WellFormed, Text.hasInk_iff]
  | hybrid hybrid =>
    rw [violations, List.append_eq_nil_iff, List.filterMap_eq_nil_iff]
    simp [SubSkill.violation?_eq_none, WellFormed]
  | workflow workflow =>
    rw [violations, List.append_eq_nil_iff]
    constructor
    · rintro ⟨hsteps, hgraph⟩
      exact Workflow.wellFormed_of_graphViolations (by simpa using hsteps)
        hgraph
    · intro h
      exact ⟨by simpa using h.nonempty, h.graphViolations⟩

/-- Validation accepts exactly the well-formed skills, and no workflow whose
dependencies go in a circle. -/
theorem Skill.validate_decides (skill : Skill) :
    (skill.validate = [] ↔ skill.WellFormed) ∧
      ∀ workflow, skill.definition = .workflow workflow →
        skill.validate = [] → workflow.Acyclic := by
  constructor
  · rw [Skill.validate_eq_nil, Skill.violations, List.append_eq_nil_iff,
      List.append_eq_nil_iff, List.map_eq_nil_iff, ownViolations_eq_nil,
      Definition.violations_eq_nil, duplicates_eq_nil]
    constructor
    · rintro ⟨⟨⟨hid, hname, hdescription⟩, hdefinition⟩, hnodup, -⟩
      exact ⟨hid, hname, hdescription, hnodup, hdefinition⟩
    · intro h
      exact ⟨⟨⟨h.id, h.name, h.description⟩, h.definition⟩, h.parameters,
        by simp⟩
  · intro workflow hdefinition hvalid
    exact (Skill.ordered_of_validate hdefinition hvalid).acyclic

end SkillEngine

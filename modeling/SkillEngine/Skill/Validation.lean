import SkillEngine.Skill.Basic
import SkillEngine.Text.Blank

/-!
# Validation

The faults of a skill that keep it from being registered or run.  All faults are listed, in a
fixed order: those of the skill itself, those of its definition, and names of parameters that
occur twice.
-/

namespace SkillEngine

/-- A fault of a skill. -/
inductive Violation where
  | blankId
  | blankName
  | blankDescription
  | blankTemplate
  | noSteps
  | blankTool
  | noSubSkills
  | blankSubSkill
  | selfReference
  | blankStepId (stepName : String)
  | duplicateStep (step : String)
  | kindMismatch (step : String) (declared configured : StepKind)
  | selfDependency (step : String)
  | unknownDependency (step dependency : String)
  | laterDependency (step dependency : String)
  | duplicateParameter (name : String)
  deriving DecidableEq

namespace Violation

/-- The wording of a fault. -/
def message : Violation → String
  | blankId => "skill must have an id"
  | blankName => "skill must have a name"
  | blankDescription => "skill must have a description"
  | blankTemplate => "prompt skill must have a template"
  | noSteps => "workflow skill must have steps"
  | blankTool => "tool skill must specify a tool"
  | noSubSkills => "hybrid skill must have sub-skills"
  | blankSubSkill => "hybrid sub-skill reference must have a skillId"
  | selfReference => "hybrid skill cannot reference itself"
  | blankStepId stepName => "step \"" ++ stepName ++ "\" must have an id"
  | duplicateStep step => "duplicate step id: " ++ step
  | kindMismatch step declared configured =>
    "step " ++ step ++ " is declared as " ++ declared.name ++ " but configured as " ++
      configured.name
  | selfDependency step => "step " ++ step ++ " depends on itself"
  | unknownDependency step dependency =>
    "step " ++ step ++ " depends on unknown step " ++ dependency
  | laterDependency step dependency =>
    "step " ++ step ++ " depends on " ++ dependency ++ ", which is declared after it"
  | duplicateParameter name => "duplicate parameter: " ++ name

end Violation

namespace Step

/-- The faults of a step's id, given the ids of the steps before it. -/
def idViolations (earlier : List String) (step : Step) : List Violation :=
  if Text.isBlankString step.id then [.blankStepId step.name]
  else if step.id ∈ earlier then [.duplicateStep step.id]
  else []

/-- The fault of a step whose declared kind is not that of its task. -/
def kindViolations (step : Step) : List Violation :=
  if step.kind = step.task.kind then []
  else [.kindMismatch step.id step.kind step.task.kind]

/-- The fault of one dependency of a step, given all ids and those of the steps before it. -/
def dependencyViolation? (all earlier : List String) (step : Step) (dependency : String) :
    Option Violation :=
  if dependency = step.id then some (.selfDependency step.id)
  else if dependency ∉ all then some (.unknownDependency step.id dependency)
  else if dependency ∉ earlier then some (.laterDependency step.id dependency)
  else none

/-- The faults of a step. -/
def violations (all earlier : List String) (step : Step) : List Violation :=
  step.idViolations earlier ++ step.kindViolations ++
    step.dependsOn.filterMap (step.dependencyViolation? all earlier)

/-- The faults of steps that follow those with the earlier ids. -/
def listViolations (all : List String) : List String → List Step → List Violation
  | _, [] => []
  | earlier, step :: steps =>
    step.violations all earlier ++ listViolations all (step.id :: earlier) steps

end Step

/-- The faults of the steps of a workflow: ids are unique, kinds agree with tasks, and every
dependency is an earlier step. -/
def Workflow.graphViolations (workflow : Workflow) : List Violation :=
  Step.listViolations (workflow.steps.map (·.id)) [] workflow.steps

/-- The fault of an entry in a hybrid skill of the given id. -/
def SubSkill.violation? (id : String) (entry : SubSkill) : Option Violation :=
  if Text.isBlankString entry.skill then some .blankSubSkill
  else if entry.skill = id then some .selfReference
  else none

/-- The faults of the definition of a skill of the given id. -/
def Definition.violations (id : String) : Definition → List Violation
  | .prompt value => if Text.isBlankString value.template then [.blankTemplate] else []
  | .workflow value =>
    (if value.steps.isEmpty then [.noSteps] else []) ++ value.graphViolations
  | .tool value => if Text.isBlankString value.tool then [.blankTool] else []
  | .hybrid value =>
    (if value.skills.isEmpty then [.noSubSkills] else []) ++
      value.skills.filterMap (SubSkill.violation? id)

/-- The names that occur before, once for each time. -/
def duplicates : List String → List String → List String
  | _, [] => []
  | seen, name :: names =>
    if name ∈ seen then name :: duplicates seen names else duplicates (name :: seen) names

namespace Skill

/-- The faults of the skill itself. -/
def ownViolations (skill : Skill) : List Violation :=
  (if Text.isBlankString skill.id then [.blankId] else []) ++
    (if Text.isBlankString skill.name then [.blankName] else []) ++
    if Text.isBlankString skill.description then [.blankDescription] else []

/-- The faults of a skill. -/
def violations (skill : Skill) : List Violation :=
  skill.ownViolations ++ skill.definition.violations skill.id ++
    (duplicates [] (skill.parameters.map (·.name))).map .duplicateParameter

/-- The wordings of the faults of a skill. -/
def validate (skill : Skill) : List String := skill.violations.map Violation.message

/-- A skill without faults. -/
def Valid (skill : Skill) : Prop := skill.violations = []

end Skill

end SkillEngine

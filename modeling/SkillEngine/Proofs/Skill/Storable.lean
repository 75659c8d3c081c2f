import SkillEngine.Proofs.Skill.Recovery

/-!
# Skills that can be stored

A skill can be stored when nothing of it is lost between its document and the
skill that is read again: its numbers are finite, and no default is null.
-/

namespace SkillEngine

/-! ## What a skill contains -/

/-- The bounds of the hints for a parameter. -/
def ParameterHints.bounds (hints : ParameterHints) : List Double :=
  hints.min.toList ++ hints.max.toList

/-- The model choice of a task. -/
def StepTask.choice? : StepTask → Option ModelChoice
  | .prompt task => task.model
  | .tool _ | .condition _ | .loop _ | .transform _ => none

namespace Definition

/-- The model choices of a definition. -/
def choices : Definition → List ModelChoice
  | .prompt value => value.model.toList
  | .workflow value => value.steps.filterMap (·.task.choice?)
  | .tool _ | .hybrid _ => []

/-- The declared inputs of a definition. -/
def parameters : Definition → List Parameter
  | .prompt value => value.parameters
  | .workflow value => value.parameters
  | .tool _ | .hybrid _ => []

end Definition

namespace Skill

/-- The temperatures of a skill. -/
def temperatures (skill : Skill) : List Single :=
  skill.definition.choices.filterMap (·.temperature)

/-- The bounds in the hints of a skill. -/
def bounds (skill : Skill) : List Double :=
  skill.parameters.flatMap fun parameter =>
    parameter.hints.toList.flatMap ParameterHints.bounds

/-- All floating point numbers of a skill are finite, and no default is an
explicit null. -/
structure Storable (skill : Skill) : Prop where
  temperatures :
    ∀ temperature ∈ skill.temperatures, temperature.isFinite = true
  bounds : ∀ bound ∈ skill.bounds, bound.isFinite = true
  defaults : ∀ parameter ∈ skill.parameters, parameter.default ≠ some .null

end Skill

/-! ## Skills that lose nothing -/

theorem filter_eq_self_iff {α : Type} {kept : α → Bool} {held : Option α} :
    held.filter kept = held ↔ ∀ value ∈ held, kept value = true := by
  cases held <;> simp [Option.filter]

theorem optionMap_eq_self_iff {α : Type} {f : α → α} {held : Option α} :
    held.map f = held ↔ ∀ value ∈ held, f value = value := by
  cases held <;> simp

theorem listMap_eq_self_iff {α : Type} {f : α → α} {values : List α} :
    values.map f = values ↔ ∀ value ∈ values, f value = value := by
  simpa using List.map_inj_left (f := f) (g := id) (l := values)

theorem ModelChoice.recovered_eq_self_iff (choice : ModelChoice) :
    choice.recovered = choice ↔
      ∀ temperature ∈ choice.temperature, temperature.isFinite = true := by
  rw [← filter_eq_self_iff]
  obtain ⟨provider, model, temperature, maxTokens⟩ := choice
  simp [recovered]

theorem ModelChoice.map_recovered_eq_self_iff (held : Option ModelChoice) :
    held.map recovered = held ↔
      ∀ temperature ∈ held.toList.filterMap (·.temperature),
        temperature.isFinite = true := by
  rw [optionMap_eq_self_iff]
  simp only [recovered_eq_self_iff]
  cases held with
  | none => simp
  | some choice => cases htemperature : choice.temperature <;>
      simp [htemperature]

theorem ParameterHints.recovered_eq_self_iff (hints : ParameterHints) :
    hints.recovered = hints ↔
      ∀ bound ∈ hints.bounds, bound.isFinite = true := by
  have hbounds : (∀ bound ∈ hints.bounds, bound.isFinite = true) ↔
      hints.min.filter (·.isFinite) = hints.min ∧
        hints.max.filter (·.isFinite) = hints.max := by
    simp [bounds, filter_eq_self_iff, or_imp, forall_and]
  rw [hbounds]
  obtain ⟨label, placeholder, multiline, min, max⟩ := hints
  simp [recovered]

theorem ne_null_iff {default : Option Json} :
    default ≠ some .null ↔ ∀ document ∈ default, (!document.isNull) = true := by
  cases default with
  | none => simp
  | some document => simp [Json.isNull_eq_false_iff]

theorem Parameter.recovered_eq_self_iff (parameter : Parameter) :
    parameter.recovered = parameter ↔
      parameter.default ≠ some .null ∧
      ∀ bound ∈ parameter.hints.toList.flatMap ParameterHints.bounds,
        bound.isFinite = true := by
  have hhints : parameter.hints.map ParameterHints.recovered =
      parameter.hints ↔
      ∀ bound ∈ parameter.hints.toList.flatMap ParameterHints.bounds,
        bound.isFinite = true := by
    rw [optionMap_eq_self_iff, List.forall_mem_flatMap]
    simp [ParameterHints.recovered_eq_self_iff]
  rw [← hhints, ne_null_iff, ← filter_eq_self_iff]
  obtain ⟨name, description, kind, required, default, allowed, hints⟩ :=
    parameter
  simp [recovered]

theorem StepTask.recovered_eq_self_iff (task : StepTask) :
    task.recovered = task ↔
      ∀ temperature ∈ task.choice?.toList.filterMap (·.temperature),
        temperature.isFinite = true := by
  cases task with
  | prompt task =>
      obtain ⟨template, model⟩ := task
      simp only [choice?, ← ModelChoice.map_recovered_eq_self_iff]
      simp [recovered, PromptTask.recovered]
  | _ => simp [recovered, choice?]

theorem Step.map_recovered_eq_self_iff (steps : List Step) :
    steps.map recovered = steps ↔
      ∀ temperature ∈
          (steps.filterMap (·.task.choice?)).filterMap (·.temperature),
        temperature.isFinite = true := by
  have hstep : ∀ step : Step, step.recovered = step ↔
      step.task.recovered = step.task := by
    rintro ⟨id, name, description, kind, task, dependsOn, condition⟩
    simp [recovered]
  rw [listMap_eq_self_iff]
  simp only [hstep, StepTask.recovered_eq_self_iff]
  constructor
  · intro hfinite temperature htemperature
    obtain ⟨choice, hchoice, htemperature⟩ :=
      List.mem_filterMap.mp htemperature
    obtain ⟨step, hstep, hchoice⟩ := List.mem_filterMap.mp hchoice
    refine hfinite step hstep temperature ?_
    simp [hchoice, htemperature]
  · intro hfinite step hstep temperature htemperature
    obtain ⟨choice, hchoice, htemperature⟩ :=
      List.mem_filterMap.mp htemperature
    refine hfinite temperature
      (List.mem_filterMap.mpr ⟨choice, ?_, htemperature⟩)
    exact List.mem_filterMap.mpr ⟨step, hstep, by simpa using hchoice⟩

theorem Definition.recovered_eq_self_iff (definition : Definition) :
    definition.recovered = definition ↔
      (∀ temperature ∈ definition.choices.filterMap (·.temperature),
        temperature.isFinite = true) ∧
      ∀ parameter ∈ definition.parameters, parameter.recovered = parameter := by
  rw [← listMap_eq_self_iff]
  cases definition with
  | prompt value =>
      obtain ⟨template, parameters, systemPrompt, model⟩ := value
      simp only [choices, ← ModelChoice.map_recovered_eq_self_iff]
      simp [recovered, Prompt.recovered, Definition.parameters, and_comm]
  | workflow value =>
      obtain ⟨steps, parameters, outputs, mode, onError, maxRetries⟩ := value
      simp only [choices, ← Step.map_recovered_eq_self_iff]
      simp [recovered, Workflow.recovered, Definition.parameters]
  | tool value => simp [recovered, choices, parameters]
  | hybrid value => simp [recovered, choices, parameters]

theorem Skill.parameters_eq (skill : Skill) :
    skill.parameters = skill.definition.parameters := by
  cases hdefinition : skill.definition <;>
    simp [Skill.parameters, Definition.parameters, hdefinition]

theorem Skill.recovered_eq_self_iff_definition (skill : Skill) :
    skill.recovered = skill ↔
      skill.definition.recovered = skill.definition := by
  obtain ⟨id, name, description, category, version, author, enabled, definition,
    settings, permissions, tags, icon, shortcut⟩ := skill
  simp [recovered]

/-- A skill loses nothing on the way exactly when it can be stored. -/
theorem Skill.recovered_eq_self_iff (skill : Skill) :
    skill.recovered = skill ↔ skill.Storable := by
  rw [recovered_eq_self_iff_definition, Definition.recovered_eq_self_iff,
    ← skill.parameters_eq]
  simp only [Parameter.recovered_eq_self_iff]
  constructor
  · rintro ⟨htemperatures, hparameters⟩
    refine ⟨htemperatures, ?_, fun parameter h => (hparameters parameter h).1⟩
    exact List.forall_mem_flatMap.mpr fun parameter h => (hparameters parameter h).2
  · rintro ⟨htemperatures, hbounds, hdefaults⟩
    refine ⟨htemperatures, fun parameter h => ⟨hdefaults parameter h, ?_⟩⟩
    exact List.forall_mem_flatMap.mp hbounds parameter h

/-- A skill is read again from what became of its document exactly when it can
be stored. -/
theorem Skill.keeps_iff {view : Conveyance} {passage : Passage} {skill : Skill}
    (hcanonical : skill.Canonical) :
    Skill.codec.Keeps view passage skill ↔ skill.Storable := by
  rw [Codec.Keeps, Skill.restore_eq hcanonical, Except.ok.injEq,
    recovered_eq_self_iff]

end SkillEngine

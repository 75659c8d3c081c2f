import SkillEngine.Proofs.Execution.Alike
import SkillEngine.Proofs.Execution.Hybrid
import SkillEngine.Proofs.Json.Canonical
import SkillEngine.Proofs.Skill.Recovery
import SkillEngine.Proofs.Tool.Ownership
import SkillEngine.Proofs.Workflow.Execution

/-!
# Results in canonical form

Documents in canonical form go into a run: the input, the free documents of the
skills, the answers of tools.  Everything that a run makes of them is in
canonical form again, up to the result.  The invariant goes from references and
transforms to the steps, from the steps to the results of a workflow, and from
the outputs of entries to that of a hybrid, by induction on the levels of
nesting that are left.
-/

namespace SkillEngine

open Json (Tidy)

variable {σ : Type}

/-! ## References, transforms and merges -/

namespace Reference

variable {input prior : Json.Object}

theorem canonical_resolve (hinput : Tidy input) (hprior : Tidy prior)
    {value : Json} (hvalue : value.canonical = value) :
    (resolve value input prior).canonical = resolve value input prior := by
  rw [resolve]
  split
  next name _ =>
    cases hfound : find? input prior name with
    | none => exact hvalue
    | some found =>
        rcases Option.or_eq_some_iff.mp hfound with hheld | ⟨-, hheld⟩
        · exact hinput.find? hheld
        · exact hprior.find? hheld
  next => exact hvalue

theorem tidy_resolveAll (hinput : Tidy input) (hprior : Tidy prior)
    {mapping : Json.Object} (hmapping : Tidy mapping) :
    Tidy (resolveAll mapping input prior) :=
  hmapping.mapValues fun _ => canonical_resolve hinput hprior

end Reference

theorem Transform.canonical_apply (name : String) {value : Json}
    (hvalue : value.canonical = value) :
    (apply name value).canonical = apply name value := by
  unfold apply
  split
  · rfl
  · rfl
  · rfl
  · rw [split, Json.canonical_array_iff, List.forall_mem_map]
    exact fun _ _ => rfl
  · cases value with
    | array items => rfl
    | _ => exact hvalue
  · exact hvalue

theorem canonical_of_appended {output : Json}
    (houtput : output.canonical = output) :
    ∀ item ∈ appended output, item.canonical = item := by
  cases output with
  | array items => exact Json.items_of_canonical houtput
  | _ => exact List.forall_mem_singleton.mpr houtput

theorem Json.tidy_fieldsOrEmpty {document : Json}
    (hdocument : document.canonical = document) :
    Tidy document.fieldsOrEmpty := by
  cases document with
  | object fields => exact Json.canonical_object_iff.mp hdocument
  | _ => exact Json.tidy_nil

theorem canonical_mergeOutputs {outputs : List Json}
    (houtputs : ∀ output ∈ outputs, output.canonical = output)
    (merge : Option ResultMerge) :
    (mergeOutputs outputs merge).canonical = mergeOutputs outputs merge := by
  have hlist := Json.canonical_array_iff.mpr houtputs
  cases merge with
  | none => exact hlist
  | some merge =>
      rw [mergeOutputs]
      split
      · refine Json.canonical_array_iff.mpr (List.forall_mem_flatMap.mpr ?_)
        exact fun output houtput => canonical_of_appended (houtputs output houtput)
      · refine Json.canonical_object_iff.mpr (Json.tidy_ofList ?_)
        refine List.forall_mem_flatMap.mpr fun output houtput => ?_
        exact (Json.tidy_fieldsOrEmpty (houtputs output houtput)).contents
      · rfl
      · exact hlist
      · exact hlist

theorem ToolUse.canonical_output (use : ToolUse) {result : Json}
    (hresult : result.canonical = result) :
    (use.output result).canonical = use.output result := by
  rw [output]
  split
  next processing _ =>
    rw [ResultProcessing.apply]
    split
    · exact hresult
    all_goals rfl
  next => exact hresult

/-! ## Steps -/

theorem ToolTask.tidy_resolved {task : ToolTask} {input results : Json.Object}
    (htask : task.parameters.canonical = task.parameters)
    (hinput : Tidy input) (hresults : Tidy results)
    {parameters : Json.Object}
    (hresolved : task.resolved input results = .ok parameters) :
    Tidy parameters := by
  have hvalue := Reference.canonical_resolve hinput hresults htask
  rw [resolved] at hresolved
  split at hresolved
  next mapping hmapping =>
    obtain rfl := Except.ok.inj hresolved
    rw [hmapping] at htask
    exact Reference.tidy_resolveAll hinput hresults
      (Json.canonical_object_iff.mp htask)
  next =>
    obtain rfl := Except.ok.inj hresolved
    exact Json.tidy_nil
  next =>
    split at hresolved
    next fields hfields =>
      obtain rfl := Except.ok.inj hresolved
      rw [hfields] at hvalue
      exact Json.canonical_object_iff.mp hvalue
    next => simp at hresolved

/-- To parameters in canonical form the tools answer documents in that form,
which every document has that was ever read or built from its parts. -/
def ToolRegistry.AnswersCanonical (registry : ToolRegistry σ) : Prop :=
  ∀ tool parameters context world answer, Tidy parameters →
    (registry.invoke tool parameters context world).value = .ok answer →
    answer.canonical = answer

/-- A host answers so when the tools of its plugins do, whose answers it passes
on as they are. -/
theorem Host.answersCanonical_registry {host : Host σ}
    (htools : ∀ plugin ∈ host.plugins.values, ∀ tool ∈ plugin.tools,
      ∀ parameters context world answer, Tidy parameters →
        (tool.handle parameters context world).value = .ok answer →
        answer.canonical = answer) : host.registry.AnswersCanonical := by
  intro tool parameters context world answer hparameters hanswer
  rw [← invoke] at hanswer
  cases hlookup : host.lookup tool with
  | error refusal => simp [invoke_of_refused hlookup] at hanswer
  | ok found =>
      obtain ⟨plugin, hplugin, hfound⟩ := mem_of_lookup hlookup
      apply htools plugin hplugin found hfound parameters context world answer
        hparameters
      rw [invoke_of_found hlookup] at hanswer
      cases hvalue : (found.handle parameters context world).value with
      | error failure => simp [hvalue, passOn] at hanswer
      | ok value => simpa [hvalue, passOn] using hanswer

theorem BuiltinPlugin.canonical_onText {compute : List Char → Json}
    (hcompute : ∀ text, (compute text).canonical = compute text)
    {parameters : Json.Object} {context : ToolContext} {world : σ}
    {answer : Json}
    (hanswer : (onText compute parameters context world).value = .ok answer) :
    answer.canonical = answer := by
  obtain ⟨text, -, rfl⟩ := exceptMap_eq_ok_iff.mp hanswer
  exact hcompute text.toList

theorem BuiltinPlugin.tidy_systemInfo (facts : HostFacts)
    (environment : Environment) : Tidy (systemInfo facts environment) := by
  refine Json.tidy_ofList (List.forall_mem_append.mpr ⟨?_, ?_⟩)
  · simp only [List.forall_mem_cons]
    exact ⟨rfl, rfl, rfl, rfl, by simp⟩
  · intro entry hentry
    obtain ⟨path, -, rfl⟩ := Option.map_eq_some_iff.mp
      (Option.mem_toList.mp hentry)
    rfl

theorem Host.mem_of_registerAll {host : Host σ} {plugins : List (Plugin σ)}
    {plugin : Plugin σ}
    (hplugin : plugin ∈ (host.registerAll plugins).plugins.values) :
    plugin ∈ host.plugins.values ∨ plugin ∈ plugins := by
  induction plugins generalizing host with
  | nil => exact .inl hplugin
  | cons first plugins ih =>
      rw [registerAll, List.foldl_cons, ← registerAll] at hplugin
      rcases ih hplugin with hheld | hlater
      · cases hregister : host.register first with
        | error failure =>
            rw [hregister] at hheld
            exact .inl hheld
        | ok next =>
            rw [hregister] at hheld
            have hok : host.perform (.register first) = .ok next := hregister
            rcases perform_cases hok with ⟨_, ⟨rfl⟩, -, -, rfl⟩ |
              ⟨_, ⟨⟩, -⟩ | ⟨_, _, ⟨⟩, -⟩
            obtain ⟨entry, hentry, rfl⟩ := List.mem_map.mp hheld
            rcases Dict.mem_of_mem_insert hentry with rfl | hentry
            · exact .inr List.mem_cons_self
            · exact .inl (List.mem_map_of_mem hentry)
      · exact .inr (List.mem_cons_of_mem _ hlater)

/-- The built-in tools answer documents in canonical form. -/
theorem Host.answersCanonical_builtin (facts : HostFacts) :
    (Host.builtin facts : Host σ).registry.AnswersCanonical := by
  apply answersCanonical_registry
  intro plugin hplugin tool hfound parameters context world answer _ hanswer
  rcases mem_of_registerAll hplugin with hnone | hbuiltin
  · exact absurd hnone List.not_mem_nil
  · rcases List.mem_pair.mp hbuiltin with rfl | rfl
    · rcases List.mem_pair.mp hfound with rfl | rfl
      · exact BuiltinPlugin.canonical_onText (fun _ => rfl) hanswer
      · refine BuiltinPlugin.canonical_onText (fun text => ?_) hanswer
        refine Json.canonical_object_iff.mpr (Json.tidy_ofList ?_)
        simp only [List.forall_mem_cons]
        exact ⟨rfl, rfl, rfl, rfl, by simp⟩
    · obtain rfl := List.mem_singleton.mp hfound
      obtain rfl := Except.ok.inj hanswer
      exact Json.canonical_object_iff.mpr (BuiltinPlugin.tidy_systemInfo _ _)

variable {backends : Backends σ} {context : Context} {results : Json.Object}

theorem Backends.canonical_generate {prompt : String}
    {systemPrompt : Option String} {model : Option ModelChoice} {world : σ}
    {output : StepOutput}
    (hran : (backends.generate context prompt systemPrompt model world).value =
      .ok output) : output.value.canonical = output.value := by
  cases hresolve : backends.router.resolve
      ((model.bind (·.provider)).getD context.aiConfig.provider) with
  | error failure => simp [generate, hresolve] at hran
  | ok generator =>
      simp only [generate, hresolve] at hran
      obtain ⟨generation, -, rfl⟩ := exceptMap_eq_ok_iff.mp hran
      rfl

theorem StepTask.canonical_execute (htools : backends.tools.AnswersCanonical)
    {task : StepTask}
    (htask : ∀ document ∈ task.documents, document.canonical = document)
    (hinput : Tidy context.input) (hresults : Tidy results) {world : σ}
    {output : StepOutput}
    (hran : (task.execute backends context results world).value = .ok output) :
    output.value.canonical = output.value := by
  cases task with
  | prompt request => exact Backends.canonical_generate hran
  | tool call =>
      have hcall := htask call.parameters (List.mem_singleton_self _)
      cases hresolved : call.resolved context.input results with
      | error failure => simp [execute, hresolved] at hran
      | ok parameters =>
          simp only [execute, hresolved] at hran
          obtain ⟨answer, hanswer, rfl⟩ := exceptMap_eq_ok_iff.mp hran
          exact htools _ _ _ _ _
            (ToolTask.tidy_resolved hcall hinput hresults hresolved) hanswer
  | transform change =>
      have hchange := htask change.input (List.mem_singleton_self _)
      obtain rfl := Except.ok.inj hran
      exact Transform.canonical_apply change.transform
        (Reference.canonical_resolve hinput hresults hchange)
  | condition _ => simp [execute] at hran
  | loop _ => simp [execute] at hran

/-- An output of a step is one of its task, at one of the attempts. -/
theorem Step.exists_execute_of_attempt {step : Step} {retries left : Nat}
    {world : σ} {output : StepOutput}
    (hran : (step.attempt backends context results retries left world).value =
      .ok output) :
    ∃ moment, (step.task.execute backends context results moment).value =
      .ok output := by
  induction left generalizing world with
  | zero => exact ⟨world, hran⟩
  | succ left ih =>
      cases hvalue : (step.task.execute backends context results world).value with
      | ok first =>
          rw [attempt_of_ok retries (left + 1) hvalue] at hran
          exact ⟨world, hran⟩
      | error failure =>
          by_cases hagain : failure.isRetryable = true
          · rw [attempt_of_retry retries left hvalue hagain] at hran
            exact ih hran
          · have hfinal : failure.isRetryable = false := by simpa using hagain
            rw [attempt_of_final retries (left + 1) hvalue (.inr hfinal)] at hran
            exact ⟨world, hran⟩

theorem Step.exists_execute_of_run {workflow : Workflow} {step : Step}
    {world : σ} {output : StepOutput}
    (hran : (step.run backends workflow context results world).value =
      .ok output) :
    ∃ moment, (step.task.execute backends context results moment).value =
      .ok output := by
  cases hunmet : step.unmet? results with
  | some dependency => simp [run, hunmet] at hran
  | none =>
      simp only [run, hunmet] at hran
      exact Step.exists_execute_of_attempt hran

/-! ## Definitions -/

/-- What a definition leads to is in canonical form. -/
structure Dispatched.Canonical (done : Dispatched) : Prop where
  output : done.output.canonical = done.output
  intermediate : ∀ results ∈ done.intermediate, Tidy results

/-- The results of a workflow stay in canonical form from step to step. -/
theorem Workflow.tidy_runSteps (htools : backends.tools.AnswersCanonical)
    {workflow : Workflow} {steps : List Step}
    (hsteps : ∀ step ∈ steps, ∀ document ∈ step.task.documents,
      document.canonical = document)
    (hinput : Tidy context.input) {progress : Progress}
    (hresults : Tidy progress.results) (world : σ) :
    Tidy (workflow.runSteps backends context steps progress
      world).value.2.results := by
  induction steps generalizing progress world with
  | nil => exact hresults
  | cons step steps ih =>
      obtain ⟨hstep, hlater⟩ := List.forall_mem_cons.mp hsteps
      cases hvalue : (step.run backends workflow context progress.results
        world).value with
      | ok output =>
          obtain ⟨moment, houtput⟩ := Step.exists_execute_of_run hvalue
          have hdone :=
            StepTask.canonical_execute htools hstep hinput hresults houtput
          rw [runSteps_of_ok hvalue]
          exact ih hlater (hresults.insert step.id hdone) _
      | error failure =>
          by_cases honError : workflow.onError = .carryOn
          · have hbegun : Tidy (progress.begin step).results := hresults
            rw [runSteps_of_skip hvalue honError]
            exact ih hlater hbegun _
          · rw [runSteps_of_abort hvalue honError]
            exact hresults

theorem Workflow.canonical_output {workflow : Workflow}
    (hresults : Tidy results) :
    (workflow.output results).canonical = workflow.output results := by
  rw [output]
  cases hlast : workflow.steps.getLast?.bind fun last => results.find? last.id with
  | none => rfl
  | some value =>
      obtain ⟨last, -, hfound⟩ := Option.bind_eq_some_iff.mp hlast
      exact hresults.find? hfound

theorem Workflow.canonical_dispatch (htools : backends.tools.AnswersCanonical)
    {workflow : Workflow}
    (hsteps : ∀ step ∈ workflow.steps, ∀ document ∈ step.task.documents,
      document.canonical = document)
    (hinput : Tidy context.input) {world : σ} {done : Dispatched}
    (hdone : (workflow.dispatch backends context world).value.1 = .ok done) :
    done.Canonical := by
  have hstart : Tidy (Progress.mk context.state []).results := Json.tidy_nil
  have htidy : Tidy (workflow.runSteps backends context workflow.steps
      ⟨context.state, []⟩ world).value.2.results :=
    Workflow.tidy_runSteps htools hsteps hinput hstart world
  rw [dispatch_apply] at hdone
  rcases hran : (workflow.runSteps backends context workflow.steps
    ⟨context.state, []⟩ world).value with ⟨_ | _, progress⟩
  · simp [hran, handOver] at hdone
  · rw [hran] at htidy
    simp only [hran, handOver, Except.ok.injEq] at hdone
    obtain rfl := hdone
    refine ⟨Workflow.canonical_output htidy, ?_⟩
    rintro results ⟨rfl⟩
    exact htidy

/-- The result of a skill is in canonical form. -/
structure SkillResult.Canonical (result : SkillResult) : Prop where
  output : ∀ value ∈ result.output, value.canonical = value
  intermediateResults : ∀ results ∈ result.intermediateResults, Tidy results

/-- On input in canonical form every skill ends with a result in that form. -/
def Hybrid.Runner.AnswersCanonical (runSkill : Hybrid.Runner σ) : Prop :=
  ∀ id context world, Tidy context.input →
    (runSkill id context world).value.1.Canonical

theorem SubSkill.tidy_input {entry : SubSkill}
    (hentry : ∀ mapping ∈ entry.mapping, Tidy mapping)
    {parent : Json.Object} (hparent : Tidy parent) :
    Tidy (entry.input parent) := by
  rw [input]
  split
  next mapping hmapping =>
    exact Reference.tidy_resolveAll hparent Json.tidy_nil
      (hentry mapping hmapping)
  next => exact hparent

/-- The outputs of entries are in canonical form when the skills that they call
end so. -/
theorem Hybrid.canonical_runEntries {runSkill : Hybrid.Runner σ}
    (hrunner : runSkill.AnswersCanonical) {total position : Nat}
    {entries : List SubSkill}
    (hentries : ∀ entry ∈ entries, ∀ mapping ∈ entry.mapping, Tidy mapping)
    (hinput : Tidy context.input) {world : σ} {outputs : List Json}
    (hran : (runEntries runSkill total position entries context world).value.1 =
      .ok outputs) :
    ∀ output ∈ outputs, output.canonical = output := by
  induction entries generalizing position context world outputs with
  | nil =>
      obtain rfl := Except.ok.inj hran
      simp
  | cons entry entries ih =>
      obtain ⟨hentry, hlater⟩ := List.forall_mem_cons.mp hentries
      have hresult := hrunner entry.skill (context.childFor entry) world
        (SubSkill.tidy_input hentry hinput)
      cases hsuccess : (runSkill entry.skill (context.childFor entry)
          world).value.1.success with
      | false => simp [runEntries_of_failure hsuccess] at hran
      | true =>
          rw [runEntries_of_success hsuccess] at hran
          obtain ⟨later, hlast, rfl⟩ := exceptMap_eq_ok_iff.mp hran
          have hbehind : Tidy (context.behind entry (runSkill entry.skill
            (context.childFor entry) world).value.1).input := hinput
          refine List.forall_mem_cons.mpr ⟨?_, ih hlater hbehind hlast⟩
          cases houtput : (runSkill entry.skill (context.childFor entry)
            world).value.1.output with
          | none => rfl
          | some value => exact hresult.output value houtput

theorem Hybrid.canonical_dispatch {runSkill : Hybrid.Runner σ}
    (hrunner : runSkill.AnswersCanonical) {hybrid : Hybrid}
    (hentries : ∀ entry ∈ hybrid.skills, ∀ mapping ∈ entry.mapping,
      Tidy mapping)
    (hinput : Tidy context.input) {world : σ} {done : Dispatched}
    (hdone : (hybrid.dispatch runSkill context world).value.1 = .ok done) :
    done.Canonical := by
  rw [dispatch_apply] at hdone
  rcases hran : (runEntries runSkill hybrid.skills.length 0 hybrid.skills
    context world).value with ⟨_ | outputs, left⟩
  · simp [hran, handOver] at hdone
  · have houtputs := Hybrid.canonical_runEntries hrunner hentries hinput
      (congrArg Prod.fst hran)
    simp only [hran, handOver, Except.ok.injEq] at hdone
    obtain rfl := hdone
    exact ⟨canonical_mergeOutputs houtputs hybrid.merge, by simp⟩

theorem Definition.canonical_run (htools : backends.tools.AnswersCanonical)
    {runSkill : Hybrid.Runner σ} (hrunner : runSkill.AnswersCanonical)
    {definition : Definition}
    (hdefinition : ∀ document ∈ definition.documents,
      document.canonical = document)
    (hinput : Tidy context.input) {world : σ} {done : Dispatched}
    (hdone : (definition.run backends runSkill context world).value.1 =
      .ok done) : done.Canonical := by
  cases definition with
  | prompt value =>
      simp only [run, Prompt.run, Run.bind_apply] at hdone
      cases houtput : (backends.generate context
          (Template.fill value.template context.input) value.systemPrompt
          value.model world).value with
      | ok output =>
          rw [houtput] at hdone
          obtain rfl := Except.ok.inj hdone
          exact ⟨Backends.canonical_generate houtput, by simp⟩
      | error failure => simp [houtput] at hdone
  | workflow value =>
      have hsteps := (List.forall_mem_append.mp hdefinition).2
      rw [List.forall_mem_flatMap] at hsteps
      exact Workflow.canonical_dispatch htools hsteps hinput hdone
  | tool value =>
      have hmapping := Json.canonical_object_iff.mp
        (hdefinition (.object value.mapping) (List.mem_singleton_self _))
      simp only [run, ToolUse.run, Run.bind_apply, Run.pure_apply] at hdone
      obtain ⟨answer, hanswer, rfl⟩ := exceptMap_eq_ok_iff.mp hdone
      have hresult := htools _ _ _ _ _
        (Reference.tidy_resolveAll hinput Json.tidy_nil hmapping) hanswer
      exact ⟨value.canonical_output hresult, by simp⟩
  | hybrid value =>
      refine Hybrid.canonical_dispatch hrunner ?_ hinput hdone
      intro entry hentry mapping hmapping
      refine Json.canonical_object_iff.mp (hdefinition (.object mapping) ?_)
      exact List.mem_filterMap.mpr
        ⟨entry, hentry, by simp [Option.mem_def.mp hmapping]⟩

/-! ## Skills -/

theorem tidy_applyParameters {parameters : List Parameter}
    (hparameters : ∀ parameter ∈ parameters, ∀ value ∈ parameter.default,
      value.canonical = value)
    {input : Json.Object} (hinput : Tidy input) :
    Tidy (applyParameters parameters input).2 := by
  induction parameters generalizing input with
  | nil => exact hinput
  | cons parameter parameters ih =>
      obtain ⟨hparameter, hlater⟩ := List.forall_mem_cons.mp hparameters
      rw [applyParameters]
      split
      · exact ih hlater hinput
      · split
        next value hdefault =>
          exact ih hlater
            (hinput.insert parameter.name (hparameter value hdefault))
        next =>
          split
          · exact hinput
          · exact ih hlater hinput

theorem Skill.Canonical.default {skill : Skill} (h : skill.Canonical) :
    ∀ parameter ∈ skill.parameters, ∀ value ∈ parameter.default,
      value.canonical = value := by
  intro parameter hparameter value hvalue
  have hdocument : value ∈ parameter.documents :=
    List.mem_append_left _ (Option.mem_toList.mpr hvalue)
  apply h
  rw [parameters] at hparameter
  split at hparameter
  next prompt hprompt =>
    rw [hprompt]
    exact List.mem_flatMap.mpr ⟨parameter, hparameter, hdocument⟩
  next workflow hworkflow =>
    rw [hworkflow]
    exact List.mem_append_left _
      (List.mem_flatMap.mpr ⟨parameter, hparameter, hdocument⟩)
  all_goals simp at hparameter

theorem Skill.canonical_run (htools : backends.tools.AnswersCanonical)
    {runSkill : Hybrid.Runner σ} (hrunner : runSkill.AnswersCanonical)
    {skill : Skill} (hskill : skill.Canonical) (hinput : Tidy context.input)
    (world : σ) :
    (skill.run backends runSkill context world).value.1.Canonical := by
  have hprepared : Tidy (skill.prepared context).input :=
    tidy_applyParameters hskill.default hinput
  rcases run_cases backends runSkill skill context world with
    ⟨failure, -, hran⟩ | ⟨-, hran⟩
  · rw [hran]
    exact ⟨by simp [conclude], by simp [conclude]⟩
  · rw [hran]
    rcases hinner : (skill.definition.run backends runSkill
      (skill.prepared context) world).value with ⟨failure | done, left⟩
    · exact ⟨by simp [conclude], by simp [conclude]⟩
    · have hdone := Definition.canonical_run htools hrunner hskill hprepared
        (congrArg Prod.fst hinner)
      refine ⟨?_, hdone.intermediate⟩
      rintro value ⟨rfl⟩
      exact hdone.output

/-- The result of every run on documents in canonical form is in canonical
form, however deep skills are nested. -/
theorem answersCanonical_executeWithin
    (htools : backends.tools.AnswersCanonical) {skills : Dict Skill}
    (hskills : ∀ entry ∈ skills, entry.2.Canonical) (levels : Nat) :
    Hybrid.Runner.AnswersCanonical (executeWithin backends skills levels) := by
  induction levels using Nat.strong_induction_on with
  | _ levels ih =>
      intro id context world hinput
      rcases executeWithin_cases backends skills levels id context world with
        ⟨failure, -, hran⟩ | ⟨skill, left, hfind, rfl, -, hran⟩
      · rw [hran]
        exact ⟨by simp [SkillResult.failed], by simp [SkillResult.failed]⟩
      · rw [hran]
        exact Skill.canonical_run htools (ih left (Nat.lt_succ_self left))
          (hskills _ (Dict.mem_of_find? hfind)) hinput world

end SkillEngine

import SkillEngine.Proofs.Tool.Ownership
import SkillEngine.Proofs.Workflow.Unasked

/-!
# Calling a tool

A call of a tool looks for the plugin that provides the tool, and runs the
handler of the tool if that plugin is switched on.  To count the runs, the
handlers are made to note them, in a world that keeps the notes beside what the
handlers work on.  But for the notes such a host does what the host does.

The lookup fails in ways of its own, and a handler may fail in the same ways.
The two stay apart all the same, because the host reports whatever a handler
fails with as a failure of its execution.  A step of a workflow therefore asks
for another attempt exactly when its tool was called and failed.
-/

namespace SkillEngine

variable {σ : Type}

/-! ## Noting what runs -/

/-- A run of a handler: the tool that it works for, and what it was handed. -/
structure HandlerRun (σ : Type) where
  plugin : Plugin σ
  tool : Tool σ
  parameters : Json.Object
  context : ToolContext
  world : σ

/-- What the handler answered. -/
def HandlerRun.answer (run : HandlerRun σ) : ToolAnswer σ :=
  run.tool.handle run.parameters run.context run.world

namespace Plugin

/-- A tool of the plugin whose handler notes every run behind those before. -/
def noting (plugin : Plugin σ) (tool : Tool σ) :
    Tool (σ × List (HandlerRun σ)) where
  name := tool.name
  description := tool.description
  schema := tool.schema
  handle := fun parameters context world =>
    let run : HandlerRun σ := ⟨plugin, tool, parameters, context, world.1⟩
    ⟨run.answer.value, run.answer.log, run.answer.world, world.2 ++ [run]⟩

/-- The plugin with handlers that note their runs. -/
def noted (plugin : Plugin σ) : Plugin (σ × List (HandlerRun σ)) :=
  ⟨plugin.manifest, plugin.enabled, plugin.tools.map plugin.noting⟩

theorem find?_noted (plugin : Plugin σ) (tool : String) :
    plugin.noted.tools.find? (·.name == tool) =
      (plugin.tools.find? (·.name == tool)).map plugin.noting :=
  List.find?_map

@[simp] theorem provides_noted (plugin : Plugin σ) (tool : String) :
    plugin.noted.provides tool = plugin.provides tool :=
  List.any_map

end Plugin

namespace Host

variable {host : Host σ} {tool : String}

/-- The host with handlers that note their runs. -/
def noted (host : Host σ) : Host (σ × List (HandlerRun σ)) :=
  ⟨host.plugins.mapValues Plugin.noted⟩

/-- The runs of handlers to which a call of a tool leads. -/
def handlerRuns (host : Host σ) (tool : String) (parameters : Json.Object)
    (context : ToolContext) (world : σ) : List (HandlerRun σ) :=
  (host.noted.invoke tool parameters context (world, [])).world.2

theorem owner?_noted (host : Host σ) (tool : String) :
    host.noted.owner? tool = (host.owner? tool).map Plugin.noted := by
  have hvalues : host.noted.plugins.values =
      host.plugins.values.map Plugin.noted := by
    simp [noted, Dict.values, Dict.mapValues]
  have hprovides : (fun plugin : Plugin σ => plugin.noted.provides tool) =
      fun plugin => plugin.provides tool :=
    funext fun plugin => plugin.provides_noted tool
  rw [owner?, hvalues, List.find?_map, owner?]
  exact congrArg (fun test => (List.find? test _).map _) hprovides

/-! ## Where a name leads -/

/-- Where the name of a tool leads: to no plugin, or to one that is switched
off, or to a tool that can be called. -/
inductive Route (host : Host σ) (tool : String) : Prop where
  | unknown (hnone : host.owner? tool = none)
  | off (owner : Plugin σ) (howner : host.owner? tool = some owner)
      (hoff : owner.enabled = false)
  | ready (owner : Plugin σ) (found : Tool σ)
      (howner : host.owner? tool = some owner) (hon : owner.enabled = true)
      (hfound : owner.tools.find? (·.name == tool) = some found)

theorem route (host : Host σ) (tool : String) : host.Route tool := by
  cases howner : host.owner? tool with
  | none => exact .unknown howner
  | some owner =>
      by_cases hon : owner.enabled = true
      · have hsome : (owner.tools.find? (·.name == tool)).isSome = true := by
          rw [List.find?_isSome, ← List.any_eq_true]
          exact provides_of_owner? howner
        obtain ⟨found, hfound⟩ := Option.isSome_iff_exists.mp hsome
        exact .ready owner found howner hon hfound
      · exact .off owner howner (Bool.eq_false_of_not_eq_true hon)

section Equations

variable (parameters : Json.Object) (context : ToolContext) (world : σ)
  (notes : List (HandlerRun σ)) {owner : Plugin σ} {found : Tool σ}

theorem invoke_of_unknown (hnone : host.owner? tool = none) :
    host.invoke tool parameters context world =
      ⟨.error (.toolNotFound tool), [], world⟩ := by
  have hlookup : host.lookup tool = .error (.toolNotFound tool) := by
    simp only [lookup, hnone]
  exact invoke_of_refused hlookup parameters context world

theorem invoke_of_off (howner : host.owner? tool = some owner)
    (hoff : owner.enabled = false) :
    host.invoke tool parameters context world =
      ⟨.error (.pluginNotEnabled owner.manifest.id), [], world⟩ := by
  have hlookup : host.lookup tool =
      .error (.pluginNotEnabled owner.manifest.id) := by
    simp [lookup, howner, hoff]
  exact invoke_of_refused hlookup parameters context world

theorem invoke_of_ready (howner : host.owner? tool = some owner)
    (hon : owner.enabled = true)
    (hfound : owner.tools.find? (·.name == tool) = some found) :
    let answer := found.handle parameters context world
    host.invoke tool parameters context world =
      ⟨passOn tool answer.value,
        .invoked tool parameters answer.value :: answer.log.map .logged,
        answer.world⟩ := by
  have hlookup : host.lookup tool = .ok found := by
    simp [lookup, howner, hon, hfound]
  exact invoke_of_found hlookup parameters context world

/-! The same calls of the host whose handlers note their runs. -/

theorem invoke_noted_of_unknown (hnone : host.owner? tool = none) :
    host.noted.invoke tool parameters context (world, notes) =
      ⟨.error (.toolNotFound tool), [], world, notes⟩ := by
  apply invoke_of_unknown
  rw [owner?_noted, hnone, Option.map_none]

theorem invoke_noted_of_off (howner : host.owner? tool = some owner)
    (hoff : owner.enabled = false) :
    host.noted.invoke tool parameters context (world, notes) =
      ⟨.error (.pluginNotEnabled owner.manifest.id), [], world, notes⟩ := by
  have hnoted : host.noted.owner? tool = some owner.noted := by
    rw [owner?_noted, howner, Option.map_some]
  exact invoke_of_off _ _ _ hnoted hoff

theorem invoke_noted_of_ready (howner : host.owner? tool = some owner)
    (hon : owner.enabled = true)
    (hfound : owner.tools.find? (·.name == tool) = some found) :
    let run : HandlerRun σ := ⟨owner, found, parameters, context, world⟩
    host.noted.invoke tool parameters context (world, notes) =
      ⟨passOn tool run.answer.value,
        .invoked tool parameters run.answer.value ::
          run.answer.log.map .logged,
        run.answer.world, notes ++ [run]⟩ := by
  have hnoted : host.noted.owner? tool = some owner.noted := by
    rw [owner?_noted, howner, Option.map_some]
  have htool : owner.noted.tools.find? (·.name == tool) =
      some (owner.noting found) := by
    rw [Plugin.find?_noted, hfound, Option.map_some]
  exact invoke_of_ready _ _ _ hnoted hon htool

theorem handlerRuns_of_unknown (hnone : host.owner? tool = none) :
    host.handlerRuns tool parameters context world = [] := by
  rw [handlerRuns, invoke_noted_of_unknown _ _ _ _ hnone]

theorem handlerRuns_of_off (howner : host.owner? tool = some owner)
    (hoff : owner.enabled = false) :
    host.handlerRuns tool parameters context world = [] := by
  rw [handlerRuns, invoke_noted_of_off _ _ _ _ howner hoff]

theorem handlerRuns_of_ready (howner : host.owner? tool = some owner)
    (hon : owner.enabled = true)
    (hfound : owner.tools.find? (·.name == tool) = some found) :
    host.handlerRuns tool parameters context world =
      [⟨owner, found, parameters, context, world⟩] := by
  rw [handlerRuns, invoke_noted_of_ready _ _ _ _ howner hon hfound]
  rfl

/-- The notes are all that a host adds whose handlers note their runs. -/
theorem invoke_noted :
    let ran := host.invoke tool parameters context world
    host.noted.invoke tool parameters context (world, notes) =
      ⟨ran.value, ran.events, ran.world,
        notes ++ host.handlerRuns tool parameters context world⟩ := by
  cases host.route tool with
  | unknown hnone =>
      rw [invoke_noted_of_unknown _ _ _ _ hnone, invoke_of_unknown _ _ _ hnone,
        handlerRuns_of_unknown _ _ _ hnone, List.append_nil]
  | off owner howner hoff =>
      rw [invoke_noted_of_off _ _ _ _ howner hoff,
        invoke_of_off _ _ _ howner hoff, handlerRuns_of_off _ _ _ howner hoff,
        List.append_nil]
  | ready owner found howner hon hfound =>
      rw [invoke_noted_of_ready _ _ _ _ howner hon hfound,
        invoke_of_ready _ _ _ howner hon hfound,
        handlerRuns_of_ready _ _ _ howner hon hfound]
      rfl

end Equations

/-! ## What becomes of a failure -/

/-- What the host makes of the answer of a handler: values stay and so do
failures of an execution, and any other failure is wrapped in one, under the
name of the tool that was called and with its own wording. -/
inductive Reports (tool : String) :
    Except Failure Json → Except Failure Json → Prop where
  | value (value : Json) : Reports tool (.ok value) (.ok value)
  | execution (failing reason : String) :
      Reports tool (.error (.toolExecution failing reason))
        (.error (.toolExecution failing reason))
  | wrapped {failure : Failure}
      (hother : ∀ failing reason, failure ≠ .toolExecution failing reason) :
      Reports tool (.error failure)
        (.error (.toolExecution tool failure.message))

theorem reports_passOn (tool : String) (answer : Except Failure Json) :
    Reports tool answer (passOn tool answer) := by
  cases answer with
  | ok value => exact .value value
  | error failure =>
      cases failure with
      | toolExecution failing reason => exact .execution failing reason
      | _ => exact .wrapped (by simp)

theorem Reports.failed {answer reported : Except Failure Json}
    (h : Reports tool answer reported) {failure : Failure}
    (hfailed : reported = .error failure) :
    ∃ failing reason, failure = .toolExecution failing reason := by
  cases h with
  | value => cases hfailed
  | execution failing reason =>
      exact ⟨failing, reason, (Except.error.inj hfailed).symm⟩
  | wrapped => exact ⟨tool, _, (Except.error.inj hfailed).symm⟩

/-- How a call of a tool goes, and which handlers run for it. -/
structure Dispatches (host : Host σ) (tool : String)
    (parameters : Json.Object) (context : ToolContext) (world : σ)
    (ran : Ran σ (Except Failure Json)) (runs : List (HandlerRun σ)) :
    Prop where
  once : runs.length ≤ 1
  runs_iff : runs ≠ [] ↔ ∃ plugin ∈ host.plugins.values,
    plugin.enabled = true ∧ plugin.provides tool = true
  unknown : (∀ plugin ∈ host.plugins.values, plugin.provides tool = false) →
    ran = ⟨.error (.toolNotFound tool), [], world⟩
  off : ∀ plugin ∈ host.plugins.values, plugin.provides tool = true →
    plugin.enabled = false →
      ran = ⟨.error (.pluginNotEnabled plugin.manifest.id), [], world⟩
  /-- The handler is that of a tool of the name.  It is handed what the call
  was made with, and what it leaves is left. -/
  handled : ∀ run ∈ runs, run.plugin ∈ host.plugins.values ∧
    run.tool ∈ run.plugin.tools ∧ run.tool.name = tool ∧
    run.parameters = parameters ∧ run.context = context ∧ run.world = world ∧
    Reports tool run.answer.value ran.value ∧
    ran.events = .invoked tool parameters run.answer.value ::
      run.answer.log.map .logged ∧
    ran.world = run.answer.world
  /-- The failures of handlers are the failures of an execution. -/
  failed : ∀ failure, ran.value = .error failure →
    (runs ≠ [] ↔ ∃ failing reason, failure = .toolExecution failing reason)
  /-- They are the ones behind which a step is tried again. -/
  retryable : ∀ failure, ran.value = .error failure →
    (runs ≠ [] ↔ failure.isRetryable = true)

variable {parameters : Json.Object} {context : ToolContext} {world : σ}
  {owner : Plugin σ} {found : Tool σ}

theorem dispatches_of_unknown (hnone : host.owner? tool = none) :
    host.Dispatches tool parameters context world
      ⟨.error (.toolNotFound tool), [], world⟩ [] := by
  have hno : ∀ plugin ∈ host.plugins.values, ¬plugin.provides tool = true :=
    List.find?_eq_none.mp hnone
  constructor
  case once => exact Nat.zero_le 1
  case runs_iff =>
    refine iff_of_false (· rfl) ?_
    rintro ⟨plugin, hplugin, -, hprovides⟩
    exact hno plugin hplugin hprovides
  case unknown => exact fun _ => rfl
  case off =>
    intro plugin hplugin hprovides
    exact absurd hprovides (hno plugin hplugin)
  case handled => simp
  case failed =>
    intro failure hfailed
    obtain rfl := Except.error.inj hfailed
    exact iff_of_false (· rfl) (by simp)
  case retryable =>
    intro failure hfailed
    obtain rfl := Except.error.inj hfailed
    exact iff_of_false (· rfl) (by simp [Failure.isRetryable])

theorem Exclusive.dispatches_of_off (h : host.Exclusive)
    (howner : host.owner? tool = some owner) (hoff : owner.enabled = false) :
    host.Dispatches tool parameters context world
      ⟨.error (.pluginNotEnabled owner.manifest.id), [], world⟩ [] := by
  obtain ⟨hmem, hprovided⟩ := h.owner?_eq_some_iff.mp howner
  have honly : ∀ plugin ∈ host.plugins.values,
      plugin.provides tool = true → plugin = owner :=
    fun plugin hplugin hprovides =>
      h.eq_of_provides hplugin hmem hprovides hprovided
  constructor
  case once => exact Nat.zero_le 1
  case runs_iff =>
    refine iff_of_false (· rfl) ?_
    rintro ⟨plugin, hplugin, hon, hprovides⟩
    rw [honly plugin hplugin hprovides, hoff] at hon
    contradiction
  case unknown =>
    intro hno
    rw [hno owner hmem] at hprovided
    contradiction
  case off =>
    intro plugin hplugin hprovides _
    rw [honly plugin hplugin hprovides]
  case handled => simp
  case failed =>
    intro failure hfailed
    obtain rfl := Except.error.inj hfailed
    exact iff_of_false (· rfl) (by simp)
  case retryable =>
    intro failure hfailed
    obtain rfl := Except.error.inj hfailed
    exact iff_of_false (· rfl) (by simp [Failure.isRetryable])

theorem Exclusive.dispatches_of_ready (h : host.Exclusive)
    (howner : host.owner? tool = some owner) (hon : owner.enabled = true)
    (hfound : owner.tools.find? (·.name == tool) = some found) :
    let run : HandlerRun σ := ⟨owner, found, parameters, context, world⟩
    host.Dispatches tool parameters context world
      ⟨passOn tool run.answer.value,
        .invoked tool parameters run.answer.value ::
          run.answer.log.map .logged,
        run.answer.world⟩ [run] := by
  intro run
  obtain ⟨hmem, hprovided⟩ := h.owner?_eq_some_iff.mp howner
  have hreports := reports_passOn tool run.answer.value
  have hran : [run] ≠ [] := List.cons_ne_nil run []
  constructor
  case once => exact le_rfl
  case runs_iff => exact iff_of_true hran ⟨owner, hmem, hon, hprovided⟩
  case unknown =>
    intro hno
    rw [hno owner hmem] at hprovided
    contradiction
  case off =>
    intro plugin hplugin hprovides hoff
    rw [h.eq_of_provides hplugin hmem hprovides hprovided, hon] at hoff
    contradiction
  case handled =>
    intro other hother
    obtain rfl := List.mem_singleton.mp hother
    have hname : found.name = tool := by simpa using List.find?_some hfound
    exact ⟨hmem, List.mem_of_find?_eq_some hfound, hname, rfl, rfl, rfl,
      hreports, rfl, rfl⟩
  case failed =>
    intro failure hfailed
    exact iff_of_true hran (hreports.failed hfailed)
  case retryable =>
    intro failure hfailed
    obtain ⟨failing, reason, rfl⟩ := hreports.failed hfailed
    exact iff_of_true hran rfl

theorem Exclusive.dispatches (h : host.Exclusive) (tool : String)
    (parameters : Json.Object) (context : ToolContext) (world : σ) :
    host.Dispatches tool parameters context world
      (host.invoke tool parameters context world)
      (host.handlerRuns tool parameters context world) := by
  cases host.route tool with
  | unknown hnone =>
      rw [invoke_of_unknown _ _ _ hnone, handlerRuns_of_unknown _ _ _ hnone]
      exact dispatches_of_unknown hnone
  | off owner howner hoff =>
      rw [invoke_of_off _ _ _ howner hoff, handlerRuns_of_off _ _ _ howner hoff]
      exact h.dispatches_of_off howner hoff
  | ready owner found howner hon hfound =>
      rw [invoke_of_ready _ _ _ howner hon hfound,
        handlerRuns_of_ready _ _ _ howner hon hfound]
      exact h.dispatches_of_ready howner hon hfound

/-! ## Calls in a workflow -/

/-- A task that makes a call asks for another attempt when the call does. -/
theorem asksAgain_execute_iff {router : Router σ} {task : ToolTask}
    {surroundings : Context} {results : Json.Object}
    (hresolved : task.resolved surroundings.input results = .ok parameters) :
    AsksAgain ((StepTask.tool task).execute ⟨router, host⟩ surroundings results
        world).value ↔
      ∃ failure, (host.invoke task.tool parameters surroundings.toolContext
        world).value = .error failure ∧ failure.isRetryable = true := by
  simp only [AsksAgain, StepTask.execute, hresolved, Backends.callTool,
    Run.bind_apply, Run.pure_apply, invoke]
  cases (host.registry.invoke task.tool parameters surroundings.toolContext
      world).value with
  | ok value => simp [Except.map]
  | error failure => simp [Except.map]

/-- In every host that is reached, a call of a tool runs a handler exactly when
a plugin that is switched on provides the tool, and then that handler once.  A
failure is that of a lookup or of a handler, never of both kinds, and a step of
a workflow is tried again behind those of handlers alone. -/
theorem Reached.invoke_dispatches {host : Host σ} (h : host.Reached)
    (tool : String) (parameters : Json.Object) (context : ToolContext)
    (world : σ) :
    let ran := host.invoke tool parameters context world
    let runs := host.handlerRuns tool parameters context world
    (∀ notes, host.noted.invoke tool parameters context (world, notes) =
      ⟨ran.value, ran.events, ran.world, notes ++ runs⟩) ∧
    host.Dispatches tool parameters context world ran runs ∧
    ∀ (router : Router σ) (task : ToolTask) (surroundings : Context)
      (results : Json.Object), task.tool = tool →
      surroundings.toolContext = context →
      task.resolved surroundings.input results = .ok parameters →
        (AsksAgain ((StepTask.tool task).execute ⟨router, host⟩ surroundings
            results world).value ↔
          (∃ failure, ran.value = .error failure) ∧ runs ≠ []) := by
  intro ran runs
  have hdispatches := h.exclusive.dispatches tool parameters context world
  refine ⟨fun notes => invoke_noted parameters context world notes,
    hdispatches, ?_⟩
  rintro router task surroundings results rfl rfl hresolved
  rw [asksAgain_execute_iff hresolved]
  constructor
  · rintro ⟨failure, hfailed, hagain⟩
    exact ⟨⟨failure, hfailed⟩,
      (hdispatches.retryable failure hfailed).mpr hagain⟩
  · rintro ⟨⟨failure, hfailed⟩, hran⟩
    exact ⟨failure, hfailed, (hdispatches.retryable failure hfailed).mp hran⟩

/-- A tool that counts its calls and fails as if there were no such tool. -/
def lost : Tool Nat :=
  ⟨"find", "never finds anything", .object [], fun _ _ count =>
    ⟨.error (.toolNotFound "needle"), [], count + 1⟩⟩

/-- A handler that fails like a lookup is not taken for one. -/
theorem lost_dispatches :
    let host : Host Nat :=
      ⟨[("lost", ⟨⟨"lost", "Lost", "1.0.0", "", none⟩, true, [lost]⟩)]⟩
    let context : ToolContext := ⟨⟨"mock", none⟩, .empty⟩
    let ran := host.invoke "find" [] context 0
    let runs := host.handlerRuns "find" [] context 0
    host.Reached ∧ host.Dispatches "find" [] context 0 ran runs ∧
      runs.length = 1 ∧ ran.world = 1 ∧
      ran.value =
        .error (.toolExecution "find" "tool not found: needle") ∧
      ∀ (router : Router Nat) (surroundings : Context),
        surroundings.toolContext = context →
        AsksAgain ((StepTask.tool ⟨"find", .null⟩).execute ⟨router, host⟩
          surroundings [] 0).value := by
  intro host context ran runs
  have hregister : (empty : Host Nat).perform (.register
      ⟨⟨"lost", "Lost", "1.0.0", "", none⟩, true, [lost]⟩) = .ok host := rfl
  have hreached : host.Reached := Reached.empty.performed hregister
  obtain ⟨-, hdispatches, hagain⟩ :=
    hreached.invoke_dispatches "find" [] context 0
  refine ⟨hreached, hdispatches, rfl, rfl, rfl, ?_⟩
  intro router surroundings hcontext
  have hiff := hagain router ⟨"find", .null⟩ surroundings [] rfl hcontext rfl
  exact hiff.mpr ⟨⟨_, rfl⟩, List.cons_ne_nil _ _⟩

end Host

end SkillEngine

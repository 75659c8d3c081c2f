import SkillEngine.Tool.Host

/-!
# Calls through a registry

The ways that a call of a tool can go, one equation for each: it is refused, or
the tool answers.  In a host this is settled by the look-up of the name.
-/

namespace SkillEngine

variable {σ : Type}

namespace ToolRegistry

variable {registry : ToolRegistry σ} {tool : String}
  {parameters : Json.Object} {context : ToolContext} {world : σ}

theorem invoke_of_refused {refusal : Refusal}
    (h : registry.call tool parameters context world = .refused refusal) :
    registry.invoke tool parameters context world =
      ⟨.error refusal.failure, [], world⟩ := by
  simp only [invoke, h]

theorem invoke_of_answered {answer : ToolAnswer σ}
    {passed : Except Failure Json}
    (h : registry.call tool parameters context world =
      .answered answer passed) :
    registry.invoke tool parameters context world =
      ⟨passed, .invoked tool parameters answer.value ::
        answer.log.map .logged, answer.world⟩ := by
  simp only [invoke, h]

/-- A call is refused, or the tool answers. -/
theorem invoke_cases (registry : ToolRegistry σ) (tool : String)
    (parameters : Json.Object) (context : ToolContext) (world : σ) :
    let ran := registry.invoke tool parameters context world
    (∃ refusal : Refusal, ran = ⟨.error refusal.failure, [], world⟩) ∨
      ∃ answer passed, ∃ log : List LogLine, ∃ after, ran = ⟨passed,
        .invoked tool parameters answer :: log.map .logged, after⟩ := by
  cases hcall : registry.call tool parameters context world with
  | refused refusal => exact .inl ⟨refusal, invoke_of_refused hcall⟩
  | answered answer passed =>
      exact .inr ⟨answer.value, passed, answer.log, answer.world,
        invoke_of_answered hcall⟩

end ToolRegistry

namespace Host

variable {host : Host σ} {tool : String}

theorem call_of_refused {refusal : Refusal}
    (h : host.lookup tool = .error refusal) (parameters : Json.Object)
    (context : ToolContext) (world : σ) :
    host.registry.call tool parameters context world = .refused refusal := by
  simp only [registry, h]

theorem call_of_found {found : Tool σ} (h : host.lookup tool = .ok found)
    (parameters : Json.Object) (context : ToolContext) (world : σ) :
    let answer := found.handle parameters context world
    host.registry.call tool parameters context world =
      .answered answer (passOn tool answer.value) := by
  simp only [registry, h]

theorem invoke_of_refused {refusal : Refusal}
    (h : host.lookup tool = .error refusal) (parameters : Json.Object)
    (context : ToolContext) (world : σ) :
    host.invoke tool parameters context world =
      ⟨.error refusal.failure, [], world⟩ :=
  ToolRegistry.invoke_of_refused (call_of_refused h parameters context world)

theorem invoke_of_found {found : Tool σ} (h : host.lookup tool = .ok found)
    (parameters : Json.Object) (context : ToolContext) (world : σ) :
    let answer := found.handle parameters context world
    host.invoke tool parameters context world =
      ⟨passOn tool answer.value,
        .invoked tool parameters answer.value :: answer.log.map .logged,
        answer.world⟩ :=
  ToolRegistry.invoke_of_answered (call_of_found h parameters context world)

theorem mem_of_lookup {name : String} {tool : Tool σ}
    (h : host.lookup name = .ok tool) :
    ∃ plugin ∈ host.plugins.values, tool ∈ plugin.tools := by
  rw [lookup] at h
  cases howner : host.owner? name with
  | none => simp [howner] at h
  | some plugin =>
      have hplugin : plugin ∈ host.plugins.values :=
        List.mem_of_find?_eq_some howner
      simp only [howner] at h
      split at h
      · cases hfind : plugin.tools.find? (·.name == name) with
        | none => simp [hfind] at h
        | some found =>
            obtain rfl : found = tool := by simpa [hfind] using h
            exact ⟨plugin, hplugin, List.mem_of_find?_eq_some hfind⟩
      · simp at h

end Host

end SkillEngine

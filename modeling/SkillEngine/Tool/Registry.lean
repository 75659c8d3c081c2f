import SkillEngine.Tool.Basic

/-!
# Registries of tools

A registry finds tools by their names and calls them.  How it does so is its own affair: a call is
a function of the world.  It is refused, and then nothing has run, or a tool answers it, and the
registry passes on what it makes of the answer.
-/

namespace SkillEngine

/-- Why no tool is called. -/
inductive Refusal where
  | toolNotFound (tool : String)
  | pluginNotEnabled (plugin : String)

/-- The failure as which a refusal is reported. -/
def Refusal.failure : Refusal → Failure
  | .toolNotFound tool => .toolNotFound tool
  | .pluginNotEnabled plugin => .pluginNotEnabled plugin

/-- What a call comes to. -/
inductive Invocation (σ : Type) where
  | refused (refusal : Refusal)
  | answered (answer : ToolAnswer σ) (passed : Except Failure Json)

/-- Anything that can find a tool by its name and call it. -/
structure ToolRegistry (σ : Type) where
  call : String → Json.Object → ToolContext → σ → Invocation σ

/-- Call a tool, and report what it answers and logs. -/
def ToolRegistry.invoke {σ : Type} (registry : ToolRegistry σ) (tool : String)
    (parameters : Json.Object) (context : ToolContext) : Run σ (Except Failure Json) := fun world =>
  match registry.call tool parameters context world with
  | .refused refusal => ⟨.error refusal.failure, [], world⟩
  | .answered answer passed =>
    ⟨passed, .invoked tool parameters answer.value :: answer.log.map .logged, answer.world⟩

end SkillEngine

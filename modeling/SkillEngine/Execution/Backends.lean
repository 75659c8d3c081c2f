import SkillEngine.Generator.Router
import SkillEngine.Skill.Basic
import SkillEngine.Tool.Registry

/-!
# Backends

The generators and tools that skills run against.
-/

namespace SkillEngine

/-- The generators and tools at hand. -/
structure Backends (σ : Type) where
  router : Router σ
  tools : ToolRegistry σ

/-- The output of a step and the tokens that it cost. -/
structure StepOutput where
  value : Json
  tokens : UInt64

/-- The output of a step that costs nothing. -/
def StepOutput.free (value : Json) : StepOutput := ⟨value, 0⟩

/-- The settings of a request, from the model choice of its skill and, failing that, from the
context. -/
def GenerationOptions.of (context : Context) (systemPrompt : Option String)
    (model : Option ModelChoice) : GenerationOptions where
  systemPrompt := systemPrompt
  model := (model.bind (·.model)).or context.aiConfig.model
  temperature := model.bind (·.temperature)
  maxTokens := model.bind (·.maxTokens)

namespace Backends

variable {σ : Type}

/-- Ask a generator, and report its answer. -/
def ask (generator : Generator σ) (request : GenerationRequest) :
    Run σ (Except Failure Generation) := fun world =>
  let (answer, world) := generator.answer request world
  ⟨answer, [.generated generator.name request answer], world⟩

/-- Generate text for a prompt. -/
def generate (backends : Backends σ) (context : Context) (prompt : String)
    (systemPrompt : Option String) (model : Option ModelChoice) :
    Run σ (Except Failure StepOutput) := do
  match backends.router.resolve ((model.bind (·.provider)).getD context.aiConfig.provider) with
  | .error failure => return .error failure
  | .ok generator =>
    let answer ← ask generator ⟨prompt, .of context systemPrompt model⟩
    return answer.map fun generation => ⟨.string generation.text, generation.tokens⟩

/-- Call a tool. -/
def callTool (backends : Backends σ) (context : Context) (tool : String)
    (parameters : Json.Object) : Run σ (Except Failure Json) :=
  backends.tools.invoke tool parameters context.toolContext

end Backends

end SkillEngine

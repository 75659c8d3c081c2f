import SkillEngine.Execution.Backends
import SkillEngine.Reference
import SkillEngine.Template.Basic
import SkillEngine.Transform

/-!
# Steps

What each kind of step does with the input and with the results that are there so far.  A prompt
sees the results over the input; references see the input first.
-/

namespace SkillEngine

/-- The input with the results put over it. -/
def mergedInput (input results : Json.Object) : Json.Object := Dict.insertAll input results

namespace ToolTask

/-- Why a tool task has no object of parameters. -/
def parametersFault (task : ToolTask) : Failure :=
  .toolExecution task.tool
    (match Reference.name? task.parameters with
    | some name => "parameters reference $" ++ name ++ " is not an object"
    | none => "parameters must be an object")

/-- The parameters of a tool task: an object of references and values, or a reference to an
object. -/
def resolved (task : ToolTask) (input results : Json.Object) : Except Failure Json.Object :=
  match task.parameters with
  | .object mapping => .ok (Reference.resolveAll mapping input results)
  | .null => .ok []
  | other =>
    match Reference.resolve other input results with
    | .object parameters => .ok parameters
    | _ => .error task.parametersFault

end ToolTask

/-- The value of a transform task. -/
def TransformTask.value (task : TransformTask) (input results : Json.Object) : Json :=
  Transform.apply task.transform (Reference.resolve task.input input results)

namespace StepTask

variable {σ : Type}

/-- Do a task once. -/
def execute (backends : Backends σ) (task : StepTask) (context : Context)
    (results : Json.Object) : Run σ (Except Failure StepOutput) :=
  match task with
  | .prompt request =>
    backends.generate context
      (Template.fill request.template (mergedInput context.input results)) none request.model
  | .tool call =>
    match call.resolved context.input results with
    | .error failure => return .error failure
    | .ok parameters => do
      let answer ← backends.callTool context call.tool parameters
      return answer.map StepOutput.free
  | .transform change => return .ok (.free (change.value context.input results))
  | .condition _ => return .error (.unsupportedStep StepKind.condition.name)
  | .loop _ => return .error (.unsupportedStep StepKind.loop.name)

end StepTask

end SkillEngine

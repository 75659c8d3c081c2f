import SkillEngine.Execution.Codec
import SkillEngine.Scripted.World
import SkillEngine.Tool.Basic

/-!
# Scripted tools

A scripted tool records its calls and answers as its script says.
-/

namespace SkillEngine.Scripted

/-- How a tool answers. -/
inductive Script where
  /-- With its parameters. -/
  | echo
  /-- With a value. -/
  | value (value : Json)
  /-- With a failure. -/
  | fail (failure : Failure)
  /-- With a failure a number of times, and with a value from then on. -/
  | flaky (failures : Nat) (failure : Failure) (value : Json)
  /-- With what it is told about the run, after a line for the log. -/
  | context

/-- What a tool is told about a run, and its parameters, as a document. -/
def contextDocument (parameters : Json.Object) (context : ToolContext) : Json :=
  .object [("aiConfig", AiConfig.codec.document context.aiConfig),
    ("environment", Environment.codec.document context.environment), ("params", .object parameters)]

/-- The working part of the tool of a name and number. -/
def Script.handle (script : Script) (name : String) (number : Nat) : ToolHandler World :=
  fun parameters context world =>
    let (before, world) := (world.recordCall name parameters).countAttempt number
    match script with
    | .echo => ⟨.ok (.object parameters), [], world⟩
    | .value answer => ⟨.ok answer, [], world⟩
    | .fail failure => ⟨.error failure, [], world⟩
    | .flaky failures failure answer =>
      ⟨if before < failures then .error failure else .ok answer, [], world⟩
    | .context =>
      ⟨.ok (contextDocument parameters context), [⟨.info, "tool " ++ name ++ " called"⟩], world⟩

/-- A scripted tool. -/
def tool (name description : String) (schema : Json) (number : Nat) (script : Script) :
    Tool World :=
  ⟨name, description, schema, script.handle name number⟩

end SkillEngine.Scripted

import SkillEngine.Skill.Search
import SkillEngine.Tool.Registry

/-!
# The plugin host

The registered plugins, by id.  A plugin can be registered when neither its id nor the name of one
of its tools is taken by another plugin.  A tool is called through the host, which finds its
plugin, refuses when that is switched off, and reports every failure of the tool as one of its
execution.  No operation needs the plugins in the order of their ids: what is listed is sorted
when it is asked for.
-/

namespace SkillEngine

/-- The registered plugins. -/
structure Host (σ : Type) where
  plugins : Dict (Plugin σ)

namespace Host

variable {σ : Type}

/-- No plugins. -/
def empty : Host σ := ⟨[]⟩

/-- The plugin that provides a tool. -/
def owner? (host : Host σ) (tool : String) : Option (Plugin σ) :=
  host.plugins.values.find? (·.provides tool)

/-- The conflict between a plugin's tools and those of other plugins, if there is one. -/
def toolConflict? (host : Host σ) (plugin : Plugin σ) : Option Failure :=
  plugin.tools.findSome? fun tool =>
    (host.owner? tool.name).map fun owner =>
      .conflict ("tool " ++ tool.name ++ " already provided by plugin " ++ owner.manifest.id)

/-- Register a plugin. -/
def register (host : Host σ) (plugin : Plugin σ) : Except Failure (Host σ) :=
  let id := plugin.manifest.id
  if host.plugins.has id then .error (.conflict ("plugin already registered: " ++ id))
  else
    match host.toolConflict? plugin with
    | some failure => .error failure
    | none => .ok ⟨host.plugins.insert id plugin⟩

/-- What is said of an unknown plugin. -/
def unknown (id : String) : Failure := .notFound ("plugin " ++ id)

/-- Take a plugin away. -/
def unregister (host : Host σ) (id : String) : Except Failure (Host σ) :=
  if host.plugins.has id then .ok ⟨host.plugins.erase id⟩ else .error (unknown id)

/-- Turn a plugin on or off. -/
def setEnabled (host : Host σ) (id : String) (enabled : Bool) : Except Failure (Host σ) :=
  if host.plugins.has id then
    .ok ⟨host.plugins.modify id fun plugin => { plugin with enabled := enabled }⟩
  else .error (unknown id)

/-- The plugin is registered and switched on. -/
def isEnabled (host : Host σ) (id : String) : Bool :=
  ((host.plugins.find? id).map (·.enabled)).getD false

/-- The plugins in the order of their ids. -/
def list (host : Host σ) : List (Manifest × Bool) :=
  (host.plugins.values.map fun plugin => (plugin.manifest, plugin.enabled)).mergeSort
    fun first second => decide (first.1.id ≤ second.1.id)

/-- What is told about all tools, in the order of their names. -/
def tools (host : Host σ) : List ToolInfo :=
  (host.plugins.values.flatMap Plugin.info).mergeSort fun first second =>
    decide (first.name ≤ second.name)

/-- The tools whose name or description mentions the query. -/
def search (host : Host σ) (query : String) : List ToolInfo :=
  host.tools.filter fun tool =>
    Text.mentions tool.name query || Text.mentions tool.description query

/-- The tool of a name, if its plugin is switched on. -/
def lookup (host : Host σ) (tool : String) : Except Refusal (Tool σ) :=
  match host.owner? tool with
  | none => .error (.toolNotFound tool)
  | some plugin =>
    if plugin.enabled then
      match plugin.tools.find? (·.name == tool) with
      | some found => .ok found
      | none => .error (.toolNotFound tool)
    else .error (.pluginNotEnabled plugin.manifest.id)

/-- A failure of a tool, as the host reports it. -/
def report (tool : String) : Failure → Failure
  | .toolExecution failing reason => .toolExecution failing reason
  | other => .toolExecution tool other.message

/-- What a tool answered, as the host passes it on. -/
def passOn (tool : String) : Except Failure Json → Except Failure Json
  | .ok value => .ok value
  | .error failure => .error (report tool failure)

/-- A host is a registry of the tools that it looks up. -/
def registry (host : Host σ) : ToolRegistry σ where
  call tool parameters context world :=
    match host.lookup tool with
    | .error refusal => .refused refusal
    | .ok found =>
      let answer := found.handle parameters context world
      .answered answer (passOn tool answer.value)

instance : Coe (Host σ) (ToolRegistry σ) := ⟨registry⟩

/-- Call a tool. -/
def invoke (host : Host σ) (tool : String) (parameters : Json.Object) (context : ToolContext) :
    Run σ (Except Failure Json) :=
  host.registry.invoke tool parameters context

end Host

end SkillEngine

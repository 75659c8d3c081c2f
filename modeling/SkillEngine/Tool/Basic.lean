import SkillEngine.Execution.Run

/-!
# Tools and plugins

A tool is a named function on an object of parameters.  Plugins group tools under one switch.
-/

namespace SkillEngine

/-- What a tool answers: a value or a failure, what it logs, and the world that it leaves. -/
structure ToolAnswer (σ : Type) where
  value : Except Failure Json
  log : List LogLine
  world : σ

/-- The working part of a tool. -/
abbrev ToolHandler (σ : Type) := Json.Object → ToolContext → σ → ToolAnswer σ

/-- A tool. -/
structure Tool (σ : Type) where
  name : String
  description : String
  /-- The schema of its parameters. -/
  schema : Json
  handle : ToolHandler σ

/-- What is told about a tool. -/
structure ToolInfo where
  name : String
  description : String
  inputSchema : Json
  plugin : String

/-- Who a plugin is. -/
structure Manifest where
  id : String
  name : String
  version : String
  description : String
  author : Option String

/-- A group of tools with one switch. -/
structure Plugin (σ : Type) where
  manifest : Manifest
  enabled : Bool
  tools : List (Tool σ)

namespace Plugin

variable {σ : Type}

/-- The plugin has a tool of the name. -/
def provides (plugin : Plugin σ) (tool : String) : Bool := plugin.tools.any (·.name == tool)

/-- What is told about the tools of a plugin. -/
def info (plugin : Plugin σ) : List ToolInfo :=
  plugin.tools.map fun tool => ⟨tool.name, tool.description, tool.schema, plugin.manifest.id⟩

end Plugin

end SkillEngine

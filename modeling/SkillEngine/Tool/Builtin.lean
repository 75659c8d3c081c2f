import SkillEngine.Text.Stats
import SkillEngine.Tool.Host

/-!
# Built-in plugins

Two plugins come with the engine: one counts in texts, the other tells about the host.
-/

namespace SkillEngine

/-- What is known of the computer and of the program on it. -/
structure HostFacts where
  platform : String
  arch : String
  family : String
  cpus : Nat
  /-- How the program was built. -/
  profile : String

namespace BuiltinPlugin

variable {σ : Type}

/-- The schema of an object without declared properties. -/
def emptySchema : Json :=
  .object [("properties", .object []), ("type", .string "object")]

/-- The schema of an object with a text. -/
def textSchema : Json :=
  .object [("properties", .object [("text", .object
      [("description", .string "Text to inspect"), ("type", .string "string")])]),
    ("required", .array [.string "text"]), ("type", .string "object")]

/-- The text among the parameters. -/
def textParameter (parameters : Json.Object) : Except Failure String :=
  match (parameters.find? "text").bind Json.string? with
  | some text => .ok text
  | none => .error (.missingParameter "text")

/-- The working part of a tool that computes a value from a text. -/
def onText (compute : List Char → Json) : ToolHandler σ := fun parameters _ world =>
  ⟨(textParameter parameters).map fun text => compute text.toList, [], world⟩

/-- The plugin that counts in texts. -/
def text : Plugin σ where
  manifest := ⟨"builtin-text", "Text", "1.0.0", "Plain-text inspection utilities", none⟩
  enabled := true
  tools :=
    [⟨"word_count", "Count the words in a text", textSchema,
        onText fun text => .nat (Text.words text).length⟩,
      ⟨"text_stats", "Word, character, line and paragraph statistics", textSchema,
        onText fun text => (Text.stats text).document⟩]

/-- The host facts and, if there is one, the workspace. -/
def systemInfo (facts : HostFacts) (environment : Environment) : Json.Object :=
  Dict.ofList ([("platform", .string facts.platform), ("arch", .string facts.arch),
      ("family", .string facts.family), ("cpus", .nat facts.cpus)] ++
    (environment.workspacePath.map fun path => ("workspace", Json.string path)).toList)

/-- The plugin that tells about the host. -/
def system (facts : HostFacts) : Plugin σ where
  manifest := ⟨"builtin-system", "System", "1.0.0", "System information and utilities", none⟩
  enabled := true
  tools :=
    [⟨"get_system_info", "Get system information", emptySchema,
      fun _ context world => ⟨.ok (.object (systemInfo facts context.environment)), [], world⟩⟩]

end BuiltinPlugin

/-- Register plugins one after another, and pass over those that are refused. -/
def Host.registerAll {σ : Type} (host : Host σ) (plugins : List (Plugin σ)) : Host σ :=
  plugins.foldl (fun host plugin => (host.register plugin).toOption.getD host) host

/-- The host with the built-in plugins. -/
def Host.builtin {σ : Type} (facts : HostFacts) : Host σ :=
  Host.empty.registerAll [BuiltinPlugin.text, BuiltinPlugin.system facts]

end SkillEngine

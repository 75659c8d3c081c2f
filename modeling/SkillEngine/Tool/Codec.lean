import SkillEngine.Codec.Record
import SkillEngine.Tool.Basic

/-!
# Documents about tools

The document form of what is told about tools and plugins.
-/

namespace SkillEngine

/-- The fields of what is told about a tool. -/
def ToolInfo.record : Record ToolInfo ToolInfo :=
  ToolInfo.mk <$> .required "name" .text (·.name)
    <*> .required "description" .text (·.description)
    <*> .required "inputSchema" .any (·.inputSchema)
    <*> .required "plugin" .text (·.plugin)

/-- What is told about tools. -/
def ToolInfo.codec : Codec ToolInfo := ToolInfo.record.codec

/-- The fields of a manifest. -/
def Manifest.record : Record Manifest Manifest :=
  Manifest.mk <$> .required "id" .text (·.id)
    <*> .required "name" .text (·.name)
    <*> .required "version" .text (·.version)
    <*> .required "description" .text (·.description)
    <*> .nullable "author" .text (·.author)

/-- Manifests. -/
def Manifest.codec : Codec Manifest := Manifest.record.codec

end SkillEngine

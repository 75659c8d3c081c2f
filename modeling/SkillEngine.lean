import SkillEngine.Codec.Basic
import SkillEngine.Codec.Record
import SkillEngine.Codec.Tagged
import SkillEngine.CommandLine.Arguments
import SkillEngine.CommandLine.Command
import SkillEngine.CommandLine.Display
import SkillEngine.CommandLine.Program
import SkillEngine.Config.Loader
import SkillEngine.Config.Settings
import SkillEngine.Config.Validation
import SkillEngine.Dict
import SkillEngine.Execution.Backends
import SkillEngine.Execution.Codec
import SkillEngine.Execution.Context
import SkillEngine.Execution.Engine
import SkillEngine.Execution.Hybrid
import SkillEngine.Execution.Merge
import SkillEngine.Execution.Run
import SkillEngine.Execution.Step
import SkillEngine.Execution.Workflow
import SkillEngine.Failure
import SkillEngine.FileSystem.Basic
import SkillEngine.FileSystem.Path
import SkillEngine.FileSystem.Snapshot
import SkillEngine.Generator.Basic
import SkillEngine.Generator.Codec
import SkillEngine.Generator.Messages
import SkillEngine.Generator.Router
import SkillEngine.Http.Exchange
import SkillEngine.Http.Host
import SkillEngine.Http.Status
import SkillEngine.Http.Url
import SkillEngine.Json.Basic
import SkillEngine.Json.Printer
import SkillEngine.Json.Reader
import SkillEngine.Json.Shape
import SkillEngine.Json.Skim
import SkillEngine.Json.Spelling
import SkillEngine.Main
import SkillEngine.Number.Floating
import SkillEngine.Number.Literal
import SkillEngine.Number.Power
import SkillEngine.Number.Shortest
import SkillEngine.Proofs.Codec.Conveyance
import SkillEngine.Proofs.Codec.Reads
import SkillEngine.Proofs.Codec.Record
import SkillEngine.Proofs.Codec.Shape
import SkillEngine.Proofs.Codec.Tagged
import SkillEngine.Proofs.Codec.Text
import SkillEngine.Proofs.Codec.Yield
import SkillEngine.Proofs.CommandLine.Opening
import SkillEngine.Proofs.CommandLine.Removal
import SkillEngine.Proofs.Config.Reloading
import SkillEngine.Proofs.Dict
import SkillEngine.Proofs.Execution.Alike
import SkillEngine.Proofs.Execution.Canonical
import SkillEngine.Proofs.Execution.Depth
import SkillEngine.Proofs.Execution.Engine
import SkillEngine.Proofs.Execution.Footprint
import SkillEngine.Proofs.Execution.Guard
import SkillEngine.Proofs.Execution.Hybrid
import SkillEngine.Proofs.Execution.Merge
import SkillEngine.Proofs.Execution.Nesting
import SkillEngine.Proofs.Execution.Order
import SkillEngine.Proofs.Execution.Repetition
import SkillEngine.Proofs.Execution.Reread
import SkillEngine.Proofs.Execution.Run
import SkillEngine.Proofs.Execution.Step
import SkillEngine.Proofs.Execution.StepCount
import SkillEngine.Proofs.Execution.Tokens
import SkillEngine.Proofs.Execution.Turns
import SkillEngine.Proofs.Failure
import SkillEngine.Proofs.FileSystem.Basic
import SkillEngine.Proofs.FileSystem.Frame
import SkillEngine.Proofs.FileSystem.Interruption
import SkillEngine.Proofs.FileSystem.Path
import SkillEngine.Proofs.FileSystem.Tree
import SkillEngine.Proofs.Generator.Messages
import SkillEngine.Proofs.Generator.Router
import SkillEngine.Proofs.Json.Basic
import SkillEngine.Proofs.Json.Canonical
import SkillEngine.Proofs.Json.Echo
import SkillEngine.Proofs.Json.Layout
import SkillEngine.Proofs.Json.Nesting
import SkillEngine.Proofs.Json.Numeral
import SkillEngine.Proofs.Json.Printed
import SkillEngine.Proofs.Json.Reading
import SkillEngine.Proofs.Json.Skimming
import SkillEngine.Proofs.Number.Conversion
import SkillEngine.Proofs.Number.Rounding
import SkillEngine.Proofs.Number.Value
import SkillEngine.Proofs.Outcome
import SkillEngine.Proofs.Reference
import SkillEngine.Proofs.Registry.Absence
import SkillEngine.Proofs.Registry.Adding
import SkillEngine.Proofs.Registry.Change
import SkillEngine.Proofs.Registry.Exchange
import SkillEngine.Proofs.Registry.Identity
import SkillEngine.Proofs.Registry.Importing
import SkillEngine.Proofs.Registry.Interruption
import SkillEngine.Proofs.Registry.Library
import SkillEngine.Proofs.Registry.Operation
import SkillEngine.Proofs.Registry.Refusal
import SkillEngine.Proofs.Registry.Reopening
import SkillEngine.Proofs.Registry.Saving
import SkillEngine.Proofs.Registry.Store
import SkillEngine.Proofs.Registry.Survival
import SkillEngine.Proofs.Skill.Canonical
import SkillEngine.Proofs.Skill.Defaults
import SkillEngine.Proofs.Skill.Finite
import SkillEngine.Proofs.Skill.Parameters
import SkillEngine.Proofs.Skill.Recovery
import SkillEngine.Proofs.Skill.Search
import SkillEngine.Proofs.Skill.Storable
import SkillEngine.Proofs.Skill.Validation
import SkillEngine.Proofs.Skill.WellFormed
import SkillEngine.Proofs.Sorting
import SkillEngine.Proofs.Template.Filling
import SkillEngine.Proofs.Template.Leaves
import SkillEngine.Proofs.Template.Numbers
import SkillEngine.Proofs.Template.Placeholders
import SkillEngine.Proofs.Template.Slot
import SkillEngine.Proofs.Text.Case
import SkillEngine.Proofs.Text.Pieces
import SkillEngine.Proofs.Text.Stats
import SkillEngine.Proofs.Tool.Calling
import SkillEngine.Proofs.Tool.Listing
import SkillEngine.Proofs.Tool.Order
import SkillEngine.Proofs.Tool.Ownership
import SkillEngine.Proofs.Tool.Registry
import SkillEngine.Proofs.Transform
import SkillEngine.Proofs.Workflow.Answers
import SkillEngine.Proofs.Workflow.Basic
import SkillEngine.Proofs.Workflow.Completion
import SkillEngine.Proofs.Workflow.Dependencies
import SkillEngine.Proofs.Workflow.Execution
import SkillEngine.Proofs.Workflow.Foresight
import SkillEngine.Proofs.Workflow.Policy
import SkillEngine.Proofs.Workflow.Retries
import SkillEngine.Proofs.Workflow.Sight
import SkillEngine.Proofs.Workflow.Stage
import SkillEngine.Proofs.Workflow.Unasked
import SkillEngine.Reference
import SkillEngine.Registry.Basic
import SkillEngine.Registry.Store
import SkillEngine.Scripted.Generator
import SkillEngine.Scripted.Tool
import SkillEngine.Scripted.World
import SkillEngine.Skill.Basic
import SkillEngine.Skill.Codec
import SkillEngine.Skill.Library
import SkillEngine.Skill.Search
import SkillEngine.Skill.Validation
import SkillEngine.Template.Basic
import SkillEngine.Template.StringForm
import SkillEngine.Text.Blank
import SkillEngine.Text.Case
import SkillEngine.Text.CaseTable
import SkillEngine.Text.Hexadecimal
import SkillEngine.Text.Percent
import SkillEngine.Text.Pieces
import SkillEngine.Text.Punycode
import SkillEngine.Text.Stats
import SkillEngine.Toml.Printer
import SkillEngine.Toml.Quoted
import SkillEngine.Toml.Reader
import SkillEngine.Toml.Scalar
import SkillEngine.Toml.Table
import SkillEngine.Tool.Basic
import SkillEngine.Tool.Builtin
import SkillEngine.Tool.Codec
import SkillEngine.Tool.Host
import SkillEngine.Tool.Registry
import SkillEngine.Tool.Version
import SkillEngine.Transform

/-!
# Arguments

A command line names a command, which may have commands below it, and gives it options and
arguments.  An option is written long or short, with its value attached or behind it; short
options can be joined behind one hyphen.  Behind two hyphens everything is an argument.

The result says which commands were named, and lists options and arguments in their order.
-/

namespace SkillEngine.CommandLine

/-- What a value has to look like. -/
inductive ValueRule where
  | any
  /-- Not empty. -/
  | path
  /-- A name, the sign of equality, and a value. -/
  | pair
  /-- One of several words. -/
  | oneOf (words : List String)
  deriving DecidableEq

/-- A value passes its rule. -/
def ValueRule.accepts : ValueRule → String → Bool
  | any, _ => true
  | path, value => !value.isEmpty
  | pair, value => value.toList.contains '='
  | oneOf words, value => words.contains value

/-- An option: its names, the rule of its value if it takes one, and whether it may be given more
than once. -/
structure OptionSpec where
  name : String
  short : Option Char
  rule : Option ValueRule
  repeats : Bool
  deriving DecidableEq

/-- A command: its name, options and arguments, and the commands below it. -/
inductive CommandSpec where
  | mk (name : String) (options : List OptionSpec) (arguments : List ValueRule)
    (children : List CommandSpec)

namespace CommandSpec

/-- The name of a command. -/
def name : CommandSpec → String
  | mk name _ _ _ => name

/-- The options of a command. -/
def options : CommandSpec → List OptionSpec
  | mk _ options _ _ => options

/-- The arguments of a command, all of which have to be given. -/
def arguments : CommandSpec → List ValueRule
  | mk _ _ arguments _ => arguments

/-- The commands below a command, one of which has to be named. -/
def children : CommandSpec → List CommandSpec
  | mk _ _ _ children => children

end CommandSpec

/-- The commands for which help can be asked below a command: where commands are named, `help` is
one of them. -/
def CommandSpec.topics (spec : CommandSpec) : List CommandSpec :=
  if spec.children.isEmpty then [] else spec.children ++ [.mk "help" [] [] []]

/-- Why nothing is run. -/
inductive Stop where
  | usage
  | help
  | version (names : List String)
  deriving DecidableEq

/-- What asking for help comes to: the names behind the request lead from a command down to the one
that help is asked for. -/
def helpOn : CommandSpec → List String → Stop
  | _, [] => .help
  | spec, name :: names =>
    match spec.topics.find? (·.name == name) with
    | some topic => helpOn topic names
    | none => .usage

/-- What a command line says. -/
structure Parsed where
  /-- The named commands, outermost first. -/
  commands : List String
  /-- The options with their values, outermost first. -/
  options : List (String × String)
  arguments : List String

/-- What was read at the level of one command. -/
structure Level where
  /-- The commands down to this level. -/
  commands : List String
  options : List (String × String)
  arguments : List String
  /-- The option that waits for its value. -/
  pending : Option OptionSpec
  /-- Two hyphens were read. -/
  closed : Bool

namespace Level

/-- The start of a level. -/
def start (commands : List String) : Level := ⟨commands, [], [], none, false⟩

/-- Record an option; one that may not be repeated cannot be given twice. -/
def addOption (level : Level) (option : OptionSpec) (value : String) : Except Stop Level :=
  let accepted := (option.rule.map (·.accepts value)).getD true
  let first := option.repeats || (level.options.lookup option.name).isNone
  if accepted && first then
    .ok { level with options := level.options ++ [(option.name, value)], pending := none }
  else .error .usage

/-- Record an argument, if there is still one to be given. -/
def addArgument (level : Level) (spec : CommandSpec) (value : String) : Except Stop Level :=
  match spec.arguments[level.arguments.length]? with
  | some rule =>
    if rule.accepts value then .ok { level with arguments := level.arguments ++ [value] }
    else .error .usage
  | none => .error .usage

/-- The level is an option with its value attached, or one that has none or waits for it. -/
def addNamed (level : Level) (option : OptionSpec) (attached : Option String) :
    Except Stop Level :=
  match option.rule, attached with
  | none, none => level.addOption option ""
  | none, some _ => .error .usage
  | some _, some value => level.addOption option value
  | some _, none => .ok { level with pending := some option }

/-- Two hyphens and a name, which may be followed by the sign of equality and a value. -/
def addLong (level : Level) (spec : CommandSpec) (text : List Char) : Except Stop Level :=
  let name := String.ofList (text.takeWhile (· != '='))
  let attached := match text.dropWhile (· != '=') with
    | [] => none
    | _ :: value => some (String.ofList value)
  match spec.options.find? (·.name == name) with
  | some option => level.addNamed option attached
  | none =>
    if attached.isSome then .error .usage
    else if name = "version" then .error (.version level.commands)
    else if name = "help" then .error .help
    else .error .usage

/-- A value behind the letter of a short option; a sign of equality in front of it is dropped. -/
def attachedValue : List Char → Option String
  | [] => none
  | '=' :: value => some (String.ofList value)
  | value => some (String.ofList value)

/-- One hyphen and letters.  The first option that takes a value takes the rest. -/
def addShort (spec : CommandSpec) : List Char → Level → Except Stop Level
  | [], level => .ok level
  | letter :: rest, level =>
    match spec.options.find? (·.short == some letter) with
    | some option =>
      if option.rule.isSome then level.addNamed option (attachedValue rest)
      else do addShort spec rest (← level.addOption option "")
    | none =>
      if letter = 'V' then .error (.version level.commands)
      else if letter = 'h' then .error .help
      else .error .usage

/-- The value of the option that waits for it.  What looks like an option is none. -/
def addPending (level : Level) (option : OptionSpec) (value : String) : Except Stop Level :=
  match value.toList with
  | '-' :: _ :: _ => .error .usage
  | _ => level.addOption option value

/-- Read one argument at a level that names no command below. -/
def read (level : Level) (spec : CommandSpec) (argument : String) : Except Stop Level :=
  if level.closed then level.addArgument spec argument
  else
    match level.pending with
    | some option => level.addPending option argument
    | none =>
      match argument.toList with
      | ['-', '-'] => .ok { level with closed := true }
      | '-' :: '-' :: name => level.addLong spec name
      | '-' :: letter :: letters => addShort spec (letter :: letters) level
      | _ => level.addArgument spec argument

/-- The command below that an argument names. -/
def child? (level : Level) (spec : CommandSpec) (argument : String) : Option CommandSpec :=
  if level.closed || level.pending.isSome then none
  else spec.children.find? (·.name == argument)

/-- The argument asks for help with commands. -/
def asksHelp (level : Level) (spec : CommandSpec) (argument : String) : Bool :=
  !level.closed && level.pending.isNone && !spec.children.isEmpty && argument == "help"

/-- The options of two names were both given. -/
def hasBoth (level : Level) (conflict : String × String) : Bool :=
  (level.options.lookup conflict.1).isSome && (level.options.lookup conflict.2).isSome

/-- The end of a level without a command below: everything that is needed has to be there. -/
def finish (level : Level) (spec : CommandSpec) (conflict : String × String) :
    Except Stop Parsed :=
  if level.pending.isNone && spec.children.isEmpty && !level.hasBoth conflict &&
      level.arguments.length == spec.arguments.length then
    .ok ⟨level.commands, level.options, level.arguments⟩
  else .error .usage

end Level

/-- Read arguments from a level on.  Options of the two names in `conflict` cannot be given at one
level. -/
def parseFrom (conflict : String × String) : CommandSpec → Level → List String → Except Stop Parsed
  | spec, level, [] => level.finish spec conflict
  | spec, level, argument :: rest =>
    match level.child? spec argument with
    | some child => do
      let parsed ← parseFrom conflict child (.start (level.commands ++ [child.name])) rest
      if level.hasBoth conflict then .error .usage
      else .ok { parsed with options := level.options ++ parsed.options }
    | none =>
      if level.asksHelp spec argument then .error (helpOn spec rest)
      else do parseFrom conflict spec (← level.read spec argument) rest

/-- What the arguments of a command line say. -/
def parse (conflict : String × String) (spec : CommandSpec) (arguments : List String) :
    Except Stop Parsed :=
  parseFrom conflict spec (.start [spec.name]) arguments

namespace Parsed

/-- The innermost value of an option. -/
def option? (parsed : Parsed) (name : String) : Option String := parsed.options.reverse.lookup name

/-- An option was given. -/
def has (parsed : Parsed) (name : String) : Bool := (parsed.option? name).isSome

/-- All values of an option in their order. -/
def values (parsed : Parsed) (name : String) : List String :=
  (parsed.options.filter (·.1 == name)).map (·.2)

end Parsed

end SkillEngine.CommandLine

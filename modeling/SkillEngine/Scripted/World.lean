import SkillEngine.Generator.Basic

/-!
# Scripted backends

Generators and tools that follow a script serve to try skills out without a network.  They share
a world, which holds what they still have to say and records every request and call.  Generators
and tools are told apart by numbers.
-/

namespace SkillEngine.Scripted

/-- An answer that a generator has in its queue. -/
inductive Reply where
  | text (text : String) (usage : Usage)
  | failure (reason : String)

/-- What scripted backends remember. -/
structure World where
  /-- The replies that are left to each generator. -/
  replies : List (List Reply)
  /-- How often each tool was called. -/
  attempts : List Nat
  /-- The requests to generators, in order, each with the number of its generator. -/
  requests : List (Nat × GenerationRequest)
  /-- The calls of tools, in order, each with its parameters. -/
  calls : List (String × Json.Object)

namespace World

/-- Nothing to say and nothing recorded. -/
def empty : World := ⟨[], [], [], []⟩

/-- Give the next generator its replies. -/
def addReplies (world : World) (replies : List Reply) : World :=
  { world with replies := world.replies ++ [replies] }

/-- Make room for the next tools. -/
def addTools (world : World) (count : Nat) : World :=
  { world with attempts := world.attempts ++ List.replicate count 0 }

/-- Record a request to a generator. -/
def recordRequest (world : World) (number : Nat) (request : GenerationRequest) : World :=
  { world with requests := world.requests ++ [(number, request)] }

/-- Record a call of a tool. -/
def recordCall (world : World) (tool : String) (parameters : Json.Object) : World :=
  { world with calls := world.calls ++ [(tool, parameters)] }

/-- Take the next reply of a generator, if it has one left. -/
def nextReply (world : World) (number : Nat) : Option Reply × World :=
  match world.replies.getD number [] with
  | [] => (none, world)
  | reply :: rest => (some reply, { world with replies := world.replies.set number rest })

/-- Count a call of a tool, and tell how many there were before. -/
def countAttempt (world : World) (number : Nat) : Nat × World :=
  let before := world.attempts.getD number 0
  (before, { world with attempts := world.attempts.set number (before + 1) })

end World

end SkillEngine.Scripted

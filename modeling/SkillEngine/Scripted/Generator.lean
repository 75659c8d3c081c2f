import SkillEngine.Scripted.World

/-!
# Scripted generators

A queued generator gives its replies in order, an echo repeats the prompt, and a fixed generator
gives one text without reporting what it cost.
-/

namespace SkillEngine.Scripted

/-- What a reply costs unless it says so. -/
def defaultUsage : Usage := ⟨100, 50⟩

/-- The reply of a generator that has none left. -/
def exhausted : Reply := .text "(mock: no more queued responses)" defaultUsage

/-- The answer that a reply stands for. -/
def Reply.answer : Reply → Except Failure Generation
  | text written usage => .ok ⟨written, some usage⟩
  | failure reason => .error (.generation reason)

/-- The generator that gives the replies of a number in order. -/
def queued (name : String) (number : Nat) : Generator World where
  name := name
  answer request world :=
    let (reply, world) := (world.recordRequest number request).nextReply number
    ((reply.getD exhausted).answer, world)

/-- The generator that repeats the prompt. -/
def echo (name : String) (number : Nat) : Generator World where
  name := name
  answer request world :=
    ((Reply.text request.prompt defaultUsage).answer, world.recordRequest number request)

/-- The generator that always gives one text. -/
def fixed (name text : String) : Generator World where
  name := name
  answer _ world := (.ok ⟨text, none⟩, world)

end SkillEngine.Scripted

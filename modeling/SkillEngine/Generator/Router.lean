import SkillEngine.Generator.Basic
import SkillEngine.Text.Case

/-!
# Routing

The generators that are available, in the order in which they were added, and the name of the one
to use when a request names none.  The first generator that is added becomes that default unless
one was set before.
-/

namespace SkillEngine

/-- The available generators and the name of the default. -/
structure Router (σ : Type) where
  generators : List (Generator σ)
  default : Option String

namespace Router

variable {σ : Type}

/-- No generators. -/
def empty : Router σ := ⟨[], none⟩

/-- Add a generator. -/
def add (router : Router σ) (generator : Generator σ) : Router σ where
  generators := router.generators ++ [generator]
  default := router.default.or (some generator.name)

/-- Set the name of the default. -/
def setDefault (router : Router σ) (provider : String) : Router σ :=
  { router with default := some provider }

/-- The names of the generators. -/
def providers (router : Router σ) : List String := router.generators.map (·.name)

/-- The first generator of a name, up to the case of ASCII letters. -/
def find? (router : Router σ) (provider : String) : Option (Generator σ) :=
  router.generators.find? (Text.equalIgnoringAsciiCase ·.name provider)

/-- The name that a request means: the default when it names none. -/
def wanted (router : Router σ) (provider : String) : String :=
  if provider.isEmpty then router.default.getD "" else provider

/-- What is said of a name that no generator has. -/
def unavailable (wanted : String) : Failure :=
  .serviceUnavailable (if wanted.isEmpty then "no text generator configured" else wanted)

/-- The generator for a request. -/
def resolve (router : Router σ) (provider : String) : Except Failure (Generator σ) :=
  match router.find? (router.wanted provider) with
  | some generator => .ok generator
  | none => .error (unavailable (router.wanted provider))

end Router

end SkillEngine

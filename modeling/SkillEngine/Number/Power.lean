/-!
# Powers of two and ten

The scales of the binary formats and of decimal notation, as natural numbers.
-/

namespace SkillEngine

/-- A power of two. -/
def twoTo (exponent : Nat) : Nat := Nat.pow 2 exponent

/-- A power of ten. -/
def tenTo (exponent : Nat) : Nat := Nat.pow 10 exponent

theorem twoTo_pos (exponent : Nat) : 0 < twoTo exponent := Nat.pow_pos (by decide)

end SkillEngine

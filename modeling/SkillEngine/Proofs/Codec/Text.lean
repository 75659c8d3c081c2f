import SkillEngine.Json.Printer
import SkillEngine.Json.Reader
import SkillEngine.Proofs.Codec.Shape
import SkillEngine.Proofs.Json.Printed

/-!
# Values in texts

The document of a value is printed, and the value is read from the text.  When
the codec wants all that it writes, the text is read like the document, except
that the reader allows no more than so much nesting.
-/

namespace SkillEngine.Codec

variable {α : Type}

/-- The value that a text holds. -/
def ofText (codec : Codec α) (text : String) : Except DecodeError α :=
  match Json.parse? codec.shape text with
  | some document => codec.read document
  | none => .error .malformed

theorem ofText_pretty {codec : Codec α} [codec.Shaped] {value : α}
    (hback : ∀ number ∈ (codec.encode value).numbers, number.ReadsBack) :
    codec.ofText (codec.encode value).pretty =
      if (codec.encode value).depth ≤ Json.nestingLimit then
        codec.restore Json.printedConveyance .direct value
      else .error .malformed := by
  rw [ofText, Json.parse?_pretty hback (Shaped.covers value)]
  by_cases hdepth : (codec.encode value).depth ≤ Json.nestingLimit
  · rw [if_pos hdepth, if_pos hdepth]
    rfl
  · rw [if_neg hdepth, if_neg hdepth]

end SkillEngine.Codec

import SkillEngine.Text.Hexadecimal

/-!
# Percent escapes

A text in which some characters are written byte by byte: a percent sign and two digits of base
sixteen for each byte of their UTF-8 form.  Reading undoes every escape; a percent sign without
digits behind it stands for itself.
-/

namespace SkillEngine.Text

/-- The escape of a byte, with capital digits. -/
def percentByte (byte : UInt8) : List Char :=
  ['%', (hexDigit (byte.toNat / 16)).toUpper, (hexDigit (byte.toNat % 16)).toUpper]

/-- A text with escapes for the characters that are not kept. -/
def percentEncode (keeps : Char → Bool) (text : List Char) : List Char :=
  text.flatMap fun c => if keeps c then [c] else (String.utf8EncodeChar c).flatMap percentByte

/-- The bytes of a text whose escapes are undone. -/
def percentDecode : List Char → List UInt8
  | [] => []
  | '%' :: high :: low :: rest =>
    match hexValue? high, hexValue? low with
    | some first, some second => UInt8.ofNat (first * 16 + second) :: percentDecode rest
    | _, _ => String.utf8EncodeChar '%' ++ percentDecode (high :: low :: rest)
  | c :: rest => String.utf8EncodeChar c ++ percentDecode rest

/-- A text whose escapes are undone, if its bytes are one. -/
def unescaped? (text : List Char) : Option (List Char) :=
  (String.fromUTF8? ⟨(percentDecode text).toArray⟩).map String.toList

end SkillEngine.Text

import SkillEngine.Number.Power
import SkillEngine.Text.Case
import SkillEngine.Text.Percent
import SkillEngine.Text.Pieces
import SkillEngine.Text.Punycode

/-!
# Hosts

A host is a name or an address.  A name is brought to one form first: escapes are undone, capitals
become small, wide forms become plain.  A name that ends in a number has to be an address of four
bytes, and brackets enclose an address of eight groups.

Beyond ASCII names are checked only in outline: letters of every script may stand in them, spaces,
controls and signs for private use may not; no part of a name mixes directions or starts with a
mark that belongs on a letter.
-/

namespace SkillEngine.Http

/-- Characters of names that count as nothing. -/
def idleRanges : List (Nat × Nat) :=
  [(0xAD, 0xAD), (0x200B, 0x200B), (0x2060, 0x2060), (0x2064, 0x2064), (0xFE00, 0xFE0F),
    (0xFEFF, 0xFEFF)]

/-- Characters beyond ASCII that stand in no name. -/
def foreignRanges : List (Nat × Nat) :=
  [(0x80, 0xA0), (0xA8, 0xA8), (0xAF, 0xAF), (0xB4, 0xB4), (0xB8, 0xB8), (0x2D8, 0x2DD),
    (0x37A, 0x37A), (0x384, 0x385), (0x600, 0x605), (0x61C, 0x61C), (0x6DD, 0x6DD),
    (0x70F, 0x70F), (0x1680, 0x1680), (0x180E, 0x180E), (0x2000, 0x200A), (0x200C, 0x200F),
    (0x2017, 0x2017), (0x2024, 0x2026), (0x2028, 0x202F), (0x203E, 0x203E), (0x2047, 0x2049),
    (0x205F, 0x205F), (0x2061, 0x2063), (0x2065, 0x206F), (0x2100, 0x2101), (0x2105, 0x2106),
    (0x2FF0, 0x3000), (0xE000, 0xF8FF), (0xFFE3, 0xFFE3), (0xFFF0, 0xFFFF),
    (0x33480, 0x10FFFF)]

/-- Letters that are written from right to left. -/
def leftwardRanges : List (Nat × Nat) :=
  [(0x5BE, 0x5BE), (0x5C0, 0x5C0), (0x5C3, 0x5C3), (0x5C6, 0x5C6), (0x5D0, 0x5F4),
    (0x608, 0x608), (0x60B, 0x60B), (0x60D, 0x60D), (0x61B, 0x64A), (0x66D, 0x66F),
    (0x671, 0x6D5), (0x6E5, 0x6E6), (0x6EE, 0x6EF), (0x6FA, 0x710), (0x712, 0x72F),
    (0x74D, 0x7A5), (0x7B1, 0x7EA), (0x7F4, 0x815), (0x830, 0x858), (0x85E, 0x88E),
    (0x8A0, 0x8C9), (0xFB1D, 0xFDFC), (0xFE70, 0xFEFC), (0x10800, 0x10FFF), (0x1E800, 0x1EFFF)]

/-- Marks that belong on the letter before them. -/
def markRanges : List (Nat × Nat) :=
  [(0x300, 0x36F), (0x483, 0x489), (0x591, 0x5BD), (0x610, 0x61A), (0x64B, 0x65F),
    (0x6D6, 0x6DC), (0x900, 0x903), (0x93A, 0x93C), (0x93E, 0x94F), (0xE34, 0xE3A),
    (0xE47, 0xE4E), (0x1AB0, 0x1AEB), (0x1DC0, 0x1DFF), (0x20D0, 0x20F0), (0x302A, 0x302F),
    (0x3099, 0x309A), (0xFE20, 0xFE2F)]

/-- The plain form of a character of a name, which may be nothing. -/
def plainForm (c : Char) : List Char :=
  let code := c.toNat
  if Text.inRanges idleRanges code then []
  else if 0xFF01 ≤ code && code ≤ 0xFF5E then [Char.ofNat (code - 0xFEE0)]
  else if code = 0x3002 ∨ code = 0xFF61 then ['.']
  else [c]

/-- A character that stands in no name. -/
def isForeign (c : Char) : Bool :=
  c ≤ ' ' || c == '\x7f' || "\"#%/:<>?@[\\]^\x60\x7b|\x7d".toList.contains c ||
    Text.inRanges foreignRanges c.toNat

/-- A letter that is written from right to left. -/
def isLeftward (c : Char) : Bool := Text.inRanges leftwardRanges c.toNat

/-- A part of a name has one direction.  One with letters from right to left starts with such a
letter, holds no others, and ends in one or in a digit. -/
def keepsDirection (part : List Char) : Bool :=
  !part.any isLeftward ||
    (part.head?.any isLeftward && !part.any Char.isAlpha &&
      part.getLast?.any fun c => isLeftward c || c.isDigit)

/-- The characters of a part of a name can stand together. -/
def isWellFormed (part : List Char) : Bool :=
  !part.any isForeign && keepsDirection part &&
    !part.head?.any fun c => Text.inRanges markRanges c.toNat

/-- A part of a name as it is meant.  What starts with `xn--` stands for a part beyond ASCII in
its only form. -/
def meantPart? (part : List Char) : Option (List Char) :=
  match part with
  | 'x' :: 'n' :: '-' :: '-' :: written => do
    let meant ← (← Text.punycodeDecode? written).mapM Text.charOf?
    if meant.any ('\x7f' < ·) && Text.lower (meant.flatMap plainForm) == meant then some meant
    else none
  | _ => some part

/-- The number that digits of a base stand for; no digits stand for zero. -/
def basedNumber? (base : Nat) (digits : List Char) : Option Nat :=
  digits.foldl
    (fun before c => do
      let value ← before
      let digit ← Text.hexValue? c
      if digit < base then some (value * base + digit) else none)
    (some 0)

/-- The number that a part of an address stands for, in base ten, eight or sixteen. -/
def addressNumber? : List Char → Option Nat
  | [] => none
  | '0' :: 'x' :: digits | '0' :: 'X' :: digits => basedNumber? 16 digits
  | '0' :: digit :: digits => basedNumber? 8 (digit :: digits)
  | digits => basedNumber? 10 digits

/-- The parts between the points of a name; one point at its end does not count. -/
def nameParts (name : List Char) : List (List Char) :=
  let parts := Text.cut (· == '.') name
  if parts.getLast? == some [] then parts.dropLast else parts

/-- The name ends in a number, in whatever base. -/
def endsInNumber (name : List Char) : Bool :=
  match (nameParts name).getLast? with
  | some last => (!last.isEmpty && last.all Char.isDigit) || (addressNumber? last).isSome
  | none => false

/-- The name is an address of four bytes: the last number fills all bytes that are left. -/
def isShortAddress (name : List Char) : Bool :=
  match (nameParts name).mapM addressNumber? with
  | none => false
  | some numbers =>
    numbers.length ≤ 4 && numbers.dropLast.all (· ≤ 255) &&
      numbers.getLast?.any (· < twoTo (8 * (5 - numbers.length)))

/-- A group of an address in brackets: up to four digits of base sixteen. -/
def isGroup (text : List Char) : Bool :=
  !text.isEmpty && text.length ≤ 4 && text.all fun c => (Text.hexValue? c).isSome

/-- A byte in base ten without leading zeros. -/
def isByte (text : List Char) : Bool :=
  !text.isEmpty && text.length ≤ 3 && text.all Char.isDigit &&
    (text.length == 1 || text.head? != some '0') && Nat.ofDigitChars 10 text 0 ≤ 255

/-- Four bytes with points between them, which can take the place of the last two groups. -/
def isQuad (text : List Char) : Bool :=
  let bytes := Text.cut (· == '.') text
  bytes.length == 4 && bytes.all isByte

/-- How many groups a list of them holds; `endsInQuad` says that a quad may stand at its end. -/
def groupCount? (endsInQuad : Bool) : List (List Char) → Option Nat
  | [] => some 0
  | [last] => if isGroup last then some 1 else if endsInQuad && isQuad last then some 2 else none
  | group :: groups =>
    if isGroup group then (groupCount? endsInQuad groups).map (· + 1) else none

/-- How many groups stand in a text between colons; none stand in an empty text. -/
def groupsIn? (endsInQuad : Bool) (text : List Char) : Option Nat :=
  if text.isEmpty then some 0 else groupCount? endsInQuad (Text.cut (· == ':') text)

/-- The texts around the first two colons in a row. -/
def aroundGap? : List Char → Option (List Char × List Char)
  | [] => none
  | ':' :: ':' :: rest => some ([], rest)
  | c :: rest => (aroundGap? rest).map fun (before, after) => (c :: before, after)

/-- The text is an address of eight groups.  Two colons in a row stand for groups of zeros, at
least for one. -/
def isLongAddress (text : List Char) : Bool :=
  match aroundGap? text with
  | none => groupsIn? true text == some 8
  | some (before, after) =>
    match groupsIn? false before, groupsIn? true after with
    | some first, some second => first + second ≤ 7
    | _, _ => false

/-- The form of a host's name, if it is one. -/
def hostName? (text : List Char) : Option (List Char) := do
  let name := Text.lower ((← Text.unescaped? text).flatMap plainForm)
  let parts ← (Text.cut (· == '.') name).mapM meantPart?
  if name.isEmpty || !parts.all isWellFormed then none
  else if endsInNumber name && !isShortAddress name then none
  else some name

/-- The form of a host, if it is one. -/
def host? (text : List Char) : Option (List Char) :=
  match text with
  | '[' :: rest =>
    if rest.getLast? == some ']' && isLongAddress rest.dropLast then some text else none
  | _ => hostName? text

end SkillEngine.Http

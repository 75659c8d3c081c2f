import SkillEngine.Json.Basic
import SkillEngine.Json.Shape
import SkillEngine.Json.Skim

/-!
# Reading documents

A reader takes a value from the front of a text and returns it with the rest.  Values may be
nested up to a limit; the recursion is on what is left of it, and the loops over items and fields
are bounded by the length of the text.  The order of fields and fields with equal names are kept.
Fields that are not wanted are skimmed, and null stands in the place of their contents.
-/

namespace SkillEngine.Json

/-- How deep arrays and objects may be nested in a text. -/
def nestingLimit : Nat := 127

/-- Where a reader stands inside a quoted text.  `high` is the first half of a character that is
written as two code units. -/
inductive QuoteState where
  | plain
  | escaped
  | digits (high : Option Nat) (left : Nat) (value : Nat)
  | secondBackslash (high : Nat)
  | secondMarker (high : Nat)

/-- The code unit is the first half of a character. -/
def isHighUnit (unit : Nat) : Bool := 0xD800 ≤ unit && unit < 0xDC00

/-- The code unit is the second half of a character. -/
def isLowUnit (unit : Nat) : Bool := 0xDC00 ≤ unit && unit < 0xE000

/-- What a code unit, after the first half that may stand before it, leads to: a character, or
the wait for a second half. -/
def endUnit (high : Option Nat) (unit : Nat) : Option (QuoteState × List Char) :=
  match high with
  | none =>
    if isHighUnit unit then some (.secondBackslash unit, [])
    else if isLowUnit unit then none
    else some (.plain, [Char.ofNat unit])
  | some first =>
    if isLowUnit unit then
      some (.plain, [Char.ofNat (0x10000 + (first - 0xD800) * 0x400 + (unit - 0xDC00))])
    else none

/-- One character of a quoted text: the next state and the characters that are complete. -/
def quoteStep : QuoteState → Char → Option (QuoteState × List Char)
  | .plain, c =>
    if c = '\\' then some (.escaped, []) else if c < ' ' then none else some (.plain, [c])
  | .escaped, c =>
    if c = 'u' then some (.digits none 4 0, [])
    else (letterEscape? c).map fun meant => (.plain, [meant])
  | .digits high left value, c => do
    let unit := value * 16 + (← Text.hexValue? c)
    if left = 1 then endUnit high unit else some (.digits high (left - 1) unit, [])
  | .secondBackslash high, c => if c = '\\' then some (.secondMarker high, []) else none
  | .secondMarker high, c => if c = 'u' then some (.digits (some high) 4 0, []) else none

/-- The rest of a quoted text up to its closing quote. -/
def quoted (state : QuoteState) : List Char → Option (List Char × List Char)
  | [] => none
  | c :: rest =>
    match state, c with
    | .plain, '"' => some ([], rest)
    | state, c => do
      let (next, complete) ← quoteStep state c
      let (text, left) ← quoted next rest
      some (complete ++ text, left)

/-- A number at the front of a text. -/
def number? (text : List Char) : Option (Json × List Char) := do
  let (literal, rest) ← match text with
    | '-' :: rest => literal true rest
    | _ => literal false text
  some (number (← literal.value?), rest)

/-- A word at the front of a text stands for a value. -/
def word? (word : String) (value : Json) (text : List Char) : Option (Json × List Char) :=
  if word.toList.isPrefixOf text then some (value, text.drop word.length) else none

/-- Reads a value from the front of a text. -/
abbrev ValueReader := List Char → Option (Json × List Char)

/-- Pass over a value. -/
def passOver : ValueReader := fun text => (skim? text).map fun rest => (null, rest)

/-- The items of an array from a position on up to its end, which at least one item precedes. -/
def items (item : Nat → ValueReader) : Nat → Nat → List Char → Option (List Json × List Char)
  | _, 0, _ => none
  | position, fuel + 1, text => do
    let (value, rest) ← item position text
    match skipSpace rest with
    | ',' :: rest =>
      let (values, rest) ← items item (position + 1) fuel rest
      some (value :: values, rest)
    | ']' :: rest => some ([value], rest)
    | _ => none

/-- The fields of an object up to its end, which at least one field precedes. -/
def fields (content : String → ValueReader) :
    Nat → List Char → Option (List (String × Json) × List Char)
  | 0, _ => none
  | fuel + 1, text =>
    match skipSpace text with
    | '"' :: rest => do
      let (name, rest) ← quoted .plain rest
      let name := String.ofList name
      match skipSpace rest with
      | ':' :: rest =>
        let (value, rest) ← content name rest
        match skipSpace rest with
        | ',' :: rest =>
          let (more, rest) ← fields content fuel rest
          some ((name, value) :: more, rest)
        | '}' :: rest => some ([(name, value)], rest)
        | _ => none
      | _ => none
    | _ => none

/-- What a shape wants of a value at the front of a text, behind spaces, with wanted arrays and
objects nested at most as deep as the number says. -/
def value? : Nat → Shape → ValueReader
  | depth, shape, text =>
    match skipSpace text with
    | '"' :: rest =>
      (quoted .plain rest).map fun (text, rest) => (string (String.ofList text), rest)
    | 'n' :: rest => word? "null" null ('n' :: rest)
    | 't' :: rest => word? "true" (bool true) ('t' :: rest)
    | 'f' :: rest => word? "false" (bool false) ('f' :: rest)
    | '[' :: rest =>
      match depth with
      | 0 => none
      | depth + 1 =>
        match skipSpace rest with
        | ']' :: rest => some (array [], rest)
        | _ =>
          (items (fun position => value? depth (shape.item position)) 0 rest.length rest).map
            fun (values, rest) => (array values, rest)
    | '{' :: rest =>
      match depth with
      | 0 => none
      | depth + 1 =>
        match skipSpace rest with
        | '}' :: rest => some (object [], rest)
        | _ =>
          (fields
              (fun name =>
                match shape.field? name with
                | some wanted => value? depth wanted
                | none => passOver)
              rest.length rest).map
            fun (found, rest) => (object found, rest)
    | text => number? text

/-- What a shape wants of the document that a text holds, with its fields as they stand. -/
def parse? (shape : Shape) (text : String) : Option Json := do
  let (document, rest) ← value? nestingLimit shape text.toList
  if (skipSpace rest).isEmpty then some document else none

/-- The document that a text holds, in canonical form. -/
def read? (text : String) : Option Json := (parse? .whole text).map canonical

end SkillEngine.Json

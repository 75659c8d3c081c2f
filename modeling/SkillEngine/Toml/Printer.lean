import SkillEngine.Json.Printer
import SkillEngine.Text.Pieces

/-!
# Written configuration files

A file of sections, each with a line for every field that has a plain value.  A text is written in
the first of several styles that shows it without escapes: in double quotes, in single quotes, in
three double quotes, in three single quotes.  A text that no style shows so is written with
escapes.  Behind three quotes a text of several lines starts on a new line.
-/

namespace SkillEngine.Toml

/-- What matters for the style of a text. -/
structure TextTraits where
  /-- A control character other than a tab or a line feed stands in it. -/
  control : Bool
  backslash : Bool
  lineFeed : Bool
  /-- The longest row of single quotes. -/
  singleRow : Nat
  /-- The longest row of double quotes. -/
  doubleRow : Nat

/-- The longest row of a character in a text, where a row of the given length stands before it. -/
def longestRow (c : Char) (before : Nat) : List Char → Nat
  | [] => before
  | d :: rest => if d = c then longestRow c (before + 1) rest else max before (longestRow c 0 rest)

/-- A control character that no style shows as it is. -/
def isControl (c : Char) : Bool := (c < ' ' && c != '\t' && c != '\n') || c == '\x7f'

/-- The traits of a text. -/
def traits (text : List Char) : TextTraits where
  control := text.any isControl
  backslash := text.contains '\\'
  lineFeed := text.contains '\n'
  singleRow := longestRow '\'' 0 text
  doubleRow := longestRow '"' 0 text

/-- A number as four digits of base sixteen. -/
def fourDigits (code : Nat) : List Char :=
  [code / 4096 % 16, code / 256 % 16, code / 16 % 16, code % 16].map fun digit =>
    (Text.hexDigit digit).toUpper

/-- The letter of a short escape. -/
def escapeLetter? : Char → Option Char
  | '\x08' => some 'b'
  | '\t' => some 't'
  | '\x0c' => some 'f'
  | '\r' => some 'r'
  | '\\' => some '\\'
  | _ => none

/-- A text with escapes where double quotes need them.  At most `allowed` quotes may stand in a row,
and `row` of them stand before the text; `keepsLines` says whether line feeds stand for
themselves. -/
def escaped (allowed : Nat) (keepsLines : Bool) : (row : Nat) → List Char → List Char
  | _, [] => []
  | row, c :: rest =>
    if c = '"' then
      if row < allowed then '"' :: escaped allowed keepsLines (row + 1) rest
      else '\\' :: '"' :: escaped allowed keepsLines 0 rest
    else if c = '\n' then
      (if keepsLines then ['\n'] else ['\\', 'n']) ++ escaped allowed keepsLines 0 rest
    else
      match escapeLetter? c with
      | some letter => '\\' :: letter :: escaped allowed keepsLines 0 rest
      | none =>
        (if isControl c then '\\' :: 'u' :: fourDigits c.toNat else [c]) ++
          escaped allowed keepsLines 0 rest

/-- A text between quotes of one character. -/
def between (quotes : List Char) (text : List Char) : List Char := quotes ++ text ++ quotes

/-- A text in double quotes. -/
def inDouble (text : List Char) : List Char := between ['"'] (escaped 0 false 0 text)

/-- The line end behind the opening quotes, which sets the text on lines of its own if it has more
than one line. -/
def opening (text : List Char) : List Char := if text.contains '\n' then ['\n'] else []

/-- A text in three double quotes. -/
def inDoubleLines (text : List Char) : List Char :=
  between ['"', '"', '"'] (opening text ++ escaped 2 true 0 text)

/-- A text in single quotes. -/
def inSingle (text : List Char) : List Char := between ['\''] text

/-- A text in three single quotes. -/
def inSingleLines (text : List Char) : List Char :=
  between ['\'', '\'', '\''] (opening text ++ text)

/-- A text in the first style that shows it without escapes, or with escapes. -/
def textForm (text : List Char) : List Char :=
  let traits := traits text
  if !traits.control && !traits.backslash && traits.doubleRow == 0 && !traits.lineFeed then
    inDouble text
  else if !traits.control && traits.singleRow == 0 && !traits.lineFeed then inSingle text
  else if !traits.control && !traits.backslash && traits.doubleRow ≤ 2 then inDoubleLines text
  else if !traits.control && traits.singleRow ≤ 2 then inSingleLines text
  else if traits.lineFeed then inDoubleLines text
  else inDouble text

/-- The text of a floating point number. -/
def floatForm {format : FloatFormat} (value : Floating format) : List Char :=
  if value.isFinite then FloatLayout.plainWithPoint.finiteText value
  else if value.isNaN then "nan".toList
  else if value.negative then "-inf".toList
  else "inf".toList

/-- The text of a plain value; nothing else has one. -/
def plainForm? : Json → Option (List Char)
  | .string value => some (textForm value.toList)
  | .bool value => some (Json.boolText value)
  | .number (.integer value) => some (Json.intText value)
  | .number (.single value) => some (floatForm value)
  | .number (.double value) => some (floatForm value)
  | .null | .array _ | .object _ => none

/-- The line of a field. -/
def fieldLine (entry : String × Json) : Option (List Char) :=
  (plainForm? entry.2).map fun form => entry.1.toList ++ " = ".toList ++ form ++ ['\n']

/-- A section: its header and its lines. -/
def sectionText (name : String) (fields : List (String × Json)) : List Char :=
  '[' :: name.toList ++ [']', '\n'] ++ (fields.filterMap fieldLine).flatten

/-- The sections of a document, each under the name of its field, with empty lines between. -/
def sections (document : Json) : String :=
  String.ofList (Text.join ['\n']
    (document.object?.getD [] |>.filterMap fun entry => entry.2.object?.map (sectionText entry.1)))

end SkillEngine.Toml

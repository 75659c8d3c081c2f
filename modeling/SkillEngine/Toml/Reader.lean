import SkillEngine.Toml.Quoted
import SkillEngine.Toml.Scalar
import SkillEngine.Toml.Table

/-!
# Reading configuration files

A file is a list of lines: headers, which open a table, and assignments to the table that was
opened last.  The file is read as one document.  Values may be nested up to a limit; the loops over
items, fields and lines are bounded by the length of the text.
-/

namespace SkillEngine.Toml

/-- How deep arrays and inline tables may be nested, and how many names a key may have. -/
def nestingLimit : Nat := 80

/-- The text behind blanks of a line. -/
def skipGaps (text : List Char) : List Char := text.dropWhile isGap

/-- The text behind the rest of a comment: the line end, or nothing. -/
def comment? (text : List Char) : Option (List Char) :=
  match text.dropWhile isLineChar with
  | [] => some []
  | rest => (lineEnd? rest).map fun _ => rest

/-- The text behind blanks, line ends and comments; `inComment` says that a comment is open. -/
def skipFiller? (inComment : Bool) : List Char → Option (List Char)
  | [] => some []
  | '\n' :: rest => skipFiller? false rest
  | '\r' :: '\n' :: rest => skipFiller? false rest
  | c :: rest =>
    if inComment then if isLineChar c then skipFiller? true rest else none
    else if isGap c then skipFiller? false rest
    else if c = '#' then skipFiller? true rest
    else some (c :: rest)

/-- The text behind blanks, line ends and comments. -/
def skipAll? (text : List Char) : Option (List Char) := skipFiller? false text

/-- The characters of names without quotes. -/
def isBareChar (c : Char) : Bool := c.isAlphanum || c == '_' || c == '-'

/-- One name of a key. -/
def name? (text : List Char) : Option (String × List Char) :=
  match quotedLine? text with
  | some (name, rest) => some (String.ofList name, rest)
  | none =>
    if (text.takeWhile isBareChar).isEmpty then none
    else some (String.ofList (text.takeWhile isBareChar), text.dropWhile isBareChar)

/-- Names with points between them, at most as many as the number says. -/
def names? : Nat → List Char → Option (List String × List Char)
  | 0, _ => none
  | more + 1, text => do
    let (name, rest) ← name? (skipGaps text)
    match skipGaps rest with
    | '.' :: rest =>
      let (names, rest) ← names? more rest
      some (name :: names, rest)
    | rest => some ([name], rest)

/-- A key. -/
def key? (text : List Char) : Option (List String × List Char) := names? nestingLimit text

/-- A token of plain characters; a date and a time may have one blank between them. -/
def token (text : List Char) : List Char × List Char :=
  let front := text.takeWhile isPlainChar
  match text.dropWhile isPlainChar with
  | ' ' :: digit :: rest =>
    if isDate front && digit.isDigit then
      (front ++ ' ' :: (digit :: rest).takeWhile isPlainChar, (digit :: rest).dropWhile isPlainChar)
    else (front, ' ' :: digit :: rest)
  | rest => (front, rest)

/-- Reads a value from the front of a text. -/
abbrev ValueReader := List Char → Option (Json × List Char)

/-- The items of an array up to its end. -/
def items (value : ValueReader) : Nat → List Char → Option (List Json × List Char)
  | 0, _ => none
  | fuel + 1, text => do
    match ← skipAll? text with
    | ']' :: rest => some ([], rest)
    | text =>
      let (item, rest) ← value text
      match ← skipAll? rest with
      | ',' :: rest =>
        let (more, rest) ← items value fuel rest
        some (item :: more, rest)
      | ']' :: rest => some ([item], rest)
      | _ => none

/-- A key, the sign of assignment, and a value, with what may be passed over beside the sign. -/
def assignment? (skip : List Char → Option (List Char)) (value : ValueReader)
    (text : List Char) : Option ((List String × Json) × List Char) := do
  let (names, rest) ← key? text
  match ← skip rest with
  | '=' :: rest =>
    let (content, rest) ← value (← skip rest)
    some ((names, content), rest)
  | _ => none

/-- Give a key a value in a table. -/
def assign (names : List String) (value : Json) (fields : Fields) : Option Fields := do
  fields.assign (← names.getLast?) value names.dropLast

/-- The assignments of an inline table up to its end, made in the fields before them. -/
def inlineFields (value : ValueReader) :
    Nat → Fields → List Char → Option (Fields × List Char)
  | 0, _, _ => none
  | fuel + 1, fields, text => do
    match ← skipAll? text with
    | '}' :: rest => some (fields, rest)
    | text =>
      let ((names, content), rest) ← assignment? skipAll? value text
      let fields ← assign names content fields
      match ← skipAll? rest with
      | ',' :: rest => inlineFields value fuel fields rest
      | '}' :: rest => some (fields, rest)
      | _ => none

/-- A value at the front of a text, with arrays and inline tables nested at most as deep as the
number says. -/
def value? : Nat → ValueReader
  | depth, text =>
    match text with
    | '"' :: _ | '\'' :: _ =>
      (quoted? text).map fun (content, rest) => (.string (String.ofList content), rest)
    | '[' :: rest =>
      match depth with
      | 0 => none
      | depth + 1 => (items (value? depth) (rest.length + 1) rest).map fun (found, rest) =>
        (.array found, rest)
    | '{' :: rest =>
      match depth with
      | 0 => none
      | depth + 1 =>
        (inlineFields (value? depth) (rest.length + 1) [] rest).map fun (fields, rest) =>
          (.object (fieldDocuments fields), rest)
    | _ =>
      let (front, rest) := token text
      (plainValue? front).map fun value => (value, rest)

/-- A line of a file. -/
inductive Line where
  | header (names : List String)
  | repeatedHeader (names : List String)
  | assignment (names : List String) (value : Json)

/-- The end of a line, which a comment may precede, or of the text. -/
def endOfLine? (text : List Char) : Option (List Char) :=
  match skipGaps text with
  | [] => some []
  | '#' :: rest => comment? rest
  | rest => (lineEnd? rest).map fun _ => rest

/-- A line and what follows it. -/
def line? (text : List Char) : Option (Line × List Char) := do
  match text with
  | '[' :: '[' :: rest =>
    match ← key? rest with
    | (names, ']' :: ']' :: rest) => some (.repeatedHeader names, ← endOfLine? rest)
    | _ => none
  | '[' :: rest =>
    match ← key? rest with
    | (names, ']' :: rest) => some (.header names, ← endOfLine? rest)
    | _ => none
  | _ =>
    let ((names, value), rest) ← assignment? (some ∘ skipGaps) (value? nestingLimit) text
    some (.assignment names value, ← endOfLine? rest)

/-- The lines of a text. -/
def lines : Nat → List Char → Option (List Line)
  | 0, _ => none
  | fuel + 1, text => do
    match ← skipAll? text with
    | [] => some []
    | text =>
      let (line, rest) ← line? text
      some (line :: (← lines fuel rest))

/-- The assignments in front of the next header, as a change of fields, and the lines from that
header on. -/
def takeSection : List Line → Fields.Section × List Line
  | .assignment names value :: lines =>
    let (rest, left) := takeSection lines
    (fun fields => (assign names value fields).bind rest, left)
  | lines => (some, lines)

/-- Open the table of a header with its lines in the fields of the file. -/
def openTable (define : String → Fields.Section → Fields → Option Fields) (names : List String)
    (lines : Fields.Section) (fields : Fields) : Option Fields := do
  let name ← names.getLast?
  fields.within (define name lines) names.dropLast

/-- The fields of the file after further lines, the first of which is a header. -/
def build : Nat → List Line → Fields → Option Fields
  | _, [], fields => some fields
  | 0, _, _ => none
  | fuel + 1, line :: lines, fields => do
    let (content, left) := takeSection lines
    match line with
    | .header names => build fuel left (← openTable Fields.defineTable names content fields)
    | .repeatedHeader names => build fuel left (← openTable Fields.appendTable names content fields)
    | .assignment _ _ => none

/-- The text without the mark of its byte order. -/
def skipMark : List Char → List Char
  | '\uFEFF' :: rest => rest
  | text => text

/-- The document that a text holds. -/
def read? (text : String) : Option Json := do
  let text := skipMark text.toList
  let lines ← lines (text.length + 1) text
  let (content, left) := takeSection lines
  let fields ← build (left.length + 1) left (← content [])
  some (.object (fieldDocuments fields))

end SkillEngine.Toml

import SkillEngine.Text.Hexadecimal

/-!
# Quoted texts of configuration files

A text stands between double quotes, where a backslash starts an escape, or between single quotes,
where every character stands for itself.  Three quotes in a row delimit a text of several lines.
Each reader takes the text behind the opening quotes and returns the content and the rest.
-/

namespace SkillEngine.Toml

/-- A character that may stand in a text of one line. -/
def isLineChar (c : Char) : Bool := c == '\t' || (' ' ≤ c && c != '\x7f')

/-- Blanks within a line. -/
def isGap (c : Char) : Bool := c == ' ' || c == '\t'

/-- The text behind a line end, if a line ends here. -/
def lineEnd? : List Char → Option (List Char)
  | '\n' :: rest => some rest
  | '\r' :: '\n' :: rest => some rest
  | _ => none

/-- The character that an escape of one letter stands for. -/
def letterEscape? : Char → Option Char
  | 'b' => some '\x08'
  | 't' => some '\t'
  | 'n' => some '\n'
  | 'f' => some '\x0c'
  | 'r' => some '\r'
  | 'e' => some '\x1b'
  | '"' => some '"'
  | '\\' => some '\\'
  | _ => none

/-- How many digits follow the letter of a numeric escape. -/
def escapeWidth? : Char → Option Nat
  | 'x' => some 2
  | 'u' => some 4
  | 'U' => some 8
  | _ => none

/-- The character of the escape behind a backslash, and the rest. -/
def escape? : List Char → Option (Char × List Char)
  | [] => none
  | c :: rest =>
    match escapeWidth? c with
    | none => (letterEscape? c).map fun meant => (meant, rest)
    | some width =>
      if rest.length < width then none
      else do
        let meant ← Text.charOf? (← Text.hexNumber 0 (rest.take width))
        some (meant, rest.drop width)

/-- Put characters in front of a content. -/
def before (front : List Char) : List Char × List Char → List Char × List Char
  | (content, rest) => (front ++ content, rest)

/-- A text in double quotes. -/
def basic? : Nat → List Char → Option (List Char × List Char)
  | 0, _ => none
  | _, [] => none
  | fuel + 1, c :: rest =>
    if c = '"' then some ([], rest)
    else if c = '\\' then do
      let (meant, rest) ← escape? rest
      (basic? fuel rest).map (before [meant])
    else if isLineChar c then (basic? fuel rest).map (before [c])
    else none

/-- A text in single quotes. -/
def literal? : List Char → Option (List Char × List Char)
  | [] => none
  | c :: rest =>
    if c = '\'' then some ([], rest)
    else if isLineChar c then (literal? rest).map (before [c])
    else none

/-- Quotes in a row: the closing ones, if there are enough, and the content before them.  Up to
two quotes may stand in front of the closing three. -/
def quotes (quote : Char) (text : List Char) : List Char × Bool × List Char :=
  let run := (text.takeWhile (· == quote)).take 5
  (if 3 ≤ run.length then run.drop 3 else run, 3 ≤ run.length, text.drop run.length)

/-- The text behind blanks and line ends. -/
def skipBlankLines : List Char → List Char
  | [] => []
  | '\r' :: '\n' :: rest => skipBlankLines rest
  | c :: rest => if isGap c || c == '\n' then skipBlankLines rest else c :: rest

/-- The text behind a backslash that continues a line, if only blanks follow it there: blanks and
line ends are passed over. -/
def continued? (text : List Char) : Option (List Char) :=
  (lineEnd? (text.dropWhile isGap)).map skipBlankLines

/-- A text of several lines; `escapes` says whether a backslash starts an escape. -/
def lines? (quote : Char) (escapes : Bool) : Nat → List Char → Option (List Char × List Char)
  | 0, _ => none
  | _, [] => none
  | fuel + 1, c :: rest =>
    if c = quote then
      match quotes quote (c :: rest) with
      | (front, true, rest) => some (front, rest)
      | (front, false, rest) => (lines? quote escapes fuel rest).map (before front)
    else if escapes && c == '\\' then
      match continued? rest with
      | some rest => lines? quote escapes fuel rest
      | none => do
        let (meant, rest) ← escape? rest
        (lines? quote escapes fuel rest).map (before [meant])
    else if c = '\r' then
      match rest with
      | '\n' :: rest => (lines? quote escapes fuel rest).map (before ['\r', '\n'])
      | _ => none
    else if c = '\n' || isLineChar c then (lines? quote escapes fuel rest).map (before [c])
    else none

/-- A line end right behind the opening quotes does not count. -/
def dropLineEnd (text : List Char) : List Char := (lineEnd? text).getD text

/-- A text in quotes of one line, from its opening quote on. -/
def quotedLine? : List Char → Option (List Char × List Char)
  | '"' :: rest => basic? rest.length rest
  | '\'' :: rest => literal? rest
  | _ => none

/-- A text in quotes, from its opening quotes on. -/
def quoted? : List Char → Option (List Char × List Char)
  | '"' :: '"' :: '"' :: rest => lines? '"' true (rest.length + 1) (dropLineEnd rest)
  | '\'' :: '\'' :: '\'' :: rest => lines? '\'' false (rest.length + 1) (dropLineEnd rest)
  | text => quotedLine? text

end SkillEngine.Toml

import SkillEngine.Http.Host

/-!
# URLs

The address of a resource: how it is reached, its host and port, and what the host is asked for.
A URL is read as a browser reads it.  Blanks around it and line ends in it do not count, a
backslash is a slash, the steps `.` and `..` are taken, and characters that cannot be sent are
escaped.  Names of users in front of the host are passed over.
-/

namespace SkillEngine.Http

/-- A URL in the form in which it is sent. -/
structure Url where
  scheme : String
  host : String
  port : Option Nat
  /-- The path with its first slash. -/
  path : String
  query : Option String
  fragment : Option String
  deriving DecidableEq

namespace Url

/-- The schemes with their ports. -/
def schemes : List (String × Nat) := [("http", 80), ("https", 443)]

/-- The greatest number of bytes of a URL. -/
def sizeLimit : Nat := 65534

/-- The greatest port. -/
def greatestPort : Nat := 65535

/-- A slash of either kind. -/
def isSlash (c : Char) : Bool := c == '/' || c == '\\'

/-- The host and its port end here. -/
def endsAuthority (c : Char) : Bool := isSlash c || c == '?' || c == '#'

/-- A visible character of ASCII that is none of those listed. -/
def isVisibleExcept (listed : String) (c : Char) : Bool :=
  ' ' < c && c < '\x7f' && !listed.toList.contains c

/-- A character that a path is sent with as it is. -/
def isPathChar : Char → Bool := isVisibleExcept "\"#<>?\x60\x7b\x7d"

/-- A character that a query is sent with as it is. -/
def isQueryChar : Char → Bool := isVisibleExcept "\"#<>'"

/-- A character that a fragment is written with as it is. -/
def isFragmentChar : Char → Bool := isVisibleExcept "\"<>\x60"

/-- The text without blanks and controls around it and without tabs and line ends in it. -/
def cleaned (text : List Char) : List Char :=
  (((text.dropWhile (· ≤ ' ')).reverse.dropWhile (· ≤ ' ')).reverse).filter fun c =>
    c != '\t' && c != '\n' && c != '\r'

/-- The text behind the last sign that ends the name of a user, or the whole text. -/
def behindUser (text : List Char) : List Char :=
  (text.reverse.takeWhile (· != '@')).reverse

/-- The host, and the port with the colon before it.  Colons in brackets belong to the host. -/
def splitPort (inBrackets : Bool) : List Char → List Char × List Char
  | [] => ([], [])
  | c :: rest =>
    if c = ':' && !inBrackets then ([], c :: rest)
    else
      let (host, port) := splitPort (c == '[' || (inBrackets && c != ']')) rest
      (c :: host, port)

/-- The port behind a colon; no digits stand for the port of the scheme. -/
def port? : List Char → Option (Option Nat)
  | [] | [':'] => some none
  | _ :: digits =>
    let port := Nat.ofDigitChars 10 digits 0
    if digits.all Char.isDigit && port ≤ greatestPort then some (some port) else none

/-- A segment of a path with the escapes of points undone. -/
def pointForm : List Char → List Char
  | [] => []
  | '%' :: '2' :: 'e' :: rest | '%' :: '2' :: 'E' :: rest => '.' :: pointForm rest
  | c :: rest => c :: pointForm rest

/-- The segment stays where it is. -/
def isRest (segment : List Char) : Bool := pointForm segment == ['.']

/-- The segment leads one step back. -/
def isReturn (segment : List Char) : Bool := pointForm segment == ['.', '.']

/-- A letter and a colon or a bar: the name of a drive, out of which no step leads. -/
def isDrive : List Char → Bool
  | [letter, mark] => letter.isAlpha && (mark == ':' || mark == '|')
  | _ => false

/-- The segments after one more; the innermost stands first. -/
def enter (entered : List (List Char)) (segment : List Char) : List (List Char) :=
  if isReturn segment then
    match entered with
    | [] => []
    | inner :: outer => if isDrive inner then entered else outer
  else if isRest segment then entered
  else segment :: entered

/-- The segments of a path after all its steps.  Behind a step at the end stands an empty
segment. -/
def settled (segments : List (List Char)) : List (List Char) :=
  let entered := segments.foldl enter []
  let endsInStep := segments.getLast?.any fun last => isRest last || isReturn last
  (if endsInStep then [] :: entered else entered).reverse

/-- The path in the form in which it is sent; it always has its first slash. -/
def pathForm (text : List Char) : List Char :=
  let segments := Text.cut isSlash (if text.head?.any isSlash then text.drop 1 else text)
  '/' :: Text.join ['/'] (settled (segments.map (Text.percentEncode isPathChar)))

/-- The text behind a mark that starts a part, with escapes, if the part is there. -/
def partForm? (keeps : Char → Bool) : List Char → Option String
  | [] => none
  | _ :: rest => some (String.ofList (Text.percentEncode keeps rest))

/-- What the host of a URL is asked for. -/
def target (url : Url) : String := url.path ++ (url.query.map ("?" ++ ·)).getD ""

/-- The port, unless it is that of the scheme. -/
def portText (url : Url) : String :=
  match url.port with
  | some port => if schemes.lookup url.scheme == some port then "" else ":" ++ toString port
  | none => ""

/-- The text of a URL. -/
def text (url : Url) : String :=
  url.scheme ++ "://" ++ url.host ++ url.portText ++ url.target ++
    (url.fragment.map ("#" ++ ·)).getD ""

/-- The URL behind a scheme and its colon, however many slashes follow there. -/
def behindScheme? (scheme : String) (text : List Char) : Option Url := do
  let text := text.dropWhile isSlash
  let (hostText, portText) := splitPort false (behindUser (text.takeWhile (!endsAuthority ·)))
  let host ← host? hostText
  let port ← port? portText
  let rest := text.dropWhile (!endsAuthority ·)
  let asked := rest.takeWhile (· != '#')
  some
    { scheme, host := String.ofList host, port
      path := String.ofList (pathForm (asked.takeWhile (· != '?')))
      query := partForm? isQueryChar (asked.dropWhile (· != '?'))
      fragment := partForm? isFragmentChar (rest.dropWhile (· != '#')) }

/-- The URL that a text says, if a request can be sent there. -/
def ofText? (text : String) : Option Url := do
  let text := cleaned text.toList
  let scheme := String.ofList ((text.takeWhile (· != ':')).map Text.lowerAscii)
  if (schemes.lookup scheme).isSome then
    let url ← behindScheme? scheme ((text.dropWhile (· != ':')).drop 1)
    if url.text.utf8ByteSize ≤ sizeLimit then some url else none
  else none

end Url

end SkillEngine.Http

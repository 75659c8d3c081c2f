import SkillEngine.Http.Status
import SkillEngine.Http.Url
import SkillEngine.Json.Reader

/-!
# Exchanges

A request with a document as its body, and the answer to it.  What a request needs to be sent at
all is checked here: a header holds no control character except tabs.
-/

namespace SkillEngine.Http

/-- A request that posts a document. -/
structure Request where
  url : Url
  headers : List (String × String)
  body : Json

/-- An answer. -/
structure Response where
  status : Nat
  body : String

/-- How a request is answered; where no answer comes, a text says why. -/
abbrev Transport (σ : Type) := Request → σ → Except String Response × σ

/-- Why a request has no answer. -/
def Request.unanswered (request : Request) : String :=
  "error sending request for url (" ++ request.url.text ++ ")"

/-- Where there is no network no request is answered. -/
def offline : Transport Unit := fun request world => (.error request.unanswered, world)

/-- A character that may stand in a header. -/
def isHeaderChar (c : Char) : Bool := c == '\t' || (' ' ≤ c && c != '\x7f')

/-- A text that can be sent as a header. -/
def isHeaderText (text : String) : Bool := text.toList.all isHeaderChar

/-- The request can be sent. -/
def Request.isSendable (request : Request) : Bool :=
  request.headers.all fun header => isHeaderText header.2

/-- The first line of a request. -/
def Request.line (request : Request) : String := "POST " ++ request.url.target ++ " HTTP/1.1"

/-- Blanks that do not belong to a header's value. -/
def isOuterBlank (c : Char) : Bool := c == ' ' || c == '\t'

/-- A text without the blanks around it. -/
def trimOuter (text : List Char) : List Char :=
  ((text.dropWhile isOuterBlank).reverse.dropWhile isOuterBlank).reverse

/-- The values of a header as they arrive. -/
def Request.headerValues (request : Request) (name : String) : List String :=
  (request.headers.filter (·.1 == name)).map fun header => String.ofList (trimOuter header.2.toList)

/-- The text that an answer carries; some answers carry none. -/
def Response.text (response : Response) : String :=
  if hasNoBody response.status then "" else response.body

/-- The document that an answer carries. -/
def Response.document? (response : Response) : Option Json := Json.read? response.text

end SkillEngine.Http

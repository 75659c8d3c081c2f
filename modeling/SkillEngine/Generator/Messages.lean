import SkillEngine.Generator.Basic
import SkillEngine.Http.Exchange

/-!
# The messages interface

The generator that asks a remote service over HTTP.  A request becomes one user message; the
answer is the text blocks of the response, one after another.  What a response says beside them is
read as far as it has the expected form and passed over where it has not.
-/

namespace SkillEngine

/-- How the service is reached, and what a request asks for unless it says so itself. -/
structure MessagesService where
  apiKey : String
  baseUrl : String
  model : String
  maxTokens : UInt32
  temperature : Single

namespace MessagesService

/-- The service as it is reached with a key alone. -/
def ofKey (apiKey : String) : MessagesService where
  apiKey := apiKey
  baseUrl := "https://api.anthropic.com/v1"
  model := "claude-3-5-sonnet-20241022"
  maxTokens := 4096
  temperature := .ofDecimal false 7 (-1)

/-- The name of the generator. -/
def name : String := "anthropic"

/-- A text without the slashes at its end. -/
def trimSlashes (url : String) : String :=
  String.ofList (url.toList.reverse.dropWhile (· == '/')).reverse

/-- The document that is posted. -/
def body (service : MessagesService) (request : GenerationRequest) : Json :=
  let options := request.options
  .object (Dict.ofList ([("model", .string (options.model.getD service.model)),
      ("max_tokens", .nat (options.maxTokens.getD service.maxTokens).toNat),
      ("temperature", Json.ofNumber (.single (options.temperature.getD service.temperature))),
      ("messages", .array [.object [("content", .string request.prompt),
        ("role", .string "user")]])] ++
    (options.systemPrompt.map fun text => ("system", Json.string text)).toList))

/-- The request, if it can be sent. -/
def request? (service : MessagesService) (asked : GenerationRequest) : Option Http.Request := do
  let request : Http.Request :=
    { url := ← Http.Url.ofText? (trimSlashes service.baseUrl ++ "/messages")
      headers := [("x-api-key", service.apiKey), ("anthropic-version", "2023-06-01"),
        ("content-type", "application/json")]
      body := service.body asked }
  if request.isSendable then some request else none

/-- The text of a text block. -/
def blockText? (block : Json) : Option String :=
  if (block.field "type").string? == some "text" then (block.field "text").string? else none

/-- The texts of the text blocks, one after another. -/
def responseText (document : Json) : String :=
  String.join ((((document.field "content").array?).getD []).filterMap blockText?)

/-- A count of tokens; what is no count counts as zero. -/
def tokenCount : Json → UInt32
  | .number (.integer value) => clampWord32 value.toNat
  | _ => 0

/-- The tokens that a response reports. -/
def responseUsage (document : Json) : Option Usage :=
  (document.field? "usage").map fun usage =>
    ⟨tokenCount (usage.field "input_tokens"), tokenCount (usage.field "output_tokens")⟩

/-- The generation that a response holds. -/
def generation (document : Json) : Generation := ⟨responseText document, responseUsage document⟩

/-- The failure that a response without success stands for. -/
def statusFailure (response : Http.Response) : Failure :=
  .generation ("HTTP " ++ Http.statusText response.status ++ ": " ++ response.text)

/-- What a response means. -/
def interpret (response : Http.Response) : Except Failure Generation :=
  if Http.isSuccess response.status then
    match response.document? with
    | some document => .ok (generation document)
    | none => .error (.generation "error decoding response body")
  else .error (statusFailure response)

/-- The generator that reaches the service over a transport. -/
def generator {σ : Type} (service : MessagesService) (send : Http.Transport σ) : Generator σ where
  name := name
  answer asked world :=
    match service.request? asked with
    | none => (.error (.generation "builder error"), world)
    | some request =>
      match send request world with
      | (.ok response, world) =>
        if Http.isFinal response.status then (interpret response, world)
        else (.error (.generation request.unanswered), world)
      | (.error reason, world) => (.error (.generation reason), world)

end MessagesService

end SkillEngine

import SkillEngine.Generator.Messages
import SkillEngine.Proofs.Execution.Tokens
import SkillEngine.Proofs.Json.Basic

/-!
# What a response says and costs

The service may answer with any document.  Its text is what the blocks of its
content tell, one after another, and a block tells something only if it is an
object of the right type that holds a string.  Everything else is passed over,
at every level.

The cost is reported as two counts.  Each of them is cut off at the greatest
number of 32 bits, and so is their sum.  As counts are never negative, the first
two cuts make no difference beside the last one: what is charged is the sum of
the counts as they are reported, up to that number.
-/

namespace SkillEngine

/-- A request that is answered as wished is answered at last. -/
theorem Http.isFinal_of_isSuccess {status : Nat}
    (h : isSuccess status = true) : isFinal status = true := by
  simp only [isSuccess, Bool.and_eq_true, decide_eq_true_eq] at h
  simp only [isFinal, Bool.or_eq_true, Bool.and_eq_true, decide_eq_true_eq]
  omega

namespace MessagesService

/-! ## Blocks -/

/-- The block tells a text. -/
inductive Tells : Json → String → Prop where
  | text {fields : Json.Object} {text : String}
      (htype : fields.find? "type" = some (.string "text"))
      (htext : fields.find? "text" = some (.string text)) :
      Tells (.object fields) text

/-- The blocks tell a text together, one after another. -/
inductive TellTogether : List Json → String → Prop where
  | nil : TellTogether [] ""
  | telling {block : Json} {blocks : List Json} {text rest : String}
      (hblock : Tells block text) (hblocks : TellTogether blocks rest) :
      TellTogether (block :: blocks) (text ++ rest)
  | silent {block : Json} {blocks : List Json} {rest : String}
      (hblock : ∀ text, ¬Tells block text) (hblocks : TellTogether blocks rest) :
      TellTogether (block :: blocks) rest

/-- The document holds the blocks as its content. -/
inductive Holds : Json → List Json → Prop where
  | content {fields : Json.Object} {blocks : List Json}
      (hcontent : fields.find? "content" = some (.array blocks)) :
      Holds (.object fields) blocks

theorem blockText?_eq_some_iff {block : Json} {text : String} :
    blockText? block = some text ↔ Tells block text := by
  rw [blockText?, Option.ite_none_right_eq_some, beq_iff_eq,
    Json.string?_eq_some_iff, Json.string?_eq_some_iff,
    Json.field_eq_iff (by simp), Json.field_eq_iff (by simp)]
  constructor
  · rintro ⟨htype, htext⟩
    obtain ⟨fields, rfl, htype⟩ := Json.field?_eq_some_iff.mp htype
    exact .text htype htext
  · rintro ⟨htype, htext⟩
    exact ⟨htype, htext⟩

theorem blockText?_eq_none_iff {block : Json} :
    blockText? block = none ↔ ∀ text, ¬Tells block text := by
  simp only [Option.eq_none_iff_forall_ne_some, ne_eq, blockText?_eq_some_iff]

theorem tellTogether_iff {blocks : List Json} {text : String} :
    TellTogether blocks text ↔
      text = String.join (blocks.filterMap blockText?) := by
  constructor
  · intro h
    induction h with
    | nil => rfl
    | telling hblock _ ih =>
        rw [List.filterMap_cons_some (blockText?_eq_some_iff.mpr hblock),
          String.join_cons, ih]
    | silent hblock _ ih =>
        rw [List.filterMap_cons_none (blockText?_eq_none_iff.mpr hblock), ih]
  · rintro rfl
    induction blocks with
    | nil => exact .nil
    | cons block blocks ih =>
        cases hblock : blockText? block with
        | none =>
            rw [List.filterMap_cons_none hblock]
            exact .silent (blockText?_eq_none_iff.mp hblock) ih
        | some text =>
            rw [List.filterMap_cons_some hblock, String.join_cons]
            exact .telling (blockText?_eq_some_iff.mp hblock) ih

theorem content_eq_some_iff {document : Json} {blocks : List Json} :
    (document.field "content").array? = some blocks ↔ Holds document blocks := by
  rw [Json.array?_eq_some_iff, Json.field_eq_iff (by simp)]
  constructor
  · intro hcontent
    obtain ⟨fields, rfl, hcontent⟩ := Json.field?_eq_some_iff.mp hcontent
    exact .content hcontent
  · rintro ⟨hcontent⟩
    exact hcontent

theorem responseText_of_holds {document : Json} {blocks : List Json}
    (h : Holds document blocks) :
    responseText document = String.join (blocks.filterMap blockText?) := by
  rw [responseText, content_eq_some_iff.mpr h, Option.getD_some]

theorem responseText_of_not_holds {document : Json}
    (h : ∀ blocks, ¬Holds document blocks) : responseText document = "" := by
  have hnone : (document.field "content").array? = none :=
    Option.eq_none_iff_forall_ne_some.mpr fun blocks hblocks =>
      h blocks (content_eq_some_iff.mp hblocks)
  rw [responseText, hnone]
  rfl

/-! ## Counts -/

/-- The greatest number of 32 bits. -/
def greatest : Nat := 2 ^ 32 - 1

/-- The count that is reported under a name.  Only an integer from zero on is a
count; anything else, even a whole double, counts as zero. -/
def reported (usage : Json) (name : String) : Nat :=
  match usage.field? name with
  | some (.number (.integer (.ofNat count))) => count
  | _ => 0

/-- What two counts cost. -/
def charge (input output : Nat) : Nat :=
  min (min input greatest + min output greatest) greatest

/-- The sum is not cut off twice. -/
theorem charge_eq (input output : Nat) :
    charge input output = min (input + output) greatest := by
  rw [charge]
  omega

theorem toNat_tokenCount (usage : Json) (name : String) :
    (tokenCount (usage.field name)).toNat =
      min (reported usage name) greatest := by
  rw [reported, Json.field]
  cases usage.field? name with
  | none => rfl
  | some value =>
      cases value with
      | number number =>
          cases number with
          | integer count =>
              rw [Option.getD_some, tokenCount, toNat_clampWord32]
              cases count <;> rfl
          | _ => rfl
      | _ => rfl

theorem toNat_tokens {document usage : Json}
    (h : document.field? "usage" = some usage) :
    (generation document).tokens.toNat =
      charge (reported usage "input_tokens") (reported usage "output_tokens") := by
  have husage : (generation document).usage =
      some ⟨tokenCount (usage.field "input_tokens"),
        tokenCount (usage.field "output_tokens")⟩ := by
    rw [generation, responseUsage, h]
    rfl
  rw [Generation.tokens, husage, Option.map_some, Option.getD_some,
    UInt32.toNat_toUInt64, Usage.toNat_total, toNat_tokenCount,
    toNat_tokenCount]
  rfl

/-! ## Steps -/

variable {σ : Type}

/-- Text is generated for a prompt by the service, which answers with the
document. -/
inductive Receives (backends : Backends σ) (context : Context) (prompt : String)
    (systemPrompt : Option String) (model : Option ModelChoice) (world : σ)
    (document : Json) : Prop where
  | response {service : MessagesService} {send : Http.Transport σ}
      {request : Http.Request} {response : Http.Response} {after : σ}
      (hgenerator : backends.router.resolve
        ((model.bind (·.provider)).getD context.aiConfig.provider) =
          .ok (service.generator send))
      (hrequest : service.request?
        ⟨prompt, .of context systemPrompt model⟩ = some request)
      (hanswer : send request world = (.ok response, after))
      (hsuccess : Http.isSuccess response.status = true)
      (hdocument : response.document? = some document)

theorem generate_of_receives {backends : Backends σ} {context : Context}
    {prompt : String} {systemPrompt : Option String}
    {model : Option ModelChoice} {world : σ} {document : Json}
    (h : Receives backends context prompt systemPrompt model world document) :
    (backends.generate context prompt systemPrompt model world).value =
      .ok ⟨.string (generation document).text, (generation document).tokens⟩ := by
  cases h with
  | @response service send request response after hgenerator hrequest hanswer
      hsuccess hdocument =>
      have hinterpret : interpret response = .ok (generation document) := by
        simp [interpret, hsuccess, hdocument]
      have hgenerated : ((service.generator send).answer
          ⟨prompt, .of context systemPrompt model⟩ world).1 =
            .ok (generation document) := by
        simp [generator, hrequest, hanswer, Http.isFinal_of_isSuccess hsuccess,
          hinterpret]
      simp [Backends.generate, hgenerator, Backends.ask, hgenerated, Except.map]

/-! ## Every document -/

/-- What is made of a document that answers a request. -/
structure Interprets (document : Json) : Prop where
  /-- The text is what the blocks of the content tell. -/
  told : ∀ blocks, Holds document blocks → ∀ text,
    TellTogether blocks text ↔ text = (generation document).text
  /-- Without blocks there is no text. -/
  silent : (∀ blocks, ¬Holds document blocks) → (generation document).text = ""
  /-- Where the content is split, the text is split. -/
  split : ∀ before after, Holds document (before ++ after) → ∀ front back,
    Holds front before → Holds back after →
      (generation document).text =
        (generation front).text ++ (generation back).text
  /-- A step passes on the text and what it cost. -/
  stepped : ∀ {σ : Type} (backends : Backends σ) context prompt systemPrompt
    model world,
    Receives backends context prompt systemPrompt model world document →
      (backends.generate context prompt systemPrompt model world).value =
        .ok ⟨.string (generation document).text, (generation document).tokens⟩
  charged : ∀ usage, document.field? "usage" = some usage →
    (generation document).tokens.toNat =
      charge (reported usage "input_tokens") (reported usage "output_tokens")
  /-- The charge is the sum of both counts as long as it has 32 bits, and stays
  at the greatest number from there on. -/
  summed : ∀ usage, document.field? "usage" = some usage →
    (generation document).tokens.toNat =
      min (reported usage "input_tokens" + reported usage "output_tokens")
        greatest
  /-- Greater counts do not cost less. -/
  monotone : ∀ usage other otherUsage,
    document.field? "usage" = some usage →
    other.field? "usage" = some otherUsage →
    reported usage "input_tokens" ≤ reported otherUsage "input_tokens" →
    reported usage "output_tokens" ≤ reported otherUsage "output_tokens" →
      (generation document).tokens ≤ (generation other).tokens
  /-- Where no usage is reported nothing is charged. -/
  free : document.field? "usage" = none → (generation document).tokens = 0

theorem interprets_document (document : Json) : Interprets document where
  told := by
    intro blocks hblocks text
    rw [tellTogether_iff, generation, responseText_of_holds hblocks]
  silent := responseText_of_not_holds
  split := by
    intro before after hdocument front back hfront hback
    simp only [generation, responseText_of_holds hdocument,
      responseText_of_holds hfront, responseText_of_holds hback]
    rw [List.filterMap_append, String.join_append]
  stepped := fun _ _ _ _ _ _ => generate_of_receives
  charged := fun _ => toNat_tokens
  summed := by
    intro usage husage
    rw [toNat_tokens husage, charge_eq]
  monotone := by
    intro usage other otherUsage husage hother hinput houtput
    rw [UInt64.le_iff_toNat_le, toNat_tokens husage, toNat_tokens hother,
      charge_eq, charge_eq]
    omega
  free := by
    intro hnone
    rw [generation, responseUsage, hnone]
    rfl

example :
    let document : Json := .object [
      ("content", .array [
        .object [("text", .string "Hello "), ("type", .string "text")],
        .object [("id", .string "x"), ("type", .string "tool_use")],
        .null,
        .object [("text", .string "world"), ("type", .string "text")]]),
      ("usage", .object [
        ("input_tokens", .nat 5000000000), ("output_tokens", .nat 7)])]
    (generation document).text = "Hello world" ∧
      (generation document).tokens = 4294967295 := by
  decide

/-- A step asks the service over a transport that always answers the same. -/
example :
    let send : Http.Transport Unit := fun _ world =>
      (.ok ⟨200, (Json.object [("usage", .object [])]).compact⟩, world)
    let backends : Backends Unit :=
      ⟨Router.empty.add ((ofKey "key").generator send), Host.empty.registry⟩
    let context : Context := ⟨[], .empty, ⟨"anthropic", none⟩, .empty⟩
    let answer := (backends.generate context "Greet" none none ()).value
    answer.toOption.map (fun output => (output.value.string?, output.tokens)) =
      some (some "", 0) := by
  decide +kernel

end MessagesService

end SkillEngine

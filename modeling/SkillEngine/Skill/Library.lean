import SkillEngine.Skill.Basic
import SkillEngine.Template.Basic

/-!
# The skill library

The skills that come with the engine, by category: prompts for writing, editing and analysis, and
the automations, which are two workflows, a tool and a hybrid.
-/

namespace SkillEngine

/-- A step whose declared kind is that of its task. -/
def StepTask.step (task : StepTask) (id name : String) (dependsOn : List String) : Step :=
  ⟨id, name, none, task.kind, task, dependsOn, none⟩

/-- An enabled skill with nothing but a category and tags besides its definition. -/
def Definition.skill (definition : Definition) (id name description : String)
    (category : Category) (tags : List String) : Skill where
  id := id
  name := name
  description := description
  category := category
  version := "1.0.0"
  author := none
  enabled := true
  definition := definition
  settings := none
  permissions := none
  tags := tags
  icon := none
  shortcut := none

namespace SkillLibrary

open Template (slot)

/-- A text that has to be given. -/
def requiredText (name description : String) : Parameter :=
  ⟨name, description, .string, true, none, none, none⟩

/-- A text of several lines that has to be given. -/
def requiredLines (name description : String) : Parameter :=
  { requiredText name description with hints := some ⟨none, none, some true, none, none⟩ }

/-- A text with a default. -/
def optionalText (name description default : String) : Parameter :=
  ⟨name, description, .string, false, some (.string default), none, none⟩

/-- A temperature, in tenths, and the greatest number of tokens. -/
def sampling (tenths : Nat) (maxTokens : UInt32) : ModelChoice :=
  ⟨none, none, some (.ofDecimal false tenths (-1)), some maxTokens⟩

/-- The prompts for writing. -/
def writing : List Skill :=
  [{ (Definition.prompt
        { template :=
            "Continue writing from the context below, keeping the same style and tone.\n\n"
            ++ "Context:\n" ++ slot "context" ++ "\n\nText at the cursor:\n" ++ slot "cursor"
            ++ "\n\nContinuation:"
          parameters := [requiredLines "context" "Surrounding content",
            optionalText "cursor" "Content at the cursor" ""]
          systemPrompt := some ("You are a professional writer who continues texts in any style. "
            ++ "Preserve the original voice, tone and flow.")
          model := some (sampling 7 500) }).skill
        "skill-continue-writing" "Continue Writing"
        "Continue the text from the surrounding context" .writing ["writing", "continue"]
      with shortcut := some "Cmd+L" },
    (Definition.prompt
      { template := "Expand the following content into a more detailed paragraph.\n\nOriginal:\n"
          ++ slot "content" ++ "\n\nRequirements:\n1. Keep the core argument\n"
          ++ "2. Add concrete examples and details\n3. Make it vivid and specific\n\n"
          ++ "Expanded content:"
        parameters := [requiredLines "content" "Content to expand"]
        systemPrompt := none
        model := some (sampling 6 800) }).skill
      "skill-expand-text" "Expand Text" "Expand a short passage into a detailed paragraph"
      .writing ["writing", "expand"],
    (Definition.prompt
      { template := "Write a concise summary (at most 200 words) of the following text.\n\nText:\n"
          ++ slot "content" ++ "\n\nSummary:"
        parameters := [requiredLines "content" "Content to summarize"]
        systemPrompt := none
        model := some (sampling 3 300) }).skill
      "skill-summarize" "Summarize" "Produce a short summary of a long text"
      .writing ["writing", "summary"]]

/-- A prompt that puts content into another language. -/
def intoLanguage (id name description template : String) : Skill :=
  (Definition.prompt
    { template := template
      parameters := [requiredLines "content" "Content to translate"]
      systemPrompt := none
      model := some (sampling 3 2000) }).skill
    id name description .editing ["editing", "translation"]

/-- The prompts for editing. -/
def editing : List Skill :=
  [(Definition.prompt
      { template := "Polish the following content into a professional style without changing "
          ++ "its meaning.\n\nOriginal:\n" ++ slot "content" ++ "\n\nPolished content:"
        parameters := [requiredLines "content" "Content to polish"]
        systemPrompt :=
          some "You are a professional editor who turns any draft into clear, formal prose."
        model := some (sampling 4 1000) }).skill
      "skill-polish-professional" "Professional Polish"
      "Rewrite content in a professional register" .editing ["editing", "polish", "professional"],
    (Definition.prompt
      { template := "Correct the grammar of the following content. Output only the corrected "
          ++ "text.\n\n" ++ slot "content"
        parameters := [requiredLines "content" "Content to check"]
        systemPrompt := some "You are a meticulous proofreader."
        model := some (sampling 2 2000) }).skill
      "skill-fix-grammar" "Fix Grammar" "Find and correct grammatical errors"
      .editing ["editing", "grammar"],
    intoLanguage "skill-translate-zh" "Translate to Chinese" "Translate content into Chinese"
      ("请将以下内容翻译为中文，保持原文的含义和风格：\n\n" ++ slot "content"),
    intoLanguage "skill-translate-en" "Translate to English" "Translate content into English"
      ("Please translate the following content into English, maintaining the original meaning "
        ++ "and style:\n\n" ++ slot "content")]

/-- The prompts for analysis. -/
def analysis : List Skill :=
  [(Definition.prompt
      { template := "Extract 5-10 keywords from the following content, separated by commas.\n\n"
          ++ slot "content" ++ "\n\nKeywords:"
        parameters := [requiredLines "content" "Content to analyze"]
        systemPrompt := none
        model := some (sampling 3 100) }).skill
      "skill-extract-keywords" "Extract Keywords" "Pull the key terms out of a text"
      .analysis ["analysis", "keywords"],
    (Definition.prompt
      { template := "Analyze the sentiment of the following content and score it between -1 "
          ++ "(most negative) and 1 (most positive).\n\n" ++ slot "content"
          ++ "\n\nAnswer in this format:\nSentiment: [positive/negative/neutral]\n"
          ++ "Score: [number]\nReason: [one sentence]"
        parameters := [requiredLines "content" "Content to analyze"]
        systemPrompt := none
        model := some (sampling 2 200) }).skill
      "skill-analyze-sentiment" "Sentiment Analysis" "Rate the sentiment of a text"
      .analysis ["analysis", "sentiment"],
    (Definition.prompt
      { template := "Create a detailed article outline.\n\nTopic: " ++ slot "topic" ++ "\nStyle: "
          ++ slot "style" ++ "\n\nOutline:"
        parameters := [requiredText "topic" "Article topic",
          optionalText "style" "Article style" "general"]
        systemPrompt := none
        model := some (sampling 5 1000) }).skill
      "skill-generate-outline" "Generate Outline" "Draft an article outline for a topic"
      .analysis ["analysis", "outline"]]

/-- A workflow that stops at the first failure. -/
def sequence (parameters : List Parameter) (steps : List Step) : Definition :=
  .workflow ⟨steps, parameters, [], .sequential, .stop, none⟩

/-- A step that generates text. -/
def promptStep (id name : String) (dependsOn : List String) (model : ModelChoice)
    (template : String) : Step :=
  (StepTask.prompt ⟨template, some model⟩).step id name dependsOn

/-- Check how readable a text is, and suggest improvements. -/
def readability : Definition :=
  sequence [requiredLines "content" "Content to check"]
    [promptStep "analyze" "Analyze text" [] (sampling 3 500)
      ("Analyze the readability of the following text, covering:\n1. Average sentence length\n"
        ++ "2. Vocabulary difficulty\n3. Paragraph structure\n4. Suggested improvements\n\nText:\n"
        ++ slot "content"),
      promptStep "suggestions" "Write suggestions" ["analyze"] (sampling 5 300)
        ("Based on the analysis below, give 3-5 concrete improvements.\n\nAnalysis:\n"
          ++ slot "analyze" ++ "\n\nSuggestions:")]

/-- Write a post from its outline. -/
def blogPost : Definition :=
  sequence [requiredText "topic" "Blog topic"]
    [promptStep "outline" "Outline" [] (sampling 5 500)
      ("Write a blog post outline for \"" ++ slot "topic" ++ "\" with an introduction, 3-5 main "
        ++ "sections and a conclusion."),
      promptStep "introduction" "Introduction" ["outline"] (sampling 7 200)
        ("Write an engaging introduction (about 150 words) for this outline:\n\n"
          ++ slot "outline"),
      promptStep "body" "Body" ["outline"] (sampling 6 1000)
        ("Write the body of the post, about 200 words per section, following this outline:\n\n"
          ++ slot "outline"),
      promptStep "conclusion" "Conclusion" ["outline"] (sampling 5 200)
        ("Write a closing conclusion (about 100 words) for this outline:\n\n" ++ slot "outline")]

/-- Show the figures of a text. -/
def textStats : Definition :=
  .tool
    { tool := "text_stats"
      mapping := [("text", .string "$content")]
      processing := some ⟨.markdown, some
        ("**Words:** " ++ slot "words" ++ "  \n**Characters:** " ++ slot "characters"
          ++ "  \n**Lines:** " ++ slot "lines" ++ "  \n**Paragraphs:** " ++ slot "paragraphs")⟩ }

/-- A summary and the keywords of a text. -/
def digest : Definition :=
  .hybrid
    { skills := [⟨"skill-summarize", none, none⟩, ⟨"skill-extract-keywords", none, none⟩]
      orchestration := ⟨.sequential, none⟩
      merge := some ⟨.append, none⟩ }

/-- The automations. -/
def automation : List Skill :=
  [readability.skill "skill-readability-check" "Readability Check"
      "Check readability and suggest improvements" .automation ["automation", "readability"],
    blogPost.skill "skill-blog-post" "Blog Post" "Generate a complete blog post from a topic"
      .automation ["automation", "blog"],
    textStats.skill "skill-text-stats" "Text Statistics"
      "Count words, characters, lines and paragraphs" .automation ["automation", "statistics"],
    digest.skill "skill-digest" "Digest" "Summary followed by keywords" .automation
      ["automation", "summary", "keywords"]]

/-- The skills that come with the engine, grouped by category. -/
def skills : List Skill := writing ++ editing ++ analysis ++ automation

end SkillLibrary

end SkillEngine

import Mathlib.Tactic.TFAE
import SkillEngine.Proofs.Text.Case
import SkillEngine.Registry.Basic
import SkillEngine.Skill.Library
import SkillEngine.Tool.Host

/-!
# Searching for a text that is there

A query that stands in a text letter for letter is found in it when its lower
case stands in the lower case of the text.  For a query whose capital sigmas
are settled within it this is so in every text; for any other query there is a
text that has the query in it and is not found.  The search for skills and the
search for tools fail on the same queries.
-/

namespace SkillEngine

namespace Text

/-- The text has the query in it, letter for letter. -/
def Quotes (text query : String) : Prop := query.toList <:+: text.toList

theorem occursIn_iff {pattern text : List Char} :
    occursIn pattern text = true ↔ pattern <:+: text := by
  induction text with
  | nil => simp [occursIn]
  | cons c rest ih =>
      rw [occursIn, Bool.or_eq_true, List.isPrefixOf_iff_prefix, ih,
        List.infix_cons_iff]

theorem mentions_iff {text query : String} :
    mentions text query = true ↔
      lower query.toList <:+: lower text.toList := occursIn_iff

theorem mentions_of_quotes {text query : String}
    (h : keepsSigmas query.toList = true) (hquotes : Quotes text query) :
    mentions text query = true :=
  mentions_iff.mpr (lower_infix_of_keepsSigmas h hquotes)

theorem keepsSigmas_of_mentions {query : String}
    (h : ∀ text, Quotes text query → mentions text query = true) :
    keepsSigmas query.toList = true := by
  by_contra hkeeps
  obtain ⟨text, hpart, hmissing⟩ :=
    exists_not_infix (Bool.eq_false_iff.mpr hkeeps)
  apply hmissing
  simpa [mentions_iff] using h (String.ofList text) (by simpa [Quotes] using hpart)

end Text

/-- The skill has the query in its name, its description or one of its tags. -/
def Skill.Quotes (skill : Skill) (query : String) : Prop :=
  Text.Quotes skill.name query ∨ Text.Quotes skill.description query ∨
    ∃ tag ∈ skill.tags, Text.Quotes tag query

/-- The tool has the query in its name or its description. -/
def ToolInfo.Quotes (tool : ToolInfo) (query : String) : Prop :=
  Text.Quotes tool.name query ∨ Text.Quotes tool.description query

theorem Skill.matchesQuery_of_quotes {skill : Skill} {query : String}
    (h : ∀ text, Text.Quotes text query → Text.mentions text query = true)
    (hquotes : skill.Quotes query) : skill.matchesQuery query = true := by
  rw [matchesQuery, Bool.or_eq_true, Bool.or_eq_true, List.any_eq_true]
  obtain hname | hdescription | ⟨tag, htag, hquoted⟩ := hquotes
  · exact .inl (.inl (h _ hname))
  · exact .inl (.inr (h _ hdescription))
  · exact .inr ⟨tag, htag, h tag hquoted⟩

theorem Host.mem_search_of_quotes {σ : Type} {host : Host σ} {query : String}
    {tool : ToolInfo}
    (h : ∀ text, Text.Quotes text query → Text.mentions text query = true)
    (htool : tool ∈ host.tools) (hquotes : tool.Quotes query) :
    tool ∈ host.search query := by
  rw [search, List.mem_filter, Bool.or_eq_true]
  exact ⟨htool, hquotes.imp (h _) (h _)⟩

theorem Registry.mem_search_iff {registry : Registry} {skill : Skill}
    {query : String} :
    skill ∈ registry.search query ↔
      skill ∈ registry.list ∧ skill.matchesQuery query = true :=
  List.mem_filter

/-- A skill that speaks of nothing but its name. -/
def Skill.named (name : String) : Skill :=
  (Definition.tool ⟨"text_stats", [], none⟩).skill "named" name name .custom []

@[simp] theorem Skill.quotes_named {name query : String} :
    (Skill.named name).Quotes query ↔ Text.Quotes name query := by
  simp [Skill.Quotes, Skill.named, Definition.skill]

@[simp] theorem Skill.matchesQuery_named (name query : String) :
    (Skill.named name).matchesQuery query = Text.mentions name query := by
  simp [matchesQuery, Skill.named, Definition.skill]

/-- The tool that speaks of nothing but its name. -/
def ToolInfo.named (name : String) : ToolInfo :=
  ⟨name, name, .object [], "plugin"⟩

/-- A host of one plugin with this tool. -/
def Host.offering (name : String) : Host Unit :=
  ⟨[("plugin", ⟨⟨"plugin", "Plugin", "1.0.0", "", none⟩, true,
    [⟨name, name, .object [], fun _ _ _ => ⟨.ok .null, [], ()⟩⟩]⟩)]⟩

theorem Host.tools_offering (name : String) :
    (Host.offering name).tools = [ToolInfo.named name] :=
  List.mergeSort_singleton _

theorem Host.mem_search_offering {name query : String} :
    ToolInfo.named name ∈ (Host.offering name).search query ↔
      Text.mentions name query = true := by
  simp [search, Host.tools_offering, ToolInfo.named]

/-- The queries that find whatever they stand in: skills, as one compares them
with a query and as a registry searches them, and tools. -/
theorem verbatim_query_found_tfae (query : String) : List.TFAE
    [Text.keepsSigmas query.toList = true,
      ∀ text, Text.Quotes text query → Text.mentions text query = true,
      ∀ skill : Skill, skill.Quotes query → skill.matchesQuery query = true,
      ∀ registry : Registry, ∀ skill ∈ registry.list, skill.Quotes query →
        skill ∈ registry.search query,
      ∀ (σ : Type) (host : Host σ), ∀ tool ∈ host.tools, tool.Quotes query →
        tool ∈ host.search query] := by
  tfae_have 1 → 2 := fun h _ => Text.mentions_of_quotes h
  tfae_have 2 → 1 := Text.keepsSigmas_of_mentions
  tfae_have 2 → 3 := fun h _ => Skill.matchesQuery_of_quotes h
  tfae_have 3 → 4 := fun h _ skill hlisted hquotes =>
    Registry.mem_search_iff.mpr ⟨hlisted, h skill hquotes⟩
  tfae_have 4 → 2 := by
    intro h text hquotes
    have hfound := h ⟨[("named", Skill.named text)], none⟩ (Skill.named text)
      List.mem_cons_self (Skill.quotes_named.mpr hquotes)
    simpa using (Registry.mem_search_iff.mp hfound).2
  tfae_have 2 → 5 := fun h _ _ _ => Host.mem_search_of_quotes h
  tfae_have 5 → 2 := by
    intro h text hquotes
    exact Host.mem_search_offering.mp
      (h Unit (Host.offering text) (ToolInfo.named text)
        (by simp [Host.tools_offering]) (.inl hquotes))
  tfae_finish

/-- The end of a word does not look the same at the end of a query: the final
sigma of the query is a small one in the longer word. -/
theorem kosmos_not_found :
    let skill := Skill.named "ΚΟΣΜΟΣ"
    let registry : Registry := ⟨[("named", skill)], none⟩
    let tool := ToolInfo.named "ΚΟΣΜΟΣ"
    let host := Host.offering "ΚΟΣΜΟΣ"
    (skill.Quotes "ΚΟΣ" ∧ skill.matchesQuery "ΚΟΣ" = false) ∧
      (skill ∈ registry.list ∧ skill ∉ registry.search "ΚΟΣ") ∧
        tool ∈ host.tools ∧ tool.Quotes "ΚΟΣ" ∧ tool ∉ host.search "ΚΟΣ" := by
  intro skill registry tool host
  have hquotes : Text.Quotes "ΚΟΣΜΟΣ" "ΚΟΣ" := ⟨[], ['Μ', 'Ο', 'Σ'], rfl⟩
  have hmissed : Text.mentions "ΚΟΣΜΟΣ" "ΚΟΣ" = false := by decide +kernel
  have hskill : skill.matchesQuery "ΚΟΣ" = false := by
    rw [Skill.matchesQuery_named, hmissed]
  refine ⟨⟨.inl hquotes, hskill⟩, ⟨List.mem_cons_self, ?_⟩, ?_, .inl hquotes, ?_⟩
  · simp [Registry.mem_search_iff, hskill]
  · simp [host, tool, Host.tools_offering]
  · simp [host, tool, Host.mem_search_offering, hmissed]

end SkillEngine

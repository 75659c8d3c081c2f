import SkillEngine.Proofs.Tool.Order

/-!
# Listed tools and the tools that are called

A plugin is compared with the plugins that are registered already, never with
itself.  So no two plugins list a tool of one name, but one plugin may: then
the name is listed as often as the plugin declares it, and a call reaches the
first declaration.  The names are unique exactly when every plugin keeps its
own names apart.
-/

namespace SkillEngine

variable {σ : Type}

namespace Plugin

/-- No two tools of the plugin have the same name. -/
def Distinct (plugin : Plugin σ) : Prop := (plugin.tools.map (·.name)).Nodup

instance (plugin : Plugin σ) : Decidable plugin.Distinct :=
  inferInstanceAs (Decidable (List.Nodup _))

theorem names_infos (plugins : List (Plugin σ)) :
    (plugins.flatMap info).map (·.name) =
      plugins.flatMap fun plugin => plugin.tools.map (·.name) := by
  induction plugins with
  | nil => rfl
  | cons plugin plugins ih =>
      rw [List.flatMap_cons, List.flatMap_cons, List.map_append, ih, info,
        List.map_map]
      rfl

theorem Apart.disjoint {first second : Plugin σ} (h : first.Apart second) :
    (first.tools.map (·.name)).Disjoint (second.tools.map (·.name)) := by
  intro tool hfirst hsecond
  have hprovides : second.provides tool = true :=
    provides_iff.mpr (List.mem_map.mp hsecond)
  rw [h tool (provides_iff.mpr (List.mem_map.mp hfirst))] at hprovides
  cases hprovides

/-- What is told about one tool of the plugin. -/
def describe (plugin : Plugin σ) (tool : Tool σ) : ToolInfo :=
  ⟨tool.name, tool.description, tool.schema, plugin.manifest.id⟩

theorem infoOf_eq (plugin : Plugin σ) (name : String) :
    plugin.infoOf name =
      (plugin.tools.filter (·.name == name)).map plugin.describe := by
  rw [infoOf, info, List.filter_map]
  rfl

end Plugin

namespace Host

theorem Exclusive.nodup_names_iff {host : Host σ} (h : host.Exclusive) :
    (host.tools.map (·.name)).Nodup ↔
      ∀ plugin ∈ host.plugins.values, plugin.Distinct := by
  have hperm : (host.tools.map (·.name)).Perm
      (host.plugins.values.flatMap fun plugin =>
        plugin.tools.map (·.name)) := by
    rw [← Plugin.names_infos]
    exact (List.mergeSort_perm _ _).map _
  rw [hperm.nodup_iff, List.nodup_flatMap]
  refine ⟨And.left, fun hdistinct => ⟨hdistinct, ?_⟩⟩
  exact h.pairwise_apart.imp fun hapart => hapart.disjoint

/-- A listed tool is declared by a registered plugin. -/
theorem exists_of_mem_tools {host : Host σ} {info : ToolInfo}
    (h : info ∈ host.tools) :
    ∃ plugin ∈ host.plugins.values, ∃ tool ∈ plugin.tools,
      plugin.describe tool = info := by
  rw [tools, List.mem_mergeSort, List.mem_flatMap] at h
  obtain ⟨plugin, hplugin, hinfo⟩ := h
  obtain ⟨tool, htool, hinfo⟩ := List.mem_map.mp hinfo
  exact ⟨plugin, hplugin, tool, htool, hinfo⟩

/-- What a name stands for in a host: the plugin that owns it, the tool that
is called by it, and the tools that are listed under it but never called. -/
structure Calls (host : Host σ) (name : String) (owner : Plugin σ)
    (called : Tool σ) (hidden : List (Tool σ)) : Prop where
  registered : owner ∈ host.plugins.values
  declared : owner.tools.filter (·.name == name) = called :: hidden
  listed : host.tools.filter (·.name = name) =
    (called :: hidden).map owner.describe
  lookup : host.lookup name =
    if owner.enabled then .ok called
    else .error (.pluginNotEnabled owner.manifest.id)

theorem Exclusive.calls {host : Host σ} (h : host.Exclusive)
    {owner : Plugin σ} (howner : owner ∈ host.plugins.values)
    {name : String} (hprovides : owner.provides name = true) :
    ∃ called hidden, host.Calls name owner called hidden := by
  have howns : host.owner? name = some owner :=
    h.owner?_eq_some_iff.mpr ⟨howner, hprovides⟩
  cases hdeclared : owner.tools.filter (·.name == name) with
  | nil =>
      obtain ⟨tool, htool, hname⟩ := Plugin.provides_iff.mp hprovides
      have hnot := List.filter_eq_nil_iff.mp hdeclared tool htool
      simp [hname] at hnot
  | cons called hidden =>
      have hfirst : owner.tools.find? (·.name == name) = some called := by
        rw [← List.head?_filter, hdeclared]
        rfl
      refine ⟨called, hidden, howner, hdeclared, ?_, ?_⟩
      · rw [h.filter_tools, howns, ← hdeclared]
        exact owner.infoOf_eq name
      · rw [lookup, howns]
        simp only [hfirst]

/-- In every host that is reached the tools are listed under different names
exactly when every plugin keeps its own names apart.  Whatever is listed
under a name comes from the one plugin that owns it, and a call by that name
reaches the first of them. -/
theorem Reached.tools_nodup_iff {host : Host σ} (h : host.Reached) :
    ((host.tools.map (·.name)).Nodup ↔
      ∀ plugin ∈ host.plugins.values, plugin.Distinct) ∧
    ∀ info ∈ host.tools, ∃ owner called hidden,
      owner.manifest.id = info.plugin ∧
        host.Calls info.name owner called hidden := by
  refine ⟨h.exclusive.nodup_names_iff, fun info hinfo => ?_⟩
  obtain ⟨owner, howner, tool, htool, rfl⟩ := exists_of_mem_tools hinfo
  have hprovides : owner.provides tool.name = true :=
    Plugin.provides_iff.mpr ⟨tool, htool, rfl⟩
  obtain ⟨called, hidden, hcalls⟩ := h.exclusive.calls howner hprovides
  exact ⟨owner, called, hidden, rfl, hcalls⟩

/-- The names of the built-in tools are unique. -/
theorem builtin_tools_nodup_iff :
    let host : Host Unit := .builtin ⟨"linux", "x86_64", "unix", 4, "release"⟩
    host.Reached ∧ (host.tools.map (·.name)).Nodup ∧
      ((host.tools.map (·.name)).Nodup ↔
        ∀ plugin ∈ host.plugins.values, plugin.Distinct) ∧
      ∀ info ∈ host.tools, ∃ owner called hidden,
        owner.manifest.id = info.plugin ∧
          host.Calls info.name owner called hidden := by
  intro host
  have hreached : host.Reached := reached_builtin _
  have hiff := hreached.tools_nodup_iff
  refine ⟨hreached, hiff.1.mpr ?_, hiff⟩
  decide

/-! ## A plugin with two tools of one name -/

/-- A tool that gives its parameters back. -/
def echo (description : String) : Tool Unit :=
  ⟨"echo", description, .object [],
    fun parameters _ world => ⟨.ok (.object parameters), [], world⟩⟩

/-- A plugin that declares one name twice. -/
def twins : Plugin Unit :=
  ⟨⟨"twins", "twins", "1.0.0", "test plugin", none⟩, true,
    [echo "the first", echo "the second"]⟩

/-- The plugin with two tools of one name is registered, both are listed, and
only the first can be called. -/
theorem twins_registered : ∃ host : Host Unit,
    (empty : Host Unit).register twins = .ok host ∧ host.Reached ∧
      host.tools.map (·.name) = ["echo", "echo"] ∧
      ¬(host.tools.map (·.name)).Nodup ∧
      host.tools.map (·.description) = ["the first", "the second"] ∧
      host.lookup "echo" = .ok (echo "the first") := by
  refine ⟨⟨[("twins", twins)]⟩, rfl, ?_, ?_⟩
  · exact Reached.empty.performed (show empty.perform (.register twins) = _ from rfl)
  · have htools : (⟨[("twins", twins)]⟩ : Host Unit).tools = twins.info :=
      List.mergeSort_of_pairwise (by decide)
    rw [htools]
    exact ⟨rfl, by decide, rfl, rfl⟩

end Host

end SkillEngine

import SkillEngine.Proofs.Sorting
import SkillEngine.Proofs.Tool.Ownership

/-!
# The order of the plugins does not show

Finding the owner of a tool and looking for conflicts take the first plugin
that fits, and what is listed is sorted by names alone.  Both would depend on
the order in which the plugins happen to stand, were it not for ownership:
with at most one owner the first plugin that fits is the only one, and the
tools of one name all come from one plugin, which lists them in its own order.
-/

namespace SkillEngine

variable {σ : Type}

namespace Plugin

/-- What is told about the tools of one name. -/
def infoOf (plugin : Plugin σ) (tool : String) : List ToolInfo :=
  plugin.info.filter (·.name = tool)

theorem infoOf_eq_nil {plugin : Plugin σ} {tool : String}
    (h : plugin.provides tool = false) : plugin.infoOf tool = [] := by
  refine List.filter_eq_nil_iff.mpr fun info hinfo hname => ?_
  obtain ⟨held, hheld, rfl⟩ := List.mem_map.mp hinfo
  have hprovides : plugin.provides tool = true :=
    provides_iff.mpr ⟨held, hheld, by simpa using hname⟩
  rw [h] at hprovides
  cases hprovides

/-- Among plugins that share no tool names, all tools of one name come from
the first plugin that has one. -/
theorem filter_infos {plugins : List (Plugin σ)}
    (h : plugins.Pairwise Apart) (tool : String) :
    (plugins.flatMap info).filter (·.name = tool) =
      ((plugins.find? (·.provides tool)).map (·.infoOf tool)).getD [] := by
  induction plugins with
  | nil => rfl
  | cons plugin plugins ih =>
      obtain ⟨hapart, hrest⟩ := List.pairwise_cons.mp h
      rw [List.flatMap_cons, List.filter_append, ih hrest, ← infoOf,
        List.find?_cons]
      cases hprovides : plugin.provides tool with
      | true =>
          have hnone : plugins.find? (·.provides tool) = none :=
            List.find?_eq_none.mpr fun other hother => by
              simp [hapart other hother tool hprovides]
          simp [hnone]
      | false => simp [infoOf_eq_nil hprovides]

end Plugin

namespace Host

/-! ## What is listed -/

theorem Exclusive.pairwise_apart {host : Host σ} (h : host.Exclusive) :
    host.plugins.values.Pairwise Plugin.Apart :=
  List.pairwise_map.mpr h.apart

/-- The tools of one name are those of its owner, in the order in which the
owner declares them. -/
theorem Exclusive.filter_tools {host : Host σ} (h : host.Exclusive)
    (tool : String) :
    host.tools.filter (·.name = tool) =
      ((host.owner? tool).map (·.infoOf tool)).getD [] := by
  have hsorted : host.tools.filter (·.name = tool) =
      (host.plugins.values.flatMap Plugin.info).filter (·.name = tool) :=
    Sorting.filter_sorted _ tool
  rw [hsorted, Plugin.filter_infos h.pairwise_apart]
  rfl

theorem Exclusive.tools_reordered {host other : Host σ} (h : host.Exclusive)
    (horder : host.Reordered other) : other.tools = host.tools := by
  refine Sorting.sorted_eq_of_filter_eq fun tool => ?_
  rw [Plugin.filter_infos h.pairwise_apart,
    Plugin.filter_infos (h.reordered horder).pairwise_apart, ← owner?,
    ← owner?, h.owner?_reordered horder]

theorem Exclusive.ids {host : Host σ} (h : host.Exclusive) :
    host.plugins.values.map (·.manifest.id) = host.plugins.names := by
  rw [Dict.values, List.map_map]
  exact List.map_congr_left fun entry hentry => (h.keyed entry hentry).symm

theorem Exclusive.list_reordered {host other : Host σ} (h : host.Exclusive)
    (horder : host.Reordered other) : other.list = host.list := by
  refine Sorting.sorted_eq_of_perm ((horder.map Prod.snd).map _) ?_
  have hids := (h.reordered horder).ids
  rw [List.map_map]
  exact hids ▸ (h.reordered horder).distinct

/-! ## What is called and changed -/

theorem Exclusive.lookup_reordered {host other : Host σ} (h : host.Exclusive)
    (horder : host.Reordered other) (tool : String) :
    other.lookup tool = host.lookup tool := by
  rw [lookup, h.owner?_reordered horder, ← lookup]

theorem Exclusive.registry_reordered {host other : Host σ} (h : host.Exclusive)
    (horder : host.Reordered other) : other.registry = host.registry := by
  simp only [registry, h.lookup_reordered horder]

theorem Exclusive.toolConflict?_reordered {host other : Host σ}
    (h : host.Exclusive) (horder : host.Reordered other)
    (plugin : Plugin σ) :
    other.toolConflict? plugin = host.toolConflict? plugin := by
  simp only [toolConflict?, h.owner?_reordered horder]

/-- Two operations that are refused with the same failure, or done with the
same plugins. -/
inductive Alike : Except Failure (Host σ) → Except Failure (Host σ) → Prop where
  | refused (failure : Failure) : Alike (.error failure) (.error failure)
  | done {host other : Host σ} (horder : host.Reordered other) :
      Alike (.ok host) (.ok other)

theorem Exclusive.perform_alike {host other : Host σ} (h : host.Exclusive)
    (horder : host.Reordered other) (operation : Operation σ) :
    Alike (host.perform operation) (other.perform operation) := by
  have hhas := Dict.has_of_perm horder
  cases operation with
  | register plugin =>
      rw [Host.perform, Host.perform, register, register, hhas,
        h.toolConflict?_reordered horder]
      split
      · exact .refused _
      next hfree =>
        split
        · exact .refused _
        next =>
          have hfree := Bool.eq_false_of_not_eq_true hfree
          have hinsert := Dict.insert_perm hfree plugin
          have hinsert' := Dict.insert_perm ((hhas _).trans hfree) plugin
          exact .done (hinsert'.trans ((horder.cons _).trans hinsert.symm))
  | unregister id =>
      rw [Host.perform, Host.perform, unregister, unregister, hhas]
      split
      · exact .done (horder.filter _)
      · exact .refused _
  | setEnabled id enabled =>
      rw [Host.perform, Host.perform, setEnabled, setEnabled, hhas]
      split
      · exact .done (horder.map _)
      · exact .refused _

/-! ## Nothing depends on the order -/

/-- Two hosts that cannot be told apart: they call the same tools, list the
same, and refuse or do the same operations. -/
structure AnswersAlike (host other : Host σ) : Prop where
  lookup : ∀ tool, other.lookup tool = host.lookup tool
  invoke : ∀ tool parameters context world,
    other.invoke tool parameters context world =
      host.invoke tool parameters context world
  tools : other.tools = host.tools
  search : ∀ query, other.search query = host.search query
  list : other.list = host.list
  isEnabled : ∀ id, other.isEnabled id = host.isEnabled id
  perform : ∀ operation,
    Alike (host.perform operation) (other.perform operation)

/-- In every host that is reached no two plugins share a tool name, and the
order in which its plugins happen to stand shows in nothing that it answers.
-/
theorem Reached.answers_alike {host other : Host σ} (hreached : host.Reached)
    (horder : host.Reordered other) :
    host.Exclusive ∧ host.AnswersAlike other := by
  have h := hreached.exclusive
  refine ⟨h, ?_⟩
  have hlookup := h.lookup_reordered horder
  have htools := h.tools_reordered horder
  constructor
  case lookup => exact hlookup
  case invoke =>
    intro tool parameters context world
    simp only [Host.invoke, h.registry_reordered horder]
  case tools => exact htools
  case search =>
    intro query
    rw [Host.search, htools, ← Host.search]
  case list => exact h.list_reordered horder
  case isEnabled =>
    intro id
    rw [Host.isEnabled, Dict.find?_of_perm horder h.distinct, ← Host.isEnabled]
  case perform => exact h.perform_alike horder

/-- The built-in plugins answer the same in either order. -/
theorem builtin_answers_alike :
    let host : Host Unit := .builtin ⟨"linux", "x86_64", "unix", 4, "release"⟩
    let other : Host Unit := ⟨host.plugins.reverse⟩
    host.Reached ∧ host.Reordered other ∧
      other.plugins.names = ["builtin-text", "builtin-system"] ∧
      host.plugins.names = ["builtin-system", "builtin-text"] ∧
      host.Exclusive ∧ host.AnswersAlike other := by
  intro host other
  have hreached : host.Reached := reached_builtin _
  have horder : host.Reordered other := List.reverse_perm _
  have hnames : host.plugins.names = ["builtin-system", "builtin-text"] := by
    decide
  refine ⟨hreached, horder, ?_, hnames, hreached.answers_alike horder⟩
  decide

end Host

end SkillEngine

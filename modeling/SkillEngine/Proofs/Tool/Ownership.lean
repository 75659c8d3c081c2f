import Mathlib.Data.List.Pairwise
import SkillEngine.Proofs.Dict
import SkillEngine.Tool.Builtin

/-!
# Who owns a tool

The operations that change a host, under one type, and the hosts that they
lead to from the empty one.  The plugins are a table without an order, so a
host may list them in another order at any moment; nothing that is said here
may depend on it.  In every such host a plugin is kept under its own id, and
no two plugins have a tool of the same name: a tool name has at most one owner.
-/

namespace SkillEngine

variable {σ : Type}

namespace Plugin

/-- Two plugins have no tool name in common. -/
def Apart (first second : Plugin σ) : Prop :=
  ∀ tool, first.provides tool = true → second.provides tool = false

theorem Apart.symm {first second : Plugin σ} (h : first.Apart second) :
    second.Apart first := by
  intro tool hsecond
  by_contra hfirst
  rw [h tool (Bool.eq_true_of_not_eq_false hfirst)] at hsecond
  cases hsecond

theorem provides_iff {plugin : Plugin σ} {tool : String} :
    plugin.provides tool = true ↔ ∃ held ∈ plugin.tools, held.name = tool := by
  simp [provides]

end Plugin

namespace Host

/-- An operation that changes the plugins of a host. -/
inductive Operation (σ : Type) where
  | register (plugin : Plugin σ)
  | unregister (id : String)
  | setEnabled (id : String) (enabled : Bool)

/-- Do what an operation says. -/
def perform (host : Host σ) : Operation σ → Except Failure (Host σ)
  | .register plugin => host.register plugin
  | .unregister id => host.unregister id
  | .setEnabled id enabled => host.setEnabled id enabled

/-- The same plugins, listed in another order. -/
def Reordered (host other : Host σ) : Prop := other.plugins.Perm host.plugins

theorem Reordered.symm {host other : Host σ} (h : host.Reordered other) :
    other.Reordered host :=
  List.Perm.symm h

/-- The hosts that operations lead to from the empty one, whatever the order
is in which the plugins are listed between them. -/
inductive Reached : Host σ → Prop where
  | empty : Reached empty
  | performed {host next : Host σ} {operation : Operation σ}
      (hreached : Reached host) (hok : host.perform operation = .ok next) :
      Reached next
  | reordered {host other : Host σ}
      (hreached : Reached host) (horder : host.Reordered other) :
      Reached other

/-! ## The built-in plugins -/

theorem Reached.registerAll {host : Host σ} (h : host.Reached)
    (plugins : List (Plugin σ)) : (host.registerAll plugins).Reached := by
  induction plugins generalizing host with
  | nil => exact h
  | cons plugin plugins ih =>
      rw [Host.registerAll, List.foldl_cons]
      cases hregister : host.register plugin with
      | error failure => exact ih h
      | ok next =>
          have hok : host.perform (.register plugin) = .ok next := hregister
          exact ih (h.performed hok)

theorem reached_builtin (facts : HostFacts) :
    (Host.builtin facts : Host σ).Reached :=
  Reached.empty.registerAll _

/-! ## What an operation does -/

/-- All that an operation can do, with the conditions under which it does. -/
theorem perform_cases {host next : Host σ} {operation : Operation σ}
    (h : host.perform operation = .ok next) :
    (∃ plugin, operation = .register plugin ∧
      host.plugins.has plugin.manifest.id = false ∧
      host.toolConflict? plugin = none ∧
      next = ⟨host.plugins.insert plugin.manifest.id plugin⟩) ∨
    (∃ id, operation = .unregister id ∧ host.plugins.has id = true ∧
      next = ⟨host.plugins.erase id⟩) ∨
    (∃ id enabled, operation = .setEnabled id enabled ∧
      host.plugins.has id = true ∧
      next = ⟨host.plugins.modify id fun plugin =>
        { plugin with enabled := enabled }⟩) := by
  cases operation with
  | register plugin =>
      simp only [perform, register] at h
      split at h
      · cases h
      next hfree =>
        split at h
        · cases h
        next hconflict =>
          exact .inl ⟨plugin, rfl, Bool.eq_false_of_not_eq_true hfree,
            hconflict, (Except.ok.inj h).symm⟩
  | unregister id =>
      simp only [perform, unregister] at h
      split at h
      next hheld => exact .inr (.inl ⟨id, rfl, hheld, (Except.ok.inj h).symm⟩)
      · cases h
  | setEnabled id enabled =>
      simp only [perform, setEnabled] at h
      split at h
      next hheld =>
        exact .inr (.inr ⟨id, enabled, rfl, hheld, (Except.ok.inj h).symm⟩)
      · cases h

/-! ## Exclusive tools -/

/-- Every plugin is kept under its own id, and no two of them have a tool of
the same name. -/
structure Exclusive (host : Host σ) : Prop where
  distinct : host.plugins.names.Nodup
  keyed : ∀ entry ∈ host.plugins, entry.1 = entry.2.manifest.id
  apart : host.plugins.Pairwise fun first second => first.2.Apart second.2

theorem exclusive_empty : (empty : Host σ).Exclusive :=
  ⟨List.nodup_nil, by simp [empty], List.Pairwise.nil⟩

theorem Exclusive.reordered {host other : Host σ} (h : host.Exclusive)
    (horder : host.Reordered other) : other.Exclusive where
  distinct := (horder.map Prod.fst).nodup_iff.mpr h.distinct
  keyed entry hentry := h.keyed entry (horder.mem_iff.mp hentry)
  apart := horder.symm.pairwise h.apart fun hapart => hapart.symm

theorem Exclusive.erase {host : Host σ} (h : host.Exclusive) (id : String) :
    Exclusive ⟨host.plugins.erase id⟩ where
  distinct := h.distinct.sublist (List.filter_sublist.map Prod.fst)
  keyed entry hentry := h.keyed entry (List.mem_of_mem_filter hentry)
  apart := h.apart.sublist List.filter_sublist

theorem Exclusive.switch {host : Host σ} (h : host.Exclusive) (id : String)
    (enabled : Bool) :
    Exclusive ⟨host.plugins.modify id fun plugin =>
      { plugin with enabled := enabled }⟩ where
  distinct := by simpa using h.distinct
  keyed entry hentry := by
    obtain ⟨held, hheld, rfl⟩ := List.mem_map.mp hentry
    by_cases hid : held.1 = id
    · simpa [hid] using h.keyed held hheld
    · simpa [hid] using h.keyed held hheld
  apart := by
    refine List.pairwise_map.mpr (h.apart.imp ?_)
    intro first second hapart tool
    by_cases hfirst : first.1 = id <;> by_cases hsecond : second.1 = id <;>
      simpa [hfirst, hsecond, Plugin.provides] using hapart tool

/-- No tool of a plugin without conflicts is provided by another plugin. -/
theorem provides_of_toolConflict? {host : Host σ} {plugin : Plugin σ}
    (h : host.toolConflict? plugin = none) {other : Plugin σ}
    (hother : other ∈ host.plugins.values) : plugin.Apart other := by
  intro tool hprovides
  obtain ⟨held, hheld, rfl⟩ := Plugin.provides_iff.mp hprovides
  have hnone := List.findSome?_eq_none_iff.mp h held hheld
  rw [Option.map_eq_none_iff] at hnone
  exact Bool.eq_false_of_not_eq_true
    (List.find?_eq_none.mp hnone other hother)

theorem Exclusive.insert {host : Host σ} (h : host.Exclusive)
    {plugin : Plugin σ} (hfree : host.plugins.has plugin.manifest.id = false)
    (hconflict : host.toolConflict? plugin = none) :
    Exclusive ⟨host.plugins.insert plugin.manifest.id plugin⟩ := by
  have hcons : Exclusive ⟨(plugin.manifest.id, plugin) :: host.plugins⟩ := by
    refine ⟨List.nodup_cons.mpr ⟨?_, h.distinct⟩, ?_,
      List.pairwise_cons.mpr ⟨?_, h.apart⟩⟩
    · intro hmem
      rw [Dict.has_iff_mem_names.mpr hmem] at hfree
      cases hfree
    · intro entry hentry
      rcases List.mem_cons.mp hentry with rfl | hentry
      · rfl
      · exact h.keyed entry hentry
    · intro entry hentry
      exact provides_of_toolConflict? hconflict
        (List.mem_map_of_mem hentry)
  exact hcons.reordered (Dict.insert_perm hfree plugin)

theorem Exclusive.perform {host next : Host σ} {operation : Operation σ}
    (h : host.Exclusive) (hok : host.perform operation = .ok next) :
    next.Exclusive := by
  obtain ⟨plugin, -, hfree, hconflict, rfl⟩ | ⟨id, -, -, rfl⟩ |
    ⟨id, enabled, -, -, rfl⟩ := perform_cases hok
  · exact h.insert hfree hconflict
  · exact h.erase id
  · exact h.switch id enabled

/-- Whatever is registered, taken away and switched, every plugin keeps its
tools for itself. -/
theorem Reached.exclusive {host : Host σ} (h : host.Reached) :
    host.Exclusive := by
  induction h with
  | empty => exact exclusive_empty
  | performed _ hok ih => exact ih.perform hok
  | reordered _ horder ih => exact ih.reordered horder

/-! ## The owner of a tool -/

theorem mem_values_iff {host : Host σ} {plugin : Plugin σ} :
    plugin ∈ host.plugins.values ↔ ∃ id, (id, plugin) ∈ host.plugins := by
  simp [Dict.values]

/-- Plugins that share a tool name are one plugin. -/
theorem Exclusive.eq_of_provides {host : Host σ} (h : host.Exclusive)
    {first second : Plugin σ} (hfirst : first ∈ host.plugins.values)
    (hsecond : second ∈ host.plugins.values) {tool : String}
    (hone : first.provides tool = true) (hother : second.provides tool = true) :
    first = second := by
  obtain ⟨id, hfirst⟩ := mem_values_iff.mp hfirst
  obtain ⟨other, hsecond⟩ := mem_values_iff.mp hsecond
  by_contra hne
  have hentries : (id, first) ≠ (other, second) := fun heq =>
    hne (congrArg Prod.snd heq)
  have hsymm : Std.Symm fun one two : String × Plugin σ => one.2.Apart two.2 :=
    ⟨fun _ _ hapart => hapart.symm⟩
  rw [h.apart.forall hfirst hsecond hentries tool hone] at hother
  cases hother

theorem provides_of_owner? {host : Host σ} {tool : String} {owner : Plugin σ}
    (h : host.owner? tool = some owner) : owner.provides tool = true :=
  List.find?_some (p := fun plugin : Plugin σ => plugin.provides tool) h

/-- The owner of a tool is the plugin that provides it, wherever it stands. -/
theorem Exclusive.owner?_eq_some_iff {host : Host σ} (h : host.Exclusive)
    {tool : String} {plugin : Plugin σ} :
    host.owner? tool = some plugin ↔
      plugin ∈ host.plugins.values ∧ plugin.provides tool = true := by
  constructor
  · exact fun howner => ⟨List.mem_of_find?_eq_some howner, provides_of_owner? howner⟩
  · rintro ⟨hmem, hprovides⟩
    cases howner : host.owner? tool with
    | none =>
        exact absurd hprovides (List.find?_eq_none.mp howner plugin hmem)
    | some owner =>
        rw [h.eq_of_provides (List.mem_of_find?_eq_some howner) hmem
          (provides_of_owner? howner) hprovides]

theorem Exclusive.owner?_reordered {host other : Host σ} (h : host.Exclusive)
    (horder : host.Reordered other) (tool : String) :
    other.owner? tool = host.owner? tool := by
  ext plugin
  have hvalues : other.plugins.values.Perm host.plugins.values :=
    horder.map Prod.snd
  rw [h.owner?_eq_some_iff, (h.reordered horder).owner?_eq_some_iff,
    hvalues.mem_iff]

end Host

end SkillEngine

import SkillEngine.Proofs.Execution.Nesting
import SkillEngine.Proofs.Skill.Parameters
import SkillEngine.Proofs.Workflow.Stage

/-!
# What guards the backends

Before a skill does anything it passes a row of checks, and the same row
stands in front of every skill that it calls.  This module follows each call
of a generator or a tool back to the skill on whose behalf it is made, and
shows that this skill passed them all.

The calls are told apart by their places in the list of events, since the same
call may be made more than once: a place in the list is split into what the
run reported before a nested call and what that call reported itself.
-/

namespace SkillEngine

variable {σ : Type} {backends : Backends σ} {skills : Dict Skill}

/-! ## Places in a list of events -/

/-- A place in two lists one after another is in the first or the second. -/
theorem split_append {early late left right : List Event} {event : Event}
    (h : early ++ late = left ++ event :: right) :
    (∃ more, early = left ++ event :: more) ∨
      ∃ own, left = early ++ own ∧ late = own ++ event :: right := by
  rcases List.append_eq_append_iff.mp h with
    ⟨own, hleft, hlate⟩ | ⟨more, hearly, hright⟩
  · exact .inr ⟨own, hleft, hlate⟩
  · cases more with
    | nil => exact .inr ⟨[], by simpa using hearly.symm, by simpa using hright.symm⟩
    | cons first more =>
        obtain ⟨rfl, -⟩ := List.cons.inj hright
        exact .inl ⟨more, hearly⟩

/-- The first event is none of the calls, so the place is behind it. -/
theorem split_cons {first event : Event} {events left right : List Event}
    (h : first :: events = left ++ event :: right) (hfirst : ¬first.IsCall)
    (hcall : event.IsCall) :
    ∃ own, left = first :: own ∧ events = own ++ event :: right := by
  cases left with
  | nil =>
      obtain ⟨rfl, -⟩ := List.cons.inj h
      exact absurd hcall hfirst
  | cons head own =>
      obtain ⟨rfl, htail⟩ := List.cons.inj h
      exact ⟨own, rfl, htail⟩

theorem Hybrid.not_call_of_modeEvents {hybrid : Hybrid} {event : Event}
    (h : event ∈ hybrid.modeEvents) : ¬event.IsCall := by
  unfold modeEvents at h
  split at h
  · obtain rfl := List.mem_singleton.mp h
    exact id
  · simp at h

namespace Call

/-! ## The checks -/

/-- The row of checks in front of a skill, for a call that lies so deep in the
run. -/
structure Admitted (skills : Dict Skill) (depth : Nat) (call : Call σ)
    (skill : Skill) : Prop where
  present : skills.find? call.id = some skill
  enabled : skill.enabled = true
  valid : skill.validate = []
  shallow : depth ≤ maxDepth
  given : RequiredGiven skill.parameters call.context.input

theorem admitted_iff {depth : Nat} {call : Call σ} {skill : Skill}
    (hlevels : call.levels + depth = maxDepth + 1) :
    call.Admitted skills depth skill ↔
      skills.find? call.id = some skill ∧
        skill.refusal? call.levels call.id = none ∧
          (applyParameters skill.parameters call.context.input).1 = .ok () := by
  have hshallow : depth ≤ maxDepth ↔ call.levels ≠ 0 := by omega
  rw [Skill.refusal?_eq_none]
  constructor
  · intro h
    have hnodup := Skill.nodup_parameters h.valid
    exact ⟨h.present, ⟨h.enabled, hshallow.mp h.shallow, h.valid⟩,
      (applyParameters_eq_ok_iff hnodup).mpr h.given⟩
  · rintro ⟨hpresent, ⟨henabled, hpos, hvalid⟩, hgiven⟩
    have hnodup := Skill.nodup_parameters hvalid
    exact ⟨hpresent, henabled, hvalid, hshallow.mpr hpos,
      (applyParameters_eq_ok_iff hnodup).mp hgiven⟩

/-- A call that does not pass all checks fails and does nothing. -/
theorem run_of_not_admitted (backends : Backends σ) {depth : Nat}
    {call : Call σ} (hlevels : call.levels + depth = maxDepth + 1)
    (h : ∀ skill, ¬call.Admitted skills depth skill) :
    call.Fails backends skills ∧ (call.run backends skills).events = [] ∧
      (call.run backends skills).world = call.world := by
  rcases executeWithin_cases backends skills call.levels call.id call.context
    call.world with ⟨failure, -, hran⟩ | ⟨skill, left, hfind, hleft, haccepted, hran⟩
  · rw [Fails, run, hran]
    exact ⟨rfl, rfl, rfl⟩
  · rcases Skill.run_cases backends (executeWithin backends skills left) skill
      call.context call.world with ⟨failure, -, hrun⟩ | ⟨hgiven, -⟩
    · rw [Fails, run, hran, hrun]
      exact ⟨rfl, rfl, rfl⟩
    · rw [← hleft] at haccepted
      exact absurd ((admitted_iff hlevels).mpr ⟨hfind, haccepted, hgiven⟩)
        (h skill)

/-! ## From an event to the skill behind it -/

/-- The event is reported by the call on behalf of its own skill, behind the
events of the first list. -/
def Reports (backends : Backends σ) (skills : Dict Skill) (call : Call σ)
    (skill : Skill) (own : List Event) (event : Event) : Prop :=
  (∀ hybrid, skill.definition ≠ .hybrid hybrid) ∧
    ∃ more, (call.run backends skills).events = own ++ event :: more

/-- A call of a backend among those of the entries belongs to one of them. -/
theorem exists_entered_of_event {levels total position : Nat}
    {entries : List SubSkill} {context : Context} {world : σ}
    {left right : List Event} {event : Event}
    (h : (Hybrid.runEntries (executeWithin backends skills levels) total
      position entries context world).events = left ++ event :: right)
    (hcall : event.IsCall) :
    ∃ before call own more,
      Entered backends skills levels total position entries context world
        before call ∧
      left = before ++ own ∧
        (call.run backends skills).events = own ++ event :: more := by
  induction entries generalizing position context world left with
  | nil => simp [Hybrid.runEntries_nil] at h
  | cons entry entries ih =>
      have hprogress : ¬(Event.progressed position total entry.skill).IsCall :=
        not_false
      cases hsuccess : (executeWithin backends skills levels entry.skill
          (context.childFor entry) world).value.1.success with
      | false =>
          rw [Hybrid.runEntries_of_failure hsuccess] at h
          obtain ⟨own, rfl, hown⟩ := split_cons h hprogress hcall
          exact ⟨_, _, own, right, .first, rfl, hown⟩
      | true =>
          rw [Hybrid.runEntries_of_success hsuccess] at h
          obtain ⟨rest, rfl, hrest⟩ := split_cons h hprogress hcall
          rcases split_append hrest with ⟨more, hown⟩ | ⟨later, rfl, hlater⟩
          · exact ⟨_, _, rest, more, .first, rfl, hown⟩
          · obtain ⟨before, call, own, more, hentered, rfl, hown⟩ := ih hlater
            refine ⟨_, call, own, more, .later _ rfl hsuccess hentered, ?_, hown⟩
            simp

/-- Every call of a backend in a run is made on behalf of a skill that the
checks let through. -/
theorem exists_nested_of_event (call : Call σ) {left right : List Event}
    {event : Event}
    (h : (call.run backends skills).events = left ++ event :: right)
    (hcall : event.IsCall) :
    ∃ depth before inner skill own,
      Nested backends skills depth call before inner ∧
      (skills.find? inner.id = some skill ∧
        skill.refusal? inner.levels inner.id = none ∧
        (applyParameters skill.parameters inner.context.input).1 = .ok ()) ∧
      left = before ++ own ∧ inner.Reports backends skills skill own event := by
  obtain ⟨levels, id, context, world⟩ := call
  induction levels using Nat.strong_induction_on generalizing id context world
    left right with
  | _ levels ih =>
    rcases executeWithin_cases backends skills levels id context world with
      ⟨failure, -, hran⟩ | ⟨skill, levels, hfind, rfl, haccepted, hran⟩
    · rw [run, hran] at h
      simp at h
    rcases Skill.run_cases backends (executeWithin backends skills levels) skill
      context world with ⟨failure, -, hrun⟩ | ⟨hgiven, -⟩
    · rw [run, hran, hrun] at h
      simp at h
    by_cases hhybrid : ∃ hybrid, skill.definition = .hybrid hybrid
    · obtain ⟨hybrid, hdefinition⟩ := hhybrid
      rw [run_of_hybrid backends hfind haccepted hdefinition] at h
      rcases split_append h with ⟨more, hmode⟩ | ⟨rest, rfl, hrest⟩
      · have hmem : event ∈ hybrid.modeEvents := by simp [hmode]
        exact absurd hcall (Hybrid.not_call_of_modeEvents hmem)
      obtain ⟨before, child, later, more, hentered, rfl, hchild⟩ :=
        exists_entered_of_event hrest hcall
      have hlevels : child.levels = levels := hentered.levels_eq
      obtain ⟨depth, between, inner, found, own, hnested, hchecks, rfl,
        hreports⟩ := ih child.levels (by omega) child.id child.context
          child.world hchild
      refine ⟨depth + 1, hybrid.modeEvents ++ before ++ between, inner, found,
        own, ?_, hchecks, ?_, hreports⟩
      · exact .entry hfind haccepted hdefinition hentered hnested
      · simp
    · refine ⟨0, [], _, skill, left, .here _, ⟨hfind, haccepted, hgiven⟩, rfl,
        ?_, right, h⟩
      intro hybrid hdefinition
      exact hhybrid ⟨hybrid, hdefinition⟩

end Call

/-! ## The guard of an execution -/

/-- What an execution owes to the checks. -/
structure Guarded (backends : Backends σ) (skills : Dict Skill) (id : String)
    (context : Context) (world : σ) : Prop where
  /-- Wherever a call of a generator or a tool stands among the events, a skill
  that passed all checks reports it. -/
  called : ∀ left event right,
    (execute backends skills id context world).events =
      left ++ event :: right →
    event.IsCall →
    ∃ depth before inner skill own,
      Call.Nested backends skills depth (.outermost id context world) before
        inner ∧
      inner.Admitted skills depth skill ∧
      left = before ++ own ∧ inner.Reports backends skills skill own event
  /-- When the skill does not pass all checks, nothing is done at all. -/
  barred :
    (∀ skill, ¬(Call.outermost id context world).Admitted skills 0 skill) →
      (execute backends skills id context world).events = [] ∧
        (execute backends skills id context world).world = world
  /-- When a nested skill does not pass all checks, nothing is done from then
  on: neither on its behalf nor behind it. -/
  ended : ∀ depth before inner,
    Call.Nested backends skills depth (.outermost id context world) before
      inner →
    (∀ skill, ¬inner.Admitted skills depth skill) →
      (execute backends skills id context world).value.1.success = false ∧
        (execute backends skills id context world).events = before ∧
        (execute backends skills id context world).world = inner.world

/-- Every call of a backend in an execution is guarded by the checks. -/
theorem execute_guards_backends (backends : Backends σ) (skills : Dict Skill)
    (id : String) (context : Context) (world : σ) :
    Guarded backends skills id context world := by
  have hended : ∀ depth before inner,
      Call.Nested backends skills depth (.outermost id context world) before
        inner →
      (∀ skill, ¬inner.Admitted skills depth skill) →
        (execute backends skills id context world).value.1.success = false ∧
          (execute backends skills id context world).events = before ∧
          (execute backends skills id context world).world = inner.world := by
    intro depth before inner hnested hbarred
    have hlevels : inner.levels + depth = maxDepth + 1 := hnested.levels_add
    obtain ⟨hfails, hnothing, hsame⟩ :=
      Call.run_of_not_admitted backends hlevels hbarred
    obtain ⟨hfailed, hevents, hworld⟩ := hnested.run_of_fails hfails
    rw [hnothing, List.append_nil] at hevents
    exact ⟨hfailed, hevents, hworld.trans hsame⟩
  constructor
  case called =>
    intro left event right hsplit hcall
    obtain ⟨depth, before, inner, skill, own, hnested, hchecks, hleft,
      hreports⟩ :=
      Call.exists_nested_of_event (.outermost id context world) hsplit hcall
    have hlevels : inner.levels + depth = maxDepth + 1 := hnested.levels_add
    exact ⟨depth, before, inner, skill, own, hnested,
      (Call.admitted_iff hlevels).mpr hchecks, hleft, hreports⟩
  case barred =>
    intro hbarred
    exact (hended 0 [] (.outermost id context world) (.here _) hbarred).2
  case ended => exact hended

end SkillEngine

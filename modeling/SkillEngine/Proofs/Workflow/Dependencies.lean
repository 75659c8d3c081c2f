import SkillEngine.Proofs.Skill.Validation
import SkillEngine.Proofs.Workflow.Stage

/-!
# Dependencies during a run

In a workflow whose steps are declared in order of their dependencies, the
steps that have a result are closed under dependencies at every stage of a
run, and a step is tried only when everything that it depends on has a
result.  A step that is passed over for want of a dependency has, along its
dependencies, a step whose own attempt failed before.

The invariant is `Settled`: it describes the results when the runner has
done with some of the steps.  One lemma for each way to be done with a step
extends it by that step; `sound_of_move` carries it over a single move and
`sound_of_reaches` over a run.
-/

namespace SkillEngine.Workflow

variable {σ : Type}

/-- With a step, everything that it depends on has a result. -/
def Closed (workflow : Workflow) (results : Json.Object) : Prop :=
  ∀ step ∈ workflow.steps, results.has step.id = true →
    ∀ dependency ∈ step.dependsOn, results.has dependency = true

/-- One step of the workflow names another as a dependency. -/
def DependsOn (workflow : Workflow) (step other : Step) : Prop :=
  other ∈ workflow.steps ∧ other.id ∈ step.dependsOn

/-- On the way between two stages an attempt at the step failed for good. -/
def FailedBetween (backends : Backends σ) (workflow : Workflow)
    (context : Context) (begun stage : Stage σ) (step : Step) : Prop :=
  ∃ left rest progress world failure,
    Reaches backends workflow context begun
      (.trying step left rest progress world) ∧
    FailsForGood backends context step left progress world failure ∧
    Reaches backends workflow context
      (.trying step left rest progress world) stage

/-- The step, or one along its dependencies, failed in its own attempt. -/
def Blamed (backends : Backends σ) (workflow : Workflow) (context : Context)
    (begun stage : Stage σ) (step : Step) : Prop :=
  ∃ culprit,
    Relation.ReflTransGen workflow.DependsOn step culprit ∧
    FailedBetween backends workflow context begun stage culprit

/-- What holds of the results when the runner has done with some steps. -/
structure Settled (backends : Backends σ) (workflow : Workflow)
    (context : Context) (begun stage : Stage σ) (done : List Step)
    (results : Json.Object) : Prop where
  closed : workflow.Closed results
  ofDone : ∀ name, results.has name = true → name ∈ done.map (·.id)
  explained : ∀ step ∈ done, results.has step.id = true ∨
    Blamed backends workflow context begun stage step
  all : workflow.onError ≠ .carryOn →
    ∀ step ∈ done, results.has step.id = true

/-- What holds at a stage of a run. -/
def Sound (backends : Backends σ) (workflow : Workflow) (context : Context)
    (begun : Stage σ) : Stage σ → Prop
  | .choosing rest progress world =>
    ∃ done, workflow.steps = done ++ rest ∧
      Settled backends workflow context begun (.choosing rest progress world)
        done progress.results
  | .trying step left rest progress world =>
    (∃ done, workflow.steps = done ++ step :: rest ∧
      Settled backends workflow context begun
        (.trying step left rest progress world) done progress.results) ∧
    ∀ dependency ∈ step.dependsOn, progress.results.has dependency = true
  | .ended _ progress _ => workflow.Closed progress.results

variable {backends : Backends σ} {workflow : Workflow} {context : Context}
  {begun first second : Stage σ} {done rest : List Step} {step : Step}
  {results : Json.Object}

/-! ## Being done with one more step -/

theorem Blamed.mono
    (h : Blamed backends workflow context begun first step)
    (hreach : Reaches backends workflow context first second) :
    Blamed backends workflow context begun second step := by
  obtain ⟨culprit, hpath, left, rest, progress, world, failure, hbefore, hfails,
    hafter⟩ := h
  exact ⟨culprit, hpath, left, rest, progress, world, failure, hbefore, hfails,
    hafter.trans hreach⟩

theorem Settled.mono
    (h : Settled backends workflow context begun first done results)
    (hreach : Reaches backends workflow context first second) :
    Settled backends workflow context begun second done results where
  closed := h.closed
  ofDone := h.ofDone
  explained := fun step hstep =>
    (h.explained step hstep).imp_right fun hblamed => hblamed.mono hreach
  all := h.all

/-- A step whose dependencies have results gets a result of its own. -/
theorem Settled.complete
    (h : Settled backends workflow context begun first done results)
    (hordered : workflow.Ordered) (hsplit : workflow.steps = done ++ step :: rest)
    (hmet : ∀ dependency ∈ step.dependsOn, results.has dependency = true)
    (value : Json) :
    Settled backends workflow context begun first (done ++ [step])
      (results.insert step.id value) where
  closed := by
    intro other hother hhas dependency hdependency
    rw [Dict.has_insert, Bool.or_eq_true]
    right
    by_cases hid : other.id = step.id
    -- No other step has this id, so the result belongs to the step itself.
    · have hmem : step ∈ workflow.steps := by simp [hsplit]
      obtain rfl := hordered.eq_of_id_eq hother hmem hid
      exact hmet dependency hdependency
    · have hold : results.has other.id = true := by
        simpa [hid] using hhas
      exact h.closed other hother hold dependency hdependency
  ofDone := by
    intro name hname
    rw [Dict.has_insert, Bool.or_eq_true, beq_iff_eq] at hname
    rcases hname with rfl | hname
    · simp
    · rw [List.map_append]
      exact List.mem_append_left _ (h.ofDone name hname)
  explained := by
    intro other hother
    rcases List.mem_append.mp hother with hother | hother
    · rcases h.explained other hother with hhas | hblamed
      · exact .inl (by simp [hhas])
      · exact .inr hblamed
    · obtain rfl : other = step := by simpa using hother
      exact .inl (by simp)
  all := by
    intro honError other hother
    rcases List.mem_append.mp hother with hother | hother
    · simp [h.all honError other hother]
    · obtain rfl : other = step := by simpa using hother
      simp

/-- A step without a result for which there is someone to blame. -/
theorem Settled.skip
    (h : Settled backends workflow context begun first done results)
    (honError : workflow.onError = .carryOn)
    (hblamed : Blamed backends workflow context begun first step) :
    Settled backends workflow context begun first (done ++ [step])
      results where
  closed := h.closed
  ofDone := by
    intro name hname
    rw [List.map_append]
    exact List.mem_append_left _ (h.ofDone name hname)
  explained := by
    intro other hother
    rcases List.mem_append.mp hother with hother | hother
    · exact h.explained other hother
    · obtain rfl : other = step := by simpa using hother
      exact .inr hblamed
  all := fun hne => absurd honError hne

/-- When a dependency of the next step has no result, a step on the way to it
failed; that cannot be unless the workflow carries on after failures. -/
theorem Settled.of_unmet
    (h : Settled backends workflow context begun first done results)
    (hordered : workflow.Ordered) (hsplit : workflow.steps = done ++ step :: rest)
    {dependency : String} (hunmet : step.unmet? results = some dependency) :
    workflow.onError = .carryOn ∧
      ∃ culprit,
        Relation.TransGen workflow.DependsOn step culprit ∧
        FailedBetween backends workflow context begun first culprit := by
  obtain ⟨hdependency, hmissing⟩ := Step.of_unmet? hunmet
  -- The dependency is an earlier step, with which the runner is done.
  obtain ⟨other, hother, rfl⟩ := List.mem_map.mp
    ((hordered done step rest hsplit).2 dependency hdependency)
  have hdepends : workflow.DependsOn step other :=
    ⟨by simp [hsplit, hother], hdependency⟩
  constructor
  · by_contra honError
    rw [h.all honError other hother] at hmissing
    contradiction
  · rcases h.explained other hother with hhas | ⟨culprit, hpath, hfailed⟩
    · rw [hhas] at hmissing
      contradiction
    · exact ⟨culprit, Relation.TransGen.head' hdepends hpath, hfailed⟩

/-! ## One move and a whole run -/

/-- Where a failed step leads, the results are closed, and with someone to
blame the runner is done with the step. -/
theorem sound_afterFailure {failure : Failure} {progress : Progress} {world : σ}
    (hreach : Reaches backends workflow context first
      (.afterFailure workflow failure rest progress world))
    (hsplit : workflow.steps = done ++ step :: rest)
    (h : Settled backends workflow context begun first done progress.results)
    (hblamed : workflow.onError = .carryOn →
      Blamed backends workflow context begun first step) :
    Sound backends workflow context begun
      (.afterFailure workflow failure rest progress world) := by
  rw [Stage.afterFailure] at hreach ⊢
  split
  next honError =>
    rw [if_pos honError] at hreach
    exact ⟨done ++ [step], by simp [hsplit],
      (h.skip honError (hblamed honError)).mono hreach⟩
  next => exact h.closed

theorem sound_of_move (hordered : workflow.Ordered)
    (hbegun : Reaches backends workflow context begun first)
    (hmove : Move backends workflow context first second)
    (h : Sound backends workflow context begun first) :
    Sound backends workflow context begun second := by
  cases hmove with
  | finish =>
      obtain ⟨done, -, hsettled⟩ := h
      exact hsettled.closed
  | @refuse step rest progress world dependency hunmet =>
      obtain ⟨done, hsplit, hsettled⟩ := h
      refine sound_afterFailure (Move.refuse hunmet).reaches hsplit hsettled ?_
      intro _
      obtain ⟨-, culprit, hpath, hfailed⟩ :=
        hsettled.of_unmet hordered hsplit hunmet
      exact ⟨culprit, hpath.to_reflTransGen, hfailed⟩
  | enter hmet =>
      obtain ⟨done, hsplit, hsettled⟩ := h
      exact ⟨⟨done, hsplit, hsettled.mono (Move.enter hmet).reaches⟩,
        Step.unmet?_eq_none.mp hmet⟩
  | complete hvalue =>
      obtain ⟨⟨done, hsplit, hsettled⟩, hmet⟩ := h
      exact ⟨done ++ [_], by simp [hsplit],
        (hsettled.complete hordered hsplit hmet _).mono
          (Move.complete hvalue).reaches⟩
  | retry hvalue hagain =>
      obtain ⟨⟨done, hsplit, hsettled⟩, hmet⟩ := h
      exact ⟨⟨done, hsplit, hsettled.mono (Move.retry hvalue hagain).reaches⟩,
        hmet⟩
  | fail hfails =>
      obtain ⟨⟨done, hsplit, hsettled⟩, -⟩ := h
      refine sound_afterFailure (Move.fail hfails).reaches hsplit hsettled ?_
      intro _
      exact ⟨_, .refl, _, _, _, _, _, hbegun, hfails, .refl⟩

theorem sound_start (context : Context) (world : σ) :
    Sound backends workflow context (workflow.start context world)
      (workflow.start context world) :=
  ⟨[], rfl, {
    closed := by intro step _ hhas; simp [Dict.has] at hhas
    ofDone := by intro name hname; simp [Dict.has] at hname
    explained := by intro step hstep; simp at hstep
    all := by intro _ step hstep; simp at hstep }⟩

theorem sound_of_reaches (hordered : workflow.Ordered) {world : σ}
    {stage : Stage σ}
    (h : Reaches backends workflow context (workflow.start context world)
      stage) :
    Sound backends workflow context (workflow.start context world) stage := by
  induction h with
  | refl => exact sound_start context world
  | tail hbegun hmove ih => exact sound_of_move hordered hbegun hmove ih

theorem Sound.closed {stage : Stage σ}
    (h : Sound backends workflow context begun stage) :
    workflow.Closed stage.progress.results := by
  cases stage with
  | choosing rest progress world =>
      obtain ⟨done, -, hsettled⟩ := h
      exact hsettled.closed
  | trying step left rest progress world =>
      obtain ⟨⟨done, -, hsettled⟩, -⟩ := h
      exact hsettled.closed
  | ended outcome progress world => exact h

end SkillEngine.Workflow

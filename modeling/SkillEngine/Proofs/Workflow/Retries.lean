import Mathlib.Data.ENat.Lattice
import SkillEngine.Proofs.Workflow.Basic

/-!
# How often a step is tried

The attempts at a step are taken here as a sequence without an end: each is
made in the world that the one before it leaves.  How many of them are made is
settled by their outcomes and by the number of retries, and nothing else: the
first one in any case, and one behind each failure that asks for it, for as
long as there are retries.

The runner counts the retries that are left and not the attempts.  The
induction is over that number, from any world, so the log lines are numbered
from where the attempts begin.
-/

namespace SkillEngine

/-- Another attempt may be made after the outcome. -/
def AsksAgain (outcome : Except Failure StepOutput) : Prop :=
  ∃ failure, outcome = .error failure ∧ failure.isRetryable = true

namespace Step

variable {σ : Type} {backends : Backends σ} {step : Step} {context : Context}
  {results : Json.Object} {world : σ}

/-! ## The sequence of attempts -/

/-- The attempts at a step one after another.  Each is made in the world that
the one before it leaves, whatever came of that one. -/
def tries (backends : Backends σ) (step : Step) (context : Context)
    (results : Json.Object) (world : σ) :
    Nat → Ran σ (Except Failure StepOutput)
  | 0 => step.task.execute backends context results world
  | number + 1 => step.task.execute backends context results
      (step.tries backends context results world number).world

/-- Behind the first attempt stand those from the world that it leaves. -/
theorem tries_succ (number : Nat) :
    step.tries backends context results world (number + 1) =
      step.tries backends context results
        (step.tries backends context results world 0).world number := by
  induction number with
  | zero => rfl
  | succ number ih =>
      exact congrArg
        (fun before => step.task.execute backends context results before.world)
        ih

/-- What the attempts report that end with the failures, when `before` others
were made before them: behind each stands the log line for the next one. -/
def trail (backends : Backends σ) (step : Step) (context : Context)
    (results : Json.Object) (world : σ) (retries before : Nat)
    (failures : List Failure) : List Event :=
  (failures.mapIdx fun number failure =>
    (step.tries backends context results world number).events ++
      [.logged ⟨.warn,
        step.retryText failure (before + number + 1) retries⟩]).flatten

theorem trail_cons (retries before : Nat) (failure : Failure)
    (failures : List Failure) :
    step.trail backends context results world retries before
        (failure :: failures) =
      (step.tries backends context results world 0).events ++
        .logged ⟨.warn, step.retryText failure (before + 1) retries⟩ ::
          step.trail backends context results
            (step.tries backends context results world 0).world retries
            (before + 1) failures := by
  simp only [trail, List.mapIdx_cons, List.flatten_cons, tries_succ]
  simp [Nat.add_assoc, Nat.add_comm 1]

/-! ## The attempts that are made -/

/-- The run consists of one attempt for each of the failures, with which these
end in order, and of one more. -/
structure Repeats (backends : Backends σ) (step : Step) (context : Context)
    (results : Json.Object) (world : σ) (retries before : Nat)
    (failures : List Failure) (ran : Ran σ (Except Failure StepOutput)) :
    Prop where
  failed : ∀ number failure, failures[number]? = some failure →
    (step.tries backends context results world number).value = .error failure
  /-- What comes of the last attempt comes of the run. -/
  value : ran.value =
    (step.tries backends context results world failures.length).value
  events : ran.events =
    step.trail backends context results world retries before failures ++
      (step.tries backends context results world failures.length).events
  leaves : ran.world =
    (step.tries backends context results world failures.length).world

theorem repeats_nil (retries before : Nat) :
    Repeats backends step context results world retries before []
      (step.task.execute backends context results world) where
  failed := by simp
  value := rfl
  events := rfl
  leaves := rfl

theorem Repeats.cons {retries before : Nat} {failure : Failure}
    {failures : List Failure} {later : Ran σ (Except Failure StepOutput)}
    (hvalue : (step.task.execute backends context results world).value =
      .error failure)
    (h : Repeats backends step context results
      (step.task.execute backends context results world).world retries
      (before + 1) failures later) :
    Repeats backends step context results world retries before
      (failure :: failures)
      ⟨later.value,
        (step.task.execute backends context results world).events ++
          .logged ⟨.warn, step.retryText failure (before + 1) retries⟩ ::
            later.events,
        later.world⟩ where
  failed := by
    intro number other hother
    cases number with
    | zero =>
        obtain rfl : failure = other := by simpa using hother
        exact hvalue
    | succ number =>
        rw [tries_succ]
        exact h.failed number other (by simpa using hother)
  value := by
    rw [List.length_cons, tries_succ]
    exact h.value
  events := by
    rw [trail_cons, List.length_cons, tries_succ, h.events]
    simp [tries]
  leaves := by
    rw [List.length_cons, tries_succ]
    exact h.leaves

/-- With retries left, the attempts go on while the failures ask for it. -/
theorem exists_repeats (backends : Backends σ) (step : Step)
    (context : Context) (results : Json.Object) {retries left : Nat}
    (hleft : left ≤ retries) (world : σ) :
    ∃ failures : List Failure,
      Repeats backends step context results world retries (retries - left)
        failures (step.attempt backends context results retries left world) ∧
      failures.length ≤ left ∧
      (∀ failure ∈ failures, failure.isRetryable = true) ∧
      (failures.length = left ∨ ¬AsksAgain
        (step.tries backends context results world failures.length).value) := by
  induction left generalizing world with
  | zero => exact ⟨[], repeats_nil _ _, le_rfl, by simp, .inl rfl⟩
  | succ left ih =>
      cases hvalue : (step.task.execute backends context results world).value with
      | ok output =>
          rw [attempt_of_ok retries (left + 1) hvalue]
          refine ⟨[], repeats_nil _ _, by simp, by simp, .inr ?_⟩
          rintro ⟨failure, hfailure, -⟩
          rw [List.length_nil, tries, hvalue] at hfailure
          contradiction
      | error failure =>
          by_cases hagain : failure.isRetryable = true
          · obtain ⟨failures, hrepeats, hwithin, hasked, hended⟩ := ih
              (by omega) (step.task.execute backends context results world).world
            have hbefore : retries - left = retries - (left + 1) + 1 := by omega
            rw [attempt_of_retry retries left hvalue hagain]
            rw [hbefore] at hrepeats ⊢
            refine ⟨failure :: failures, hrepeats.cons hvalue, by simpa,
              by simpa using ⟨hagain, hasked⟩, ?_⟩
            rw [List.length_cons, tries_succ]
            exact hended.imp_left (congrArg (· + 1))
          · have hfinal : failure.isRetryable = false := by simpa using hagain
            rw [attempt_of_final retries (left + 1) hvalue (.inr hfinal)]
            refine ⟨[], repeats_nil _ _, by simp, by simp, .inr ?_⟩
            rintro ⟨other, hother, hasks⟩
            rw [List.length_nil, tries, hvalue] at hother
            obtain rfl := Except.error.inj hother
            exact hagain hasks

/-! ## The run of a step -/

end Step

end SkillEngine

import SkillEngine.Proofs.Workflow.Stage

/-!
# The answers of steps

From each stage there is at most one move, so which steps of a workflow the
runner comes to, and how each of them ends, is settled by the stage from which
it sets out.  The answers from a step on are its own and those from the stage
behind it; this is the form in which the answers of a run are counted.
-/

namespace SkillEngine.Workflow

variable {σ : Type} {backends : Backends σ} {context : Context}
  {workflow : Workflow}

/-- The runner has no choice. -/
theorem Move.unique {first second third : Stage σ}
    (h : Move backends workflow context first second)
    (h' : Move backends workflow context first third) : second = third := by
  cases h with
  | finish =>
      cases h'
      rfl
  | refuse hunmet =>
      cases h' with
      | refuse hunmet' =>
          obtain rfl := Option.some.inj (hunmet.symm.trans hunmet')
          rfl
      | enter hmet => simp [hunmet] at hmet
  | enter hmet =>
      cases h' with
      | refuse hunmet => simp [hunmet] at hmet
      | enter => rfl
  | complete hvalue =>
      cases h' with
      | complete hvalue' =>
          obtain rfl := Except.ok.inj (hvalue.symm.trans hvalue')
          rfl
      | retry hvalue' => simp [hvalue] at hvalue'
      | fail hfails => simp [FailsForGood, hvalue] at hfails
  | retry hvalue hagain =>
      cases h' with
      | complete hvalue' => simp [hvalue] at hvalue'
      | retry => rfl
      | fail hfails =>
          obtain ⟨hvalue', hfinal⟩ := hfails
          obtain rfl := Except.error.inj (hvalue.symm.trans hvalue')
          simp [hagain] at hfinal
  | fail hfails =>
      obtain ⟨hvalue, hfinal⟩ := hfails
      cases h' with
      | complete hvalue' => simp [hvalue] at hvalue'
      | retry hvalue' hagain =>
          obtain rfl := Except.error.inj (hvalue.symm.trans hvalue')
          simp [hagain] at hfinal
      | fail hfails' =>
          obtain rfl := Except.error.inj (hvalue.symm.trans hfails'.1)
          rfl

/-- On the way from a stage the runner comes to the step, and the step ends
with the answer. -/
def AnswersFrom (backends : Backends σ) (workflow : Workflow)
    (context : Context) (stage : Stage σ) (step : Step)
    (answer : Except Failure StepOutput) : Prop :=
  ∃ rest progress world,
    Reaches backends workflow context stage
      (.choosing (step :: rest) progress world) ∧
    (step.run backends workflow context progress.results world).value = answer

variable {step other : Step} {answer : Except Failure StepOutput}

theorem AnswersFrom.of_reaches {first second : Stage σ}
    (hreach : Reaches backends workflow context first second)
    (h : AnswersFrom backends workflow context second step answer) :
    AnswersFrom backends workflow context first step answer := by
  obtain ⟨rest, progress, world, hlater, hanswer⟩ := h
  exact ⟨rest, progress, world, hreach.trans hlater, hanswer⟩

/-- Behind the only move that there is, the answers stay the same. -/
theorem answersFrom_of_move {first second : Stage σ}
    (hmove : Move backends workflow context first second)
    (h : AnswersFrom backends workflow context first step answer) :
    (∃ rest progress world, first = .choosing (step :: rest) progress world ∧
      (step.run backends workflow context progress.results world).value =
        answer) ∨
    AnswersFrom backends workflow context second step answer := by
  obtain ⟨rest, progress, world, hreach, hanswer⟩ := h
  rcases Relation.ReflTransGen.cases_head hreach with hsame | ⟨next, hfirst, hlater⟩
  · exact .inl ⟨rest, progress, world, hsame, hanswer⟩
  · obtain rfl := hmove.unique hfirst
    exact .inr ⟨rest, progress, world, hlater, hanswer⟩

theorem not_answersFrom_ended (outcome : Except Failure Unit)
    (progress : Progress) (world : σ) :
    ¬AnswersFrom backends workflow context (.ended outcome progress world) step
      answer := by
  rintro ⟨rest, later, world', hreach, -⟩
  rcases Relation.ReflTransGen.cases_head hreach with hsame | ⟨next, hmove, -⟩
  · simp at hsame
  · cases hmove

theorem not_answersFrom_nil (progress : Progress) (world : σ) :
    ¬AnswersFrom backends workflow context (.choosing [] progress world) step
      answer := by
  intro h
  rcases answersFrom_of_move .finish h with ⟨_, _, _, hsame, -⟩ | hlater
  · simp at hsame
  · exact not_answersFrom_ended _ _ _ hlater

/-- The attempts at a step are not answers of their own. -/
theorem answersFrom_of_trying (retries : Nat) {left : Nat} {rest : List Step}
    {progress : Progress} {world : σ}
    (h : AnswersFrom backends workflow context
      (.trying other left rest progress world) step answer) :
    let ran := other.attempt backends context progress.results retries left
      world
    AnswersFrom backends workflow context
      (.afterStep workflow other rest progress ran.value ran.world) step
      answer := by
  have hnext : ∀ {next : Stage σ} {left : Nat} {world : σ},
      AnswersFrom backends workflow context
        (.trying other left rest progress world) step answer →
      Move backends workflow context (.trying other left rest progress world)
        next →
      AnswersFrom backends workflow context next step answer := by
    intro next left world h hmove
    rcases answersFrom_of_move hmove h with ⟨_, _, _, hsame, -⟩ | hlater
    · simp at hsame
    · exact hlater
  induction left generalizing world with
  | zero =>
      rw [Step.attempt]
      cases hvalue : (other.task.execute backends context progress.results
          world).value with
      | ok output => simpa [hvalue, Stage.afterStep] using hnext h (.complete hvalue)
      | error failure =>
          simpa [hvalue, Stage.afterStep] using
            hnext h (.fail ⟨hvalue, .inl rfl⟩)
  | succ left ih =>
      cases hvalue : (other.task.execute backends context progress.results
          world).value with
      | ok output =>
          rw [Step.attempt_of_ok retries (left + 1) hvalue]
          simpa [hvalue, Stage.afterStep] using hnext h (.complete hvalue)
      | error failure =>
          cases hagain : failure.isRetryable with
          | true =>
              rw [Step.attempt_of_retry retries left hvalue hagain]
              exact ih (hnext h (.retry hvalue hagain))
          | false =>
              rw [Step.attempt_of_final retries (left + 1) hvalue (.inr hagain)]
              simpa [hvalue, Stage.afterStep] using
                hnext h (.fail ⟨hvalue, .inr hagain⟩)

/-- The answers from a step on are its own and those behind it. -/
theorem answersFrom_cons {rest : List Step} {progress : Progress} {world : σ}
    {first : Except Failure StepOutput}
    (hfirst : (other.run backends workflow context progress.results
      world).value = first) :
    AnswersFrom backends workflow context
        (.choosing (other :: rest) progress world) step answer ↔
      step = other ∧ first = answer ∨
        AnswersFrom backends workflow context
          (.afterStep workflow other rest (progress.begin other) first
            (other.run backends workflow context progress.results world).world)
          step answer := by
  subst hfirst
  constructor
  · intro h
    cases hunmet : other.unmet? progress.results with
    | some dependency =>
        rcases answersFrom_of_move (.refuse hunmet) h with
          ⟨_, _, _, hsame, hanswer⟩ | hlater
        · cases hsame
          exact .inl ⟨rfl, hanswer⟩
        · right
          simpa [Step.run, hunmet, Stage.afterStep] using hlater
    | none =>
        rcases answersFrom_of_move (.enter hunmet) h with
          ⟨_, _, _, hsame, hanswer⟩ | hlater
        · cases hsame
          exact .inl ⟨rfl, hanswer⟩
        · right
          have hattempts := answersFrom_of_trying workflow.retries hlater
          simpa [Step.run, hunmet] using hattempts
  · rintro (⟨rfl, hanswer⟩ | hlater)
    · exact ⟨rest, progress, world, .refl, hanswer⟩
    · exact hlater.of_reaches
        (reaches_step backends workflow context other rest progress world)

end SkillEngine.Workflow

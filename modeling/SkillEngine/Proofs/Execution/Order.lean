import Mathlib.Algebra.BigOperators.Group.List.Basic
import Mathlib.Data.UInt
import SkillEngine.Proofs.Execution.Depth
import SkillEngine.Proofs.Execution.Repetition
import SkillEngine.Proofs.Execution.Turns

/-!
# The order of the entries

The entries of a hybrid do not influence one another.  Each is given an input
made from that of the hybrid alone, and begins with a fresh state; against
backends without memory its result is therefore the same at every turn.

The order is changed in the registry, where sub-skills could find the changed
hybrid.  They do not when the hybrid succeeds: it cannot be reached from its
own entries then, so they run in both registries alike.
-/

namespace SkillEngine

variable {σ : Type} {backends : Backends σ}

/-! ## Entries whose results are determined -/

namespace Hybrid

/-- Whatever the world, the skills that the entries call come to the results. -/
def Determined (runSkill : Runner σ) (parent : Context)
    (entries : List SubSkill) (resultOf : SubSkill → SkillResult) : Prop :=
  ∀ entry ∈ entries, ∀ world,
    (runSkill entry.skill (parent.childFor entry) world).value.1 =
      resultOf entry

variable {runSkill : Runner σ} {context : Context} {entries : List SubSkill}
  {resultOf : SubSkill → SkillResult}
  (hresults : Determined runSkill context entries resultOf)

include hresults

theorem Determined.result_of_mem {world last : σ} {turns : List (Turn σ)}
    (hturns : Turns runSkill context world turns last) {turn : Turn σ}
    (hturn : turn ∈ turns) (hentry : turn.entry ∈ entries) :
    turn.result = resultOf turn.entry := by
  obtain ⟨before, hran⟩ := hturns.exists_world hturn
  rw [Turn.result, hran]
  exact hresults turn.entry hentry before

/-- The entries come to an end when all of them succeed, and only then. -/
theorem Determined.runEntries_ok_iff (total position : Nat) (world : σ) :
    (∃ outputs, (runEntries runSkill total position entries context
      world).value.1 = .ok outputs) ↔
      ∀ entry ∈ entries, (resultOf entry).success = true := by
  obtain ⟨turns, hturns, -, hend⟩ :=
    @runEntries_turns σ runSkill total position entries context world
  rcases hend with hend | ⟨earlier, failing, rfl, hend⟩
  · have hall : ∀ entry ∈ entries, (resultOf entry).success = true := by
      intro entry hentry
      rw [← hend.entries] at hentry
      obtain ⟨turn, hturn, rfl⟩ := List.mem_map.mp hentry
      rw [hend.entries] at hentry
      rw [← hresults.result_of_mem hturns hturn hentry]
      exact hend.succeed turn hturn
    exact ⟨fun _ => hall, fun _ => ⟨_, hend.outcome⟩⟩
  · constructor
    · rintro ⟨outputs, hok⟩
      rw [hend.outcome] at hok
      simp at hok
    · intro hall
      obtain ⟨later, hlater⟩ := hend.entries
      have hentry : failing.entry ∈ entries := by
        rw [← hlater]
        simp
      have hlast : failing ∈ earlier ++ [failing] := by simp
      have hsuccess := hall failing.entry hentry
      rw [← hresults.result_of_mem hturns hlast hentry, hend.fails] at hsuccess
      simp at hsuccess

/-- What the entries come to when all of them succeed: their outputs and their
tokens are those of the results. -/
theorem Determined.runEntries_of_success
    (hsuccess : ∀ entry ∈ entries, (resultOf entry).success = true)
    (total position : Nat) (world : σ) :
    let ran := runEntries runSkill total position entries context world
    ran.value.1 =
        .ok (entries.map fun entry => (resultOf entry).output.getD .null) ∧
      ran.value.2.state.tokensUsed = context.state.tokensUsed +
        (entries.map fun entry => (resultOf entry).tokensUsed).sum := by
  induction entries generalizing position context world with
  | nil => simp [runEntries_nil]
  | cons entry entries ih =>
      obtain ⟨hentry, hrest⟩ := List.forall_mem_cons.mp hsuccess
      have hresult := hresults entry List.mem_cons_self world
      set ran := runSkill entry.skill (context.childFor entry) world with hran
      rw [← hresult] at hentry
      have hlater : Determined runSkill (context.behind entry ran.value.1)
          entries resultOf := by
        intro other hother
        exact hresults other (List.mem_cons_of_mem _ hother)
      obtain ⟨houtputs, htokens⟩ := ih hlater hrest (position + 1) ran.world
      rw [runEntries_of_success hentry]
      constructor
      · rw [houtputs, hresult]
        rfl
      · rw [htokens, hresult, List.map_cons, List.sum_cons, ← add_assoc]
        rfl

end Hybrid

/-! ## Registries that agree on what can be reached -/

theorem Definition.run_congr {definition : Definition}
    {runSkill other : Hybrid.Runner σ}
    (h : ∀ hybrid, definition = .hybrid hybrid →
      ∀ entry ∈ hybrid.skills, runSkill entry.skill = other entry.skill)
    (context : Context) :
    definition.run backends runSkill context =
      definition.run backends other context := by
  cases definition with
  | prompt value => rfl
  | workflow value => rfl
  | tool value => rfl
  | hybrid value =>
      have hentries : ∀ entries, (∀ entry ∈ entries, entry ∈ value.skills) →
          ∀ total position context,
            Hybrid.runEntries runSkill total position entries context =
              Hybrid.runEntries other total position entries context := by
        intro entries hmem total position context
        induction entries generalizing position context with
        | nil => rfl
        | cons entry entries ih =>
            obtain ⟨hentry, hrest⟩ := List.forall_mem_cons.mp hmem
            simp only [Hybrid.runEntries, h value rfl entry hentry, ih hrest]
      have hall := hentries value.skills fun _ hentry => hentry
      simp only [run, Hybrid.dispatch, Hybrid.run, hall]

theorem executeWithin_congr {skills others : Dict Skill} {id : String}
    (h : ∀ other, Relation.ReflTransGen (Refers skills) id other →
      skills.find? other = others.find? other) (levels : Nat) :
    executeWithin backends skills levels id =
      executeWithin backends others levels id := by
  induction levels generalizing id with
  | zero =>
      funext context
      rw [executeWithin, executeWithin, h id .refl]
  | succ levels ih =>
      have hid := h id .refl
      funext context
      rw [executeWithin, executeWithin, ← hid]
      cases hfind : skills.find? id with
      | none => rfl
      | some skill =>
          dsimp only
          cases skill.refusal? (levels + 1) id with
          | some failure => rfl
          | none =>
              dsimp only
              have hrunner : ∀ hybrid, skill.definition = .hybrid hybrid →
                  ∀ entry ∈ hybrid.skills,
                    executeWithin backends skills levels entry.skill =
                      executeWithin backends others levels entry.skill := by
                intro hybrid hdefinition entry hentry
                apply ih
                intro other hreach
                have hrefers : Refers skills id entry.skill :=
                  ⟨skill, hybrid, entry, hfind, hdefinition, hentry, rfl⟩
                exact h other (.head hrefers hreach)
              simp only [Skill.run, Skill.dispatch,
                Definition.run_congr hrunner]

/-! ## One hybrid in another order -/

/-- The skill as a hybrid of other entries. -/
def Skill.withEntries (skill : Skill) (hybrid : Hybrid)
    (entries : List SubSkill) : Skill :=
  { skill with definition := .hybrid { hybrid with skills := entries } }

theorem Skill.withEntries_self {skill : Skill} {hybrid : Hybrid}
    (h : skill.definition = .hybrid hybrid) :
    skill.withEntries hybrid hybrid.skills = skill := by
  simp only [withEntries, ← h]

theorem Skill.refusal?_withEntries {skill : Skill} {hybrid : Hybrid}
    {first second : List SubSkill} (hperm : first.Perm second) (levels : Nat)
    (id : String) :
    (skill.withEntries hybrid first).refusal? levels id = none →
      (skill.withEntries hybrid second).refusal? levels id = none := by
  have hempty : first.isEmpty = second.isEmpty := by
    rw [Bool.eq_iff_iff, List.isEmpty_iff, List.isEmpty_iff]
    exact ⟨fun h => (h ▸ hperm).nil_eq.symm, fun h => (h ▸ hperm).eq_nil⟩
  have hviolations := hperm.filterMap (SubSkill.violation? skill.id)
  simp only [refusal?_eq_none, validate, List.map_eq_nil_iff, violations,
    List.append_eq_nil_iff]
  rintro ⟨henabled, hlevels, ⟨hown, hnone⟩, hduplicates⟩
  refine ⟨henabled, hlevels, ⟨hown, ?_⟩, hduplicates⟩
  simp only [withEntries, Definition.violations, List.append_eq_nil_iff,
    hempty] at hnone ⊢
  refine ⟨hnone.1, ?_⟩
  have hnil := hnone.2
  rw [hnil] at hviolations
  exact hviolations.nil_eq.symm

/-- The registries hold a hybrid under the id, with its entries in two orders,
and are otherwise the same. -/
structure Reordered (skills others : Dict Skill) (id : String) (skill : Skill)
    (hybrid : Hybrid) (first second : List SubSkill) : Prop where
  perm : first.Perm second
  here : skills.find? id = some (skill.withEntries hybrid first)
  there : others.find? id = some (skill.withEntries hybrid second)
  elsewhere : ∀ other, other ≠ id → skills.find? other = others.find? other

/-- The turns of a hybrid that succeeds give the outputs, and these are
combined. -/
structure Combines (backends : Backends σ) (skills : Dict Skill) (levels : Nat)
    (id : String) (hybrid : Hybrid) (context : Context) (world : σ)
    (outputs : List Json) : Prop where
  turns : ∃ left turns, levels = left + 1 ∧
    Turns (executeWithin backends skills left) context world turns
      (executeWithin backends skills levels id context world).world ∧
    turns.map (·.entry) = hybrid.skills ∧
    (∀ turn ∈ turns, turn.result.success = true) ∧
    turns.map Turn.output = outputs
  output :
    (executeWithin backends skills levels id context world).value.1.output =
      some (mergeOutputs outputs hybrid.merge)

section Determined

variable {skills : Dict Skill} {levels : Nat} {id : String} {skill : Skill}
  {hybrid : Hybrid} {context : Context} {resultOf : SubSkill → SkillResult}
  (hfind : skills.find? id = some skill)
  (haccepted : skill.refusal? (levels + 1) id = none)
  (hdefinition : skill.definition = .hybrid hybrid)
  (hresults : Hybrid.Determined (executeWithin backends skills levels) context
    hybrid.skills resultOf)

include hfind haccepted hdefinition hresults

omit hfind haccepted in
/-- The defaults that are filled in for a hybrid do not reach its entries. -/
theorem determined_prepared :
    Hybrid.Determined (executeWithin backends skills levels)
      (skill.prepared context) hybrid.skills resultOf := by
  intro entry hentry world
  rw [skill.childFor_prepared hdefinition]
  exact hresults entry hentry world

theorem success_iff_of_determined (world : σ) :
    (executeWithin backends skills (levels + 1) id context
      world).value.1.success = true ↔
        ∀ entry ∈ hybrid.skills, (resultOf entry).success = true := by
  have hprepared := determined_prepared hdefinition hresults
  rw [← hprepared.runEntries_ok_iff hybrid.skills.length 0 world]
  have hrun := Call.run_of_hybrid backends hfind haccepted hdefinition context
    world
  rw [Call.run] at hrun
  rw [hrun]
  rcases hvalue : (Hybrid.runEntries (executeWithin backends skills levels)
      hybrid.skills.length 0 hybrid.skills (skill.prepared context)
      world).value with ⟨failure | outputs, reached⟩
  · simp [Hybrid.handOver, Skill.conclude]
  · simp [Hybrid.handOver, Skill.conclude]

theorem combines_of_determined
    (hsuccess : ∀ entry ∈ hybrid.skills, (resultOf entry).success = true)
    (world : σ) :
    let ran := executeWithin backends skills (levels + 1) id context world
    let spent :=
      (hybrid.skills.map fun entry => (resultOf entry).tokensUsed).sum
    Combines backends skills (levels + 1) id hybrid context world
        (hybrid.skills.map fun entry => (resultOf entry).output.getD .null) ∧
      ran.value.2.state.tokensUsed = context.state.tokensUsed + spent ∧
      ran.value.1.tokensUsed = (Skill.shownTokens context.state.tokensUsed
        (context.state.tokensUsed + spent)).getD 0 := by
  intro ran spent
  have hprepared := determined_prepared hdefinition hresults
  obtain ⟨hok, htokens⟩ := hprepared.runEntries_of_success hsuccess
    hybrid.skills.length 0 world
  obtain ⟨turns, hturns, -, hend⟩ := @Hybrid.runEntries_turns σ
    (executeWithin backends skills levels) hybrid.skills.length 0 hybrid.skills
    (skill.prepared context) world
  set entries := Hybrid.runEntries (executeWithin backends skills levels)
    hybrid.skills.length 0 hybrid.skills (skill.prepared context) world
  have hran : ran = ⟨Skill.conclude context.state.tokensUsed
      (hybrid.handOver entries.value), hybrid.modeEvents ++ entries.events,
      entries.world⟩ :=
    Call.run_of_hybrid backends hfind haccepted hdefinition context world
  have hcompletes : Completes hybrid.skills (skill.prepared context) turns
      entries.value := by
    rcases hend with hend | ⟨earlier, failing, -, hend⟩
    · exact hend
    · rw [hend.outcome] at hok
      simp at hok
  have houtputs : turns.map Turn.output = hybrid.skills.map fun entry =>
      (resultOf entry).output.getD .null := by
    rw [hcompletes.outcome] at hok
    exact Except.ok.inj hok
  have hafter : (hybrid.handOver entries.value).2.state.tokensUsed =
      context.state.tokensUsed + spent := by
    rw [hybrid.tokensUsed_handOver]
    exact htokens
  obtain ⟨hshown, hcontext⟩ := Skill.conclude_tokens context.state.tokensUsed
    (hybrid.handOver entries.value)
  rw [hafter] at hshown hcontext
  refine ⟨⟨⟨levels, turns, rfl, ?_, hcompletes.entries, hcompletes.succeed,
    houtputs⟩, ?_⟩, ?_, ?_⟩
  · have hlast : ran.world = entries.world := by rw [hran]
    rw [← hlast] at hturns
    exact hturns.of_input (skill.childFor_prepared hdefinition context)
  · have houtput := (hcompletes.concluded context.state.tokensUsed).2.1
    rw [houtputs] at houtput
    change ran.value.1.output = _
    rw [hran]
    exact houtput
  · rw [hran]
    exact hcontext
  · rw [hran]
    exact hshown

end Determined

theorem Backends.Stateless.result_eq (hstateless : backends.Stateless)
    (skills : Dict Skill) (levels : Nat) (id : String) (context : Context)
    (world other : σ) :
    (executeWithin backends skills levels id context world).value.1 =
      (executeWithin backends skills levels id context other).value.1 := by
  have hstart : ∀ skill, skills.find? id = some skill →
      skill.StartsAlike context context := fun _ _ => ⟨rfl, rfl, rfl⟩
  exact (alike_executeWithin hstateless.answersAlike skills levels hstart world
    other trivial).1.result_eq

/-- A hybrid that succeeds cannot be reached from its entries. -/
theorem ne_of_reachable {skills : Dict Skill} {levels : Nat} {id : String}
    {context : Context} {world : σ} {entry other : String}
    (hsuccess : (executeWithin backends skills levels id context
      world).value.1.success = true)
    (hentry : Refers skills id entry)
    (hreach : Relation.ReflTransGen (Refers skills) entry other) :
    other ≠ id := by
  rintro rfl
  have hcycle : Relation.TransGen (Refers skills) other other :=
    .head' hentry hreach
  apply not_chainsWithin_of_cycle hcycle levels
  intro chain hchain
  exact (length_lt_of_success hsuccess hchain).le

section Reordered

variable {skills others : Dict Skill} {id : String} {skill : Skill}
  {hybrid : Hybrid} {first second : List SubSkill}

theorem Reordered.symm
    (h : Reordered skills others id skill hybrid first second) :
    Reordered others skills id skill hybrid second first where
  perm := h.perm.symm
  here := h.there
  there := h.here
  elsewhere := fun other hother => (h.elsewhere other hother).symm

/-- What is known of both orders when the hybrid succeeds in one of them. -/
theorem Reordered.determined
    (h : Reordered skills others id skill hybrid first second)
    (hstateless : backends.Stateless) {levels : Nat} {context : Context}
    {world : σ}
    (hsuccess : (executeWithin backends skills levels id context
      world).value.1.success = true) :
    ∃ left resultOf, levels = left + 1 ∧
      (skill.withEntries hybrid first).refusal? (left + 1) id = none ∧
      (∀ entry ∈ first, (resultOf entry).success = true) ∧
      Hybrid.Determined (executeWithin backends skills left) context first
        resultOf ∧
      Hybrid.Determined (executeWithin backends others left) context second
        resultOf := by
  rcases executeWithin_cases backends skills levels id context world with
    ⟨failure, -, hran⟩ | ⟨found, left, hfound, rfl, haccepted, -⟩
  · simp [hran, SkillResult.failed] at hsuccess
  obtain rfl : skill.withEntries hybrid first = found :=
    Option.some.inj (h.here.symm.trans hfound)
  let resultOf : SubSkill → SkillResult := fun entry =>
    (executeWithin backends skills left entry.skill (context.childFor entry)
      world).value.1
  have hresults : Hybrid.Determined (executeWithin backends skills left) context
      first resultOf := by
    intro entry _ other
    exact hstateless.result_eq skills left entry.skill _ other world
  have hagree : ∀ entry ∈ first,
      executeWithin backends skills left entry.skill =
        executeWithin backends others left entry.skill := by
    intro entry hentry
    have hrefers : Refers skills id entry.skill :=
      ⟨_, _, entry, h.here, rfl, hentry, rfl⟩
    apply executeWithin_congr
    intro other hreach
    exact h.elsewhere other (ne_of_reachable hsuccess hrefers hreach)
  refine ⟨left, resultOf, rfl, haccepted, ?_, hresults, ?_⟩
  · exact (success_iff_of_determined h.here haccepted rfl hresults world).mp
      hsuccess
  · intro entry hentry other
    have hmem : entry ∈ first := h.perm.mem_iff.mpr hentry
    rw [← hagree entry hmem]
    exact hresults entry hmem other

theorem Reordered.success
    (h : Reordered skills others id skill hybrid first second)
    (hstateless : backends.Stateless) {levels : Nat} {context : Context}
    {world : σ}
    (hsuccess : (executeWithin backends skills levels id context
      world).value.1.success = true) (other : σ) :
    (executeWithin backends others levels id context
      other).value.1.success = true := by
  obtain ⟨left, resultOf, rfl, haccepted, hall, -, hresults⟩ :=
    h.determined hstateless hsuccess
  have haccepted := Skill.refusal?_withEntries h.perm _ _ haccepted
  apply (success_iff_of_determined h.there haccepted rfl hresults other).mpr
  intro entry hentry
  exact hall entry (h.perm.mem_iff.mpr hentry)

end Reordered

/-- Against backends without memory the order of the entries of a hybrid does
not matter for success, and then not for the tokens either; the outputs that
are combined are exchanged with the entries. -/
theorem executeWithin_reordered (hstateless : backends.Stateless)
    {skills : Dict Skill} {id : String} {skill : Skill} {hybrid : Hybrid}
    (hfind : skills.find? id = some skill)
    (hdefinition : skill.definition = .hybrid hybrid)
    {entries : List SubSkill} (hperm : hybrid.skills.Perm entries)
    (levels : Nat) (context : Context) (world other : σ) :
    let reordered := skills.insert id (skill.withEntries hybrid entries)
    let ran := executeWithin backends skills levels id context world
    let again := executeWithin backends reordered levels id context other
    (ran.value.1.success = true ↔ again.value.1.success = true) ∧
    (ran.value.1.success = true →
      ran.value.1.tokensUsed = again.value.1.tokensUsed ∧
      ran.value.2.state.tokensUsed = again.value.2.state.tokensUsed ∧
      ∃ outputOf : SubSkill → Json,
        Combines backends skills levels id hybrid context world
          (hybrid.skills.map outputOf) ∧
        Combines backends reordered levels id { hybrid with skills := entries }
          context other (entries.map outputOf)) := by
  intro reordered ran again
  have hreordered : Reordered skills reordered id skill hybrid hybrid.skills
      entries := by
    refine ⟨hperm, ?_, Dict.find?_insert_self _ _ _, ?_⟩
    · rw [skill.withEntries_self hdefinition]
      exact hfind
    · intro name hname
      exact (Dict.find?_insert_of_ne hname _ _).symm
  refine ⟨⟨?_, ?_⟩, ?_⟩
  · intro hsuccess
    exact hreordered.success hstateless hsuccess other
  · intro hsuccess
    exact hreordered.symm.success hstateless hsuccess world
  · intro hsuccess
    obtain ⟨left, resultOf, rfl, haccepted, hall, hresults, hagain⟩ :=
      hreordered.determined hstateless hsuccess
    have hreaccepted := Skill.refusal?_withEntries hperm _ _ haccepted
    have hevery : ∀ entry ∈ entries, (resultOf entry).success = true :=
      fun entry hentry => hall entry (hperm.mem_iff.mpr hentry)
    have hspent := (hperm.map fun entry => (resultOf entry).tokensUsed).sum_eq
    rw [skill.withEntries_self hdefinition] at haccepted
    obtain ⟨hcombines, hcontext, hshown⟩ := combines_of_determined hfind
      haccepted hdefinition hresults hall world
    obtain ⟨hrecombines, hrecontext, hreshown⟩ := combines_of_determined
      hreordered.there hreaccepted rfl hagain hevery other
    dsimp only at hrecontext hreshown
    rw [← hspent] at hrecontext hreshown
    exact ⟨hshown.trans hreshown.symm, hcontext.trans hrecontext.symm,
      fun entry => (resultOf entry).output.getD .null, hcombines, hrecombines⟩

/-- A hybrid says what it is given and something else, in both orders. -/
theorem saying_reordered :
    let say : Prompt :=
      ⟨Template.slot "text", [SkillLibrary.requiredText "text" "Text"], none,
        none⟩
    let entries : List SubSkill :=
      [⟨"say", none, none⟩,
        ⟨"say", some "other", some [("text", .string "sun")]⟩]
    let hybrid : Hybrid := ⟨entries, ⟨.sequential, none⟩, none⟩
    let skill : Skill :=
      (Definition.hybrid hybrid).skill "both" "Both" "Says both" .custom []
    let skills : Dict Skill :=
      [("both", skill),
        ("say", (Definition.prompt say).skill "say" "Say" "Says it" .custom [])]
    let reordered := skills.insert "both"
      (skill.withEntries hybrid entries.reverse)
    let context : Context :=
      ⟨[("text", .string "rain")], .empty, ⟨"mock", none⟩, .empty⟩
    let backends : Backends Scripted.World :=
      ⟨Router.empty.add (Scripted.echo "mock" 0), Host.empty.registry⟩
    let ran := executeWithin backends skills (maxDepth + 1) "both" context
      Scripted.World.empty
    let again := executeWithin backends reordered (maxDepth + 1) "both" context
      ran.world
    backends.Stateless ∧ skills.find? "both" = some skill ∧
      skill.definition = .hybrid hybrid ∧
      hybrid.skills.Perm entries.reverse ∧
      ran.value.1.output = some (.array [.string "rain", .string "sun"]) ∧
      again.value.1.success = true ∧
      again.value.1.output = some (.array [.string "sun", .string "rain"]) ∧
      ran.value.1.tokensUsed = again.value.1.tokensUsed := by
  intro say entries hybrid skill skills reordered context backends ran again
  have hstateless : backends.Stateless := stateless_echo "mock" 0
  have hfind : skills.find? "both" = some skill := rfl
  have hdefinition : skill.definition = .hybrid hybrid := rfl
  have hperm : hybrid.skills.Perm entries.reverse :=
    (List.reverse_perm entries).symm
  have hsuccess : ran.value.1.success = true := by decide
  obtain ⟨hiff, hsame⟩ := executeWithin_reordered hstateless hfind hdefinition
    hperm (maxDepth + 1) context Scripted.World.empty ran.world
  have hran : executeWithin backends skills (maxDepth + 1) "both" context
      Scripted.World.empty = ran := rfl
  have hagain : executeWithin backends
      (skills.insert "both" (skill.withEntries hybrid entries.reverse))
      (maxDepth + 1) "both" context ran.world = again := rfl
  rw [hran, hagain] at hiff hsame
  obtain ⟨htokens, -⟩ := hsame hsuccess
  have houtput : ran.value.1.output =
      some (.array [.string "rain", .string "sun"]) := by
    simp only [ran, context, backends, skills, skill, hybrid, entries, say]
    rfl
  have houtputAgain : again.value.1.output =
      some (.array [.string "sun", .string "rain"]) := by
    simp only [again, ran, reordered, context, backends, skills, skill, hybrid,
      entries, say]
    rfl
  exact ⟨hstateless, hfind, hdefinition, hperm, houtput, hiff.mp hsuccess,
    houtputAgain, htokens⟩

end SkillEngine

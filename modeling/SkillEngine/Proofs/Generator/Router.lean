import Mathlib.Data.List.Induction
import SkillEngine.Generator.Router
import SkillEngine.Scripted.Generator

/-!
# Routing after any history

A router is changed by adding generators and by setting the default.  What it
is after any sequence of changes can be read off the sequence: its generators
are those that were added, in that order, and its default is the one that was
set last, or else the name of the first generator.  So a request is answered by
the earliest generator of the name that it means, and a generator that is added
later stands behind it.

The empty name can be the name of a generator and the default like any other,
but a failure does not repeat it.
-/

namespace SkillEngine

/-! ## Names up to case -/

namespace Text

theorem lowerAscii_eq_toLower (c : Char) : lowerAscii c = c.toLower := by
  by_cases hc : c.toNat ≤ 'Z'.toNat
  · have hfirst : ∀ n ≤ 'Z'.toNat,
        lowerAscii (Char.ofNat n) = (Char.ofNat n).toLower := by decide
    rw [← Char.ofNat_toNat c]
    exact hfirst c.toNat hc
  · have hbehind : ¬c ≤ 'Z' := hc
    rw [lowerAscii, if_neg (by simp [hbehind])]
    have hother : ¬(c.val ≥ 'A'.val ∧ c.val ≤ 'Z'.val) :=
      fun hcapital => hbehind hcapital.2
    exact (dif_neg (e := fun _ => c) hother).symm

/-- Case of ASCII letters is what the library's lower case of strings
forgets. -/
theorem equalIgnoringAsciiCase_iff {s t : String} :
    equalIgnoringAsciiCase s t = true ↔ s.toLower = t.toLower := by
  have hletters : ∀ text : String,
      text.toLower.toList = text.toList.map lowerAscii := by
    intro text
    rw [funext lowerAscii_eq_toLower]
    exact String.toList_map
  rw [equalIgnoringAsciiCase, beq_iff_eq, ← String.toList_inj, hletters,
    hletters]

end Text

namespace Router

variable {σ : Type}

/-! ## Looking a name up -/

/-- What a name leads to: the earliest generator that has it, up to the case of
ASCII letters, or the failure when no generator has it. -/
inductive Finds (generators : List (Generator σ)) (name : String)
    (failure : Failure) : Except Failure (Generator σ) → Prop where
  | earliest {before : List (Generator σ)} {generator : Generator σ}
      {after : List (Generator σ)}
      (hsplit : generators = before ++ generator :: after)
      (hname : generator.name.toLower = name.toLower)
      (hbefore : ∀ other ∈ before, other.name.toLower ≠ name.toLower) :
      Finds generators name failure (.ok generator)
  | missing
      (hmissing : ∀ other ∈ generators, other.name.toLower ≠ name.toLower) :
      Finds generators name failure (.error failure)

variable {router : Router σ} {generator : Generator σ} {provider : String}

theorem Finds.failure_eq {generators : List (Generator σ)}
    {failure other : Failure} (h : Finds generators provider failure (.error other)) :
    other = failure := by
  cases h
  rfl

theorem finds_resolve (router : Router σ) (provider : String) :
    Finds router.generators (router.wanted provider)
      (unavailable (router.wanted provider)) (router.resolve provider) := by
  rw [resolve]
  cases hfind : router.find? (router.wanted provider) with
  | some generator =>
      obtain ⟨hname, before, after, hsplit, hbefore⟩ :=
        List.find?_eq_some_iff_append.mp hfind
      refine .earliest hsplit (Text.equalIgnoringAsciiCase_iff.mp hname) ?_
      intro other hother heq
      have hother := hbefore other hother
      rw [Text.equalIgnoringAsciiCase_iff.mpr heq] at hother
      contradiction
  | none =>
      refine .missing fun other hother heq => ?_
      exact List.find?_eq_none.mp hfind other hother
        (Text.equalIgnoringAsciiCase_iff.mpr heq)

theorem unavailable_of_ne (hprovider : provider ≠ "") :
    unavailable provider = .serviceUnavailable provider := by
  rw [unavailable, if_neg (by simpa using hprovider)]

theorem wanted_of_ne (router : Router σ) (hprovider : provider ≠ "") :
    router.wanted provider = provider := by
  rw [wanted, if_neg (by simpa using hprovider)]

theorem wanted_empty (router : Router σ) :
    router.wanted "" = router.default.getD "" := rfl

theorem resolve_eq_ok_iff :
    router.resolve provider = .ok generator ↔
      router.find? (router.wanted provider) = some generator := by
  rw [resolve]
  cases router.find? (router.wanted provider) with
  | some found => simp
  | none => simp

theorem failure_of_resolve {failure : Failure}
    (h : router.resolve provider = .error failure) :
    failure = unavailable (router.wanted provider) := by
  have hfinds := finds_resolve router provider
  rw [h] at hfinds
  exact hfinds.failure_eq

/-! ## Adding a generator -/

theorem find?_add {name : String} (hfind : router.find? name = some generator)
    (other : Generator σ) : (router.add other).find? name = some generator := by
  rw [find?] at hfind
  rw [find?, add, List.find?_append, hfind, Option.some_or]

/-- A request that is answered goes on being answered by the same generator, as
long as there are no generators without a default. -/
theorem resolve_add (hdefault : router.default = none → router.generators = [])
    (hresolve : router.resolve provider = .ok generator)
    (other : Generator σ) :
    (router.add other).resolve provider = .ok generator := by
  rw [resolve_eq_ok_iff] at hresolve ⊢
  have hwanted : (router.add other).wanted provider =
      router.wanted provider := by
    cases hchosen : router.default with
    | some chosen => simp [wanted, add, hchosen]
    | none => simp [find?, hdefault hchosen] at hresolve
  rw [hwanted]
  exact find?_add hresolve other

/-! ## Histories -/

/-- A change of a router. -/
inductive Change (σ : Type) where
  | add (generator : Generator σ)
  | setDefault (provider : String)

/-- The router after the change. -/
def step (router : Router σ) : Change σ → Router σ
  | .add generator => router.add generator
  | .setDefault provider => router.setDefault provider

/-- The router after changes that begin with an empty one. -/
def after (changes : List (Change σ)) : Router σ := changes.foldl step empty

/-- The generator that the change adds. -/
def Change.generator? : Change σ → Option (Generator σ)
  | .add generator => some generator
  | .setDefault _ => none

/-- The default that the change sets. -/
def Change.provider? : Change σ → Option String
  | .add _ => none
  | .setDefault provider => some provider

/-- The generators that were added, the earliest first. -/
def added (changes : List (Change σ)) : List (Generator σ) :=
  changes.filterMap Change.generator?

/-- The default that was set last, or else the name of the generator that was
added first. -/
def default? (changes : List (Change σ)) : Option String :=
  (changes.filterMap Change.provider?).getLast?.or
    ((added changes).head?.map (·.name))

theorem after_append (changes later : List (Change σ)) :
    after (changes ++ later) = later.foldl step (after changes) :=
  List.foldl_append

theorem added_append (changes later : List (Change σ)) :
    added (changes ++ later) = added changes ++ added later :=
  List.filterMap_append

theorem default?_concat_add (changes : List (Change σ))
    (generator : Generator σ) :
    default? (changes ++ [.add generator]) =
      (default? changes).or (some generator.name) := by
  have hhead : (added (changes ++ [.add generator])).head?.map (·.name) =
      ((added changes).head?.map (·.name)).or (some generator.name) := by
    rw [added_append]
    cases added changes with
    | nil => rfl
    | cons first others => rfl
  have hchosen : (changes ++ [Change.add generator]).filterMap
      Change.provider? = changes.filterMap Change.provider? := by
    rw [List.filterMap_append]
    exact List.append_nil _
  rw [default?, hhead, hchosen, ← Option.or_assoc]
  rfl

theorem default?_concat_setDefault (changes : List (Change σ))
    (provider : String) :
    default? (changes ++ [.setDefault provider]) = some provider := by
  have hchosen : (changes ++ [Change.setDefault provider]).filterMap
      Change.provider? = changes.filterMap Change.provider? ++ [provider] :=
    List.filterMap_append
  rw [default?, hchosen, List.getLast?_concat, Option.some_or]

/-- What a router is can be read off its history. -/
theorem after_eq (changes : List (Change σ)) :
    after changes = ⟨added changes, default? changes⟩ := by
  induction changes using List.reverseRecOn with
  | nil => rfl
  | append_singleton changes change ih =>
      rw [after_append, ih, added_append]
      cases change with
      | add generator =>
          rw [default?_concat_add]
          rfl
      | setDefault provider =>
          rw [default?_concat_setDefault]
          exact congrArg (Router.mk · (some provider))
            (List.append_nil (added changes)).symm

theorem generators_after (changes : List (Change σ)) :
    (after changes).generators = added changes := by
  rw [after_eq]

theorem default_after (changes : List (Change σ)) :
    (after changes).default = default? changes := by
  rw [after_eq]

theorem generators_of_no_default {changes : List (Change σ)}
    (h : (after changes).default = none) : (after changes).generators = [] := by
  rw [default_after] at h
  obtain ⟨-, hhead⟩ := Option.or_eq_none_iff.mp h
  rw [generators_after]
  simpa using hhead

theorem resolve_after_adding {changes : List (Change σ)}
    (hresolve : (after changes).resolve provider = .ok generator)
    (later : List (Generator σ)) :
    (after (changes ++ later.map .add)).resolve provider = .ok generator := by
  induction later generalizing changes with
  | nil => simpa using hresolve
  | cons other later ih =>
      have hnext : (after (changes ++ [.add other])).resolve provider =
          .ok generator := by
        rw [after_append]
        exact resolve_add generators_of_no_default hresolve other
      simpa using ih hnext

/-- How requests are answered after changes. -/
structure AnswersRequests (changes : List (Change σ)) : Prop where
  /-- A request that names a provider is answered by the earliest generator of
  that name. -/
  named : ∀ provider, provider ≠ "" →
    Finds (added changes) provider (.serviceUnavailable provider)
      ((after changes).resolve provider)
  /-- A request that names none means the default. -/
  unnamed : ∀ name, default? changes = some name → name ≠ "" →
    Finds (added changes) name (.serviceUnavailable name)
      ((after changes).resolve "")
  /-- The default may be the empty name, or there is none. -/
  blank : (default? changes).getD "" = "" →
    Finds (added changes) "" (.serviceUnavailable "no text generator configured")
      ((after changes).resolve "")
  /-- Generators that are added later do not answer in the place of another. -/
  stable : ∀ provider generator,
    (after changes).resolve provider = .ok generator →
      ∀ later : List (Generator σ),
        (after (changes ++ later.map .add)).resolve provider = .ok generator

theorem resolve_after_changes (changes : List (Change σ)) :
    AnswersRequests changes where
  named := by
    intro provider hprovider
    have hfinds := finds_resolve (after changes) provider
    rwa [wanted_of_ne _ hprovider, unavailable_of_ne hprovider,
      generators_after] at hfinds
  unnamed := by
    intro name hname hne
    have hfinds := finds_resolve (after changes) ""
    rwa [wanted_empty, default_after, hname, Option.getD_some,
      unavailable_of_ne hne, generators_after] at hfinds
  blank := by
    intro hblank
    have hfinds := finds_resolve (after changes) ""
    rwa [wanted_empty, default_after, hblank, generators_after] at hfinds
  stable := fun _ _ => resolve_after_adding

/-- The failure does not repeat an empty default, which here no generator has for
its name. -/
theorem blankDefault_not_named :
    let changes : List (Change Scripted.World) :=
      [.add (Scripted.echo "alpha" 0), .setDefault ""]
    default? changes = some "" ∧
      ¬Finds (added changes) "" (.serviceUnavailable "")
        ((after changes).resolve "") := by
  intro changes
  have hname : Text.equalIgnoringAsciiCase "alpha" "" = false := by decide
  have hresolve : (after changes).resolve "" =
      .error (.serviceUnavailable "no text generator configured") := by
    simp [changes, after, step, setDefault, add, empty, resolve, find?, wanted,
      unavailable, Scripted.echo, hname]
  refine ⟨rfl, fun hfinds => ?_⟩
  rw [hresolve] at hfinds
  exact absurd hfinds.failure_eq (by decide)

end Router

end SkillEngine

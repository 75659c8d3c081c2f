import Mathlib.Data.List.Forall2
import SkillEngine.Execution.Merge
import SkillEngine.Proofs.Json.Basic

/-!
# Combining outputs

Appended outputs are a list of what the outputs supply.  Each of its elements
has a place, which says from what output it comes and where it stands there; the
places go through the outputs in order and name all that there is, so nothing is
lost and nothing comes twice.

Outputs that are laid over one another are one object, in which the last object
that has a name decides about it.  Objects that are laid over one another first
decide together as they do one by one.
-/

namespace SkillEngine

variable {outputs : List Json}

/-! ## Appending -/

/-- The value is supplied at the place: in the output of the first number.  In
an array the second number counts the elements; any other output is supplied
whole, at number zero. -/
inductive Supplies (outputs : List Json) : Nat × Nat → Json → Prop where
  | item {number position : Nat} {items : List Json} {value : Json}
      (houtput : outputs[number]? = some (.array items))
      (hitem : items[position]? = some value) :
      Supplies outputs (number, position) value
  | whole {number : Nat} {output : Json}
      (houtput : outputs[number]? = some output)
      (hplain : ∀ items, output ≠ .array items) :
      Supplies outputs (number, 0) output

/-- The list holds what the outputs supply, each value once and in order. -/
def Gathers (outputs flat : List Json) : Prop :=
  ∃ places : List (Nat × Nat),
    places.Pairwise (Prod.Lex (· < ·) (· < ·)) ∧
      (∀ place, place ∈ places ↔ ∃ value, Supplies outputs place value) ∧
      List.Forall₂ (Supplies outputs) places flat

theorem appended_of_plain {output : Json}
    (hplain : ∀ items, output ≠ .array items) : appended output = [output] := by
  cases output with
  | array items => exact absurd rfl (hplain items)
  | _ => rfl

theorem supplies_iff {place : Nat × Nat} {value : Json} :
    Supplies outputs place value ↔
      ∃ output, outputs[place.1]? = some output ∧
        (appended output)[place.2]? = some value := by
  constructor
  · intro h
    cases h with
    | item houtput hitem => exact ⟨_, houtput, hitem⟩
    | whole houtput hplain =>
        refine ⟨value, houtput, ?_⟩
        rw [appended_of_plain hplain]
        rfl
  · rintro ⟨output, houtput, hvalue⟩
    by_cases harray : ∃ items, output = .array items
    · obtain ⟨items, rfl⟩ := harray
      exact .item houtput hvalue
    · have hplain : ∀ items, output ≠ .array items := fun items heq =>
        harray ⟨items, heq⟩
      rw [appended_of_plain hplain, List.getElem?_singleton] at hvalue
      split at hvalue
      next hzero =>
        obtain rfl := Option.some.inj hvalue
        rw [show place = (place.1, 0) from Prod.ext rfl hzero]
        exact .whole houtput hplain
      next => contradiction

/-- The places of all that outputs supply, in order. -/
def places : List Json → List (Nat × Nat)
  | [] => []
  | output :: outputs =>
    (List.range (appended output).length).map (fun position => (0, position)) ++
      (places outputs).map fun place => (place.1 + 1, place.2)

theorem mem_places_iff {place : Nat × Nat} :
    place ∈ places outputs ↔
      ∃ output, outputs[place.1]? = some output ∧
        place.2 < (appended output).length := by
  induction outputs generalizing place with
  | nil => simp [places]
  | cons output outputs ih =>
      obtain ⟨number, position⟩ := place
      rw [places, List.mem_append, List.mem_map, List.mem_map]
      cases number with
      | zero => simp
      | succ number =>
          simp only [Prod.mk.injEq, Nat.add_right_cancel_iff,
            List.getElem?_cons_succ]
          rw [← @ih (number, position)]
          constructor
          · rintro (⟨_, -, hzero, -⟩ | ⟨place, hplace, rfl, rfl⟩)
            · contradiction
            · exact hplace
          · intro hplace
            exact .inr ⟨(number, position), hplace, rfl, rfl⟩

theorem pairwise_places (outputs : List Json) :
    (places outputs).Pairwise (Prod.Lex (· < ·) (· < ·)) := by
  induction outputs with
  | nil => exact List.Pairwise.nil
  | cons output outputs ih =>
      rw [places, List.pairwise_append]
      refine ⟨?_, ?_, ?_⟩
      · exact List.pairwise_lt_range.map _ fun _ _ hlt => .right 0 hlt
      · refine ih.map _ fun first second hlt => ?_
        rw [Prod.lex_def] at hlt ⊢
        simpa using hlt
      · intro first hfirst second hsecond
        obtain ⟨position, -, rfl⟩ := List.mem_map.mp hfirst
        obtain ⟨place, -, rfl⟩ := List.mem_map.mp hsecond
        exact .left _ _ (Nat.succ_pos place.1)

theorem supplies_places (outputs : List Json) :
    List.Forall₂ (Supplies outputs) (places outputs)
      (outputs.flatMap appended) := by
  induction outputs with
  | nil => exact .nil
  | cons output outputs ih =>
      rw [places, List.flatMap_cons]
      apply List.rel_append
      · rw [List.forall₂_map_left_iff, List.forall₂_iff_get]
        refine ⟨List.length_range, fun position _ hposition => ?_⟩
        rw [supplies_iff]
        refine ⟨output, rfl, ?_⟩
        simp
      · rw [List.forall₂_map_left_iff]
        refine ih.imp fun place value hsupplies => ?_
        rw [supplies_iff] at hsupplies ⊢
        exact hsupplies

theorem gathers_appended (outputs : List Json) :
    Gathers outputs (outputs.flatMap appended) := by
  refine ⟨places outputs, pairwise_places outputs, fun place => ?_,
    supplies_places outputs⟩
  rw [mem_places_iff]
  constructor
  · rintro ⟨output, houtput, hposition⟩
    exact ⟨_, supplies_iff.mpr
      ⟨output, houtput, List.getElem?_eq_getElem hposition⟩⟩
  · rintro ⟨value, hsupplies⟩
    obtain ⟨output, houtput, hvalue⟩ := supplies_iff.mp hsupplies
    exact ⟨output, houtput, (List.getElem?_eq_some_iff.mp hvalue).1⟩

/-! ## Laying objects over one another -/

/-- The objects among the outputs, laid over one another. -/
def overlay (outputs : List Json) : Json.Object :=
  Dict.ofList (outputs.flatMap Json.fieldsOrEmpty)

/-- No object among the outputs has two fields of one name. -/
def Keyed (outputs : List Json) : Prop :=
  ∀ fields : Json.Object, Json.object fields ∈ outputs → fields.names.Nodup

/-- The object has the fields of the objects among the outputs, each as the last
object has it in which it occurs. -/
structure Overlays (outputs : List Json) (merged : Json.Object) : Prop where
  sorted : Dict.Sorted merged
  mem_names_iff : ∀ name, name ∈ Dict.names merged ↔
    ∃ fields : Json.Object, Json.object fields ∈ outputs ∧
      name ∈ fields.names
  find?_iff : ∀ name value, Dict.find? merged name = some value ↔
    ∃ earlier, ∃ fields : Json.Object, ∃ later,
      outputs = earlier ++ .object fields :: later ∧
        fields.find? name = some value ∧
        ∀ other : Json.Object, .object other ∈ later → name ∉ other.names

theorem find?_fieldsOrEmpty (output : Json) (name : String) :
    output.fieldsOrEmpty.find? name = output.field? name := by
  cases output with
  | object fields => rfl
  | _ => rfl

theorem overlay_append (xs ys : List Json) :
    overlay (xs ++ ys) =
      (overlay xs).insertAll (ys.flatMap Json.fieldsOrEmpty) := by
  rw [overlay, List.flatMap_append]
  exact Dict.insertAll_append [] _ _

/-- What is found is what the last output has that has anything. -/
theorem find?_overlay (hkeyed : Keyed outputs) (name : String) :
    (overlay outputs).find? name =
      outputs.reverse.findSome? (·.field? name) := by
  induction outputs using List.reverseRecOn with
  | nil => rfl
  | append_singleton outputs output ih =>
      have hfront : Keyed outputs := fun fields hmem =>
        hkeyed fields (List.mem_append_left _ hmem)
      have hnodup : (output.fieldsOrEmpty.map (·.1)).Nodup := by
        cases output with
        | object fields => exact hkeyed fields (by simp)
        | _ => exact List.nodup_nil
      rw [overlay_append, List.flatMap_singleton, Dict.find?_insertAll hnodup,
        find?_fieldsOrEmpty, ih hfront, List.reverse_append,
        List.reverse_singleton, List.singleton_append, List.findSome?_cons]
      cases output.field? name with
      | none => rfl
      | some value => rfl

theorem field?_eq_none_iff {outputs : List Json} {name : String} :
    (∀ output ∈ outputs, output.field? name = none) ↔
      ∀ fields : Json.Object, .object fields ∈ outputs →
        name ∉ fields.names := by
  constructor
  · intro h fields hmem hname
    rw [← Dict.has_iff_mem_names, Dict.has_iff_exists] at hname
    obtain ⟨value, hvalue⟩ := hname
    have hnone : fields.find? name = none := h _ hmem
    rw [hnone] at hvalue
    contradiction
  · intro h output hmem
    by_contra hfound
    obtain ⟨value, hvalue⟩ := Option.ne_none_iff_exists'.mp hfound
    obtain ⟨fields, rfl, hfield⟩ := Json.field?_eq_some_iff.mp hvalue
    exact h fields hmem (Dict.mem_names_of_find? hfield)

theorem overlays_overlay (hkeyed : Keyed outputs) :
    Overlays outputs (overlay outputs) where
  sorted := Dict.sorted_ofList _
  mem_names_iff := by
    intro name
    rw [← Dict.has_iff_mem_names, Dict.has, find?_overlay hkeyed,
      List.findSome?_isSome_iff]
    constructor
    · rintro ⟨output, hmem, hsome⟩
      obtain ⟨value, hvalue⟩ := Option.isSome_iff_exists.mp hsome
      obtain ⟨fields, rfl, hfield⟩ := Json.field?_eq_some_iff.mp hvalue
      exact ⟨fields, List.mem_reverse.mp hmem, Dict.mem_names_of_find? hfield⟩
    · rintro ⟨fields, hmem, hname⟩
      exact ⟨_, List.mem_reverse.mpr hmem, Dict.has_iff_mem_names.mpr hname⟩
  find?_iff := by
    intro name value
    rw [find?_overlay hkeyed, List.findSome?_eq_some_iff]
    constructor
    · rintro ⟨later, output, earlier, hsplit, hvalue, hlater⟩
      obtain ⟨fields, rfl, hfield⟩ := Json.field?_eq_some_iff.mp hvalue
      refine ⟨earlier.reverse, fields, later.reverse, ?_, hfield, ?_⟩
      · rw [← List.reverse_reverse outputs, hsplit]
        simp
      · exact field?_eq_none_iff.mp fun output hmem =>
          hlater output (List.mem_reverse.mp hmem)
    · rintro ⟨earlier, fields, later, rfl, hfield, hlater⟩
      refine ⟨later.reverse, .object fields, earlier.reverse, by simp,
        hfield, fun output hmem => ?_⟩
      exact field?_eq_none_iff.mpr hlater output (List.mem_reverse.mp hmem)

/-- Outputs that are no objects are passed over. -/
theorem overlay_eq_of_objects (outputs : List Json) :
    overlay outputs =
      Dict.ofList (outputs.filterMap Json.object?).flatten := by
  rw [overlay]
  congr 1
  induction outputs with
  | nil => rfl
  | cons output outputs ih =>
      rw [List.flatMap_cons, ih]
      cases output with
      | object fields => rfl
      | _ => rfl

/-- What the first outputs give stands for them. -/
theorem overlay_cons_overlay (xs ys : List Json) :
    overlay (.object (overlay xs) :: ys) = overlay (xs ++ ys) := by
  have hfirst : overlay [.object (overlay xs)] = overlay xs := by
    rw [overlay, List.flatMap_singleton]
    exact (Dict.sorted_ofList _).ofList_eq
  rw [← List.singleton_append, overlay_append, overlay_append, hfirst]

/-- What the last outputs give stands for them. -/
theorem overlay_append_overlay (xs ys : List Json) :
    overlay (xs ++ [.object (overlay ys)]) = overlay (xs ++ ys) := by
  rw [overlay_append, overlay_append, List.flatMap_singleton]
  exact (Dict.sorted_ofList _).insertAll_ofList _

/-! ## Two lists of outputs -/

/-- How the outputs of two lists, the second behind the first, combine under
every rule. -/
structure OutputsCombine (xs ys : List Json) : Prop where
  /-- Appended outputs are those of the one list and those of the other. -/
  append : ∀ template, ∃ first second,
    mergeOutputs xs (some ⟨.append, template⟩) = .array first ∧
      mergeOutputs ys (some ⟨.append, template⟩) = .array second ∧
      mergeOutputs (xs ++ ys) (some ⟨.append, template⟩) =
        .array (first ++ second) ∧
      Gathers (xs ++ ys) (first ++ second)
  /-- Merged outputs are one object with what the last object says. -/
  merge : ∀ template, ∃ merged,
    mergeOutputs (xs ++ ys) (some ⟨.merge, template⟩) = .object merged ∧
      Overlays (xs ++ ys) merged
  /-- Only the objects count. -/
  objects : ∀ template (others : List Json),
    others.filterMap Json.object? = (xs ++ ys).filterMap Json.object? →
      mergeOutputs others (some ⟨.merge, template⟩) =
        mergeOutputs (xs ++ ys) (some ⟨.merge, template⟩)
  /-- The second list can be merged over what the first has given. -/
  resumed : ∀ template,
    mergeOutputs (mergeOutputs xs (some ⟨.merge, template⟩) :: ys)
        (some ⟨.merge, template⟩) =
      mergeOutputs (xs ++ ys) (some ⟨.merge, template⟩)
  /-- What the two lists have given can be merged. -/
  halves : ∀ template,
    mergeOutputs [mergeOutputs xs (some ⟨.merge, template⟩),
        mergeOutputs ys (some ⟨.merge, template⟩)]
        (some ⟨.merge, template⟩) =
      mergeOutputs (xs ++ ys) (some ⟨.merge, template⟩)
  /-- Without a rule, and where the rule is left to others or has no text, the
  list is what comes out. -/
  kept : ∀ rule : Option ResultMerge,
    (∀ merge, rule = some merge → merge.strategy = .custom ∨
      merge.strategy = .template ∧ merge.template = none) →
      mergeOutputs (xs ++ ys) rule = .array (xs ++ ys)

theorem mergeOutputs_combines (xs ys : List Json) (hkeyed : Keyed (xs ++ ys)) :
    OutputsCombine xs ys where
  append := by
    intro template
    have happend : (xs ++ ys).flatMap appended =
        xs.flatMap appended ++ ys.flatMap appended := List.flatMap_append
    refine ⟨_, _, rfl, rfl, congrArg Json.array happend, ?_⟩
    rw [← happend]
    exact gathers_appended (xs ++ ys)
  merge := fun template => ⟨overlay (xs ++ ys), rfl, overlays_overlay hkeyed⟩
  objects := by
    intro template others hobjects
    have hoverlay : overlay others = overlay (xs ++ ys) := by
      rw [overlay_eq_of_objects, overlay_eq_of_objects, hobjects]
    exact congrArg Json.object hoverlay
  resumed := fun template => congrArg Json.object (overlay_cons_overlay xs ys)
  halves := by
    intro template
    have hhalves : overlay [.object (overlay xs), .object (overlay ys)] =
        overlay (xs ++ ys) := by
      rw [overlay_cons_overlay, overlay_append_overlay]
    exact congrArg Json.object hhalves
  kept := by
    intro rule hrule
    cases rule with
    | none => rfl
    | some merge =>
        obtain ⟨strategy, template⟩ := merge
        rcases hrule _ rfl with hcustom | ⟨hstrategy, hnone⟩
        · obtain rfl : strategy = .custom := hcustom
          rfl
        · obtain rfl : strategy = .template := hstrategy
          obtain rfl : template = none := hnone
          rfl

/-- A nested array, objects that share a name, and a null between them. -/
theorem nested_outputs_combine :
    Keyed ([.array [.string "a", .array [.string "b"]],
        .object [("a", .nat 1), ("b", .object [("x", .nat 1)])]] ++
        [.null, .object [("b", .nat 2)]]) ∧
      OutputsCombine [.array [.string "a", .array [.string "b"]],
        .object [("a", .nat 1), ("b", .object [("x", .nat 1)])]]
        [.null, .object [("b", .nat 2)]] := by
  have hkeyed : Keyed ([.array [.string "a", .array [.string "b"]],
      .object [("a", .nat 1), ("b", .object [("x", .nat 1)])]] ++
      [.null, .object [("b", .nat 2)]]) := by
    intro fields hmem
    simp only [List.cons_append, List.nil_append, List.mem_cons,
      reduceCtorEq, Json.object.injEq, List.not_mem_nil, false_or,
      or_false] at hmem
    rcases hmem with rfl | rfl
    · decide
    · decide
  exact ⟨hkeyed, mergeOutputs_combines _ _ hkeyed⟩

end SkillEngine

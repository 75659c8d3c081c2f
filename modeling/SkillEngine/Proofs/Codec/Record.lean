import SkillEngine.Codec.Record
import SkillEngine.Proofs.Codec.Conveyance

/-!
# Records on the way

What a record reads from what became of its fields is the *outcome* of its
description.  The outcome of a whole description is put together from the
outcomes of the single fields, because a description writes and reads only the
fields that it names and no name occurs twice.  The codec of the record reads
this outcome.
-/

namespace SkillEngine.Record

variable {ρ α β : Type} {view : Conveyance} {passage : Passage}

@[simp] theorem names_field (name : String) (codec : Codec β)
    (absent : Except DecodeError β) (hidden : β → Bool) (get : ρ → β) :
    (field name codec absent hidden get).names = [name] := rfl

@[simp] theorem names_seq (function : Record ρ (α → β)) (argument : Record ρ α) :
    (function <*> argument).names = function.names ++ argument.names :=
  List.map_append

theorem write_field (name : String) (codec : Codec β)
    (absent : Except DecodeError β) (hidden : β → Bool) (get : ρ → β)
    (value : ρ) :
    (field name codec absent hidden get).write value =
      if hidden (get value) then [] else [(name, codec.encode (get value))] :=
  rfl

theorem write_seq (function : Record ρ (α → β)) (argument : Record ρ α)
    (value : ρ) :
    (function <*> argument).write value =
      function.write value ++ argument.write value := rfl

/-! ## Descriptions that stay within their names -/

/-- The description writes and reads only the fields that it names, and writes
them in their order. -/
class Honest (record : Record ρ α) : Prop where
  written : ∀ value,
    ((record.write value).map Prod.fst).Sublist record.names
  reads : ∀ passage {find other : String → Option Json},
    (∀ name ∈ record.names, find name = other name) →
      record.build passage find = record.build passage other

instance (name : String) (codec : Codec β) (absent : Except DecodeError β)
    (hidden : β → Bool) (get : ρ → β) :
    Honest (field name codec absent hidden get) where
  written := by
    intro value
    rw [write_field, names_field]
    split <;> simp
  reads := by
    intro passage find other hagree
    simp only [field]
    rw [hagree name (List.mem_singleton_self name)]

instance (f : α → β) (record : Record ρ α) [Honest record] :
    Honest (f <$> record) where
  written := @Honest.written ρ α record _
  reads := fun passage _ _ hagree =>
    congrArg (Except.map f) (@Honest.reads ρ α record _ passage _ _ hagree)

instance (function : Record ρ (α → β)) (argument : Record ρ α)
    [Honest function] [Honest argument] : Honest (function <*> argument) where
  written := by
    intro value
    rw [names_seq, write_seq, List.map_append]
    exact (Honest.written value).append (Honest.written value)
  reads := by
    intro passage find other hagree
    rw [names_seq] at hagree
    have hfunction : function.build passage find =
        function.build passage other :=
      Honest.reads passage fun name hname =>
        hagree name (List.mem_append_left _ hname)
    have hargument : argument.build passage find =
        argument.build passage other :=
      Honest.reads passage fun name hname =>
        hagree name (List.mem_append_right _ hname)
    simp only [Seq.seq, hfunction, hargument]

instance (name : String) (codec : Codec β) (get : ρ → β) :
    Honest (required name codec get) :=
  inferInstanceAs (Honest (field ..))

instance (name : String) (codec : Codec β) (default : β) (get : ρ → β) :
    Honest (withDefault name codec default get) :=
  inferInstanceAs (Honest (field ..))

instance (name : String) (codec : Codec β) (get : ρ → Option β) :
    Honest (optional name codec get) :=
  inferInstanceAs (Honest (field ..))

instance (name : String) (codec : Codec β) (get : ρ → List β) :
    Honest (unlessEmpty name codec get) :=
  inferInstanceAs (Honest (field ..))

theorem mem_names_of_written {record : Record ρ α} [Honest record] {value : ρ}
    {name : String} (h : name ∈ Dict.names (record.write value)) :
    name ∈ record.names :=
  (Honest.written value).subset h

theorem nodup_written {record : Record ρ α} [Honest record]
    (hnodup : record.names.Nodup) (value : ρ) :
    (Dict.names (record.write value)).Nodup :=
  hnodup.sublist (Honest.written value)

/-! ## Outcomes -/

/-- What the description reads from what became of the fields that it wrote. -/
def outcome (view : Conveyance) (passage : Passage) (record : Record ρ α)
    (value : ρ) : Except DecodeError α :=
  record.build passage fun name =>
    (Dict.find? (record.write value) name).map view.carry

theorem outcome_field (name : String) (codec : Codec β)
    (absent : Except DecodeError β) (hidden : β → Bool) (get : ρ → β)
    (value : ρ) :
    (field name codec absent hidden get).outcome view passage value =
      if hidden (get value) then absent
      else codec.restore view passage (get value) := by
  cases hhidden : hidden (get value) with
  | true => simp [outcome, field, hhidden]
  | false =>
      simp [outcome, field, hhidden, Dict.find?_cons, Codec.restore]

theorem outcome_map (f : α → β) (record : Record ρ α) (value : ρ) :
    (f <$> record).outcome view passage value =
      f <$> record.outcome view passage value := rfl

/-- Without a common name the two parts of a description have outcomes of
their own. -/
theorem outcome_seq {function : Record ρ (α → β)} {argument : Record ρ α}
    [Honest function] [Honest argument]
    (hnodup : (function <*> argument).names.Nodup) (value : ρ) :
    (function <*> argument).outcome view passage value =
      function.outcome view passage value <*>
        argument.outcome view passage value := by
  rw [names_seq, List.nodup_append] at hnodup
  obtain ⟨-, -, hdisjoint⟩ := hnodup
  have hfunction : ∀ name ∈ function.names,
      Dict.find? ((function <*> argument).write value) name =
        Dict.find? (function.write value) name := by
    intro name hname
    have hnone : Dict.find? (argument.write value) name = none :=
      Dict.find?_eq_none fun hmem =>
        hdisjoint name hname name (mem_names_of_written hmem) rfl
    rw [write_seq, Dict.find?_append, hnone, Option.or_none]
  have hargument : ∀ name ∈ argument.names,
      Dict.find? ((function <*> argument).write value) name =
        Dict.find? (argument.write value) name := by
    intro name hname
    have hnone : Dict.find? (function.write value) name = none :=
      Dict.find?_eq_none fun hmem =>
        hdisjoint name (mem_names_of_written hmem) name hname rfl
    rw [write_seq, Dict.find?_append, hnone, Option.none_or]
  have hbuild : ∀ find : String → Option Json,
      (function <*> argument).build passage find =
        function.build passage find <*> argument.build passage find := by
    intro find
    simp only [Seq.seq]
    cases function.build passage find with
    | error fault => rfl
    | ok f => cases argument.build passage find <;> rfl
  rw [outcome, hbuild]
  congr 1
  · exact Honest.reads passage fun name hname =>
      congrArg (Option.map view.carry) (hfunction name hname)
  · funext
    exact Honest.reads passage fun name hname =>
      congrArg (Option.map view.carry) (hargument name hname)

/-! ## Records are read as their outcomes -/

theorem length_filter_le_one {entries : List (String × Json)}
    (hnodup : (Dict.names entries).Nodup) (name : String) :
    (entries.filter (·.1 == name)).length ≤ 1 := by
  have hcount := List.nodup_iff_count_le_one.mp hnodup name
  rwa [Dict.names, List.count_eq_countP, List.countP_map,
    List.countP_eq_length_filter] at hcount

theorem distinct_of_nodup (record : Record ρ α) {fields : List (String × Json)}
    (hnodup : (Dict.names fields).Nodup) : record.distinct fields = true := by
  rw [distinct, List.all_eq_true]
  intro name _
  exact decide_eq_true (length_filter_le_one hnodup name)

/-- From what became of its fields, in any order, a record is read as its
outcome. -/
theorem ofFields_eq_ok_iff (passage : Passage) {record : Record ρ α}
    [Honest record] (hnodup : record.names.Nodup) {value : ρ} {fields : List (String × Json)}
    (hperm : fields.Perm (Dict.mapValues view.carry (record.write value)))
    (result : α) :
    record.ofFields passage fields = .ok result ↔
      record.outcome view passage value = .ok result := by
  have hwritten : (Dict.names (Dict.mapValues view.carry
      (record.write value))).Nodup := by
    rw [Dict.names_mapValues]
    exact nodup_written hnodup value
  have hbuild : record.build passage (Dict.find? fields) =
      record.outcome view passage value := by
    refine Honest.reads passage fun name _ => ?_
    rw [Dict.find?_of_perm hperm hwritten, Dict.find?_mapValues]
  have hdistinct : record.distinct fields = true :=
    record.distinct_of_nodup ((hperm.map Prod.fst).nodup_iff.mpr hwritten)
  rw [ofFields, hbuild]
  cases record.outcome view passage value with
  | error fault => simp
  | ok other => simp [hdistinct]

/-- A record is read as its outcome. -/
theorem restore_of_outcome {record : Record ρ ρ} [Honest record]
    (hnodup : record.names.Nodup) {value result : ρ}
    (h : record.outcome view passage value = .ok result) :
    record.codec.restore view passage value = .ok result := by
  have hread : record.codec.restore view passage value =
      record.ofFields passage (view.carryFields (record.write value)) := by
    rw [Codec.restore, codec, view.carry_object]
    rfl
  rw [hread]
  exact (ofFields_eq_ok_iff passage hnodup
    (view.carryFields_perm _ (nodup_written hnodup value)) result).mpr h

theorem solid (record : Record ρ ρ) : record.codec.Solid view := by
  intro value
  rw [codec, view.carry_object]
  rfl

/-! ## The outcomes of the kinds of fields -/

@[simp] theorem outcome_required (name : String) (codec : Codec β)
    (get : ρ → β) (value : ρ) :
    (required name codec get).outcome view passage value =
      codec.restore view passage (get value) :=
  outcome_field ..

@[simp] theorem outcome_withDefault (name : String) (codec : Codec β)
    (default : β) (get : ρ → β) (value : ρ) :
    (withDefault name codec default get).outcome view passage value =
      codec.restore view passage (get value) :=
  outcome_field ..

@[simp] theorem outcome_optional (name : String) (codec : Codec β)
    (get : ρ → Option β) (value : ρ) :
    (optional name codec get).outcome view passage value =
      codec.option.restore view passage (get value) := by
  rw [optional, outcome_field]
  cases get value with
  | none => simp
  | some held => rfl

@[simp] theorem outcome_unlessEmpty (name : String) (codec : Codec β)
    (get : ρ → List β) (value : ρ) :
    (unlessEmpty name codec get).outcome view passage value =
      codec.list.restore view passage (get value) := by
  rw [unlessEmpty, outcome_field]
  cases get value with
  | nil => simp [Codec.restore_list, pure, Except.pure]
  | cons first more => rfl

/-! ## Descriptions that keep every record -/

/-- Every field of the description is always kept, so its outcome is what `get`
makes of the record. -/
class Complete (view : Conveyance) (record : Record ρ α)
    (get : outParam (ρ → α)) : Prop where
  outcome_eq : record.names.Nodup → ∀ passage value,
    record.outcome view passage value = .ok (get value)

section Complete

open Codec (Exact)

instance (name : String) (codec : Codec β) [Exact view codec] (get : ρ → β) :
    Complete view (required name codec get) get where
  outcome_eq := by simp

instance (name : String) (codec : Codec β) [Exact view codec] (default : β)
    (get : ρ → β) :
    Complete view (withDefault name codec default get) get where
  outcome_eq := by simp

instance (name : String) (codec : Codec β) [Exact view codec]
    (get : ρ → Option β) : Complete view (optional name codec get) get where
  outcome_eq := by simp

instance (f : α → β) (record : Record ρ α) (get : ρ → α)
    [Complete view record get] :
    Complete view (f <$> record) fun value => f (get value) where
  outcome_eq := by
    intro hnodup passage value
    have hrecord : record.names.Nodup := hnodup
    rw [outcome_map, Complete.outcome_eq hrecord]
    rfl

instance (function : Record ρ (α → β)) (argument : Record ρ α)
    (made : ρ → α → β) (get : ρ → α) [Honest function] [Honest argument]
    [Complete view function made] [Complete view argument get] :
    Complete view (function <*> argument)
      fun value => made value (get value) where
  outcome_eq := by
    intro hnodup passage value
    have hparts := hnodup
    rw [names_seq, List.nodup_append] at hparts
    rw [outcome_seq hnodup, Complete.outcome_eq hparts.1,
      Complete.outcome_eq hparts.2.1]
    rfl

end Complete

/-- A record with a complete description keeps every value. -/
theorem exact {record : Record ρ ρ} [Honest record]
    [h : Complete view record fun value => value]
    (hnodup : record.names.Nodup) : Codec.Exact view record.codec where
  keeps passage value :=
    restore_of_outcome hnodup (h.outcome_eq hnodup passage value)
  solid := record.solid

end SkillEngine.Record

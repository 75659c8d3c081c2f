import SkillEngine.Codec.Basic
import SkillEngine.Proofs.Json.Basic
import SkillEngine.Proofs.Number.Conversion
import SkillEngine.Proofs.Outcome

/-!
# The way from a writer to a reader

Between the codec that writes a document and the one that reads it the
document changes its form: it is brought into canonical form, or it is printed
and parsed.  A `Conveyance` is such a change that loses nothing but the order
of fields and the numbers that are not finite.  A codec *keeps* a value when
it reads the same value from what became of the document that it wrote.

The codecs of plain values, options and lists are settled here once for every
conveyance; records and tagged records in the modules beside this one.
-/

namespace SkillEngine

/-- A change of documents on the way from their writer to their reader. -/
structure Conveyance where
  carry : Json → Json
  carryFields : List (String × Json) → List (String × Json)
  carry_null : carry .null = .null
  carry_bool : ∀ value, carry (.bool value) = .bool value
  carry_string : ∀ value, carry (.string value) = .string value
  carry_integer : ∀ value,
    carry (.number (.integer value)) = .number (.integer value)
  carry_single : ∀ value : Single, value.isFinite = true →
    ∃ carried, carry (.number (.single value)) = .number carried ∧
      Codec.nearest carried = .ok value
  carry_double : ∀ value : Double, value.isFinite = true →
    ∃ carried, carry (.number (.double value)) = .number carried ∧
      Codec.nearest carried = .ok value
  lose_single : ∀ value : Single, value.isFinite = false →
    carry (.number (.single value)) = .null
  lose_double : ∀ value : Double, value.isFinite = false →
    carry (.number (.double value)) = .null
  carry_array : ∀ items, carry (.array items) = .array (items.map carry)
  carry_object : ∀ fields,
    carry (.object fields) = .object (carryFields fields)
  carryFields_perm : ∀ fields, (fields.map Prod.fst).Nodup →
    (carryFields fields).Perm (Dict.mapValues carry fields)
  /-- A document in canonical form is the canonical form of what it becomes. -/
  carry_canonical : ∀ document, document.canonical = document →
    (carry document).canonical = document

namespace Codec

theorem nearest_single {value : Single} (hfinite : value.isFinite = true) :
    nearest (.single value) = .ok value := by
  rw [nearest, Floating.convert_self hfinite]

theorem nearest_double {value : Double} (hfinite : value.isFinite = true) :
    nearest (.double value) = .ok value := by
  rw [nearest, Floating.convert_self hfinite]

theorem nearest_widened {value : Single} (hfinite : value.isFinite = true) :
    nearest (.double value.convert) = .ok value := by
  have hback : (value.convert : Double).convert = value :=
    (Floating.convert_widen hfinite).2
  rw [nearest, hback]

end Codec

namespace Json

/-- The canonical form of documents as a conveyance. -/
def canonicalConveyance : Conveyance where
  carry := canonical
  carryFields fields := Dict.ofList (canonicalFields fields)
  carry_null := rfl
  carry_bool _ := rfl
  carry_string _ := rfl
  carry_integer _ := rfl
  carry_single value hfinite :=
    ⟨.double value.convert, by simp [canonical, ofNumber, hfinite],
      Codec.nearest_widened hfinite⟩
  carry_double value hfinite :=
    ⟨.double value, by simp [canonical, ofNumber, hfinite],
      Codec.nearest_double hfinite⟩
  lose_single value hlost := by simp [canonical, ofNumber, hlost]
  lose_double value hlost := by simp [canonical, ofNumber, hlost]
  carry_array := canonical_array
  carry_object fields := rfl
  carryFields_perm fields hnodup := by
    rw [canonicalFields_eq_mapValues]
    refine Dict.ofList_perm ?_
    rw [← Dict.names, Dict.names_mapValues]
    exact hnodup
  carry_canonical document hcanonical := by rw [hcanonical, hcanonical]

end Json

namespace Codec

variable {α : Type} {view : Conveyance} {passage : Passage}

/-- What is read from what became of the document of a value. -/
def restore (view : Conveyance) (passage : Passage) (codec : Codec α)
    (value : α) : Except DecodeError α :=
  codec.decode passage (view.carry (codec.encode value))

/-- The codec reads a value again from what became of its document. -/
def Keeps (view : Conveyance) (passage : Passage) (codec : Codec α)
    (value : α) : Prop :=
  codec.restore view passage value = .ok value

/-- What becomes of the documents of the codec is never null. -/
def Solid (view : Conveyance) (codec : Codec α) : Prop :=
  ∀ value, (view.carry (codec.encode value)).isNull = false

/-- The codec keeps every value, and none of them becomes null. -/
class Exact (view : Conveyance) (codec : Codec α) : Prop where
  keeps : ∀ passage value, codec.Keeps view passage value
  solid : codec.Solid view

@[simp] theorem restore_of_exact (codec : Codec α) [Exact view codec]
    (value : α) : codec.restore view passage value = .ok value :=
  Exact.keeps passage value

/-! ## Plain values -/

instance : Exact view text where
  keeps := by
    intro passage value
    simp [Keeps, restore, text, view.carry_string]
  solid := by
    intro value
    simp [text, view.carry_string, Json.isNull]

instance : Exact view bool where
  keeps := by
    intro passage value
    simp [Keeps, restore, bool, view.carry_bool]
  solid := by
    intro value
    simp [bool, view.carry_bool, Json.isNull]

theorem natBelow_nat {limit value : Nat} (h : value < limit) :
    natBelow limit (.nat value) = .ok value := by
  simp [Json.nat, natBelow, h]

theorem carry_nat (view : Conveyance) (value : Nat) :
    view.carry (.nat value) = .nat value :=
  view.carry_integer value

-- The bound of a word is too great a number to be unfolded, so the two sides
-- of each word codec are opened by equations.

theorem decode_word32 (passage : Passage) (document : Json) :
    word32.decode passage document =
      (natBelow UInt32.size document).map UInt32.ofNat := rfl

theorem encode_word32 (value : UInt32) :
    word32.encode value = .nat value.toNat := rfl

instance : Exact view word32 where
  keeps := by
    intro passage value
    rw [Keeps, restore, encode_word32, carry_nat, decode_word32,
      natBelow_nat value.toNat_lt_size]
    simp only [Except.map, UInt32.ofNat_toNat]
  solid := by
    intro value
    rw [encode_word32, carry_nat]
    rfl

theorem decode_word64 (passage : Passage) (document : Json) :
    word64.decode passage document =
      (natBelow UInt64.size document).map UInt64.ofNat := rfl

theorem encode_word64 (value : UInt64) :
    word64.encode value = .nat value.toNat := rfl

instance : Exact view word64 where
  keeps := by
    intro passage value
    rw [Keeps, restore, encode_word64, carry_nat, decode_word64,
      natBelow_nat value.toNat_lt_size]
    simp only [Except.map, UInt64.ofNat_toNat]
  solid := by
    intro value
    rw [encode_word64, carry_nat]
    rfl

/-- A choice keeps its values when each is the first of its name. -/
theorem Exact.choice {values : List α} {name : α → String}
    (h : ∀ value, values.find? (name · == name value) = some value) :
    Exact view (choice values name) where
  keeps := by
    intro passage value
    simp [Keeps, restore, Codec.choice, view.carry_string, chosen, h]
  solid := by
    intro value
    simp [Codec.choice, view.carry_string, Json.isNull]

/-! ## Floating point numbers -/

theorem restore_single {value : Single} (hfinite : value.isFinite = true) :
    single.restore view passage value = .ok value := by
  obtain ⟨carried, hcarry, hnearest⟩ := view.carry_single value hfinite
  simp [restore, single, hcarry, hnearest]

theorem isNull_single (value : Single) :
    (view.carry (single.encode value)).isNull = !value.isFinite := by
  cases hfinite : value.isFinite with
  | true =>
      obtain ⟨carried, hcarry, -⟩ := view.carry_single value hfinite
      simp [single, hcarry, Json.isNull]
  | false => simp [single, view.lose_single value hfinite, Json.isNull]

theorem restore_double {value : Double} (hfinite : value.isFinite = true) :
    double.restore view passage value = .ok value := by
  obtain ⟨carried, hcarry, hnearest⟩ := view.carry_double value hfinite
  simp [restore, double, hcarry, hnearest]

theorem isNull_double (value : Double) :
    (view.carry (double.encode value)).isNull = !value.isFinite := by
  cases hfinite : value.isFinite with
  | true =>
      obtain ⟨carried, hcarry, -⟩ := view.carry_double value hfinite
      simp [double, hcarry, Json.isNull]
  | false => simp [double, view.lose_double value hfinite, Json.isNull]

/-! ## Free documents -/

theorem restore_any {document : Json}
    (hcanonical : document.canonical = document) :
    any.restore view passage document = .ok document := by
  simp [restore, any, view.carry_canonical document hcanonical]

/-- A document in canonical form becomes null only when it is null. -/
theorem isNull_any {document : Json}
    (hcanonical : document.canonical = document) :
    (view.carry (any.encode document)).isNull = document.isNull := by
  cases document with
  | null => simp [any, view.carry_null]
  | bool value => simp [any, view.carry_bool, Json.isNull]
  | string value => simp [any, view.carry_string, Json.isNull]
  | array items => simp [any, view.carry_array, Json.isNull]
  | object fields => simp [any, view.carry_object, Json.isNull]
  | number value =>
      have hcarry := view.carry_canonical _ hcanonical
      cases hcarried : view.carry (.number value) with
      | null => simp [hcarried, Json.canonical] at hcarry
      | _ => simp [any, hcarried, Json.isNull]

theorem restore_object {fields : Json.Object}
    (hcanonical : (Json.object fields).canonical = .object fields) :
    object.restore view passage fields = .ok fields := by
  have hcarry := view.carry_canonical _ hcanonical
  rw [view.carry_object, Json.canonical, Json.object.injEq] at hcarry
  simp [restore, object, view.carry_object, hcarry]

theorem solid_object : object.Solid view := by
  intro fields
  simp [object, view.carry_object, Json.isNull]

/-! ## Options and lists -/

@[simp] theorem restore_option_none (codec : Codec α) :
    codec.option.restore view passage none = .ok none := by
  simp [restore, option, view.carry_null, Json.isNull]

theorem restore_option_some (codec : Codec α) (value : α) :
    codec.option.restore view passage (some value) =
      if (view.carry (codec.encode value)).isNull then .ok none
      else (codec.restore view passage value).map some := rfl

/-- An option keeps its value, or is read as none when the value became
null. -/
theorem restore_option_of_filter {codec : Codec α} {kept : α → Bool}
    {held : Option α}
    (hnull : ∀ value ∈ held,
      (view.carry (codec.encode value)).isNull = !kept value)
    (hrestore : ∀ value ∈ held, kept value = true →
      codec.restore view passage value = .ok value) :
    codec.option.restore view passage held = .ok (held.filter kept) := by
  cases held with
  | none => simp
  | some value =>
      rw [restore_option_some, hnull value rfl]
      cases hkept : kept value with
      | false => simp [Option.filter, hkept]
      | true =>
          simp [hrestore value rfl hkept, Option.filter, hkept, Except.map]

/-- A number that is not finite is read as none. -/
@[simp] theorem restore_option_single (held : Option Single) :
    single.option.restore view passage held =
      .ok (held.filter (·.isFinite)) :=
  restore_option_of_filter (fun value _ => isNull_single value)
    fun _ _ => restore_single

@[simp] theorem restore_option_double (held : Option Double) :
    double.option.restore view passage held =
      .ok (held.filter (·.isFinite)) :=
  restore_option_of_filter (fun value _ => isNull_double value)
    fun _ _ => restore_double

/-- An option whose value never becomes null is read as what is read of its
value. -/
theorem Solid.restore_option {codec : Codec α} (hsolid : codec.Solid view)
    {f : α → α} {held : Option α}
    (h : ∀ value ∈ held, codec.restore view passage value = .ok (f value)) :
    codec.option.restore view passage held = .ok (held.map f) := by
  cases held with
  | none => simp
  | some value => simp [restore_option_some, hsolid value, h value rfl, Except.map]

theorem restore_list (codec : Codec α) (values : List α) :
    codec.list.restore view passage values =
      values.mapM (codec.restore view passage) := by
  simp [restore, list, view.carry_array, List.mapM_map, Function.comp_def]
  rfl

theorem restore_list_of_forall {codec : Codec α} {f : α → α}
    {values : List α}
    (h : ∀ value ∈ values,
      codec.restore view passage value = .ok (f value)) :
    codec.list.restore view passage values = .ok (values.map f) := by
  rw [restore_list]
  induction values with
  | nil => rfl
  | cons value values ih =>
      rw [List.forall_mem_cons] at h
      rw [List.mapM_cons, h.1, ok_bind, ih h.2]
      rfl

theorem solid_list (codec : Codec α) : codec.list.Solid view := by
  intro values
  simp [list, view.carry_array, Json.isNull]

instance (codec : Codec α) [Exact view codec] : Exact view codec.list where
  keeps := by
    intro passage values
    have h : codec.list.restore view passage values = .ok (values.map id) :=
      restore_list_of_forall fun value _ => restore_of_exact codec value
    rwa [List.map_id] at h
  solid := solid_list codec

@[simp] theorem restore_option_of_exact (codec : Codec α) [Exact view codec]
    (held : Option α) :
    codec.option.restore view passage held = .ok held := by
  have h : codec.option.restore view passage held = .ok (held.map id) :=
    Exact.solid.restore_option fun value _ => restore_of_exact codec value
  rwa [Option.map_id] at h

end Codec

end SkillEngine

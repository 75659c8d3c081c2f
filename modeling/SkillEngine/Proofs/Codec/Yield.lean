import SkillEngine.Codec.Tagged
import SkillEngine.Proofs.Json.Basic
import SkillEngine.Proofs.Outcome

/-!
# What codecs yield

A codec *yields* a property when every value that it reads has the property,
whatever the document was, or whatever it was among documents of which
something is known.  Free documents are yielded in canonical form; a record
yields what follows from what its fields yield, and a tagged record what each
of its kinds yields.
-/

namespace SkillEngine

variable {α β ρ : Type} {P : α → Prop} {Q : β → Prop} {legal : Json → Prop}

/-- An array has the property when its items have it, and an object when its
contents do. -/
class Json.Structural (legal : Json → Prop) : Prop where
  array_iff : ∀ items, legal (.array items) ↔ ∀ item ∈ items, legal item
  object_iff : ∀ fields, legal (.object fields) ↔
    ∀ entry ∈ fields, legal entry.2

instance : Json.Structural fun _ => True := ⟨by simp, by simp⟩

instance : Json.Structural Json.AllFinite where
  array_iff items := by
    rw [Json.AllFinite, Json.numbers, Json.numbersOfItems_eq_flatMap,
      List.forall_mem_flatMap]
    rfl
  object_iff fields := by
    rw [Json.AllFinite, Json.numbers, Json.numbersOfFields_eq_flatMap,
      List.forall_mem_flatMap]
    rfl

/-- Every value that the codec reads from a document of this sort has the
property. -/
def Codec.Yields (codec : Codec α) (P : α → Prop)
    (legal : Json → Prop := fun _ => True) : Prop :=
  ∀ passage document value, legal document →
    codec.decode passage document = .ok value → P value

/-- Every value that the description reads from contents of this sort has the
property. -/
def Record.Yields (record : Record ρ α) (P : α → Prop)
    (legal : Json → Prop := fun _ => True) : Prop :=
  ∀ passage find value, (∀ name, ∀ document ∈ find name, legal document) →
    record.build passage find = .ok value → P value

/-- Every value of the kind that is read from a document of this sort has the
property. -/
def Variant.Yields (variant : Variant α) (P : α → Prop)
    (legal : Json → Prop := fun _ => True) : Prop :=
  ∀ passage document value, legal document →
    variant.decode passage document = .ok value → P value

/-! ## Free documents, options and lists -/

namespace Codec

theorem any_yields : any.Yields fun document => document.canonical = document := by
  intro passage document value _ hread
  obtain rfl := Except.ok.inj hread
  exact Json.canonical_canonical document

theorem object_yields :
    object.Yields fun fields => (Json.object fields).canonical = .object fields := by
  intro passage document value _ hread
  cases document with
  | object fields =>
      obtain rfl := Except.ok.inj hread
      exact Json.canonical_canonical (.object fields)
  | _ => cases hread

theorem Yields.option {codec : Codec α} (h : codec.Yields P legal) :
    codec.option.Yields (fun held => ∀ value ∈ held, P value) legal := by
  intro passage document held hlegal hread value hvalue
  obtain rfl := Option.mem_def.mp hvalue
  simp only [Codec.option] at hread
  split at hread
  · simp at hread
  · obtain ⟨other, hdecode, hother⟩ := exceptMap_eq_ok_iff.mp hread
    obtain rfl := Option.some.inj hother
    exact h passage document other hlegal hdecode

theorem forall_of_mapM {ε : Type} {read : β → Except ε α} {items : List β}
    (h : ∀ item ∈ items, ∀ value, read item = .ok value → P value)
    {values : List α} (hread : items.mapM read = .ok values) :
    ∀ value ∈ values, P value := by
  induction items generalizing values with
  | nil =>
      obtain rfl := Except.ok.inj hread
      simp
  | cons item items ih =>
      rw [List.mapM_cons] at hread
      obtain ⟨first, hitem, hread⟩ := bind_eq_ok_iff.mp hread
      obtain ⟨more, hitems, hread⟩ := bind_eq_ok_iff.mp hread
      obtain rfl := Except.ok.inj hread
      rw [List.forall_mem_cons] at h
      exact List.forall_mem_cons.mpr ⟨h.1 first hitem, ih h.2 hitems⟩

theorem Yields.list [Json.Structural legal] {codec : Codec α}
    (h : codec.Yields P legal) :
    codec.list.Yields (fun values => ∀ value ∈ values, P value) legal := by
  intro passage document values hlegal hread
  cases document with
  | array items =>
      have hitems := (Json.Structural.array_iff items).mp hlegal
      exact forall_of_mapM
        (fun item hitem value => h passage item value (hitems item hitem)) hread
  | _ => cases hread

/-! ## Finite numbers -/

theorem isFinite_nearest {number : Number} {value : Double}
    (hfinite : number.IsFinite) (hread : nearest number = .ok value) :
    value.isFinite = true := by
  cases number with
  | integer whole =>
      rw [nearest] at hread
      split at hread
      next hfits =>
        obtain rfl := Except.ok.inj hread
        refine Floating.isFinite_ofInt ?_
        have hbounds : -(twoTo 63 : Int) ≤ whole ∧ whole < twoTo 64 := by
          simpa [fitsWord] using hfits
        have hhalf : twoTo 63 ≤ twoTo 64 := by decide
        omega
      next => simp at hread
  | single held =>
      obtain rfl := Except.ok.inj hread
      exact (Floating.convert_widen hfinite).1
  | double held =>
      obtain rfl := Except.ok.inj hread
      rwa [Floating.convert_self hfinite]

theorem double_yields :
    double.Yields (fun value => value.isFinite = true) Json.AllFinite := by
  intro passage document value hlegal hread
  cases document with
  | number held => exact isFinite_nearest (hlegal held (List.mem_singleton_self _)) hread
  | _ => cases hread

/-- A document that is there is not null, when its numbers are finite. -/
theorem default_yields :
    any.option.Yields (fun held => held ≠ some .null) Json.AllFinite := by
  rintro passage document held hlegal hread rfl
  cases document with
  | number held =>
      have hnumber := hlegal held (List.mem_singleton_self _)
      cases held <;>
        simp_all [option, any, Json.isNull, Json.canonical, Json.ofNumber,
          Number.IsFinite, Except.map]
  | _ => simp [option, any, Json.isNull, Json.canonical, Except.map] at hread

end Codec

/-! ## Records -/

namespace Record

theorem Yields.field {name : String} {codec : Codec α}
    {absent : Except DecodeError α} {hidden : α → Bool} {get : ρ → α}
    (h : codec.Yields P legal)
    (habsent : ∀ value, absent = .ok value → P value) :
    (field name codec absent hidden get).Yields P legal := by
  intro passage find value hlegal hread
  simp only [Record.field] at hread
  split at hread
  next document hfound =>
    exact h passage document value (hlegal name document hfound) hread
  next => exact habsent value hread

theorem Yields.required {name : String} {codec : Codec α} {get : ρ → α}
    (h : codec.Yields P legal) : (required name codec get).Yields P legal :=
  Yields.field h (by simp)

theorem Yields.withDefault {name : String} {codec : Codec α} {default : α}
    {get : ρ → α} (h : codec.Yields P legal) (hdefault : P default) :
    (withDefault name codec default get).Yields P legal :=
  Yields.field h (by simpa using hdefault)

theorem Yields.optional {name : String} {codec : Codec α}
    {get : ρ → Option α} (h : codec.Yields P legal) :
    (optional name codec get).Yields
      (fun held => ∀ value ∈ held, P value) legal :=
  Yields.field h.option (by simp)

theorem Yields.map {record : Record ρ α} {f : α → β} (h : record.Yields P legal)
    (hf : ∀ value, P value → Q (f value)) : (f <$> record).Yields Q legal := by
  intro passage find result hlegal hread
  obtain ⟨value, hbuild, rfl⟩ := exceptMap_eq_ok_iff.mp hread
  exact hf value (h passage find value hlegal hbuild)

/-- Nothing is said of what a description reads. -/
theorem yields_true (record : Record ρ α) :
    record.Yields (fun _ => True) legal :=
  fun _ _ _ _ _ => trivial

/-- The first field of a description does not matter. -/
theorem Yields.map_ignore {record : Record ρ α} {f : α → β}
    (hf : ∀ value, Q (f value)) : (f <$> record).Yields Q legal :=
  Yields.map record.yields_true fun value _ => hf value

/-- The last field of a description decides together with those before it. -/
theorem Yields.seq {function : Record ρ (α → β)} {argument : Record ρ α}
    (hargument : argument.Yields P legal)
    (hfunction : function.Yields (fun f => ∀ value, P value → Q (f value)) legal) :
    (function <*> argument).Yields Q legal := by
  intro passage find result hlegal hread
  obtain ⟨f, hbuild, hread⟩ := bind_eq_ok_iff.mp hread
  obtain ⟨value, hvalue, hread⟩ := bind_eq_ok_iff.mp hread
  obtain rfl := Except.ok.inj hread
  exact hfunction passage find f hlegal hbuild value
    (hargument passage find value hlegal hvalue)

/-- The last field of a description does not matter. -/
theorem Yields.ignore {function : Record ρ (α → β)} {argument : Record ρ α}
    (hfunction : function.Yields (fun f => ∀ value, Q (f value)) legal) :
    (function <*> argument).Yields Q legal :=
  Yields.seq argument.yields_true fun passage find f hlegal hbuild value _ =>
    hfunction passage find f hlegal hbuild value

theorem Yields.decode [Json.Structural legal] {record : Record ρ α}
    (h : record.Yields P legal) {passage : Passage} {document : Json} {value : α}
    (hlegal : legal document)
    (hread : record.decode passage document = .ok value) : P value := by
  cases document with
  | object fields =>
      have hfields := (Json.Structural.object_iff fields).mp hlegal
      rw [Record.decode, ofFields] at hread
      split at hread
      next found hbuild =>
        split at hread
        · obtain rfl := Except.ok.inj hread
          exact h _ _ found
            (fun _ _ hfound => hfields _ (Dict.mem_of_find? hfound)) hbuild
        · simp at hread
      next => simp at hread
  | array items =>
      have hitems := (Json.Structural.array_iff items).mp hlegal
      simp only [Record.decode, ofItems] at hread
      split at hread
      next found hbuild =>
        split at hread
        · obtain rfl := Except.ok.inj hread
          exact h _ _ found
            (fun _ _ hfound =>
              hitems _ (List.of_mem_zip (Dict.mem_of_find? hfound)).2) hbuild
        · simp at hread
      next => simp at hread
  | _ => cases hread

theorem Yields.codec [Json.Structural legal] {P : ρ → Prop}
    {record : Record ρ ρ} (h : record.Yields P legal) :
    record.codec.Yields P legal :=
  fun _ _ _ hlegal hread => h.decode hlegal hread

theorem Yields.variant [Json.Structural legal] {P : ρ → Prop}
    {record : Record ρ ρ} {tag : String} {wrap : ρ → α} {Q : α → Prop}
    (h : record.Yields P legal) (hwrap : ∀ value, P value → Q (wrap value)) :
    (record.variant tag wrap).Yields Q legal := by
  intro passage document result hlegal hread
  obtain ⟨value, hdecode, rfl⟩ := exceptMap_eq_ok_iff.mp hread
  exact hwrap value (h.decode hlegal hdecode)

end Record

/-! ## Tagged records -/

namespace Codec

theorem mem_of_variantOf {variants : List (Variant α)} {passage : Passage}
    {tag : Json} {variant : Variant α}
    (h : variantOf variants passage tag = .ok variant) : variant ∈ variants := by
  unfold variantOf at h
  split at h
  · rw [chosen] at h
    split at h
    next found hfound =>
      obtain rfl := Except.ok.inj h
      exact List.mem_of_find?_eq_some hfound
    next => simp at h
  · split at h
    next found hfound =>
      obtain rfl := Except.ok.inj h
      split at hfound
      · exact List.mem_of_getElem? hfound
      · simp at hfound
    next => simp at h
  · simp at h

theorem yields_of_variant {variants : List (Variant α)}
    (h : ∀ variant ∈ variants, variant.Yields P legal) {passage : Passage}
    {tag document : Json} {value : α} (hlegal : legal document)
    (hread : (do
      let variant ← variantOf variants passage tag
      variant.decode .collected document) = .ok value) : P value := by
  obtain ⟨variant, hvariant, hread⟩ := bind_eq_ok_iff.mp hread
  exact h variant (mem_of_variantOf hvariant) _ _ _ hlegal hread

theorem yields_tagged [Json.Structural legal] {variants : List (Variant α)}
    {write : α → String × List (String × Json)}
    (h : ∀ variant ∈ variants, variant.Yields P legal) :
    (tagged variants write).Yields P legal := by
  intro passage document value hlegal hread
  simp only [tagged] at hread
  unfold decodeTagged at hread
  split at hread
  next fields =>
    have hfields := (Json.Structural.object_iff fields).mp hlegal
    have hothers : legal (.object (fields.filter (·.1 != tagField))) :=
      (Json.Structural.object_iff _).mpr fun entry hentry =>
        hfields entry (List.mem_of_mem_filter hentry)
    split at hread
    · simp at hread
    · exact yields_of_variant h hothers hread
    · simp at hread
  next => simp at hread
  next tag items =>
    have hitems := (Json.Structural.array_iff (tag :: items)).mp hlegal
    have hothers : legal (.array items) :=
      (Json.Structural.array_iff items).mpr fun item hitem =>
        hitems item (List.mem_cons_of_mem tag hitem)
    exact yields_of_variant h hothers hread
  next => simp at hread

end Codec

end SkillEngine

import Mathlib.Data.List.Induction
import Mathlib.Data.List.Nodup
import Mathlib.Data.String.Basic
import SkillEngine.Dict

/-!
# Dictionaries as finite maps

What the operations of a dictionary do to the entries that are found in it,
and that they keep the names in order.  Finding needs no order: those lemmas
hold for every list of entries.  Two dictionaries whose names are in order
are equal as soon as the same entries are found in them, so the entries
alone decide everything that is done with such a dictionary.
-/

namespace SkillEngine.Dict

variable {α β : Type}

/-! ## Finding entries -/

@[simp] theorem find?_nil (name : String) :
    find? ([] : Dict α) name = none := rfl

theorem find?_cons (entry : String × α) (dict : Dict α) (name : String) :
    find? (entry :: dict) name =
      if name = entry.1 then some entry.2 else find? dict name := by
  obtain ⟨other, value⟩ := entry
  rw [find?, List.lookup_cons]
  by_cases h : name = other
  · simp [h]
  · have hne : (name == other) = false := by simpa using h
    simp [find?, hne, h]

theorem has_iff_exists {dict : Dict α} {name : String} :
    dict.has name = true ↔ ∃ value, dict.find? name = some value := by
  simp [has, Option.isSome_iff_exists]

theorem has_iff_mem_names {dict : Dict α} {name : String} :
    dict.has name = true ↔ name ∈ dict.names := by
  induction dict with
  | nil => simp [has, names]
  | cons entry dict ih =>
      rw [has, find?_cons]
      by_cases h : name = entry.1
      · simp [h, names]
      · rw [if_neg h, ← has, ih]
        simp [names, h]

theorem find?_eq_none {dict : Dict α} {name : String}
    (h : name ∉ dict.names) : dict.find? name = none := by
  by_contra hfound
  obtain ⟨value, hvalue⟩ := Option.ne_none_iff_exists'.mp hfound
  exact h (has_iff_mem_names.mp (has_iff_exists.mpr ⟨value, hvalue⟩))

theorem mem_names_of_find? {dict : Dict α} {name : String} {value : α}
    (h : dict.find? name = some value) : name ∈ dict.names :=
  has_iff_mem_names.mp (has_iff_exists.mpr ⟨value, h⟩)

theorem mem_of_find? {dict : Dict α} {name : String} {value : α}
    (h : dict.find? name = some value) : (name, value) ∈ dict := by
  induction dict with
  | nil => simp at h
  | cons entry dict ih =>
      rw [find?_cons] at h
      split at h
      next hname =>
        obtain rfl : entry.2 = value := by simpa using h
        simp [hname]
      next => exact List.mem_cons_of_mem _ (ih h)

theorem find?_append (first second : Dict α) (name : String) :
    find? (first ++ second) name =
      (find? first name).or (find? second name) :=
  List.lookup_append

@[simp] theorem names_mapValues (f : α → β) (dict : Dict α) :
    (dict.mapValues f).names = dict.names := by
  simp [names, mapValues]

theorem find?_mapValues (f : α → β) (dict : Dict α) (name : String) :
    (dict.mapValues f).find? name = (dict.find? name).map f := by
  induction dict with
  | nil => rfl
  | cons entry dict ih =>
      rw [mapValues, List.map_cons, find?_cons, find?_cons]
      by_cases h : name = entry.1
      · simp [h]
      · rw [if_neg h, if_neg h]
        exact ih

/-! ## Changing entries -/

@[simp] theorem find?_insert_self
    (dict : Dict α) (name : String) (value : α) :
    (dict.insert name value).find? name = some value := by
  induction dict with
  | nil => simp [insert, find?_cons]
  | cons entry dict ih =>
      rw [insert]
      split
      · simp [find?_cons]
      · split
        · simp [find?_cons]
        next hne => rw [find?_cons, if_neg hne, ih]

theorem find?_insert_of_ne {name other : String} (h : other ≠ name)
    (dict : Dict α) (value : α) :
    (dict.insert name value).find? other = dict.find? other := by
  induction dict with
  | nil => simp [insert, find?_cons, h]
  | cons entry dict ih =>
      rw [insert]
      split
      · rw [find?_cons, if_neg h]
      · split
        next heq => rw [find?_cons, find?_cons, if_neg h, if_neg (heq ▸ h)]
        next => rw [find?_cons, find?_cons, ih]

theorem find?_insert (dict : Dict α) (name other : String) (value : α) :
    (dict.insert name value).find? other =
      if other = name then some value else dict.find? other := by
  by_cases h : other = name
  · simp [h]
  · rw [if_neg h, find?_insert_of_ne h]

@[simp] theorem has_insert (dict : Dict α) (name other : String) (value : α) :
    (dict.insert name value).has other = (other == name || dict.has other) := by
  rw [has, find?_insert]
  by_cases h : other = name
  · simp [h]
  · simp [h, has]

theorem mem_of_mem_insert {dict : Dict α} {name : String} {value : α}
    {entry : String × α} (h : entry ∈ dict.insert name value) :
    entry = (name, value) ∨ entry ∈ dict := by
  induction dict with
  | nil => exact .inl (List.mem_singleton.mp h)
  | cons held dict ih =>
      rw [insert] at h
      split at h
      · exact List.mem_cons.mp h
      · split at h
        · exact (List.mem_cons.mp h).imp_right (List.mem_cons_of_mem _)
        · rcases List.mem_cons.mp h with rfl | h
          · exact .inr List.mem_cons_self
          · exact (ih h).imp_right (List.mem_cons_of_mem _)

theorem length_insert {dict : Dict α} {name : String}
    (h : dict.has name = false) (value : α) :
    (dict.insert name value).length = dict.length + 1 := by
  induction dict with
  | nil => rfl
  | cons entry dict ih =>
      have hne : name ≠ entry.1 := by
        rintro rfl
        simp [has, find?_cons] at h
      have hrest : has dict name = false := by
        simpa [has, find?_cons, hne] using h
      by_cases hlt : name < entry.1
      · simp [insert, hlt]
      · simp [insert, hlt, hne, ih hrest]

theorem insert_cons_of_lt {name key : String} (h : name < key) (held : α)
    (dict : Dict α) (value : α) :
    insert ((key, held) :: dict) name value =
      (name, value) :: (key, held) :: dict := by
  simp [insert, h]

theorem insert_cons_self (name : String) (held : α) (dict : Dict α)
    (value : α) :
    insert ((name, held) :: dict) name value = (name, value) :: dict := by
  simp [insert]

theorem insert_cons_of_gt {name key : String} (h : key < name) (held : α)
    (dict : Dict α) (value : α) :
    insert ((key, held) :: dict) name value =
      (key, held) :: insert dict name value := by
  rw [insert, if_neg (lt_asymm h), if_neg (ne_of_gt h)]

/-- Of two entries for one name the later one stays. -/
theorem insert_insert (dict : Dict α) (name : String) (first second : α) :
    (dict.insert name first).insert name second = dict.insert name second := by
  induction dict with
  | nil => simp [insert]
  | cons entry dict ih =>
      obtain ⟨key, held⟩ := entry
      rcases lt_trichotomy name key with hlt | rfl | hgt
      · rw [insert_cons_of_lt hlt, insert_cons_of_lt hlt, insert_cons_self]
      · rw [insert_cons_self, insert_cons_self, insert_cons_self]
      · rw [insert_cons_of_gt hgt, insert_cons_of_gt hgt, insert_cons_of_gt hgt,
          ih]

theorem insert_comm_of_lt {name other : String} (h : name < other)
    (dict : Dict α) (first second : α) :
    (dict.insert name first).insert other second =
      (dict.insert other second).insert name first := by
  induction dict with
  | nil => simp [insert, h, lt_asymm h, ne_of_gt h]
  | cons entry dict ih =>
      obtain ⟨key, held⟩ := entry
      rcases lt_trichotomy name key with hlt | rfl | hgt
      · rw [insert_cons_of_lt hlt, insert_cons_of_gt h]
        rcases lt_trichotomy other key with hbefore | rfl | hbehind
        · rw [insert_cons_of_lt hbefore, insert_cons_of_lt h]
        · rw [insert_cons_self, insert_cons_of_lt h]
        · rw [insert_cons_of_gt hbehind, insert_cons_of_lt hlt]
      · rw [insert_cons_self, insert_cons_of_gt h, insert_cons_of_gt h,
          insert_cons_self]
      · have hbehind := lt_trans hgt h
        rw [insert_cons_of_gt hgt, insert_cons_of_gt hbehind,
          insert_cons_of_gt hbehind, insert_cons_of_gt hgt, ih]

/-- Entries for different names can be made in any order. -/
theorem insert_comm {name other : String} (h : name ≠ other) (dict : Dict α)
    (first second : α) :
    (dict.insert name first).insert other second =
      (dict.insert other second).insert name first := by
  rcases lt_or_gt_of_ne h with hlt | hgt
  · exact insert_comm_of_lt hlt dict first second
  · exact (insert_comm_of_lt hgt dict second first).symm

theorem find?_erase (dict : Dict α) (name other : String) :
    (dict.erase name).find? other =
      if other = name then none else dict.find? other := by
  induction dict with
  | nil => simp [erase]
  | cons entry dict ih =>
      by_cases hentry : entry.1 = name
      · have hdrop : erase (entry :: dict) name = erase dict name := by
          simp [erase, hentry]
        rw [hdrop, ih, find?_cons]
        by_cases h : other = name
        · simp [h]
        · rw [if_neg h, if_neg h, if_neg (hentry ▸ h)]
      · have hkeep :
            erase (entry :: dict) name = entry :: erase dict name := by
          simp [erase, hentry]
        rw [hkeep, find?_cons, find?_cons, ih]
        by_cases h : other = entry.1
        · rw [if_pos h, if_pos h, if_neg (h ▸ hentry)]
        · rw [if_neg h, if_neg h]

/-! ## Names in order -/

theorem sorted_nil : Sorted ([] : Dict α) := List.Pairwise.nil

theorem sorted_cons {entry : String × α} {dict : Dict α} :
    Sorted (entry :: dict) ↔
      (∀ name ∈ dict.names, entry.1 < name) ∧ dict.Sorted :=
  List.pairwise_cons

theorem names_insert_subset {dict : Dict α} {name other : String} {value : α}
    (h : other ∈ (dict.insert name value).names) :
    other = name ∨ other ∈ dict.names := by
  rw [← has_iff_mem_names, has_insert, Bool.or_eq_true, beq_iff_eq,
    has_iff_mem_names] at h
  exact h

theorem Sorted.insert {dict : Dict α} (h : dict.Sorted)
    (name : String) (value : α) : (dict.insert name value).Sorted := by
  induction dict with
  | nil => exact sorted_cons.mpr ⟨by simp [names], sorted_nil⟩
  | cons entry dict ih =>
      obtain ⟨hhead, htail⟩ := sorted_cons.mp h
      rw [Dict.insert]
      split
      next hlt =>
        refine sorted_cons.mpr ⟨?_, h⟩
        intro other hother
        rcases List.mem_cons.mp hother with rfl | hother
        · exact hlt
        · exact lt_trans hlt (hhead other hother)
      next hge =>
        split
        next heq => exact sorted_cons.mpr ⟨heq ▸ hhead, htail⟩
        next hne =>
          refine sorted_cons.mpr ⟨?_, ih htail⟩
          intro other hother
          rcases names_insert_subset hother with rfl | hother
          · exact lt_of_le_of_ne (not_lt.mp hge) (Ne.symm hne)
          · exact hhead other hother

theorem Sorted.erase {dict : Dict α} (h : dict.Sorted) (name : String) :
    (dict.erase name).Sorted :=
  List.Pairwise.sublist (List.Sublist.map _ List.filter_sublist) h

theorem Sorted.insertAll {dict : Dict α} (h : dict.Sorted)
    (entries : List (String × α)) : (dict.insertAll entries).Sorted := by
  induction entries generalizing dict with
  | nil => exact h
  | cons entry entries ih => exact ih (h.insert entry.1 entry.2)

theorem sorted_ofList (entries : List (String × α)) :
    (ofList entries).Sorted :=
  sorted_nil.insertAll entries

theorem Sorted.nodup {dict : Dict α} (h : dict.Sorted) : dict.names.Nodup :=
  List.Pairwise.imp (fun hlt => ne_of_lt hlt) h

/-- Dictionaries in order that find the same begin with the same name. -/
theorem Sorted.head_name {entry other : String × α} {first second : Dict α}
    (hfirst : Sorted (entry :: first)) (hsecond : Sorted (other :: second))
    (h : ∀ name, find? (entry :: first) name = find? (other :: second) name) :
    entry.1 = other.1 := by
  by_contra hne
  -- Each first name would stand behind the other one.
  have hentry : entry.1 ∈ names second := by
    have hfound := h entry.1
    rw [find?_cons, if_pos rfl, find?_cons, if_neg hne] at hfound
    exact mem_names_of_find? hfound.symm
  have hother : other.1 ∈ names first := by
    have hfound := h other.1
    rw [find?_cons, if_neg (Ne.symm hne), find?_cons, if_pos rfl] at hfound
    exact mem_names_of_find? hfound
  exact lt_asymm ((sorted_cons.mp hfirst).1 _ hother)
    ((sorted_cons.mp hsecond).1 _ hentry)

theorem Sorted.not_mem_tail {entry : String × α} {dict : Dict α}
    (h : Sorted (entry :: dict)) : entry.1 ∉ names dict := fun hmem =>
  lt_irrefl _ ((sorted_cons.mp h).1 _ hmem)

/-- With names in order, the entries that are found decide the dictionary. -/
theorem Sorted.ext {first second : Dict α}
    (hfirst : first.Sorted) (hsecond : second.Sorted)
    (h : ∀ name, first.find? name = second.find? name) :
    first = second := by
  induction first generalizing second with
  | nil =>
      cases second with
      | nil => rfl
      | cons entry second => simpa [find?_cons] using h entry.1
  | cons entry first ih =>
      cases second with
      | nil => simpa [find?_cons] using h entry.1
      | cons other second =>
          have hname := hfirst.head_name hsecond h
          have hvalue : entry.2 = other.2 := by
            simpa [find?_cons, hname] using h entry.1
          have hrest : ∀ name, find? first name = find? second name := by
            intro name
            by_cases heq : name = entry.1
            · rw [find?_eq_none (heq ▸ hfirst.not_mem_tail),
                find?_eq_none (heq ▸ hname ▸ hsecond.not_mem_tail)]
            · have hfound := h name
              rw [find?_cons, find?_cons, if_neg heq,
                if_neg (hname ▸ heq)] at hfound
              exact hfound
          rw [ih (sorted_cons.mp hfirst).2 (sorted_cons.mp hsecond).2 hrest]
          exact congrArg (· :: second) (Prod.ext hname hvalue)

/-! ## Building a dictionary -/

/-- Of entries with different names every one is found. -/
theorem find?_insertAll {dict : Dict α} {entries : List (String × α)}
    (h : (entries.map (·.1)).Nodup) (name : String) :
    (dict.insertAll entries).find? name =
      (find? entries name).or (dict.find? name) := by
  induction entries generalizing dict with
  | nil => simp [insertAll]
  | cons entry entries ih =>
      obtain ⟨hnew, hrest⟩ := List.nodup_cons.mp h
      have hstep : insertAll dict (entry :: entries) =
          insertAll (dict.insert entry.1 entry.2) entries := rfl
      rw [hstep, ih hrest, find?_insert, find?_cons]
      by_cases heq : name = entry.1
      · have hnone : find? entries name = none :=
          find?_eq_none (by rw [heq]; exact hnew)
        simp [heq, heq ▸ hnone]
      · rw [if_neg heq, if_neg heq]

theorem insertAll_append (dict : Dict α) (first second : List (String × α)) :
    dict.insertAll (first ++ second) =
      (dict.insertAll first).insertAll second :=
  List.foldl_append

/-- What is inserted is found before what was there. -/
theorem find?_insertAll_ofList (dict : Dict α) (entries : List (String × α))
    (name : String) :
    (dict.insertAll entries).find? name =
      ((ofList entries).find? name).or (dict.find? name) := by
  induction entries using List.reverseRecOn with
  | nil => simp [ofList, insertAll]
  | append_singleton entries entry ih =>
      have hlast (dict : Dict α) : dict.insertAll (entries ++ [entry]) =
          (dict.insertAll entries).insert entry.1 entry.2 :=
        dict.insertAll_append entries [entry]
      rw [ofList, hlast, hlast, find?_insert, find?_insert, ih, ← ofList]
      by_cases h : name = entry.1
      · rw [if_pos h, if_pos h, Option.some_or]
      · rw [if_neg h, if_neg h]

theorem mem_of_mem_ofList {entries : List (String × α)} {entry : String × α}
    (h : entry ∈ ofList entries) : entry ∈ entries := by
  have hall : ∀ (entries : List (String × α)) (dict : Dict α),
      entry ∈ dict.insertAll entries → entry ∈ dict ∨ entry ∈ entries := by
    intro entries
    induction entries with
    | nil => exact fun _ hentry => .inl hentry
    | cons first entries ih =>
        intro dict hentry
        rcases ih (dict.insert first.1 first.2) hentry with hheld | hmore
        · rcases mem_of_mem_insert hheld with rfl | hheld
          · exact .inr List.mem_cons_self
          · exact .inl hheld
        · exact .inr (List.mem_cons_of_mem first hmore)
  exact (hall entries [] h).resolve_left (by simp)

theorem find?_ofList {entries : List (String × α)}
    (h : (entries.map (·.1)).Nodup) (name : String) :
    (ofList entries).find? name = find? entries name := by
  rw [ofList, find?_insertAll h, find?_nil, Option.or_none]

/-- A dictionary with names in order is built again from its entries. -/
theorem Sorted.ofList_eq {dict : Dict α} (h : dict.Sorted) :
    ofList dict = dict :=
  (sorted_ofList dict).ext h (find?_ofList h.nodup)

/-- Entries can be put together before they are inserted. -/
theorem Sorted.insertAll_ofList {dict : Dict α} (h : dict.Sorted)
    (entries : List (String × α)) :
    dict.insertAll (ofList entries) = dict.insertAll entries := by
  refine (h.insertAll _).ext (h.insertAll _) fun name => ?_
  rw [find?_insertAll_ofList, find?_insertAll_ofList,
    Sorted.ofList_eq (sorted_ofList entries)]

/-! ## Changing every entry -/

theorem mapValues_insert (f : α → β) (dict : Dict α) (name : String)
    (value : α) :
    mapValues f (dict.insert name value) =
      (mapValues f dict).insert name (f value) := by
  induction dict with
  | nil => rfl
  | cons entry dict ih =>
      obtain ⟨other, held⟩ := entry
      have hcons : mapValues f ((other, held) :: dict) =
          (other, f held) :: mapValues f dict := rfl
      rw [hcons, insert, insert, ← ih]
      split
      · rfl
      · split <;> rfl

theorem mapValues_ofList (f : α → β) (entries : List (String × α)) :
    mapValues f (ofList entries) = ofList (mapValues f entries) := by
  have hall : ∀ (entries : List (String × α)) (dict : Dict α),
      mapValues f (dict.insertAll entries) =
        (mapValues f dict).insertAll (mapValues f entries) := by
    intro entries
    induction entries with
    | nil => exact fun _ => rfl
    | cons entry entries ih =>
        intro dict
        have hstep := ih (dict.insert entry.1 entry.2)
        rw [mapValues_insert] at hstep
        exact hstep
  exact hall entries []

/-! ## Changing an entry in its place -/

@[simp] theorem names_modify (dict : Dict α) (name : String) (change : α → α) :
    (dict.modify name change).names = dict.names := by
  rw [names, modify, List.map_map]
  refine List.map_congr_left fun entry _ => ?_
  by_cases h : entry.1 = name
  · simp [h]
  · simp [h]

/-! ## Entries in another order -/

/-- Among different names an entry is found when it is there. -/
theorem find?_eq_some_iff {dict : Dict α} (h : dict.names.Nodup)
    {name : String} {value : α} :
    dict.find? name = some value ↔ (name, value) ∈ dict := by
  refine ⟨mem_of_find?, fun hmem => ?_⟩
  induction dict with
  | nil => simp at hmem
  | cons entry dict ih =>
      obtain ⟨hnew, hrest⟩ := List.nodup_cons.mp h
      rw [find?_cons]
      rcases List.mem_cons.mp hmem with rfl | hmem
      · rw [if_pos rfl]
      · have hne : name ≠ entry.1 := by
          rintro rfl
          exact hnew (List.mem_map.mpr ⟨_, hmem, rfl⟩)
        rw [if_neg hne]
        exact ih hrest hmem

theorem has_of_perm {first second : Dict α} (hperm : first.Perm second)
    (name : String) : first.has name = second.has name :=
  Bool.eq_iff_iff.mpr <| by
    rw [has_iff_mem_names, has_iff_mem_names]
    exact (hperm.map Prod.fst).mem_iff

/-- A name that has no entry yet gets one beside the others. -/
theorem insert_perm {dict : Dict α} {name : String}
    (h : dict.has name = false) (value : α) :
    (dict.insert name value).Perm ((name, value) :: dict) := by
  induction dict with
  | nil => exact .refl _
  | cons entry dict ih =>
      have hname : name ≠ entry.1 := by
        rintro rfl
        simp [has, find?_cons] at h
      have hrest : has dict name = false := by
        simpa [has, find?_cons, hname] using h
      rw [insert, if_neg hname]
      split_ifs
      · exact .refl _
      · exact ((ih hrest).cons entry).trans (.swap _ _ _)

theorem find?_of_perm {first second : Dict α} (hperm : first.Perm second)
    (h : second.names.Nodup) (name : String) :
    first.find? name = second.find? name := by
  have hfirst : first.names.Nodup := (hperm.map Prod.fst).nodup_iff.mpr h
  ext value
  rw [find?_eq_some_iff hfirst, find?_eq_some_iff h, hperm.mem_iff]

theorem insertAll_of_perm {first second : List (String × α)}
    (hperm : first.Perm second) (h : (first.map (·.1)).Nodup)
    (dict : Dict α) : dict.insertAll first = dict.insertAll second := by
  apply hperm.foldl_eq'
  intro entry hentry other hother grown
  by_cases heq : entry = other
  · rw [heq]
  · have hname : entry.1 ≠ other.1 := fun hname =>
      heq (List.inj_on_of_nodup_map h hentry hother hname)
    exact insert_comm hname grown entry.2 other.2

theorem ofList_perm {entries : List (String × α)}
    (h : (entries.map (·.1)).Nodup) : (ofList entries).Perm entries := by
  have hsorted : (ofList entries).names.Nodup := (sorted_ofList entries).nodup
  refine (List.perm_ext_iff_of_nodup (List.Nodup.of_map Prod.fst hsorted)
    (List.Nodup.of_map Prod.fst h)).mpr ?_
  rintro ⟨name, value⟩
  rw [← find?_eq_some_iff hsorted, ← find?_eq_some_iff h, find?_ofList h]

end SkillEngine.Dict

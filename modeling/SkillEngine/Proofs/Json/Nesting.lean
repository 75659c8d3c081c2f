import SkillEngine.Proofs.Json.Numeral

/-!
# How deep documents are nested that are read

A reader returns no document that is nested deeper than its limit, and the
canonical form of a document is nested no deeper than the document.  So a text
of any origin is read only up to the limit.
-/

namespace SkillEngine.Json

/-! ## Canonical forms -/

theorem depth_canonical_le (document : Json) :
    document.canonical.depth ≤ document.depth := by
  induction document with
  | null => exact le_rfl
  | bool value => exact le_rfl
  | string value => exact le_rfl
  | number value => cases value <;> simp [canonical, ofNumber] <;> split <;> simp [depth]
  | array items ih =>
      rw [canonical_array, depth, depth, Nat.add_le_add_iff_right,
        depthOfItems_le_iff, List.forall_mem_map]
      exact fun item hitem => (ih item hitem).trans
        (depthOfItems_le_iff.mp le_rfl item hitem)
  | object fields ih =>
      rw [canonical_object, depth, depth, Nat.add_le_add_iff_right,
        depthOfFields_le_iff]
      intro entry hentry
      obtain ⟨held, hheld, rfl⟩ := List.mem_map.mp (Dict.mem_of_mem_ofList hentry)
      exact (ih held hheld).trans (depthOfFields_le_iff.mp le_rfl held hheld)

/-! ## Readers -/

/-- No document that the reader returns is nested deeper than a limit. -/
def ReadsWithin (limit : Nat) (reader : ValueReader) : Prop :=
  ∀ text document rest, reader text = some (document, rest) →
    document.depth ≤ limit

theorem number?_readsWithin (limit : Nat) : ReadsWithin limit number? := by
  intro text document rest hread
  rw [number?_eq] at hread
  obtain ⟨⟨literal, left⟩, -, hread⟩ := Option.bind_eq_some_iff.mp hread
  obtain ⟨value, -, heq⟩ := Option.map_eq_some_iff.mp hread
  obtain ⟨rfl, -⟩ := Prod.ext_iff.mp heq
  exact Nat.zero_le limit

theorem passOver_readsWithin (limit : Nat) : ReadsWithin limit passOver := by
  intro text document rest hread
  obtain ⟨left, -, heq⟩ := Option.map_eq_some_iff.mp hread
  obtain ⟨rfl, -⟩ := Prod.ext_iff.mp heq
  exact Nat.zero_le limit

theorem word?_readsWithin {word : String} {value : Json} {limit : Nat}
    (hvalue : value.depth ≤ limit) : ReadsWithin limit (word? word value) := by
  intro text document rest hread
  rw [word?] at hread
  split at hread
  · obtain ⟨rfl, -⟩ := Prod.ext_iff.mp (Option.some.inj hread)
    exact hvalue
  · simp at hread

theorem items_depth {item : Nat → ValueReader} {limit : Nat}
    (hitem : ∀ position, ReadsWithin limit (item position)) {fuel : Nat}
    {position : Nat} {text rest : List Char} {values : List Json}
    (hread : items item position fuel text = some (values, rest)) :
    depthOfItems values ≤ limit := by
  induction fuel generalizing position text rest values with
  | zero => simp [items] at hread
  | succ fuel ih =>
      rw [items] at hread
      obtain ⟨⟨value, left⟩, hvalue, hread⟩ := Option.bind_eq_some_iff.mp hread
      have hfirst := hitem position text value left hvalue
      dsimp only at hread
      split at hread
      · obtain ⟨⟨more, after⟩, hmore, hread⟩ := Option.bind_eq_some_iff.mp hread
        obtain ⟨rfl, -⟩ := Prod.ext_iff.mp (Option.some.inj hread)
        exact max_le hfirst (ih hmore)
      · obtain ⟨rfl, -⟩ := Prod.ext_iff.mp (Option.some.inj hread)
        exact max_le hfirst (Nat.zero_le limit)
      · simp at hread

theorem fields_depth {content : String → ValueReader} {limit : Nat}
    (hcontent : ∀ name, ReadsWithin limit (content name)) {fuel : Nat}
    {text rest : List Char} {found : List (String × Json)}
    (hread : fields content fuel text = some (found, rest)) :
    depthOfFields found ≤ limit := by
  induction fuel generalizing text rest found with
  | zero => simp [fields] at hread
  | succ fuel ih =>
      rw [fields] at hread
      split at hread
      · obtain ⟨⟨name, left⟩, -, hread⟩ := Option.bind_eq_some_iff.mp hread
        dsimp only at hread
        split at hread
        · obtain ⟨⟨value, left⟩, hvalue, hread⟩ :=
            Option.bind_eq_some_iff.mp hread
          have hfirst := hcontent _ _ value left hvalue
          dsimp only at hread
          split at hread
          · obtain ⟨⟨more, after⟩, hmore, hread⟩ :=
              Option.bind_eq_some_iff.mp hread
            obtain ⟨rfl, -⟩ := Prod.ext_iff.mp (Option.some.inj hread)
            exact max_le hfirst (ih hmore)
          · obtain ⟨rfl, -⟩ := Prod.ext_iff.mp (Option.some.inj hread)
            exact max_le hfirst (Nat.zero_le limit)
          · simp at hread
        · simp at hread
      · simp at hread

/-- Only brackets use up the limit, one each. -/
theorem value?_readsWithin (limit : Nat) (shape : Shape) :
    ReadsWithin limit (value? limit shape) := by
  induction limit using Nat.strong_induction_on generalizing shape with
  | _ limit ih =>
      intro text document rest hread
      rw [value?.eq_def] at hread
      dsimp only at hread
      split at hread
      · obtain ⟨left, -, heq⟩ := Option.map_eq_some_iff.mp hread
        obtain ⟨rfl, -⟩ := Prod.ext_iff.mp heq
        exact Nat.zero_le limit
      · exact word?_readsWithin (Nat.zero_le limit) _ _ _ hread
      · exact word?_readsWithin (Nat.zero_le limit) _ _ _ hread
      · exact word?_readsWithin (Nat.zero_le limit) _ _ _ hread
      · split at hread
        · simp at hread
        next limit =>
          have hitems := ih limit (Nat.lt_succ_self limit)
          split at hread
          · obtain ⟨rfl, -⟩ := Prod.ext_iff.mp (Option.some.inj hread)
            exact Nat.succ_le_succ (Nat.zero_le limit)
          · obtain ⟨⟨values, left⟩, hvalues, heq⟩ :=
              Option.map_eq_some_iff.mp hread
            obtain ⟨rfl, -⟩ := Prod.ext_iff.mp heq
            exact Nat.succ_le_succ (items_depth (fun _ => hitems _) hvalues)
      · split at hread
        · simp at hread
        next limit =>
          have hcontents := ih limit (Nat.lt_succ_self limit)
          split at hread
          · obtain ⟨rfl, -⟩ := Prod.ext_iff.mp (Option.some.inj hread)
            exact Nat.succ_le_succ (Nat.zero_le limit)
          · obtain ⟨⟨found, left⟩, hfound, heq⟩ :=
              Option.map_eq_some_iff.mp hread
            obtain ⟨rfl, -⟩ := Prod.ext_iff.mp heq
            refine Nat.succ_le_succ (fields_depth (fun name => ?_) hfound)
            split
            · exact hcontents _
            · exact passOver_readsWithin limit
      · exact number?_readsWithin limit _ _ _ hread

/-- A document that is read from a text is nested no deeper than the limit. -/
theorem depth_le_of_read? {text : String} {document : Json}
    (hread : read? text = some document) : document.depth ≤ nestingLimit := by
  obtain ⟨parsed, hparse, rfl⟩ := Option.map_eq_some_iff.mp hread
  refine (depth_canonical_le parsed).trans ?_
  rw [parse?] at hparse
  obtain ⟨⟨found, rest⟩, hvalue, hparse⟩ := Option.bind_eq_some_iff.mp hparse
  dsimp only at hparse
  split at hparse
  · obtain rfl := Option.some.inj hparse
    exact value?_readsWithin nestingLimit _ _ found rest hvalue
  · simp at hparse

end SkillEngine.Json

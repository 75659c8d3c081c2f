import SkillEngine.FileSystem.Path
import SkillEngine.Proofs.Text.Pieces

/-!
# Paths made of names

A path is taken apart into names and put together again when a directory is made
on the way to it, or when its last name is replaced.  The names come back, as
long as each of them is one that a path can have: without slashes, and neither
empty nor a single point.
-/

namespace SkillEngine

namespace Path

/-! ## Names -/

/-- A name that a path can have. -/
structure IsName (name : String) : Prop where
  free : ∀ c ∈ name.toList, (c == '/') = false
  ne_empty : name ≠ ""
  ne_point : name ≠ "."

theorem isIdle_eq_false_iff {name : String} :
    isIdle name = false ↔ name ≠ "" ∧ name ≠ "." := by
  simp [isIdle]

theorem free_of_mem_pieces {path name : String} (h : name ∈ pieces path) :
    ∀ c ∈ name.toList, (c == '/') = false := by
  obtain ⟨piece, hpiece, rfl⟩ := List.mem_map.mp h
  rw [String.toList_ofList]
  exact fun c hc => (Text.exists_mem_cut_iff.mp ⟨piece, hpiece, hc⟩).2

theorem isName_of_mem_parts {path name : String} (h : name ∈ parts path) :
    IsName name := by
  obtain ⟨hmem, hbusy⟩ := List.mem_filter.mp h
  have hidle : isIdle name = false := by simpa using hbusy
  obtain ⟨hempty, hpoint⟩ := isIdle_eq_false_iff.mp hidle
  exact ⟨free_of_mem_pieces hmem, hempty, hpoint⟩

/-- The parts are the steps without single points. -/
theorem parts_eq_filter_steps (path : String) :
    parts path = (steps path).filter (· != ".") := by
  rw [parts, steps, List.filter_filter]
  congr 1
  funext name
  simp [isIdle, bne, Bool.and_comm]

theorem steps_eq_parts {path : String} (h : "." ∉ steps path) :
    steps path = parts path := by
  rw [parts_eq_filter_steps, eq_comm, List.filter_eq_self]
  intro name hname
  simp only [bne_iff_ne]
  rintro rfl
  exact h hname

/-! ## Paths that are put together -/

variable {names : List String}

theorem pieces_joinStrings (hne : names ≠ [])
    (hnames : ∀ name ∈ names, IsName name) :
    (Text.cut (· == '/') (Text.joinStrings "/" names).toList).map
      String.ofList = names := by
  have hpieces : ∀ piece ∈ names.map String.toList, '/' ∉ piece := by
    rw [List.forall_mem_map]
    intro name hname hmem
    simpa using (hnames name hname).free '/' hmem
  have hcut : Text.cut (· == '/') (Text.joinStrings "/" names).toList =
      names.map String.toList := by
    rw [Text.joinStrings, String.toList_ofList]
    exact Text.cut_join (by simpa using hne) hpieces
  rw [hcut, List.map_map]
  exact (List.map_congr_left fun name _ => String.ofList_toList).trans
    (List.map_id _)

/-- The names of a path that is put together are found in it. -/
theorem steps_ofParts (rooted : Bool) (hnames : ∀ name ∈ names, IsName name) :
    steps (ofParts rooted names) = names := by
  have hkept : names.filter (· != "") = names := by
    rw [List.filter_eq_self]
    intro name hname
    simpa using (hnames name hname).ne_empty
  by_cases hne : names = []
  · subst hne
    cases rooted <;> rfl
  · have hpieces := pieces_joinStrings hne hnames
    cases rooted with
    | false =>
        have hplain : pieces (ofParts false names) = names := by
          rw [pieces, ofParts]
          simpa using hpieces
        rw [steps, hplain, hkept]
    | true =>
        have hrooted : pieces (ofParts true names) = "" :: names := by
          rw [pieces, ofParts]
          simpa [Text.cut] using hpieces
        rw [steps, hrooted, List.filter_cons_of_neg (by simp), hkept]

theorem parts_ofParts (rooted : Bool) (hnames : ∀ name ∈ names, IsName name) :
    parts (ofParts rooted names) = names := by
  have hpoint : "." ∉ steps (ofParts rooted names) := by
    rw [steps_ofParts rooted hnames]
    intro hmem
    exact (hnames "." hmem).ne_point rfl
  rw [← steps_eq_parts hpoint, steps_ofParts rooted hnames]

theorem ofParts_ne_empty (rooted : Bool) (hne : names ≠ [])
    (hnames : ∀ name ∈ names, IsName name) : ofParts rooted names ≠ "" := by
  intro hempty
  have hsteps := steps_ofParts rooted hnames
  rw [hempty] at hsteps
  exact hne (hsteps.symm.trans rfl)

theorem isRooted_ofParts (rooted : Bool)
    (hnames : ∀ name ∈ names, IsName name) :
    isRooted (ofParts rooted names) = rooted := by
  cases rooted with
  | true => simp [isRooted, ofParts]
  | false =>
      cases names with
      | nil => rfl
      | cons name names =>
          obtain ⟨hname, -⟩ := List.forall_mem_cons.mp hnames
          have hletters : name.toList ≠ [] := by
            simpa using hname.ne_empty
          obtain ⟨c, rest, hcons⟩ := List.exists_cons_of_ne_nil hletters
          have hc : c ≠ '/' := by
            have := hname.free c (by rw [hcons]; exact List.mem_cons_self)
            simpa using this
          cases names with
          | nil => simp [isRooted, ofParts, Text.joinStrings, Text.join, hcons, hc]
          | cons next names =>
              simp [isRooted, ofParts, Text.joinStrings, Text.join, hcons, hc]

/-! ## The name of the entry -/

/-- The last name of a path stands at the end of its parts. -/
theorem parts_of_entryName? {path name : String}
    (h : entryName? path = some name) :
    ∃ front, parts path = front ++ [name] ∧ name ≠ ".." := by
  obtain ⟨hlast, hname⟩ := Option.filter_eq_some_iff.mp h
  obtain ⟨front, hsteps⟩ := List.getLast?_eq_some_iff.mp hlast
  obtain ⟨hpoint, hback⟩ : name ≠ "." ∧ name ≠ ".." := by simpa using hname
  refine ⟨front.filter (· != "."), ?_, hback⟩
  rw [parts_eq_filter_steps, hsteps, List.filter_append,
    List.filter_cons_of_pos (by simpa using hpoint), List.filter_nil]

theorem fileName?_of_entryName? {path name : String}
    (h : entryName? path = some name) : fileName? path = some name := by
  obtain ⟨front, hparts, hback⟩ := parts_of_entryName? h
  rw [fileName?, hparts, List.getLast?_concat]
  simpa using hback

/-- A path whose last name was replaced ends in the new name. -/
theorem entryName?_withFileName {name : String} (hname : IsName name)
    (hback : name ≠ "..") (path : String) :
    entryName? (withFileName path name) = some name := by
  have hparts : ∀ other ∈ parts path, IsName other := fun _ =>
    isName_of_mem_parts
  have hfront : ∀ other ∈ (if (fileName? path).isSome then
      (parts path).dropLast else parts path), IsName other := by
    intro other hother
    split at hother
    · exact hparts other ((List.dropLast_sublist _).subset hother)
    · exact hparts other hother
  have hsteps := steps_ofParts (isRooted path)
    (List.forall_mem_append.mpr ⟨hfront, List.forall_mem_singleton.mpr hname⟩)
  rw [entryName?, withFileName, hsteps, List.getLast?_concat]
  simpa using ⟨hname.ne_point, hback⟩

end Path

end SkillEngine

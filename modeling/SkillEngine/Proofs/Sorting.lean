import Mathlib.Data.List.Perm.Basic
import Mathlib.Data.List.Sort
import Mathlib.Data.String.Basic

/-!
# Sorting by name

A stable sort by name keeps the elements of one name in the order in which
they came.  So the sorted list is decided by two things: which elements there
are, and, for each name, the order of those that have it.
-/

namespace SkillEngine.Sorting

variable {α : Type} {name : α → String}

/-- The comparison of two elements by their names. -/
def byName (name : α → String) (first second : α) : Bool :=
  decide (name first ≤ name second)

theorem byName_trans (first second third : α)
    (h : byName name first second = true)
    (h' : byName name second third = true) :
    byName name first third = true := by
  simp only [byName, decide_eq_true_eq] at h h' ⊢
  exact h.trans h'

theorem byName_total (first second : α) :
    (byName name first second || byName name second first) = true := by
  simpa [byName] using le_total (name first) (name second)

theorem pairwise_sorted (items : List α) :
    (items.mergeSort (byName name)).Pairwise
      fun first second => name first ≤ name second := by
  have hsorted : (items.mergeSort (byName name)).Pairwise (byName name · ·) :=
    List.pairwise_mergeSort byName_trans byName_total items
  exact hsorted.imp fun h => by simpa [byName] using h

/-- Sorting keeps the elements of one name in the order that they have. -/
theorem filter_sorted (items : List α) (wanted : String) :
    (items.mergeSort (byName name)).filter (name · = wanted) =
      items.filter (name · = wanted) := by
  have hsub : (items.filter (name · = wanted)).Sublist
      (items.mergeSort (byName name)) := by
    refine List.sublist_mergeSort byName_trans byName_total ?_
      List.filter_sublist
    refine List.pairwise_of_forall_mem_list fun first hfirst second hsecond => ?_
    have h : name first = wanted := by simpa using (List.mem_filter.mp hfirst).2
    have h' : name second = wanted := by
      simpa using (List.mem_filter.mp hsecond).2
    simp [byName, h, h']
  have hfiltered := hsub.filter (name · = wanted)
  rw [List.filter_filter] at hfiltered
  simp only [Bool.and_self] at hfiltered
  have hlength := ((List.mergeSort_perm items (byName name)).filter
    (name · = wanted)).length_eq
  exact (hfiltered.eq_of_length hlength.symm).symm

/-- Two lists sorted by name are equal when they have the same elements of
each name in the same order. -/
theorem eq_of_filter_eq {first second : List α}
    (hfirst : first.Pairwise fun one other => name one ≤ name other)
    (hsecond : second.Pairwise fun one other => name one ≤ name other)
    (h : ∀ wanted, first.filter (name · = wanted) =
      second.filter (name · = wanted)) : first = second := by
  induction first generalizing second with
  | nil =>
      cases second with
      | nil => rfl
      | cons head rest => simpa using h (name head)
  | cons head rest ih =>
      cases second with
      | nil => simpa using h (name head)
      | cons other others =>
          rw [List.pairwise_cons] at hfirst hsecond
          -- either head has its name in the other list, so neither name is less
          have hhead : head ∈ other :: others := by
            have hmem : head ∈ (head :: rest).filter (name · = name head) := by
              simp
            rw [h] at hmem
            exact List.mem_of_mem_filter hmem
          have hother : other ∈ head :: rest := by
            have hmem : other ∈
                (other :: others).filter (name · = name other) := by simp
            rw [← h] at hmem
            exact List.mem_of_mem_filter hmem
          have hname : name head = name other := by
            refine le_antisymm ?_ ?_
            · rcases List.mem_cons.mp hother with heq | hmem
              · exact (congrArg name heq).ge
              · exact hfirst.1 _ hmem
            · rcases List.mem_cons.mp hhead with heq | hmem
              · exact (congrArg name heq).ge
              · exact hsecond.1 _ hmem
          have hsame := h (name head)
          simp only [List.filter_cons, decide_true, if_true, hname,
            List.cons.injEq] at hsame
          obtain ⟨rfl, -⟩ := hsame
          refine congrArg (head :: ·) (ih hfirst.2 hsecond.2 fun wanted => ?_)
          have hrest := h wanted
          by_cases hwanted : name head = wanted
          · simpa [List.filter_cons, hwanted] using hrest
          · simpa [List.filter_cons, hwanted] using hrest

/-- What a stable sort gives does not depend on how the elements of different
names stand to each other. -/
theorem sorted_eq_of_filter_eq {first second : List α}
    (h : ∀ wanted, first.filter (name · = wanted) =
      second.filter (name · = wanted)) :
    first.mergeSort (byName name) = second.mergeSort (byName name) :=
  eq_of_filter_eq (pairwise_sorted first) (pairwise_sorted second)
    fun wanted => by rw [filter_sorted, filter_sorted, h]

/-- Elements whose names differ come out in one order, however they were
listed. -/
theorem sorted_eq_of_perm {first second : List α} (hperm : first.Perm second)
    (hnames : (first.map name).Nodup) :
    first.mergeSort (byName name) = second.mergeSort (byName name) := by
  refine sorted_eq_of_filter_eq fun wanted => ?_
  have hfilter := hperm.filter (name · = wanted)
  have hshort : (first.filter (name · = wanted)).length ≤ 1 := by
    have hnodup : ((first.filter (name · = wanted)).map name).Nodup :=
      hnames.sublist (List.filter_sublist.map name)
    have hall : ∀ other ∈ (first.filter (name · = wanted)).map name,
        other = wanted := by
      intro other hother
      obtain ⟨item, hitem, rfl⟩ := List.mem_map.mp hother
      simpa using (List.mem_filter.mp hitem).2
    rw [List.eq_replicate_of_mem hall, List.nodup_replicate,
      List.length_map] at hnodup
    exact hnodup
  match hfirst : first.filter (name · = wanted), hshort with
  | [], _ =>
      rw [hfirst] at hfilter
      exact hfilter.nil_eq
  | [only], _ =>
      rw [hfirst] at hfilter
      exact List.singleton_perm.mp hfilter

end SkillEngine.Sorting

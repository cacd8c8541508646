import Mathlib.Data.List.Sort

/-!
# Sorting by a key

A sort by a key puts the elements in the order of their keys, and may put those
of one key in any order.
-/

namespace FamilyPlanner.Foundation

structure SortBy {α κ : Type*} [LinearOrder κ] (key : α → κ) where
  sort : List α → List α
  perm : ∀ l, (sort l).Perm l
  sorted : ∀ l, (sort l).Pairwise fun a b => key a ≤ key b

namespace SortBy

variable {α κ : Type*} [LinearOrder κ] {key : α → κ}

def stable (key : α → κ) : SortBy key where
  sort l := l.insertionSort fun a b => key a ≤ key b
  perm l := List.perm_insertionSort _ l
  sorted l := by
    apply List.pairwise_insertionSort

@[simp] theorem mem_sort (s : SortBy key) {l : List α} {a : α} :
    a ∈ s.sort l ↔ a ∈ l := (s.perm l).mem_iff

@[simp] theorem length_sort (s : SortBy key) (l : List α) :
    (s.sort l).length = l.length := (s.perm l).length_eq

theorem mem_take_of_pairwise {l : List α} (c : κ)
    (hl : l.Pairwise fun a b => key a ≤ key b) :
    (∀ a ∈ l.take (l.countP (key · < c)), key a < c) ∧
      ∀ a ∈ l.drop (l.countP (key · < c)), c ≤ key a := by
  induction l with
  | nil => simp
  | cons b l ih =>
      obtain ⟨hb, hl⟩ := List.pairwise_cons.mp hl
      obtain ⟨hsmall, hlarge⟩ := ih hl
      by_cases hlt : key b < c
      · have hcount : (b :: l).countP (key · < c) = l.countP (key · < c) + 1 := by
          simp [hlt]
        rw [hcount]
        constructor
        · intro a ha
          obtain rfl | ha := List.mem_cons.mp ha
          · exact hlt
          · exact hsmall a ha
        · exact hlarge
      · have hle : ∀ a ∈ b :: l, c ≤ key a := by
          intro a ha
          obtain rfl | ha := List.mem_cons.mp ha
          · exact not_lt.mp hlt
          · exact le_trans (not_lt.mp hlt) (hb a ha)
        have hcount : (b :: l).countP (key · < c) = 0 := by
          rw [List.countP_eq_zero]
          intro a ha
          simpa using hle a ha
        rw [hcount]
        exact ⟨by simp, hle⟩

/--
Of the elements from key `c` on, the first `k` of a sort hold one of key `c`
iff fewer than `k` keys are smaller.
-/
theorem exists_mem_take_iff (s : SortBy key) {l : List α} {x : α} (hx : x ∈ l)
    (k : Nat) :
    (∃ a ∈ (s.sort l).take k, key a = key x) ↔ l.countP (key · < key x) < k := by
  obtain ⟨hsmall, hlarge⟩ := mem_take_of_pairwise (key x) (s.sorted l)
  rw [(s.perm l).countP_eq] at hsmall hlarge
  constructor
  · rintro ⟨a, ha, hkey⟩
    by_contra hk
    have ha' : a ∈ (s.sort l).take (l.countP (key · < key x)) :=
      (List.take_sublist_take_left (not_lt.mp hk)).mem ha
    exact absurd (hsmall a ha') (by simp [hkey])
  · intro hk
    have hx' : x ∈ (s.sort l).drop (l.countP (key · < key x)) := by
      have hmem : x ∈ (s.sort l).take (l.countP (key · < key x)) ++
          (s.sort l).drop (l.countP (key · < key x)) := by
        rw [List.take_append_drop]
        exact s.mem_sort.mpr hx
      obtain h | h := List.mem_append.mp hmem
      · exact absurd (hsmall x h) (lt_irrefl _)
      · exact h
    cases hdrop : (s.sort l).drop (l.countP (key · < key x)) with
    | nil =>
        rw [hdrop] at hx'
        cases hx'
    | cons a rest =>
        refine ⟨a, ?_, le_antisymm ?_ (hlarge a (by simp [hdrop]))⟩
        · have hget : (s.sort l)[l.countP (key · < key x)]? = some a := by
            rw [← List.head?_drop, hdrop]
            rfl
          exact List.mem_of_getElem? (i := l.countP (key · < key x))
            (by rw [List.getElem?_take_of_lt hk]; exact hget)
        · have hrest := (s.sorted l).drop (i := l.countP (key · < key x))
          rw [hdrop] at hrest hx'
          obtain rfl | h := List.mem_cons.mp hx'
          · exact le_rfl
          · exact (List.pairwise_cons.mp hrest).1 x h

end SortBy

end FamilyPlanner.Foundation

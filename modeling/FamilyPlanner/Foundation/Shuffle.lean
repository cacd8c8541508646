import Mathlib.Data.List.Perm.Basic

/-!
# Shuffling by swaps

A downward shuffle visits the indices `i`, `i - 1`, …, `1` and exchanges the
entry at each with the one at a picked index.  Whatever is picked, the result
is a permutation; the first entry stays where it is as long as index 0 is never
picked, and has left for good once it was.
-/

namespace FamilyPlanner.Foundation

variable {α : Type*}

def swapDown (pick : Nat → Nat) : Nat → Array α → Array α
  | 0, a => a
  | i + 1, a => swapDown pick i (a.swapIfInBounds (i + 1) (pick (i + 1)))

theorem swapDown_congr {pick pick' : Nat → Nat} {i : Nat} {a : Array α}
    (h : ∀ m, m ≤ i → pick m = pick' m) : swapDown pick i a = swapDown pick' i a := by
  induction i generalizing a with
  | zero => rfl
  | succ i ih =>
      rw [swapDown, swapDown, h (i + 1) (Nat.le_refl _)]
      exact ih fun m hm => h m (by omega)

theorem swapIfInBounds_perm (a : Array α) (i j : Nat) :
    (a.swapIfInBounds i j).Perm a := by
  rw [Array.swapIfInBounds_def]
  split
  · split
    · apply Array.swap_perm
    · exact .refl a
  · exact .refl a

theorem swapDown_perm (pick : Nat → Nat) (i : Nat) (a : Array α) :
    (swapDown pick i a).Perm a := by
  induction i generalizing a with
  | zero => exact .refl a
  | succ i ih => exact (ih _).trans (swapIfInBounds_perm a _ _)

theorem getElem?_swapIfInBounds_of_ne {a : Array α} {i j k : Nat} (hi : k ≠ i)
    (hj : k ≠ j) : (a.swapIfInBounds i j)[k]? = a[k]? := by
  by_cases hk : k < a.size
  · rw [Array.getElem?_eq_getElem (by simpa using hk), Array.getElem?_eq_getElem hk,
      Array.getElem_swapIfInBounds_of_ne_of_ne hi hj]
  · rw [Array.getElem?_eq_none (by simpa using hk), Array.getElem?_eq_none (by omega)]

theorem swapDown_above {pick : Nat → Nat} {i k : Nat} {a : Array α}
    (hpick : ∀ m, m ≤ i → pick m ≤ m) (hik : i < k) :
    (swapDown pick i a)[k]? = a[k]? := by
  induction i generalizing a with
  | zero => rfl
  | succ i ih =>
      have hj := hpick (i + 1) (Nat.le_refl _)
      rw [swapDown, ih (fun m hm => hpick m (by omega)) (by omega)]
      apply getElem?_swapIfInBounds_of_ne <;> omega

theorem swapDown_head {pick : Nat → Nat} {i : Nat} {a : Array α}
    (hpick : ∀ m, 0 < m → m ≤ i → 0 < pick m) :
    (swapDown pick i a)[0]? = a[0]? := by
  induction i generalizing a with
  | zero => rfl
  | succ i ih =>
      have hj := hpick (i + 1) (by omega) (Nat.le_refl _)
      rw [swapDown, ih (fun m hm hle => hpick m hm (by omega))]
      apply getElem?_swapIfInBounds_of_ne <;> omega

/-- Once index 0 was picked at `m`, the first entry stands at an index that is
not visited again. -/
theorem swapDown_head_leaves {pick : Nat → Nat} {i : Nat} {a : Array α}
    (hsize : i < a.size) (hpick : ∀ m, m ≤ i → pick m ≤ m)
    (hzero : ∃ m, 0 < m ∧ m ≤ i ∧ pick m = 0) :
    ∃ k, 0 < k ∧ k ≤ i ∧ (swapDown pick i a)[k]? = a[0]? := by
  induction i generalizing a with
  | zero =>
      obtain ⟨m, hpos, hle, -⟩ := hzero
      omega
  | succ i ih =>
      have hj := hpick (i + 1) (Nat.le_refl _)
      have hbelow : ∀ m, m ≤ i → pick m ≤ m := fun m hm => hpick m (by omega)
      rw [swapDown]
      by_cases h0 : pick (i + 1) = 0
      · refine ⟨i + 1, by omega, Nat.le_refl _, ?_⟩
        rw [swapDown_above hbelow (by omega), h0, Array.getElem?_eq_getElem (by simpa using hsize),
          Array.getElem_swapIfInBounds_left (by omega), Array.getElem?_eq_getElem]
      · obtain ⟨m, hpos, hle, hm⟩ := hzero
        have hne : m ≠ i + 1 := by
          rintro rfl
          exact h0 hm
        obtain ⟨k, hk, hki, heq⟩ := ih (a := a.swapIfInBounds (i + 1) (pick (i + 1)))
          (by simpa using by omega) hbelow ⟨m, hpos, by omega, hm⟩
        refine ⟨k, hk, by omega, ?_⟩
        rw [heq]
        apply getElem?_swapIfInBounds_of_ne <;> omega

end FamilyPlanner.Foundation

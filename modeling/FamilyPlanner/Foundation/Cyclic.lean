import Mathlib.Data.List.Rotate

/-!
# A cursor that goes round a list

Positions are taken modulo the length of the list.  One step forward and one
step back undo each other, and as many steps as the list is long read a
rotation of it.
-/

namespace FamilyPlanner.Foundation

variable {α : Type*}

theorem mod_succ_pred {i n : Nat} (h : i < n) :
    ((i + 1) % n + n - 1) % n = i := by
  by_cases hlast : i + 1 = n
  · rw [hlast, Nat.mod_self, Nat.mod_eq_of_lt] <;> omega
  · rw [Nat.mod_eq_of_lt (by omega : i + 1 < n)]
    rw [show i + 1 + n - 1 = i + n by omega, Nat.add_mod_right]
    exact Nat.mod_eq_of_lt h

theorem mod_pred_succ {i n : Nat} (h : i < n) :
    ((i + n - 1) % n + 1) % n = i := by
  cases i with
  | zero =>
      rw [Nat.mod_eq_of_lt (by omega : 0 + n - 1 < n)]
      rw [show 0 + n - 1 + 1 = n by omega, Nat.mod_self]
  | succ i =>
      rw [show i + 1 + n - 1 = i + n by omega, Nat.add_mod_right]
      rw [Nat.mod_eq_of_lt (by omega : i < n), Nat.mod_eq_of_lt h]

/-- What `n` positions in a row hold, the first of them `k`. -/
def cyclicFrom (l : List α) : Nat → Nat → List (Option α)
  | _, 0 => []
  | k, n + 1 => l[k % l.length]? :: cyclicFrom l (k + 1) n

theorem cyclicFrom_mod (l : List α) (k n : Nat) :
    cyclicFrom l (k % l.length) n = cyclicFrom l k n := by
  induction n generalizing k with
  | zero => rfl
  | succ n ih =>
      rw [cyclicFrom, cyclicFrom, Nat.mod_mod, ← ih (k % l.length + 1), ← ih (k + 1)]
      rw [Nat.mod_add_mod]

theorem cyclicFrom_eq_map (l : List α) (k n : Nat) :
    cyclicFrom l k n = (List.range n).map fun j => l[(k + j) % l.length]? := by
  induction n generalizing k with
  | zero => rfl
  | succ n ih =>
      rw [cyclicFrom, ih, List.range_succ_eq_map, List.map_cons, List.map_map]
      congr 1
      apply List.map_congr_left
      intro j _
      simp only [Function.comp, Nat.succ_eq_add_one]
      rw [Nat.add_right_comm, Nat.add_assoc]

theorem cyclicFrom_length (l : List α) (k : Nat) :
    cyclicFrom l k l.length = (l.rotate k).map some := by
  rw [cyclicFrom_eq_map]
  apply List.ext_getElem
  · simp
  · intro j hj _
    have hpos : 0 < l.length := by
      simp only [List.length_map, List.length_range] at hj
      omega
    rw [List.getElem_map, List.getElem_map, List.getElem_range, List.getElem_rotate]
    rw [List.getElem?_eq_getElem (Nat.mod_lt _ hpos)]
    simp only [Nat.add_comm]

end FamilyPlanner.Foundation

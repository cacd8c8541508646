import Mathlib.Data.List.Perm.Basic
import Mathlib.Logic.Function.Basic

/-!
# Grouping by a key

Entries are gathered under their keys, in order, and the groups are then
drained in the order of a list of keys.  Draining names no key twice and no key
without entries; nothing is lost as long as the list has every key in use.
-/

namespace FamilyPlanner.Foundation

variable {α β κ : Type*} [DecidableEq κ]

/-- Appends the value of an entry to the group of its key. -/
def gather (key : α → κ) (val : α → β) (groups : κ → List β) (a : α) : κ → List β :=
  Function.update groups (key a) (groups (key a) ++ [val a])

theorem foldl_gather (key : α → κ) (val : α → β) (entries : List α)
    (groups : κ → List β) (k : κ) :
    entries.foldl (gather key val) groups k =
      groups k ++ (entries.filter fun a => key a = k).map val := by
  induction entries generalizing groups with
  | nil => simp
  | cons a rest ih =>
      rw [List.foldl_cons, ih]
      by_cases h : key a = k
      · simp [gather, ← h]
      · simp [gather, h, Ne.symm h]

def grouped (key : α → κ) (val : α → β) (entries : List α) : κ → List β :=
  entries.foldl (gather key val) fun _ => []

theorem grouped_eq (key : α → κ) (val : α → β) (entries : List α) (k : κ) :
    grouped key val entries k = (entries.filter fun a => key a = k).map val := by
  rw [grouped, foldl_gather, List.nil_append]

/-- The groups in the order of the keys, each removed once it is drained. -/
def drain (groups : κ → List β) : List κ → List (κ × List β)
  | [] => []
  | k :: ks =>
      if groups k = [] then drain groups ks
      else (k, groups k) :: drain (Function.update groups k []) ks

theorem mem_drain {groups : κ → List β} {ks : List κ} {block : κ × List β}
    (h : block ∈ drain groups ks) :
    block.1 ∈ ks ∧ block.2 = groups block.1 ∧ block.2 ≠ [] := by
  induction ks generalizing groups with
  | nil => cases h
  | cons k ks ih =>
      rw [drain] at h
      split at h
      · obtain ⟨hmem, hgroup, hne⟩ := ih h
        exact ⟨List.mem_cons_of_mem k hmem, hgroup, hne⟩
      · rename_i hk
        rcases List.mem_cons.mp h with rfl | h
        · exact ⟨List.mem_cons_self, rfl, hk⟩
        · obtain ⟨hmem, hgroup, hne⟩ := ih h
          have hother : block.1 ≠ k := by
            intro heq
            apply hne
            rw [hgroup, heq, Function.update_self]
          rw [Function.update_of_ne hother] at hgroup
          exact ⟨List.mem_cons_of_mem k hmem, hgroup, hne⟩

theorem drain_nodup (groups : κ → List β) (ks : List κ) :
    ((drain groups ks).map Prod.fst).Nodup := by
  induction ks generalizing groups with
  | nil => exact List.nodup_nil
  | cons k ks ih =>
      rw [drain]
      split
      · exact ih groups
      · rw [List.map_cons, List.nodup_cons]
        refine ⟨?_, ih _⟩
        intro hmem
        obtain ⟨block, hblock, hkey⟩ := List.mem_map.mp hmem
        obtain ⟨-, hgroup, hne⟩ := mem_drain hblock
        apply hne
        rw [hgroup, hkey, Function.update_self]

theorem update_grouped (key : α → κ) (val : α → β) (entries : List α) (k : κ) :
    Function.update (grouped key val entries) k [] =
      grouped key val (entries.filter fun a => key a ≠ k) := by
  funext k'
  rw [grouped_eq, List.filter_filter]
  by_cases h : k' = k
  · subst h
    rw [Function.update_self]
    symm
    rw [List.map_eq_nil_iff, List.filter_eq_nil_iff]
    simp
  · rw [Function.update_of_ne h, grouped_eq]
    congr 1
    apply List.filter_congr
    intro a _
    by_cases ha : key a = k' <;> simp [ha, h]

theorem drain_grouped_perm (key : α → κ) (val : α → β) {entries : List α} {ks : List κ}
    (h : ∀ a ∈ entries, key a ∈ ks) :
    ((drain (grouped key val entries) ks).flatMap Prod.snd).Perm (entries.map val) := by
  induction ks generalizing entries with
  | nil =>
      cases entries with
      | nil => exact .refl _
      | cons a rest => exact absurd (h a List.mem_cons_self) (List.not_mem_nil)
  | cons k ks ih =>
      have hrest : ∀ a ∈ entries.filter (fun a => key a ≠ k), key a ∈ ks := by
        intro a ha
        obtain ⟨hmem, hne⟩ := List.mem_filter.mp ha
        exact (List.mem_cons.mp (h a hmem)).resolve_left (of_decide_eq_true hne)
      have hsplit := (List.filter_append_perm (fun a => key a = k) entries).map val
      rw [List.map_append, ← grouped_eq] at hsplit
      have hne : (entries.filter fun a => !decide (key a = k)) =
          entries.filter fun a => key a ≠ k := by
        apply List.filter_congr
        simp
      rw [hne] at hsplit
      rw [drain]
      split
      · rename_i hnone
        rw [hnone, List.nil_append] at hsplit
        have hsame : grouped key val entries =
            grouped key val (entries.filter fun a => key a ≠ k) := by
          rw [← update_grouped, ← hnone, Function.update_eq_self]
        rw [hsame]
        exact (ih hrest).trans hsplit
      · rw [List.flatMap_cons, update_grouped]
        exact ((ih hrest).append_left _).trans hsplit

end FamilyPlanner.Foundation

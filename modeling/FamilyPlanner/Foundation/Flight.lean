import Mathlib.Data.List.Nodup
import Mathlib.Data.List.Perm.Basic

/-!
# Single flights

Work is started under a key and runs for any time.  While a flight of a key is
in the air no other flight of it may start, and two starts of one key are at
least a gap apart.  Whether a start is admitted is decided here by the flights
themselves; a program keeps some summary of them instead.
-/

namespace FamilyPlanner.Foundation

structure Flight (κ : Type*) where
  key : κ
  start : Int
  deriving DecidableEq, Repr

/-- `air` holds the flights that have not ended, `log` every start in order. -/
structure Flights (κ : Type*) where
  air : List (Flight κ)
  log : List (Flight κ)
  deriving DecidableEq, Repr

namespace Flights

variable {κ : Type*} {gap now t : Int} {w : Flights κ} {k : κ}

def none : Flights κ := ⟨[], []⟩

def launch (w : Flights κ) (k : κ) (t : Int) : Flights κ where
  air := w.air ++ [⟨k, t⟩]
  log := w.log ++ [⟨k, t⟩]

def land (w : Flights κ) (i : Nat) : Flights κ :=
  { w with air := w.air.eraseIdx i }

def Grounded (w : Flights κ) (k : κ) : Prop := ∀ f ∈ w.air, f.key ≠ k

def Rested (gap : Int) (w : Flights κ) (k : κ) (now : Int) : Prop :=
  ∀ f ∈ w.log, f.key = k → f.start + gap ≤ now

structure Spaced (gap : Int) (w : Flights κ) : Prop where
  single : (w.air.map Flight.key).Nodup
  apart : w.log.Pairwise fun f g => f.key = g.key → f.start + gap ≤ g.start

theorem Spaced.none : Spaced gap (none : Flights κ) where
  single := List.nodup_nil
  apart := List.Pairwise.nil

theorem Spaced.launch (hw : w.Spaced gap) (hground : w.Grounded k)
    (hrest : w.Rested gap k now) (ht : now ≤ t) : (w.launch k t).Spaced gap where
  single := by
    have hnot : k ∉ w.air.map Flight.key := by
      intro hk
      obtain ⟨f, hf, hkey⟩ := List.mem_map.mp hk
      exact hground f hf hkey
    simp only [Flights.launch, List.map_append, List.map_cons, List.map_nil]
    exact hw.single.append (List.nodup_singleton k)
      (List.disjoint_singleton.mpr hnot)
  apart := by
    apply List.pairwise_append.mpr
    refine ⟨hw.apart, List.pairwise_singleton _ _, ?_⟩
    intro f hf g hg hkey
    cases List.mem_singleton.mp hg
    exact Int.le_trans (hrest f hf hkey) ht

theorem Spaced.land (hw : w.Spaced gap) (i : Nat) : (w.land i).Spaced gap where
  single := hw.single.sublist ((List.eraseIdx_sublist w.air i).map Flight.key)
  apart := hw.apart

theorem grounded_launch {k' : κ} :
    (w.launch k t).Grounded k' ↔ w.Grounded k' ∧ k ≠ k' := by
  simp [Grounded, launch, or_imp, forall_and]

theorem mem_log_launch {f : Flight κ} :
    f ∈ (w.launch k t).log ↔ f ∈ w.log ∨ f = ⟨k, t⟩ := by
  simp [launch]

theorem Spaced.grounded_land (hw : w.Spaced gap) {i : Nat} {f : Flight κ}
    (hi : w.air[i]? = some f) : (w.land i).Grounded k ↔
      w.Grounded k ∨ k = f.key := by
  have hperm : w.air.Perm (f :: w.air.eraseIdx i) := by
    obtain ⟨hlt, hget⟩ := List.getElem?_eq_some_iff.mp hi
    rw [← hget]
    exact (List.getElem_cons_eraseIdx_perm hlt).symm
  have hnodup := (hperm.map Flight.key).nodup_iff.mp hw.single
  rw [List.map_cons, List.nodup_cons] at hnodup
  constructor
  · intro hground
    by_cases hk : k = f.key
    · exact .inr hk
    · left
      intro g hg
      rcases List.mem_cons.mp (hperm.mem_iff.mp hg) with rfl | hg
      · exact fun h => hk h.symm
      · exact hground g hg
  · rintro (hground | rfl)
    · intro g hg
      exact hground g (hperm.mem_iff.mpr (List.mem_cons_of_mem f hg))
    · intro g hg hkey
      exact hnodup.1 (List.mem_map.mpr ⟨g, hg, hkey⟩)

end Flights

end FamilyPlanner.Foundation

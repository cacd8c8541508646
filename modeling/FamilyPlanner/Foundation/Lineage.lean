import Mathlib.Data.List.Chain
import Mathlib.Logic.Relation

/-!
# Lineages

A cell is overwritten again and again, by values from outside and by values
made from one that was read from the cell earlier.  If each of the latter
replaces the very value it was made from, what the cell holds descends from the
last value that came from outside.
-/

namespace FamilyPlanner.Foundation

variable {α : Type*}

/-- A value of the cell; `parent` is what it was made from, if not from outside. -/
structure Entry (α : Type*) where
  value : α
  parent : Option α
  deriving DecidableEq, Repr

namespace Entry

def Follows (e e' : Entry α) : Prop := ∀ a ∈ e'.parent, a = e.value

/-- The second value was made from the first, in any number of steps. -/
def Descends (log : List (Entry α)) : α → α → Prop :=
  Relation.ReflTransGen fun a a' => ⟨a', some a⟩ ∈ log

theorem Descends.mono {log log' : List (Entry α)} (hlog : log ⊆ log') {a a' : α}
    (h : Descends log a a') : Descends log' a a' :=
  Relation.ReflTransGen.mono (fun _ _ hmem => hlog hmem) _ _ h

theorem descends_of_isChain {e last : Entry α} {log : List (Entry α)}
    (hchain : (e :: log).IsChain Follows) (hmade : ∀ e' ∈ log, e'.parent ≠ none)
    (hlast : (e :: log).getLast? = some last) : Descends log e.value last.value := by
  induction log generalizing e with
  | nil =>
      cases hlast
      exact .refl
  | cons e' log ih =>
      obtain ⟨hfollows, hrest⟩ := List.isChain_cons_cons.mp hchain
      have htail : Descends log e'.value last.value := by
        apply ih hrest
        · intro e'' he''
          exact hmade e'' (List.mem_cons_of_mem e' he'')
        · rwa [List.getLast?_cons_cons] at hlast
      have hstep : (⟨e'.value, some e.value⟩ : Entry α) ∈ e' :: log := by
        cases hparent : e'.parent with
        | none => exact absurd hparent (hmade e' List.mem_cons_self)
        | some a =>
            rw [← hfollows a hparent, ← hparent]
            exact List.mem_cons_self
      exact .head hstep (htail.mono (List.subset_cons_self e' log))

end Entry

end FamilyPlanner.Foundation

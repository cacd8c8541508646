import Mathlib.Data.List.Basic

/-!
# Asynchronous requests

Requests are numbered in the order in which they are started and are answered
in any order.  A pool keeps what each unanswered request asked for and, for
the newest request, whether it has been answered yet.  A register that takes
the content of every successful answer shows what was asked for last as long
as answers come `InOrder`.
-/

namespace FamilyPlanner.Foundation

/--
`newest` is what the most recently started request asked for together with
its outcome: `none` while it is unanswered, else whether it succeeded.
-/
structure Requests (α : Type*) where
  started : Nat
  pending : List (Nat × α)
  newest : Option (α × Option Bool)
  pending_lt : ∀ p ∈ pending, p.1 < started
  newest_pending : ∀ p ∈ pending, p.1 + 1 = started → newest = some (p.2, none)

namespace Requests

variable {α : Type*}

def empty : Requests α := ⟨0, [], none, by simp, by simp⟩

def start (r : Requests α) (a : α) : Requests α where
  started := r.started + 1
  pending := r.pending ++ [(r.started, a)]
  newest := some (a, none)
  pending_lt := by
    intro p hp
    rcases List.mem_append.mp hp with hp | hp
    · exact Nat.lt_succ_of_lt (r.pending_lt p hp)
    · simp only [List.mem_singleton] at hp
      subst hp
      exact Nat.lt_succ_self _
  newest_pending := by
    intro p hp hid
    rcases List.mem_append.mp hp with hp | hp
    · have := r.pending_lt p hp
      omega
    · simp only [List.mem_singleton] at hp
      subst hp
      rfl

/-- The request `id` is answered: what it asked for and the pool without it. -/
def finish (r : Requests α) (id : Nat) (ok : Bool) :
    Option (α × Requests α) :=
  match r.pending.find? (·.1 = id) with
  | none => none
  | some (_, a) =>
      some (a, {
        started := r.started
        pending := r.pending.filter (·.1 ≠ id)
        newest := if id + 1 = r.started then some (a, some ok) else r.newest
        pending_lt := by
          intro p hp
          exact r.pending_lt p (List.mem_of_mem_filter hp)
        newest_pending := by
          intro p hp hid
          obtain ⟨hmem, hne⟩ := List.mem_filter.mp hp
          have hne : p.1 ≠ id := by simpa using hne
          rw [if_neg (by omega)]
          exact r.newest_pending p hmem hid })

/-- The answer to request `id`, which asked for `a`, comes in order: nothing
else than `a` has been shown for the newest request before. -/
def InOrder (r : Requests α) (id : Nat) (a : α) : Prop :=
  id + 1 = r.started ∨ ∀ b, r.newest = some (b, some true) → b = a

instance [DecidableEq α] (r : Requests α) (id : Nat) (a : α) :
    Decidable (r.InOrder id a) :=
  have : Decidable (∀ b, r.newest = some (b, some true) → b = a) :=
    match hnewest : r.newest with
    | some (b, some true) => decidable_of_iff (b = a) (by simp)
    | some (_, some false) => .isTrue (by simp)
    | some (_, none) => .isTrue (by simp)
    | none => .isTrue (by simp)
  inferInstanceAs (Decidable (_ ∨ _))

/-- Once the newest request has succeeded, what it asked for is shown. -/
def Fresh (r : Requests α) (shown : Option α) : Prop :=
  ∀ a, r.newest = some (a, some true) → shown = some a

@[simp] theorem start_newest (r : Requests α) (a : α) :
    (r.start a).newest = some (a, none) := rfl

@[simp] theorem empty_newest : (empty : Requests α).newest = none := rfl

theorem finish_eq_some {r r' : Requests α} {id : Nat} {ok : Bool} {a : α}
    (h : r.finish id ok = some (a, r')) :
    (id, a) ∈ r.pending ∧ r'.started = r.started ∧
      r'.pending = r.pending.filter (·.1 ≠ id) ∧
      r'.newest = if id + 1 = r.started then some (a, some ok) else r.newest := by
  unfold finish at h
  split at h
  · contradiction
  · rename_i id' a' hfind
    simp only [Option.some.injEq, Prod.mk.injEq] at h
    obtain ⟨rfl, rfl⟩ := h
    have hid : id' = id := by simpa using List.find?_some hfind
    subst hid
    exact ⟨List.mem_of_find?_eq_some hfind, rfl, rfl, rfl⟩

theorem newest_of_pending {r : Requests α} {id : Nat} {a : α}
    (hmem : (id, a) ∈ r.pending) (hid : id + 1 = r.started) :
    r.newest = some (a, none) :=
  r.newest_pending (id, a) hmem hid

theorem fresh_empty (shown : Option α) : (empty : Requests α).Fresh shown := by
  intro a ha
  simp at ha

theorem fresh_start (r : Requests α) (a : α) (shown : Option α) :
    (r.start a).Fresh shown := by
  intro b hb
  simp at hb

theorem Fresh.finish_failed {r r' : Requests α} {id : Nat} {a : α}
    {shown : Option α} (hf : r.Fresh shown)
    (h : r.finish id false = some (a, r')) : r'.Fresh shown := by
  obtain ⟨-, -, -, hnewest⟩ := finish_eq_some h
  intro b hb
  rw [hnewest] at hb
  split at hb
  · simp at hb
  · exact hf b hb

theorem fresh_finish_ok {r r' : Requests α} {id : Nat} {a : α}
    (h : r.finish id true = some (a, r')) (horder : r.InOrder id a) :
    r'.Fresh (some a) := by
  obtain ⟨-, -, -, hnewest⟩ := finish_eq_some h
  intro b hb
  rw [hnewest] at hb
  split at hb
  · simp only [Option.some.injEq, Prod.mk.injEq, and_true] at hb
    rw [hb]
  · rename_i hid
    rcases horder with horder | horder
    · exact absurd horder hid
    · rw [horder b hb]

theorem finish_newest_asked {r r' : Requests α} {id : Nat} {ok : Bool} {a : α}
    (h : r.finish id ok = some (a, r')) :
    r'.newest.map Prod.fst = r.newest.map Prod.fst := by
  obtain ⟨hmem, -, -, hnewest⟩ := finish_eq_some h
  rw [hnewest]
  split
  · rename_i hid
    rw [newest_of_pending hmem hid]
    rfl
  · rfl

end Requests

end FamilyPlanner.Foundation

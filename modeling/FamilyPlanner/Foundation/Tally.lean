import Mathlib.Data.List.Basic

/-!
# Gathering from fallible sources

A collector visits its sources in order.  A visit yields items, fails, or is
skipped; the collector keeps the items, the first failure and the number of
visits that yielded.  It reports a failure only if no visit yielded: a skipped
source counts for neither side.
-/

namespace FamilyPlanner.Foundation

def Failed {α ε : Type*} (e : Except ε α) : Prop := ∃ err, e = .error err

section Failed

variable {α β ε : Type*}

@[simp] theorem failed_error (err : ε) : Failed (.error err : Except ε α) :=
  ⟨err, rfl⟩

@[simp] theorem not_failed_ok (a : α) : ¬ Failed (.ok a : Except ε α) := by
  rintro ⟨err, h⟩
  contradiction

@[simp] theorem failed_map (e : Except ε α) (f : α → β) :
    Failed (e.map f) ↔ Failed e := by
  cases e <;> simp [Except.map]

end Failed

inductive Visit (α ε : Type*) where
  | skip
  | fail (err : ε)
  | got (items : List α)
  deriving DecidableEq, Repr

namespace Visit

variable {α ε : Type*}

def IsFail : Visit α ε → Prop
  | fail _ => True
  | _ => False

def IsGot : Visit α ε → Prop
  | got _ => True
  | _ => False

def items : Visit α ε → List α
  | got items => items
  | _ => []

def ofExcept : Except ε (List α) → Visit α ε
  | .error e => fail e
  | .ok items => got items

@[simp] theorem not_isFail_skip : ¬ (skip : Visit α ε).IsFail := id

@[simp] theorem not_isGot_skip : ¬ (skip : Visit α ε).IsGot := id

@[simp] theorem isFail_fail (e : ε) : (fail e : Visit α ε).IsFail := trivial

@[simp] theorem not_isGot_fail (e : ε) : ¬ (fail e : Visit α ε).IsGot := id

@[simp] theorem not_isFail_got (items : List α) :
    ¬ (got items : Visit α ε).IsFail := id

@[simp] theorem isGot_got (items : List α) : (got items : Visit α ε).IsGot := trivial

@[simp] theorem isFail_ofExcept (e : Except ε (List α)) :
    (ofExcept e).IsFail ↔ Failed e := by
  cases e <;> simp [ofExcept]

theorem asked_ofExcept (e : Except ε (List α)) :
    (ofExcept e).IsFail ∨ (ofExcept e).IsGot := by
  cases e <;> simp [ofExcept]

@[simp] theorem isGot_ofExcept (e : Except ε (List α)) :
    (ofExcept e).IsGot ↔ ¬ Failed e := by
  cases e <;> simp [ofExcept]

end Visit

structure Tally (α ε : Type*) where
  items : List α := []
  firstErr : Option ε := none
  ok : Nat := 0
  deriving DecidableEq, Repr

namespace Tally

variable {α ε : Type*}

def add (t : Tally α ε) : Visit α ε → Tally α ε
  | .skip => t
  | .fail e => { t with firstErr := t.firstErr <|> some e }
  | .got items => { t with items := t.items ++ items, ok := t.ok + 1 }

def of (visits : List (Visit α ε)) : Tally α ε := visits.foldl add {}

/-- The first error, provided that no visit yielded. -/
def failure (t : Tally α ε) : Option ε := if t.ok = 0 then t.firstErr else none

theorem foldl_ok (visits : List (Visit α ε)) (t : Tally α ε) :
    (visits.foldl add t).ok = 0 ↔ t.ok = 0 ∧ ∀ v ∈ visits, ¬ v.IsGot := by
  induction visits generalizing t with
  | nil => simp
  | cons v visits ih =>
      rw [List.foldl_cons, ih]
      cases v <;> simp [add]

theorem foldl_firstErr (visits : List (Visit α ε)) (t : Tally α ε) :
    (visits.foldl add t).firstErr.isSome ↔
      t.firstErr.isSome ∨ ∃ v ∈ visits, v.IsFail := by
  induction visits generalizing t with
  | nil => simp
  | cons v visits ih =>
      rw [List.foldl_cons, ih]
      cases v <;> simp [add]

theorem foldl_items (visits : List (Visit α ε)) (t : Tally α ε) :
    (visits.foldl add t).items = t.items ++ visits.flatMap Visit.items := by
  induction visits generalizing t with
  | nil => simp
  | cons v visits ih =>
      rw [List.foldl_cons, ih]
      cases v with
      | skip => rfl
      | fail err => rfl
      | got items => simp [add, Visit.items]

theorem of_items (visits : List (Visit α ε)) :
    (of visits).items = visits.flatMap Visit.items := by
  simp [of, foldl_items]

theorem of_ok_eq_zero {visits : List (Visit α ε)} :
    (of visits).ok = 0 ↔ ∀ v ∈ visits, ¬ v.IsGot := by
  simp [of, foldl_ok]

theorem failure_isSome {visits : List (Visit α ε)} :
    (of visits).failure.isSome ↔
      (∀ v ∈ visits, ¬ v.IsGot) ∧ ∃ v ∈ visits, v.IsFail := by
  have herr := foldl_firstErr visits ({} : Tally α ε)
  simp only [Option.isSome_none, Bool.false_eq_true, false_or] at herr
  unfold failure
  split
  · rename_i hok
    rw [of_ok_eq_zero] at hok
    exact herr.trans (iff_and_self.mpr fun _ => hok)
  · rename_i hok
    rw [of_ok_eq_zero] at hok
    simp [hok]

theorem failure_isSome_of_asked {visits : List (Visit α ε)} (hne : visits ≠ [])
    (hasked : ∀ v ∈ visits, v.IsFail ∨ v.IsGot) :
    (of visits).failure.isSome ↔ ∀ v ∈ visits, ¬ v.IsGot := by
  rw [failure_isSome]
  refine ⟨And.left, fun hgot => ⟨hgot, ?_⟩⟩
  obtain ⟨v, hv⟩ := List.exists_mem_of_ne_nil visits hne
  exact ⟨v, hv, (hasked v hv).resolve_right (hgot v hv)⟩

end Tally

end FamilyPlanner.Foundation

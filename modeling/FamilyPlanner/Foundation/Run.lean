import Mathlib.Data.List.Basic

/-!
# Runs of an event-driven system

A system is a state type with an executable, partial step function: `none`
says that the event is not possible in that state.  A run executes a list of
events, and `Along` states that every step of a run, taken in the state it
reaches, meets a condition.  Every invariant of a run is one step lemma and
the induction packaged in `run_invariant_along`.
-/

namespace FamilyPlanner.Foundation

structure System (State Event : Type*) where
  step : State → Event → Option State

namespace System

variable {State Event : Type*} (M : System State Event)

def run : State → List Event → Option State
  | s, [] => some s
  | s, e :: es =>
      match M.step s e with
      | none => none
      | some s' => run s' es

/-- Every step of the run meets `C` in the state in which it is taken. -/
def Along (C : State → Event → Prop) : State → List Event → Prop
  | _, [] => True
  | s, e :: es => C s e ∧ ∀ s', M.step s e = some s' → Along C s' es

def Always (P : State → Prop) : State → List Event → Prop
  | s, [] => P s
  | s, e :: es => P s ∧ ∀ s', M.step s e = some s' → Always P s' es

variable {M}

@[simp] theorem run_nil (s : State) : M.run s [] = some s := rfl

theorem run_cons_eq_some {s t : State} {e : Event} {es : List Event} :
    M.run s (e :: es) = some t ↔
      ∃ s', M.step s e = some s' ∧ M.run s' es = some t := by
  rw [run]
  cases M.step s e <;> simp

theorem run_append {s t : State} {es es' : List Event} (h : M.run s es = some t) :
    M.run s (es ++ es') = M.run t es' := by
  induction es generalizing s with
  | nil =>
      cases h
      rfl
  | cons e es ih =>
      obtain ⟨s', hstep, hrest⟩ := run_cons_eq_some.mp h
      rw [List.cons_append, run, hstep]
      exact ih hrest

theorem run_concat {s t u : State} {e : Event} {es : List Event}
    (h : M.run s es = some t) (hstep : M.step t e = some u) :
    M.run s (es ++ [e]) = some u := by
  rw [run_append h]
  exact run_cons_eq_some.mpr ⟨u, hstep, rfl⟩

theorem exists_run (htotal : ∀ s e, ∃ s', M.step s e = some s') (s : State)
    (es : List Event) : ∃ t, M.run s es = some t := by
  induction es generalizing s with
  | nil => exact ⟨s, rfl⟩
  | cons e es ih =>
      obtain ⟨s', hstep⟩ := htotal s e
      obtain ⟨t, hrun⟩ := ih s'
      exact ⟨t, run_cons_eq_some.mpr ⟨s', hstep, hrun⟩⟩

@[simp] theorem along_nil (C : State → Event → Prop) (s : State) :
    M.Along C s [] := trivial

theorem along_cons {C : State → Event → Prop} {s : State} {e : Event}
    {es : List Event} :
    M.Along C s (e :: es) ↔
      C s e ∧ ∀ s', M.step s e = some s' → M.Along C s' es := Iff.rfl

theorem Always.start {P : State → Prop} {s : State} {es : List Event}
    (h : M.Always P s es) : P s := by
  cases es with
  | nil => exact h
  | cons e es => exact h.1

instance decidableAlong {C : State → Event → Prop}
    [∀ s e, Decidable (C s e)] : ∀ s es, Decidable (M.Along C s es)
  | _, [] => .isTrue trivial
  | s, e :: es =>
      match hstep : M.step s e with
      | none =>
          decidable_of_iff (C s e) ⟨fun h => ⟨h, by simp [hstep]⟩, And.left⟩
      | some s' =>
          have := decidableAlong (C := C) s' es
          decidable_of_iff (C s e ∧ M.Along C s' es) (by simp [along_cons, hstep])

theorem Along.of_forall {C : State → Event → Prop} (h : ∀ s e, C s e) (s : State)
    (es : List Event) : M.Along C s es := by
  induction es generalizing s with
  | nil => trivial
  | cons e es ih => exact ⟨h s e, fun s' _ => ih s'⟩

theorem Along.of_mem {C : Event → Prop} {es : List Event} (h : ∀ e ∈ es, C e)
    (s : State) : M.Along (fun _ => C) s es := by
  induction es generalizing s with
  | nil => trivial
  | cons e es ih =>
      rw [along_cons]
      constructor
      · exact h e List.mem_cons_self
      · intro s' _
        exact ih (fun e' he' => h e' (List.mem_cons_of_mem e he')) s'

/--
When good states are exactly those that steps meeting `C` lead to, a run stays
good exactly as long as its steps meet `C`.
-/
theorem always_iff_along {C D : State → Event → Prop} {P : State → Prop}
    (hstep : ∀ s e s', P s → D s e → M.step s e = some s' → (P s' ↔ C s e))
    {s t : State} {es : List Event} (hs : P s) (hd : M.Along D s es)
    (hrun : M.run s es = some t) : M.Always P s es ↔ M.Along C s es := by
  induction es generalizing s with
  | nil => simp [Always, hs]
  | cons e es ih =>
      obtain ⟨s', hnext, hrest⟩ := run_cons_eq_some.mp hrun
      have hiff := hstep s e s' hs hd.1 hnext
      simp only [Always, along_cons, hs, true_and, hnext, Option.some.injEq,
        forall_eq']
      constructor
      · intro halways
        have hs' : P s' := halways.start
        exact ⟨hiff.mp hs', (ih hs' (hd.2 s' hnext) hrest).mp halways⟩
      · rintro ⟨hc, halong⟩
        exact (ih (hiff.mpr hc) (hd.2 s' hnext) hrest).mpr halong

/--
The induction rule for runs: an invariant that every step meeting `C`
preserves holds at the end of every run whose steps all meet `C`.
-/
theorem run_invariant_along {C : State → Event → Prop} {I : State → Prop}
    (hstep : ∀ s e s', I s → C s e → M.step s e = some s' → I s')
    {s t : State} {es : List Event} (hs : I s) (hc : M.Along C s es)
    (hrun : M.run s es = some t) : I t := by
  induction es generalizing s with
  | nil =>
      cases hrun
      exact hs
  | cons e es ih =>
      obtain ⟨s', hs', hrest⟩ := run_cons_eq_some.mp hrun
      exact ih (hstep s e s' hs hc.1 hs') (hc.2 s' hs') hrest

theorem run_invariant {I : State → Prop}
    (hstep : ∀ s e s', I s → M.step s e = some s' → I s')
    {s t : State} {es : List Event} (hs : I s)
    (hrun : M.run s es = some t) : I t := by
  induction es generalizing s with
  | nil =>
      cases hrun
      exact hs
  | cons e es ih =>
      obtain ⟨s', hs', hrest⟩ := run_cons_eq_some.mp hrun
      exact ih (hstep s e s' hs hs') hrest

theorem Along.of_invariant {C D : State → Event → Prop} {I : State → Prop}
    (hstep : ∀ s e s', I s → C s e → M.step s e = some s' → I s')
    (himp : ∀ s e, I s → C s e → D s e) {s : State} {es : List Event}
    (hs : I s) (hc : M.Along C s es) : M.Along D s es := by
  induction es generalizing s with
  | nil => trivial
  | cons e es ih =>
      refine ⟨himp s e hs hc.1, ?_⟩
      intro s' hnext
      exact ih (hstep s e s' hs hc.1 hnext) (hc.2 s' hnext)

theorem Along.mono {C D : State → Event → Prop} (himp : ∀ s e, C s e → D s e)
    {s : State} {es : List Event} (hc : M.Along C s es) : M.Along D s es := by
  apply hc.of_invariant (I := fun _ => True) _ _ trivial
  · intro _ _ _ _ _ _
    trivial
  · intro s e _
    exact himp s e

theorem along_congr {C D E : State → Event → Prop} {s : State} {es : List Event}
    (hc : M.Along C s es) (hiff : ∀ s e, C s e → (D s e ↔ E s e)) :
    M.Along D s es ↔ M.Along E s es := by
  induction es generalizing s with
  | nil => exact Iff.rfl
  | cons e es ih =>
      rw [along_cons, along_cons, hiff s e hc.1]
      constructor
      · rintro ⟨he, hrest⟩
        exact ⟨he, fun s' hnext => (ih (hc.2 s' hnext)).mp (hrest s' hnext)⟩
      · rintro ⟨he, hrest⟩
        exact ⟨he, fun s' hnext => (ih (hc.2 s' hnext)).mpr (hrest s' hnext)⟩

end System

end FamilyPlanner.Foundation

import Mathlib.Data.List.Basic

/-!
# Threads over a shared object

A thread is a program of atomic operations on one shared object; between two
operations of a thread any other thread may run.  `Prog` is such a program,
`alone` runs it without interference, and `Only` bounds what a thread can
still do: along every path whose results are possible, only allowed
operations are executed.
-/

namespace FamilyPlanner.Foundation

universe u v w

/-- A program of operations `op : Op` with results in `Res op`. -/
inductive Prog (Op : Type u) (Res : Op → Type v) (α : Type w) where
  | ret (value : α)
  | call (op : Op) (next : Res op → Prog Op Res α)

namespace Prog

variable {Op : Type u} {Res : Op → Type v} {α β : Type w}

def bind (p : Prog Op Res α) (f : α → Prog Op Res β) : Prog Op Res β :=
  match p with
  | ret a => f a
  | call op next => call op fun r => (next r).bind f

instance : Monad (Prog Op Res) where
  pure := ret
  bind := bind

@[simp] theorem ret_bind (a : α) (f : α → Prog Op Res β) :
    (ret a >>= f : Prog Op Res β) = f a := rfl

@[simp] theorem call_bind (o : Op) (next : Res o → Prog Op Res α)
    (f : α → Prog Op Res β) :
    (call o next >>= f : Prog Op Res β) = call o fun r => next r >>= f := rfl

/-! ## Undisturbed execution -/

variable {Object : Type*}

def alone (exec : (o : Op) → Object → Res o × Object) :
    Prog Op Res α → Object → α × Object
  | ret a, x => (a, x)
  | call o next, x => (next (exec o x).1).alone exec (exec o x).2

@[simp] theorem alone_ret (exec : (o : Op) → Object → Res o × Object) (a : α)
    (x : Object) : (ret a : Prog Op Res α).alone exec x = (a, x) := rfl

@[simp] theorem alone_call (exec : (o : Op) → Object → Res o × Object) (o : Op)
    (next : Res o → Prog Op Res α) (x : Object) :
    (call o next).alone exec x =
      (next (exec o x).1).alone exec (exec o x).2 := rfl

theorem alone_bind (exec : (o : Op) → Object → Res o × Object)
    (p : Prog Op Res α) (f : α → Prog Op Res β) (x : Object) :
    (p >>= f).alone exec x =
      (f (p.alone exec x).1).alone exec (p.alone exec x).2 := by
  induction p generalizing x with
  | ret a => rfl
  | call o next ih => exact ih _ _

/-! ## What a thread can still do -/

/--
Along every path of the program whose results satisfy `R`, only operations
satisfying `Q` are executed.
-/
def Only (Q : Op → Prop) (R : (o : Op) → Res o → Prop) : Prog Op Res α → Prop
  | ret _ => True
  | call o next => Q o ∧ ∀ r, R o r → (next r).Only Q R

variable {Q : Op → Prop} {R : (o : Op) → Res o → Prop}

@[simp] theorem only_ret (a : α) : (ret a : Prog Op Res α).Only Q R := trivial

@[simp] theorem only_call (o : Op) (next : Res o → Prog Op Res α) :
    (call o next).Only Q R ↔ Q o ∧ ∀ r, R o r → (next r).Only Q R := Iff.rfl

theorem Only.bind {p : Prog Op Res α} {f : α → Prog Op Res β}
    (hp : p.Only Q R) (hf : ∀ a, (f a).Only Q R) : (p >>= f).Only Q R := by
  induction p with
  | ret a => exact hf a
  | call o next ih => exact ⟨hp.1, fun r hr => ih r (hp.2 r hr)⟩

theorem Only.mono {Q' : Op → Prop} {R' : (o : Op) → Res o → Prop}
    {p : Prog Op Res α} (hp : p.Only Q R) (hQ : ∀ o, Q o → Q' o)
    (hR : ∀ o r, R' o r → R o r) : p.Only Q' R' := by
  induction p with
  | ret a => trivial
  | call o next ih => exact ⟨hQ o hp.1, fun r hr => ih r (hp.2 r (hR o r hr))⟩

/-- What the allowed operations leave alone, an undisturbed run leaves alone. -/
theorem Only.alone_frame {exec : (o : Op) → Object → Res o × Object}
    {β : Type*} (f : Object → β)
    (hstep : ∀ o x, Q o → R o (exec o x).1 ∧ f (exec o x).2 = f x)
    {p : Prog Op Res α} (hp : p.Only Q R) (x : Object) :
    f (p.alone exec x).2 = f x := by
  induction p generalizing x with
  | ret a => rfl
  | call o next ih =>
      obtain ⟨hr, hf⟩ := hstep o x hp.1
      exact (ih _ (hp.2 _ hr) _).trans hf

/--
Like `Only`, with a bookkeeping value that every result updates and that the
next operation is judged by.
-/
def Tracks {κ : Type*} (update : (o : Op) → Res o → κ → κ)
    (P : κ → Op → Prop) : κ → Prog Op Res α → Prop
  | _, ret _ => True
  | k, call o next => P k o ∧ ∀ r, (next r).Tracks update P (update o r k)

variable {κ : Type*} {update : (o : Op) → Res o → κ → κ} {P : κ → Op → Prop}

@[simp] theorem tracks_ret (k : κ) (a : α) :
    (ret a : Prog Op Res α).Tracks update P k := trivial

@[simp] theorem tracks_call (k : κ) (o : Op) (next : Res o → Prog Op Res α) :
    (call o next).Tracks update P k ↔
      P k o ∧ ∀ r, (next r).Tracks update P (update o r k) := Iff.rfl

theorem Tracks.bind_keeping {J : κ → Prop}
    (hJ : ∀ k o r, P k o → J k → J (update o r k)) {p : Prog Op Res α}
    {f : α → Prog Op Res β} {k : κ} (hp : p.Tracks update P k) (hk : J k)
    (hf : ∀ k a, J k → (f a).Tracks update P k) : (p >>= f).Tracks update P k := by
  induction p generalizing k with
  | ret a => exact hf k a hk
  | call o next ih =>
      refine ⟨hp.1, fun r => ?_⟩
      exact ih r (hp.2 r) (hJ k o r hp.1 hk)

theorem Tracks.bind {p : Prog Op Res α} {f : α → Prog Op Res β} {k : κ}
    (hp : p.Tracks update P k) (hf : ∀ k a, (f a).Tracks update P k) :
    (p >>= f).Tracks update P k :=
  hp.bind_keeping (J := fun _ => True) (fun _ _ _ _ _ => trivial) trivial
    fun k a _ => hf k a

theorem Only.tracks {p : Prog Op Res α} (hp : p.Only Q fun _ _ => True)
    (hQ : ∀ k o, Q o → P k o) (k : κ) : p.Tracks update P k := by
  induction p generalizing k with
  | ret a => trivial
  | call o next ih => exact ⟨hQ k o hp.1, fun r => ih r (hp.2 r trivial) _⟩

/--
Along every path only operations are executed that `P` allows by then, and the
path ends in an answer that fits what its results have told.
-/
def Honours {κ : Type*} (update : (o : Op) → Res o → κ → κ)
    (P : κ → Op → Prop) (Q : κ → α → Prop) : κ → Prog Op Res α → Prop
  | k, ret a => Q k a
  | k, call o next => P k o ∧ ∀ r, (next r).Honours update P Q (update o r k)

variable {Q' : κ → α → Prop}

@[simp] theorem honours_ret (k : κ) (a : α) :
    (ret a : Prog Op Res α).Honours update P Q' k ↔ Q' k a := Iff.rfl

@[simp] theorem honours_call (k : κ) (o : Op) (next : Res o → Prog Op Res α) :
    (call o next).Honours update P Q' k ↔
      P k o ∧ ∀ r, (next r).Honours update P Q' (update o r k) := Iff.rfl

theorem Honours.of_forall (hP : ∀ k o, P k o) (hQ : ∀ k a, Q' k a) (p : Prog Op Res α) (k : κ) :
    p.Honours update P Q' k := by
  induction p generalizing k with
  | ret a => exact hQ k a
  | call o next ih => exact ⟨hP k o, fun r => ih r (update o r k)⟩

/-- Whatever the environment makes of its operations, `P` holds of the object
before each of them and at the end. -/
def Throughout {ε : Type*} (exec : ε → (o : Op) → Object → Res o × Object)
    (P : Object → Prop) : Prog Op Res α → Object → Prop
  | ret _, x => P x
  | call o next, x =>
      P x ∧ ∀ env, (next (exec env o x).1).Throughout exec P (exec env o x).2

theorem Throughout.now {ε : Type*} {exec : ε → (o : Op) → Object → Res o × Object}
    {P : Object → Prop} {p : Prog Op Res α} {x : Object} (h : p.Throughout exec P x) : P x := by
  cases p with
  | ret a => exact h
  | call o next => exact h.1

end Prog

/-! ## The list of the threads -/

section Threads

variable {τ : Type*} {P : τ → Prop} {threads : List τ} {t : τ}

theorem forall_started (h : ∀ u ∈ threads, P u) (ht : P t) :
    ∀ u ∈ threads ++ [t], P u := by
  intro u hu
  rcases List.mem_append.mp hu with hu | hu
  · exact h u hu
  · rwa [List.mem_singleton.mp hu]

theorem forall_resumed (h : ∀ u ∈ threads, P u) (i : Nat) (ht : P t) :
    ∀ u ∈ threads.set i t, P u := by
  intro u hu
  rcases List.mem_or_eq_of_mem_set hu with hu | rfl
  · exact h u hu
  · exact ht

theorem filterMap_set_perm {β : Type*} {f : τ → Option β} {i : Nat} {u : τ}
    (ht : threads[i]? = some t) (hnone : f t = none) :
    ((threads.set i u).filterMap f).Perm (threads.filterMap f ++ (f u).toList) := by
  obtain ⟨hlt, hget⟩ := List.getElem?_eq_some_iff.mp ht
  have hsplit : threads = threads.take i ++ t :: threads.drop (i + 1) := by
    rw [← hget, ← List.drop_eq_getElem_cons hlt, List.take_append_drop]
  rw [List.set_eq_take_cons_drop _ hlt]
  conv =>
    rhs
    rw [hsplit]
  simp only [List.filterMap_append, List.filterMap_cons, hnone]
  cases f u with
  | none => simp
  | some b =>
      simp only [Option.toList_some, List.append_assoc]
      exact List.Perm.append_left _ (List.perm_append_singleton _ _).symm

theorem filterMap_set_of_eq {β : Type*} {f : τ → Option β} {i : Nat} {t' : τ}
    (ht : threads[i]? = some t) (heq : f t' = f t) :
    (threads.set i t').filterMap f = threads.filterMap f := by
  obtain ⟨hlt, hget⟩ := List.getElem?_eq_some_iff.mp ht
  have hsplit : threads = threads.take i ++ t :: threads.drop (i + 1) := by
    rw [← hget, ← List.drop_eq_getElem_cons hlt, List.take_append_drop]
  rw [List.set_eq_take_cons_drop _ hlt]
  conv =>
    rhs
    rw [hsplit]
  simp [List.filterMap_append, List.filterMap_cons, heq]

end Threads

end FamilyPlanner.Foundation

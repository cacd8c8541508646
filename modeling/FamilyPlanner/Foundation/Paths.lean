import Mathlib.Data.List.Basic

/-!
# Trees addressed by paths

A tree whose subtrees are addressed by steps from the root: `get` follows one
step, `set` exchanges what it leads to.  `find` and `put` do the same along a
path, and what holds of one step carries over to every path: a property of
trees, a label of the nodes, and a list read off the leaves in order.
-/

namespace FamilyPlanner.Foundation

structure Branching (S ι : Type*) where
  get : S → ι → Option S
  set : S → ι → S → S
  get_set {s c : S} {i : ι} (d : S) : get s i = some c → get (set s i d) i = some d
  get_set_ne {s c : S} {i j : ι} (d : S) :
    get s i = some c → i ≠ j → get (set s i d) j = get s j

namespace Branching

variable {S ι α β : Type*} (B : Branching S ι)

def find : S → List ι → Option S
  | s, [] => some s
  | s, i :: path =>
      match B.get s i with
      | none => none
      | some c => find c path

def put : S → List ι → S → S
  | _, [], t => t
  | s, i :: path, t =>
      match B.get s i with
      | none => s
      | some c => B.set s i (put c path t)

variable {B}

@[simp] theorem find_nil (s : S) : B.find s [] = some s := rfl

@[simp] theorem put_nil (s t : S) : B.put s [] t = t := rfl

theorem find_cons_eq_some {s t : S} {i : ι} {path : List ι} :
    B.find s (i :: path) = some t ↔ ∃ c, B.get s i = some c ∧ B.find c path = some t := by
  rw [find]
  cases B.get s i <;> simp

theorem put_cons {s c : S} {i : ι} {path : List ι} (t : S) (h : B.get s i = some c) :
    B.put s (i :: path) t = B.set s i (B.put c path t) := by
  rw [put, h]

theorem find_append (s : S) (p q : List ι) :
    B.find s (p ++ q) = (B.find s p).bind fun t => B.find t q := by
  induction p generalizing s with
  | nil => rfl
  | cons i p ih =>
      rw [List.cons_append, find, find]
      cases B.get s i with
      | none => rfl
      | some c => exact ih c

theorem find_put_append {s old : S} {p : List ι} (t : S) (q : List ι)
    (h : B.find s p = some old) : B.find (B.put s p t) (p ++ q) = B.find t q := by
  induction p generalizing s with
  | nil => rfl
  | cons i p ih =>
      obtain ⟨c, hget, hfind⟩ := find_cons_eq_some.mp h
      rw [put_cons t hget, List.cons_append, find, B.get_set _ hget]
      exact ih hfind

theorem find_put {s old : S} {p : List ι} (t : S) (h : B.find s p = some old) :
    B.find (B.put s p t) p = some t := by
  have hput := find_put_append t [] h
  rwa [List.append_nil, find_nil] at hput

theorem put_self (hset : ∀ {s c : S} {i : ι}, B.get s i = some c → B.set s i c = s)
    {s t : S} {p : List ι} (h : B.find s p = some t) : B.put s p t = s := by
  induction p generalizing s with
  | nil =>
      cases h
      rfl
  | cons i p ih =>
      obtain ⟨c, hget, hfind⟩ := find_cons_eq_some.mp h
      rw [put_cons t hget, ih hfind, hset hget]

theorem put_put (hset : ∀ {s c : S} {i : ι} (d e : S),
      B.get s i = some c → B.set (B.set s i d) i e = B.set s i e)
    {s old : S} {p : List ι} (t u : S) (h : B.find s p = some old) :
    B.put (B.put s p t) p u = B.put s p u := by
  induction p generalizing s with
  | nil => rfl
  | cons i p ih =>
      obtain ⟨c, hget, hfind⟩ := find_cons_eq_some.mp h
      rw [put_cons t hget, put_cons u (B.get_set _ hget), put_cons u hget, hset _ _ hget,
        ih hfind]

/-! ## Properties of trees -/

/-- `P` passes from a tree to its subtrees, and back when one is exchanged. -/
structure Keeps (B : Branching S ι) (P : S → Prop) : Prop where
  get : ∀ {s c i}, P s → B.get s i = some c → P c
  set : ∀ {s c i d}, P s → B.get s i = some c → P d → P (B.set s i d)

theorem Keeps.find {P : S → Prop} (hP : B.Keeps P) {s t : S} {p : List ι} (hs : P s)
    (h : B.find s p = some t) : P t := by
  induction p generalizing s with
  | nil =>
      cases h
      exact hs
  | cons i p ih =>
      obtain ⟨c, hget, hfind⟩ := find_cons_eq_some.mp h
      exact ih (hP.get hs hget) hfind

theorem Keeps.put {P : S → Prop} (hP : B.Keeps P) {s old t : S} {p : List ι} (hs : P s)
    (h : B.find s p = some old) (ht : P t) : P (B.put s p t) := by
  induction p generalizing s with
  | nil => exact ht
  | cons i p ih =>
      obtain ⟨c, hget, hfind⟩ := find_cons_eq_some.mp h
      rw [put_cons t hget]
      exact hP.set hs hget (ih (hP.get hs hget) hfind)

/-! ## Labels -/

/-- A label that no exchange of a subtree touches stays, at every node that is
not inside the exchanged part. -/
theorem label_put {label : S → β} (hlabel : ∀ s i d, label (B.set s i d) = label s)
    {s old : S} {p q : List ι} (t : S) (h : B.find s p = some old) (hq : ¬ p <+: q) :
    (B.find (B.put s p t) q).map label = (B.find s q).map label := by
  induction p generalizing s q with
  | nil => exact absurd List.nil_prefix hq
  | cons i p ih =>
      obtain ⟨c, hget, hfind⟩ := find_cons_eq_some.mp h
      rw [put_cons t hget]
      cases q with
      | nil => simp [hlabel]
      | cons j q =>
          by_cases hij : i = j
          · subst hij
            have hq' : ¬ p <+: q := by simpa using hq
            rw [find, find, B.get_set _ hget, hget]
            exact ih hfind hq'
          · rw [find, find, B.get_set_ne _ hget hij]

/-! ## Lists read off a tree -/

/-- `obs` lists something along the tree: what lies below a step is a block of
it, and an exchange of the subtree exchanges just that block. -/
structure Lists (B : Branching S ι) (obs : S → List α) where
  before : S → ι → List α
  after : S → ι → List α
  get {s c : S} {i : ι} : B.get s i = some c → obs s = before s i ++ obs c ++ after s i
  set {s c : S} {i : ι} (d : S) :
    B.get s i = some c → obs (B.set s i d) = before s i ++ obs d ++ after s i

namespace Lists

variable {obs : S → List α} (L : B.Lists obs)

def beforePath : S → List ι → List α
  | _, [] => []
  | s, i :: path =>
      match B.get s i with
      | none => []
      | some c => L.before s i ++ beforePath c path

def afterPath : S → List ι → List α
  | _, [] => []
  | s, i :: path =>
      match B.get s i with
      | none => []
      | some c => afterPath c path ++ L.after s i

variable {L}

theorem find {s t : S} {p : List ι} (h : B.find s p = some t) :
    obs s = L.beforePath s p ++ obs t ++ L.afterPath s p := by
  induction p generalizing s with
  | nil =>
      cases h
      simp [beforePath, afterPath]
  | cons i p ih =>
      obtain ⟨c, hget, hfind⟩ := find_cons_eq_some.mp h
      rw [L.get hget, ih hfind, beforePath, afterPath, hget]
      simp [List.append_assoc]

theorem put {s old : S} {p : List ι} (t : S) (h : B.find s p = some old) :
    obs (B.put s p t) = L.beforePath s p ++ obs t ++ L.afterPath s p := by
  induction p generalizing s with
  | nil => simp [beforePath, afterPath]
  | cons i p ih =>
      obtain ⟨c, hget, hfind⟩ := find_cons_eq_some.mp h
      rw [put_cons t hget, L.set _ hget, ih hfind, beforePath, afterPath, hget]
      simp [List.append_assoc]

theorem beforePath_concat {s t c : S} {p : List ι} {i : ι} (h : B.find s p = some t)
    (hget : B.get t i = some c) :
    L.beforePath s (p ++ [i]) = L.beforePath s p ++ L.before t i := by
  induction p generalizing s with
  | nil =>
      cases h
      simp [beforePath, hget]
  | cons j p ih =>
      obtain ⟨d, hd, hfind⟩ := find_cons_eq_some.mp h
      simp only [List.cons_append, beforePath, hd, ih hfind, List.append_assoc]

theorem afterPath_concat {s t c : S} {p : List ι} {i : ι} (h : B.find s p = some t)
    (hget : B.get t i = some c) :
    L.afterPath s (p ++ [i]) = L.after t i ++ L.afterPath s p := by
  induction p generalizing s with
  | nil =>
      cases h
      simp [afterPath, hget]
  | cons j p ih =>
      obtain ⟨d, hd, hfind⟩ := find_cons_eq_some.mp h
      simp only [List.cons_append, afterPath, hd, ih hfind, List.append_assoc]

end Lists

end Branching

end FamilyPlanner.Foundation

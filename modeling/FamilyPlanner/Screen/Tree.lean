import FamilyPlanner.Foundation.Paths
import FamilyPlanner.Foundation.Run
import FamilyPlanner.Screen.Layout

/-!
# Operations on layout trees

`SplitLeaf`, `Remove`, `SetWidget` and `SetWeight`.  They write through the
pointer that `at` returns, so each yields its error, if any, together with the
tree as it then is.
-/

namespace FamilyPlanner.Screen

open FamilyPlanner.Foundation

/-- What the operations ask of a `float64` weight; `nonPos` is `weight <= 0`. -/
class Weight (ω : Type) where
  one : ω
  nonPos : ω → Bool

/-- A `float64` up to the sign of zero, which no comparison sees. -/
inductive Float64 where
  | nan
  | inf (negative : Bool)
  | finite (value : Rat)
  deriving DecidableEq, Repr

/-- No comparison with `nan` holds. -/
instance : Weight Float64 where
  one := .finite 1
  nonPos
    | .nan => false
    | .inf negative => negative
    | .finite value => value ≤ 0

namespace Node

variable {ω : Type}

def leaf? : Node ω → Option Leaf
  | leaf l | both l _ _ => some l
  | empty | split _ _ => none

/-- The children of the `Split`, if there is one. -/
def children? : Node ω → Option (List (ω × Node ω))
  | split _ cs | both _ _ cs => some cs
  | empty | leaf _ => none

def setChildren (n : Node ω) (cs : List (ω × Node ω)) : Node ω :=
  match n with
  | split dir _ => split dir cs
  | both l dir _ => both l dir cs
  | n => n

def childAt (n : Node ω) (idx : Int) : Option (Node ω) :=
  match n.children? with
  | none => none
  | some cs =>
      if idx < 0 ∨ cs.length ≤ idx then none else cs[idx.toNat]?.map Prod.snd

def setChildAt (n : Node ω) (idx : Int) (c : Node ω) : Node ω :=
  match n.children? with
  | none => n
  | some cs => n.setChildren (cs.modify idx.toNat fun child => (child.1, c))

theorem children?_setChildren {n : Node ω} {cs : List (ω × Node ω)}
    (h : n.children? = some cs) (cs' : List (ω × Node ω)) :
    (n.setChildren cs').children? = some cs' := by
  cases n <;> simp_all [children?, setChildren]

theorem exists_child {cs : List (ω × Node ω)} {idx : Int}
    (h : ¬ (idx < 0 ∨ cs.length ≤ idx)) :
    ∃ pre w c post, cs = pre ++ (w, c) :: post ∧ idx = pre.length := by
  have hlt : idx.toNat < cs.length := by omega
  refine ⟨cs.take idx.toNat, cs[idx.toNat].1, cs[idx.toNat].2, cs.drop (idx.toNat + 1), ?_, ?_⟩
  · rw [Prod.eta, ← List.drop_eq_getElem_cons hlt, List.take_append_drop]
  · rw [List.length_take]
    omega

theorem childAt_eq_some {n c : Node ω} {idx : Int} :
    n.childAt idx = some c ↔
      ∃ pre w post, n.children? = some (pre ++ (w, c) :: post) ∧ idx = pre.length := by
  rw [childAt]
  constructor
  · intro h
    cases hcs : n.children? with
    | none => simp [hcs] at h
    | some cs =>
        by_cases hidx : idx < 0 ∨ cs.length ≤ idx
        · simp [hcs, hidx] at h
        · obtain ⟨pre, w, c', post, rfl, rfl⟩ := exists_child hidx
          simp only [hcs, if_neg hidx, Int.toNat_natCast,
            List.getElem?_append_right (Nat.le_refl _), Nat.sub_self, List.getElem?_cons_zero,
            Option.map_some, Option.some.injEq] at h
          subst h
          exact ⟨pre, w, post, rfl, rfl⟩
  · rintro ⟨pre, w, post, hcs, rfl⟩
    have hidx : ¬ ((pre.length : Int) < 0 ∨
        ((pre ++ (w, c) :: post).length : Int) ≤ pre.length) := by
      rw [List.length_append, List.length_cons]
      omega
    simp only [hcs, if_neg hidx]
    simp

theorem setChildAt_eq {n : Node ω} {pre post : List (ω × Node ω)} {w : ω} {c : Node ω}
    (h : n.children? = some (pre ++ (w, c) :: post)) (d : Node ω) :
    n.setChildAt pre.length d = n.setChildren (pre ++ (w, d) :: post) := by
  rw [setChildAt, h]
  simp [List.modify_eq_take_cons_drop]

theorem childAt_setChildAt {n c : Node ω} {idx : Int} (d : Node ω)
    (h : n.childAt idx = some c) : (n.setChildAt idx d).childAt idx = some d := by
  obtain ⟨pre, w, post, hcs, rfl⟩ := childAt_eq_some.mp h
  rw [setChildAt_eq hcs]
  apply childAt_eq_some.mpr
  exact ⟨pre, w, post, children?_setChildren hcs _, rfl⟩

theorem childAt_setChildAt_ne {n c : Node ω} {i j : Int} (d : Node ω)
    (h : n.childAt i = some c) (hij : i ≠ j) :
    (n.setChildAt i d).childAt j = n.childAt j := by
  obtain ⟨pre, w, post, hcs, rfl⟩ := childAt_eq_some.mp h
  rw [setChildAt_eq hcs, childAt, children?_setChildren hcs, childAt, hcs]
  by_cases hj : j < 0
  · simp [hj]
  · have hsame (d : Node ω) : (pre ++ (w, d) :: post)[j.toNat]? =
        if j.toNat < pre.length then pre[j.toNat]? else post[j.toNat - pre.length - 1]? := by
      rw [List.getElem?_append, List.getElem?_cons]
      have hpos : j.toNat < pre.length ∨ j.toNat - pre.length ≠ 0 := by omega
      rcases hpos with hlt | hpos
      · simp [hlt]
      · simp [hpos]
    simp [hsame]

def paths : Branching (Node ω) Int where
  get := childAt
  set := setChildAt
  get_set := childAt_setChildAt
  get_set_ne := childAt_setChildAt_ne

/-- The source's `at`, which returns a pointer; `putAt` writes through it. -/
def nodeAt : Node ω → List Int → Option (Node ω) := paths.find

def putAt : Node ω → List Int → Node ω → Node ω := paths.put

/-! ## The operations -/

section Operations

variable [Weight ω]

def splitLeaf (n : Node ω) (path : List Int) (dir : String) :
    Except String Unit × Node ω :=
  if dir ≠ "row" ∧ dir ≠ "col" then (.error "layout: invalid direction", n)
  else
    match n.nodeAt path with
    | none => (.error "layout: path not found", n)
    | some old =>
        if old.leaf? = none then (.error "layout: can only split a leaf", n)
        else
          (.ok (), n.putAt path
            (split dir [(Weight.one, old), (Weight.one, leaf { widgetID := 0 })]))

def setWeight (n : Node ω) (path : List Int) (weight : ω) :
    Except String Unit × Node ω :=
  match path.getLast? with
  | none => (.error "layout: root has no weight", n)
  | some idx =>
      if Weight.nonPos weight then (.error "layout: weight must be positive", n)
      else
        match n.nodeAt path.dropLast with
        | none => (.error "layout: bad path", n)
        | some parent =>
            match parent.children? with
            | none => (.error "layout: bad path", n)
            | some ch =>
                if idx < 0 ∨ ch.length ≤ idx then (.error "layout: bad path", n)
                else
                  (.ok (), n.putAt path.dropLast (parent.setChildren
                    (ch.modify idx.toNat fun child => (weight, child.2))))

end Operations

/-- A split with one child left collapses into it. -/
def merged (parent : Node ω) (ch : List (ω × Node ω)) : Node ω :=
  match ch with
  | [(_, only)] => only
  | ch => parent.setChildren ch

def remove (n : Node ω) (path : List Int) : Except String Unit × Node ω :=
  match path.getLast? with
  | none => (.error "layout: cannot remove the root", n)
  | some idx =>
      match n.nodeAt path.dropLast with
      | none => (.error "layout: parent is not a split", n)
      | some parent =>
          match parent.children? with
          | none => (.error "layout: parent is not a split", n)
          | some ch =>
              if idx < 0 ∨ ch.length ≤ idx then (.error "layout: bad child index", n)
              else (.ok (), n.putAt path.dropLast (parent.merged (ch.eraseIdx idx.toNat)))

def setWidget (n : Node ω) (path : List Int) (widgetID : Int) :
    Except String Unit × Node ω :=
  match n.nodeAt path with
  | none => (.error "layout: path is not a leaf", n)
  | some (leaf l) => (.ok (), n.putAt path (leaf { l with widgetID }))
  | some (both l dir cs) => (.ok (), n.putAt path (both { l with widgetID } dir cs))
  | some _ => (.error "layout: path is not a leaf", n)

/-! ## What a call does -/

section Calls

variable {n : Node ω} {path : List Int}

theorem getLast?_cases (path : List Int) :
    path = [] ∨ ∃ parentPath idx, path = parentPath ++ [idx] := by
  rcases List.eq_nil_or_concat path with h | ⟨parentPath, idx, h⟩
  · exact .inl h
  · exact .inr ⟨parentPath, idx, by simpa using h⟩

theorem splitLeaf_cases [Weight ω] (n : Node ω) (path : List Int) (dir : String) :
    (∃ err, n.splitLeaf path dir = (.error err, n)) ∨
      ∃ old l, (dir = "row" ∨ dir = "col") ∧ n.nodeAt path = some old ∧
        old.leaf? = some l ∧
        n.splitLeaf path dir = (.ok (), n.putAt path
          (split dir [(Weight.one, old), (Weight.one, leaf { widgetID := 0 })])) := by
  unfold splitLeaf
  by_cases hdir : dir ≠ "row" ∧ dir ≠ "col"
  · exact .inl ⟨_, if_pos hdir⟩
  rw [if_neg hdir]
  have hdir' : dir = "row" ∨ dir = "col" := by
    by_contra hnone
    exact hdir (not_or.mp hnone)
  cases hold : n.nodeAt path with
  | none => exact .inl ⟨_, rfl⟩
  | some old =>
      cases hleaf : old.leaf? with
      | none => exact .inl ⟨_, if_pos hleaf⟩
      | some l => exact .inr ⟨old, l, hdir', rfl, hleaf, if_neg (by simp [hleaf])⟩

theorem remove_cases (n : Node ω) (path : List Int) :
    (∃ err, n.remove path = (.error err, n)) ∨
      ∃ parentPath parent pre w c post, path = parentPath ++ [(pre.length : Int)] ∧
        n.nodeAt parentPath = some parent ∧
        parent.children? = some (pre ++ (w, c) :: post) ∧
        n.remove path = (.ok (), n.putAt parentPath (parent.merged (pre ++ post))) := by
  unfold remove
  rcases getLast?_cases path with rfl | ⟨parentPath, idx, rfl⟩
  · exact .inl ⟨_, rfl⟩
  simp only [List.getLast?_concat, List.dropLast_concat]
  cases hparent : n.nodeAt parentPath with
  | none => exact .inl ⟨_, rfl⟩
  | some parent =>
      dsimp only
      cases hch : parent.children? with
      | none => exact .inl ⟨_, rfl⟩
      | some ch =>
          by_cases hidx : idx < 0 ∨ ch.length ≤ idx
          · exact .inl ⟨_, if_pos hidx⟩
          · obtain ⟨pre, w, c, post, rfl, rfl⟩ := exists_child hidx
            refine .inr ⟨parentPath, parent, pre, w, c, post, rfl, hparent, hch, ?_⟩
            simp only [if_neg hidx, Int.toNat_natCast]
            rw [List.eraseIdx_append_of_length_le (Nat.le_refl _)]
            simp

theorem setWeight_cases [Weight ω] (n : Node ω) (path : List Int) (weight : ω) :
    (∃ err, n.setWeight path weight = (.error err, n)) ∨
      ∃ parentPath parent pre w c post, path = parentPath ++ [(pre.length : Int)] ∧
        Weight.nonPos weight = false ∧ n.nodeAt parentPath = some parent ∧
        parent.children? = some (pre ++ (w, c) :: post) ∧
        n.setWeight path weight = (.ok (), n.putAt parentPath
          (parent.setChildren (pre ++ (weight, c) :: post))) := by
  unfold setWeight
  rcases getLast?_cases path with rfl | ⟨parentPath, idx, rfl⟩
  · exact .inl ⟨_, rfl⟩
  simp only [List.getLast?_concat, List.dropLast_concat]
  cases hpos : Weight.nonPos weight with
  | true => exact .inl ⟨_, if_pos rfl⟩
  | false =>
      rw [if_neg Bool.false_ne_true]
      cases hparent : n.nodeAt parentPath with
      | none => exact .inl ⟨_, rfl⟩
      | some parent =>
          dsimp only
          cases hch : parent.children? with
          | none => exact .inl ⟨_, rfl⟩
          | some ch =>
              by_cases hidx : idx < 0 ∨ ch.length ≤ idx
              · exact .inl ⟨_, if_pos hidx⟩
              · obtain ⟨pre, w, c, post, rfl, rfl⟩ := exists_child hidx
                refine .inr ⟨parentPath, parent, pre, w, c, post, rfl, rfl, hparent, hch, ?_⟩
                simp only [if_neg hidx, Int.toNat_natCast]
                simp [List.modify_eq_take_cons_drop]

theorem setWidget_cases (n : Node ω) (path : List Int) (widgetID : Int) :
    (∃ err, n.setWidget path widgetID = (.error err, n)) ∨
      (∃ l, n.nodeAt path = some (leaf l) ∧
        n.setWidget path widgetID = (.ok (), n.putAt path (leaf { l with widgetID }))) ∨
      ∃ l dir cs, n.nodeAt path = some (both l dir cs) ∧
        n.setWidget path widgetID =
          (.ok (), n.putAt path (both { l with widgetID } dir cs)) := by
  unfold setWidget
  cases hold : n.nodeAt path with
  | none => exact .inl ⟨_, rfl⟩
  | some old =>
      cases old with
      | leaf l => exact .inr (.inl ⟨l, rfl, rfl⟩)
      | both l dir cs => exact .inr (.inr ⟨l, dir, cs, rfl, rfl⟩)
      | empty => exact .inl ⟨_, rfl⟩
      | split dir cs => exact .inl ⟨_, rfl⟩

end Calls

end Node

end FamilyPlanner.Screen

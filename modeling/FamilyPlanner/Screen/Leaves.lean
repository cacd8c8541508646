import FamilyPlanner.Screen.Tree

/-!
# The panes under the tree operations

The widget ids of the leaves in order, an empty pane as 0, and what a call of
each operation does to them.
-/

namespace FamilyPlanner.Screen

open FamilyPlanner.Foundation

namespace Node

variable {ω : Type}

/-! ## Valid trees -/

def Valid (n : Node ω) : Prop := n.validate = .ok ()

theorem validateChildren_ok {cs : List (ω × Node ω)} :
    validateChildren cs = .ok () ↔ ∀ child ∈ cs, child.2.Valid := by
  induction cs with
  | nil => simp [validateChildren]
  | cons child cs ih =>
      rw [validateChildren, List.forall_mem_cons, ← ih, Valid]
      cases child.2.validate <;> simp

theorem valid_leaf (l : Leaf) : (leaf l : Node ω).Valid := rfl

theorem valid_split {dir : String} {cs : List (ω × Node ω)} :
    (split dir cs).Valid ↔
      (dir = "row" ∨ dir = "col") ∧ 2 ≤ cs.length ∧ ∀ child ∈ cs, child.2.Valid := by
  rw [Valid, validate, ← validateChildren_ok]
  by_cases hdir : dir ≠ "row" ∧ dir ≠ "col"
  · simp [hdir]
  · have hdir' : dir = "row" ∨ dir = "col" := by
      by_contra hnone
      exact hdir (not_or.mp hnone)
    rw [if_neg hdir]
    by_cases hlen : cs.length < 2
    · have hfew : ¬ 2 ≤ cs.length := Nat.not_le_of_lt hlen
      simp [hlen, hfew]
    · simp [hdir', hlen, Nat.le_of_not_lt hlen]

theorem Valid.not_both {l : Leaf} {dir : String} {cs : List (ω × Node ω)} :
    ¬ (both l dir cs).Valid := by
  simp [Valid, validate]

theorem Valid.leaf_or_split {n : Node ω} (h : n.Valid) :
    (∃ l, n = leaf l) ∨ ∃ dir cs, n = split dir cs := by
  cases n with
  | leaf l => exact .inl ⟨l, rfl⟩
  | split dir cs => exact .inr ⟨dir, cs, rfl⟩
  | both l dir cs => exact absurd h Valid.not_both
  | empty => cases h

theorem Valid.eq_split {n : Node ω} {cs : List (ω × Node ω)} (h : n.Valid)
    (hcs : n.children? = some cs) : ∃ dir, n = split dir cs := by
  rcases h.leaf_or_split with ⟨l, rfl⟩ | ⟨dir, cs', rfl⟩
  · cases hcs
  · cases hcs
    exact ⟨dir, rfl⟩

theorem Valid.eq_leaf {n : Node ω} {l : Leaf} (h : n.Valid) (hl : n.leaf? = some l) :
    n = leaf l := by
  rcases h.leaf_or_split with ⟨l', rfl⟩ | ⟨dir, cs, rfl⟩
  · cases hl
    rfl
  · cases hl

theorem keeps_valid : (paths (ω := ω)).Keeps Valid where
  get := by
    intro n c idx hn hget
    obtain ⟨pre, w, post, hcs, rfl⟩ := childAt_eq_some.mp hget
    obtain ⟨dir, rfl⟩ := hn.eq_split hcs
    apply (valid_split.mp hn).2.2 (w, c)
    simp
  set := by
    intro n c idx d hn hget hd
    obtain ⟨pre, w, post, hcs, rfl⟩ := childAt_eq_some.mp hget
    obtain ⟨dir, rfl⟩ := hn.eq_split hcs
    obtain ⟨hdir, hlen, hall⟩ := valid_split.mp hn
    have hset : (split dir (pre ++ (w, c) :: post)).setChildAt pre.length d =
        split dir (pre ++ (w, d) :: post) := setChildAt_eq rfl d
    change ((split dir (pre ++ (w, c) :: post)).setChildAt pre.length d).Valid
    rw [hset, valid_split]
    simp only [List.length_append, List.length_cons, List.forall_mem_append,
      List.forall_mem_cons] at hlen hall ⊢
    exact ⟨hdir, hlen, hall.1, hd, hall.2.2⟩

theorem Valid.nodeAt {n t : Node ω} {path : List Int} (hn : n.Valid)
    (h : n.nodeAt path = some t) : t.Valid :=
  keeps_valid.find hn h

theorem Valid.putAt {n old t : Node ω} {path : List Int} (hn : n.Valid)
    (h : n.nodeAt path = some old) (ht : t.Valid) : (n.putAt path t).Valid :=
  keeps_valid.put hn h ht

theorem Valid.merged {dir : String} {pre post : List (ω × Node ω)} {w : ω} {c : Node ω}
    (h : (split dir (pre ++ (w, c) :: post)).Valid) :
    ((split dir (pre ++ (w, c) :: post)).merged (pre ++ post)).Valid := by
  obtain ⟨hdir, hlen, hall⟩ := valid_split.mp h
  have hrest : ∀ child ∈ pre ++ post, child.2.Valid := by
    intro child hchild
    apply hall child
    rcases List.mem_append.mp hchild with hpre | hpost
    · exact List.mem_append_left _ hpre
    · exact List.mem_append_right _ (List.mem_cons_of_mem _ hpost)
  have hpos : 1 ≤ (pre ++ post).length := by
    simp only [List.length_append, List.length_cons] at hlen ⊢
    omega
  generalize pre ++ post = rest at hrest hpos
  match rest with
  | [] => simp at hpos
  | [only] => exact hrest only List.mem_cons_self
  | child :: child' :: rest =>
      apply valid_split.mpr
      exact ⟨hdir, by simp, hrest⟩

/-! ## The leaves -/

mutual

def leaves : Node ω → List Int
  | empty => []
  | leaf l => [l.widgetID]
  | split _ children => childrenLeaves children
  | both l _ children => l.widgetID :: childrenLeaves children

def childrenLeaves : List (ω × Node ω) → List Int
  | [] => []
  | (_, n) :: cs => n.leaves ++ childrenLeaves cs

end

theorem childrenLeaves_append (cs cs' : List (ω × Node ω)) :
    childrenLeaves (cs ++ cs') = childrenLeaves cs ++ childrenLeaves cs' := by
  induction cs with
  | nil => rfl
  | cons child cs ih =>
      rw [List.cons_append, childrenLeaves, childrenLeaves, ih, List.append_assoc]

theorem childrenLeaves_cons (child : ω × Node ω) (cs : List (ω × Node ω)) :
    childrenLeaves (child :: cs) = child.2.leaves ++ childrenLeaves cs := by
  rw [childrenLeaves]

mutual

theorem widgetIDs_eq : ∀ n : Node ω, n.widgetIDs = n.leaves.filter (· ≠ 0)
  | empty => rfl
  | leaf l => by by_cases h : l.widgetID = 0 <;> simp [widgetIDs, leaves, h]
  | split _ children => by rw [widgetIDs, leaves, childrenWidgetIDs_eq children]
  | both l _ children => by
      rw [widgetIDs, leaves, childrenWidgetIDs_eq children]
      by_cases h : l.widgetID = 0 <;> simp [h]

theorem childrenWidgetIDs_eq :
    ∀ cs : List (ω × Node ω), childrenWidgetIDs cs = (childrenLeaves cs).filter (· ≠ 0)
  | [] => rfl
  | (_, n) :: cs => by
      rw [childrenWidgetIDs, childrenLeaves, widgetIDs_eq n, childrenWidgetIDs_eq cs,
        List.filter_append]

end

def ownLeaves (n : Node ω) : List Int := n.leaf?.toList.map Leaf.widgetID

theorem leaves_setChildren {n : Node ω} {cs : List (ω × Node ω)}
    (h : n.children? = some cs) (cs' : List (ω × Node ω)) :
    (n.setChildren cs').leaves = n.ownLeaves ++ childrenLeaves cs' := by
  cases n with
  | split dir cs => rfl
  | both l dir cs => rfl
  | empty => cases h
  | leaf l => cases h

theorem setChildren_self {n : Node ω} {cs : List (ω × Node ω)}
    (h : n.children? = some cs) : n.setChildren cs = n := by
  cases n <;> simp_all [children?, setChildren]

def leafList : (paths (ω := ω)).Lists leaves where
  before n idx := n.ownLeaves ++ childrenLeaves ((n.children?.getD []).take idx.toNat)
  after n idx := childrenLeaves ((n.children?.getD []).drop (idx.toNat + 1))
  get := by
    intro n c idx hget
    obtain ⟨pre, w, post, hcs, rfl⟩ := childAt_eq_some.mp hget
    have hall := leaves_setChildren hcs (pre ++ (w, c) :: post)
    rw [setChildren_self hcs] at hall
    simp [hall, hcs, childrenLeaves_append, childrenLeaves_cons]
  set := by
    intro n c idx d hget
    obtain ⟨pre, w, post, hcs, rfl⟩ := childAt_eq_some.mp hget
    have hall := leaves_setChildren hcs (pre ++ (w, d) :: post)
    rw [← setChildAt_eq hcs] at hall
    change (n.setChildAt pre.length d).leaves = _
    simp [hall, hcs, childrenLeaves_append, childrenLeaves_cons]

def leavesBefore (n : Node ω) (path : List Int) : List Int := leafList.beforePath n path

def leavesAfter (n : Node ω) (path : List Int) : List Int := leafList.afterPath n path

variable {n t : Node ω} {path : List Int}

theorem leaves_nodeAt (h : n.nodeAt path = some t) :
    n.leaves = n.leavesBefore path ++ t.leaves ++ n.leavesAfter path :=
  Branching.Lists.find h

theorem leaves_putAt {old : Node ω} (t : Node ω) (h : n.nodeAt path = some old) :
    (n.putAt path t).leaves = n.leavesBefore path ++ t.leaves ++ n.leavesAfter path :=
  Branching.Lists.put t h

/-! ## Sequences of calls -/

/-- The direction of a node's split with the weights of its children. -/
def weights? : Node ω → Option (String × List ω)
  | split dir cs | both _ dir cs => some (dir, cs.map Prod.fst)
  | empty | leaf _ => none

theorem weights?_setChildAt (n : Node ω) (idx : Int) (d : Node ω) :
    (n.setChildAt idx d).weights? = n.weights? := by
  have hmap (cs : List (ω × Node ω)) :
      (cs.modify idx.toNat fun child => (child.1, d)).map Prod.fst = cs.map Prod.fst := by
    apply List.ext_getElem?
    intro i
    simp only [List.getElem?_map, List.getElem?_modify]
    cases cs[i]? with
    | none => rfl
    | some child => by_cases hi : idx.toNat = i <;> simp [hi]
  cases n <;> simp [setChildAt, children?, setChildren, weights?, hmap]

theorem weights?_putAt {old : Node ω} (t : Node ω) {q : List Int}
    (h : n.nodeAt path = some old) (hq : ¬ path <+: q) :
    ((n.putAt path t).nodeAt q).map weights? = (n.nodeAt q).map weights? :=
  Branching.label_put weights?_setChildAt t h hq

end Node

inductive Call (ω : Type) where
  | splitLeaf (path : List Int) (dir : String)
  | remove (path : List Int)
  | setWidget (path : List Int) (widgetID : Int)
  | setWeight (path : List Int) (weight : ω)
  deriving Repr

variable {ω : Type}

def Call.apply [Weight ω] (n : Node ω) : Call ω → Except String Unit × Node ω
  | .splitLeaf path dir => n.splitLeaf path dir
  | .remove path => n.remove path
  | .setWidget path widgetID => n.setWidget path widgetID
  | .setWeight path weight => n.setWeight path weight

def calls [Weight ω] : System (Node ω) (Call ω) where
  step n c := some (c.apply n).2

/--
What a successful call is meant to do to the list of the leaves, and a removal
to the split it is made in.
-/
def Call.Effect (n n' : Node ω) : Call ω → Prop
  | .splitLeaf path _ =>
      ∃ l, n.nodeAt path = some (.leaf l) ∧
        n.leaves = n.leavesBefore path ++ [l.widgetID] ++ n.leavesAfter path ∧
        n'.leaves = n.leavesBefore path ++ [l.widgetID, 0] ++ n.leavesAfter path
  | .remove path =>
      ∃ parentPath dir pre w c post, path = parentPath ++ [(pre.length : Int)] ∧
        n.nodeAt parentPath = some (.split dir (pre ++ (w, c) :: post)) ∧
        n.nodeAt path = some c ∧
        n.leaves = n.leavesBefore path ++ c.leaves ++ n.leavesAfter path ∧
        n'.leaves = n.leavesBefore path ++ n.leavesAfter path ∧
        n'.nodeAt parentPath = some (match pre ++ post with
          | [(_, only)] => only
          | rest => .split dir rest) ∧
        ∀ q, ¬ parentPath <+: q →
          (n'.nodeAt q).map Node.weights? = (n.nodeAt q).map Node.weights?
  | .setWidget path widgetID =>
      ∃ l, n.nodeAt path = some (.leaf l) ∧
        n.leaves = n.leavesBefore path ++ [l.widgetID] ++ n.leavesAfter path ∧
        n'.leaves = n.leavesBefore path ++ [widgetID] ++ n.leavesAfter path
  | .setWeight _ _ => n'.leaves = n.leaves

/-- An error leaves the tree as it was. -/
def Call.Intended [Weight ω] (n : Node ω) (c : Call ω) : Prop :=
  match c.apply n with
  | (.error _, n') => n' = n
  | (.ok (), n') => c.Effect n n'

theorem Call.intended_of_error [Weight ω] {n : Node ω} {c : Call ω} {err : String}
    (h : c.apply n = (.error err, n)) : c.Intended n := by
  rw [Intended, h]

theorem Call.intended_of_effect [Weight ω] {n n' : Node ω} {c : Call ω}
    (h : c.apply n = (.ok (), n')) (he : c.Effect n n') : c.Intended n := by
  rw [Intended, h]
  exact he

namespace Node

variable {n : Node ω}

theorem effect_splitLeaf [Weight ω] {path : List Int} {dir : String} {l : Leaf}
    (hat : n.nodeAt path = some (leaf l)) :
    (Call.splitLeaf path dir : Call ω).Effect n (n.putAt path
      (split dir [(Weight.one, leaf l), (Weight.one, leaf { widgetID := 0 })])) := by
  refine ⟨l, hat, leaves_nodeAt hat, ?_⟩
  rw [leaves_putAt _ hat]
  rfl

theorem effect_setWidget {path : List Int} {l : Leaf} (widgetID : Int)
    (hat : n.nodeAt path = some (leaf l)) :
    (Call.setWidget path widgetID : Call ω).Effect n
      (n.putAt path (leaf { l with widgetID })) := by
  refine ⟨l, hat, leaves_nodeAt hat, ?_⟩
  rw [leaves_putAt _ hat]
  rfl

theorem leaves_merged (dir : String) (pre post : List (ω × Node ω)) (w : ω) (c : Node ω) :
    ((split dir (pre ++ (w, c) :: post)).merged (pre ++ post)).leaves =
      childrenLeaves pre ++ childrenLeaves post := by
  rw [← childrenLeaves_append]
  match pre ++ post with
  | [] => rfl
  | [only] => simp [merged, childrenLeaves]
  | _ :: _ :: _ => rfl

theorem effect_remove {parentPath : List Int} {dir : String}
    {pre post : List (ω × Node ω)} {w : ω} {c : Node ω}
    (hat : n.nodeAt parentPath = some (split dir (pre ++ (w, c) :: post))) :
    (Call.remove (parentPath ++ [(pre.length : Int)]) : Call ω).Effect n
      (n.putAt parentPath ((split dir (pre ++ (w, c) :: post)).merged (pre ++ post))) := by
  have hget : (split dir (pre ++ (w, c) :: post)).childAt pre.length = some c :=
    childAt_eq_some.mpr ⟨pre, w, post, rfl, rfl⟩
  have hchild : n.nodeAt (parentPath ++ [(pre.length : Int)]) = some c := by
    rw [nodeAt, Branching.find_append, ← nodeAt, hat]
    exact Branching.find_cons_eq_some.mpr ⟨c, hget, rfl⟩
  have hbefore : n.leavesBefore (parentPath ++ [(pre.length : Int)]) =
      n.leavesBefore parentPath ++ childrenLeaves pre := by
    rw [leavesBefore, Branching.Lists.beforePath_concat hat hget]
    simp [leavesBefore, leafList, ownLeaves, leaf?, children?]
  have hafter : n.leavesAfter (parentPath ++ [(pre.length : Int)]) =
      childrenLeaves post ++ n.leavesAfter parentPath := by
    rw [leavesAfter, Branching.Lists.afterPath_concat hat hget]
    simp [leavesAfter, leafList, children?]
  refine ⟨parentPath, dir, pre, w, c, post, rfl, hat, hchild, leaves_nodeAt hchild, ?_, ?_, ?_⟩
  · rw [leaves_putAt _ hat, leaves_merged, hbefore, hafter]
    simp [List.append_assoc]
  · rw [nodeAt, putAt, Branching.find_put _ hat]
    rfl
  · intro q hq
    exact weights?_putAt _ hat hq

theorem effect_setWeight {parentPath : List Int} {dir : String}
    {pre post : List (ω × Node ω)} {w : ω} {c : Node ω} (weight : ω)
    (hat : n.nodeAt parentPath = some (split dir (pre ++ (w, c) :: post))) :
    (n.putAt parentPath (split dir (pre ++ (weight, c) :: post))).leaves = n.leaves := by
  rw [leaves_putAt _ hat, leaves_nodeAt hat]
  simp [leaves, childrenLeaves_append, childrenLeaves_cons]

end Node

open Node

theorem Call.effective [Weight ω] {n : Node ω} (hn : n.Valid) (c : Call ω) :
    (c.apply n).2.Valid ∧ c.Intended n := by
  cases c with
  | splitLeaf path dir =>
      rcases n.splitLeaf_cases path dir with ⟨err, h⟩ | ⟨old, l, hdir, hat, hleaf, h⟩
      · exact ⟨by rwa [apply, h], intended_of_error h⟩
      · have hold : old = leaf l := (hn.nodeAt hat).eq_leaf hleaf
        subst hold
        refine ⟨?_, intended_of_effect h (effect_splitLeaf hat)⟩
        rw [apply, h]
        apply hn.putAt hat
        simp [valid_split, hdir, valid_leaf]
  | remove path =>
      rcases n.remove_cases path with
        ⟨err, h⟩ | ⟨parentPath, parent, pre, w, c, post, rfl, hat, hch, h⟩
      · exact ⟨by rwa [apply, h], intended_of_error h⟩
      · have hparent : parent.Valid := hn.nodeAt hat
        obtain ⟨dir, rfl⟩ := hparent.eq_split hch
        cases hch
        refine ⟨?_, intended_of_effect h (effect_remove hat)⟩
        rw [apply, h]
        exact hn.putAt hat hparent.merged
  | setWidget path widgetID =>
      rcases n.setWidget_cases path widgetID with
        ⟨err, h⟩ | ⟨l, hat, h⟩ | ⟨l, dir, cs, hat, h⟩
      · exact ⟨by rwa [apply, h], intended_of_error h⟩
      · refine ⟨?_, intended_of_effect h (effect_setWidget widgetID hat)⟩
        rw [apply, h]
        exact hn.putAt hat (valid_leaf _)
      · exact absurd (hn.nodeAt hat) Valid.not_both
  | setWeight path weight =>
      rcases n.setWeight_cases path weight with
        ⟨err, h⟩ | ⟨parentPath, parent, pre, w, c, post, rfl, hpos, hat, hch, h⟩
      · exact ⟨by rwa [apply, h], intended_of_error h⟩
      · have hparent : parent.Valid := hn.nodeAt hat
        obtain ⟨dir, rfl⟩ := hparent.eq_split hch
        cases hch
        refine ⟨?_, intended_of_effect h (effect_setWeight weight hat)⟩
        rw [apply, h]
        apply hn.putAt hat
        have hall := valid_split.mp hparent
        simp only [List.length_append, List.length_cons, List.forall_mem_append,
          List.forall_mem_cons] at hall
        apply valid_split.mpr
        simp only [List.length_append, List.length_cons, List.forall_mem_append,
          List.forall_mem_cons]
        exact hall

theorem calls_keep_valid [Weight ω] {n : Node ω} (hn : n.Valid) (cs : List (Call ω)) :
    calls.Along (fun n c => (c.apply n).2.Valid ∧ c.Intended n) n cs := by
  apply System.Along.of_invariant (I := Node.Valid) _ _ hn (.of_forall (fun _ _ => trivial) n cs)
  · intro n c n' hn _ hstep
    cases hstep
    exact (c.effective hn).1
  · intro n c hn _
    exact c.effective hn

def threePanes : Node Float64 :=
  .split "row" [(.finite 1, .leaf { widgetID := 4 }),
    (.finite 2, .split "col" [(.finite 1, .leaf { widgetID := 5 }),
      (.finite 1, .leaf { widgetID := 6 })])]

theorem calls_keep_valid_threePanes :
    calls.Along (fun n c => (c.apply n).2.Valid ∧ c.Intended n) threePanes
      [.splitLeaf [1, 0] "row", .setWeight [1] .nan, .remove [1, 1], .setWidget [7] 3] :=
  calls_keep_valid (by simp [threePanes, valid_split, valid_leaf]) _

end FamilyPlanner.Screen

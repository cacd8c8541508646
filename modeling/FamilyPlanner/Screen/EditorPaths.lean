import FamilyPlanner.Screen.Editor

/-!
# The paths of the editor page

`buildEditorVM` writes the address of every node into the page, as the child
indices joined by dots and the empty string for the root.  The page sends that
string back with each edit of the node.
-/

namespace FamilyPlanner.Screen

open FamilyPlanner.Foundation FamilyPlanner.Widget

inductive EditorNodeVM (ω : Type) where
  | pane (path : String) (widgetID : Int) (widgetName : String)
  | split (path dir : String) (children : List (ω × EditorNodeVM ω))
  deriving Repr

variable {ω : Type}

namespace EditorNodeVM

def path : EditorNodeVM ω → String
  | pane path _ _ | split path _ _ => path

def child (vm : EditorNodeVM ω) (i : Nat) : Option (EditorNodeVM ω) :=
  match vm with
  | pane _ _ _ => none
  | split _ _ children => children[i]?.map Prod.snd

def find : EditorNodeVM ω → List Nat → Option (EditorNodeVM ω)
  | vm, [] => some vm
  | vm, i :: idx =>
      match vm.child i with
      | none => none
      | some c => find c idx

end EditorNodeVM

def childPath (path : String) (i : Nat) : String :=
  if path ≠ "" then path ++ "." ++ i.repr else i.repr

section Model

variable (getWidget : Int → Option String)

def widgetName (l : Leaf) : String :=
  if l.widgetID ≠ 0 then (getWidget l.widgetID).getD "" else ""

mutual

/-- `getWidget` is the lookup of a widget's name.  On a node without leaf and
split the source panics; no valid tree has one. -/
def buildEditorVM : Node ω → String → EditorNodeVM ω
  | .leaf l, path | .both l _ _, path => .pane path l.widgetID (widgetName getWidget l)
  | .split dir cs, path => .split path dir (buildEditorChildren cs path 0)
  | .empty, path => .split path "" []

def buildEditorChildren : List (ω × Node ω) → String → Nat → List (ω × EditorNodeVM ω)
  | [], _, _ => []
  | (w, c) :: cs, path, i =>
      (w, buildEditorVM c (childPath path i)) :: buildEditorChildren cs path (i + 1)

end

end Model

/-- The path under which the node at the child indices below `path` is emitted. -/
def emitted : String → List Nat → String
  | path, [] => path
  | path, i :: idx => emitted (childPath path i) idx

/-- Child indices as the tree operations take them. -/
def address (idx : List Nat) : List Int := idx.map fun i : Nat => (i : Int)

@[simp] theorem address_cons (i : Nat) (idx : List Nat) :
    address (i :: idx) = (i : Int) :: address idx := rfl

@[simp] theorem address_concat (idx : List Nat) (i : Nat) :
    address (idx ++ [i]) = address idx ++ [(i : Int)] := by
  simp [address]

theorem address_injective {idx idx' : List Nat} (h : address idx = address idx') :
    idx = idx' := by
  apply List.map_injective_iff.mpr _ h
  intro i j hij
  exact Int.ofNat_inj.mp hij

/-! ## The page has the shape of the tree -/

section Shape

variable (getWidget : Int → Option String)

theorem getElem?_buildEditorChildren (cs : List (ω × Node ω)) (path : String) (i k : Nat) :
    (buildEditorChildren getWidget cs path i)[k]? =
      cs[k]?.map fun child =>
        (child.1, buildEditorVM getWidget child.2 (childPath path (i + k))) := by
  induction cs generalizing i k with
  | nil => simp [buildEditorChildren]
  | cons child cs ih =>
      rw [buildEditorChildren]
      cases k with
      | zero => rfl
      | succ k =>
          rw [List.getElem?_cons_succ, ih, List.getElem?_cons_succ]
          have hk : i + 1 + k = i + (k + 1) := by omega
          rw [hk]

theorem child_buildEditorVM {n : Node ω} (hn : n.Valid) (path : String) (i : Nat) :
    (buildEditorVM getWidget n path).child i =
      (n.childAt i).map fun c => buildEditorVM getWidget c (childPath path i) := by
  cases n with
  | empty => cases hn
  | both l dir cs => exact absurd hn Node.Valid.not_both
  | leaf l => rfl
  | split dir cs =>
      rw [buildEditorVM, EditorNodeVM.child, getElem?_buildEditorChildren, Node.childAt,
        Nat.zero_add]
      simp only [Node.children?, Int.toNat_natCast]
      split
      · rename_i hout
        rw [List.getElem?_eq_none (by omega)]
        rfl
      · cases cs[i]? <;> rfl

/-- The page has a node where the tree has one, with the emitted path. -/
theorem find_buildEditorVM {n : Node ω} (hn : n.Valid) (path : String) (idx : List Nat) :
    (buildEditorVM getWidget n path).find idx =
      (n.nodeAt (address idx)).map fun t =>
        buildEditorVM getWidget t (emitted path idx) := by
  induction idx generalizing n path with
  | nil => rfl
  | cons i idx ih =>
      rw [EditorNodeVM.find, child_buildEditorVM getWidget hn, address_cons]
      cases hget : n.childAt i with
      | none =>
          have hnone : n.nodeAt ((i : Int) :: address idx) = none := by
            rw [Node.nodeAt, Branching.find]
            simp only [Node.paths, hget]
          rw [hnone]
          rfl
      | some c =>
          have hsome : n.nodeAt ((i : Int) :: address idx) = c.nodeAt (address idx) := by
            rw [Node.nodeAt, Branching.find]
            simp only [Node.paths, hget]
          rw [hsome]
          exact ih (Node.keeps_valid.get hn hget) (childPath path i)

theorem path_buildEditorVM (n : Node ω) (path : String) :
    (buildEditorVM getWidget n path).path = path := by
  cases n <;> simp [buildEditorVM, EditorNodeVM.path]

end Shape

/-! ## What is emitted is parsed back -/

theorem repr_ne_empty (n : Nat) : n.repr ≠ "" := by
  intro h
  have hlist : n.repr.toList = [] := by rw [h]; rfl
  rw [Nat.toList_repr] at hlist
  exact Nat.toDigits_ne_nil hlist

theorem dot_not_mem_repr (n : Nat) : '.' ∉ n.repr.toList := by
  rw [Nat.toList_repr]
  intro hmem
  have hdigit := Nat.isDigit_of_mem_toDigits (by decide) (by decide) hmem
  revert hdigit
  decide

theorem toList_emitted {path : String} (hpath : path ≠ "") (idx : List Nat) :
    (emitted path idx).toList =
      ['.'].intercalate (path.toList :: idx.map fun i => i.repr.toList) := by
  induction idx generalizing path with
  | nil => simp [emitted]
  | cons i idx ih =>
      have hchild : childPath path i = path ++ "." ++ i.repr := if_pos hpath
      have hne : childPath path i ≠ "" := by
        rw [hchild]
        simp [hpath]
      rw [emitted, ih hne, hchild]
      cases idx <;> simp [List.intercalate, List.intersperse]

theorem emitted_ne_empty {path : String} (hpath : path ≠ "") (idx : List Nat) :
    emitted path idx ≠ "" := by
  induction idx generalizing path with
  | nil => exact hpath
  | cons i idx ih =>
      rw [emitted]
      apply ih
      rw [childPath, if_pos hpath]
      simp [hpath]

theorem splitAtChar_emitted (i : Nat) (idx : List Nat) :
    splitAtChar (emitted "" (i :: idx)) '.' = (i :: idx).map Nat.repr := by
  have hhead : childPath "" i = i.repr := by simp [childPath]
  rw [splitAtChar, emitted, hhead, toList_emitted (repr_ne_empty i),
    List.splitOn_intercalate]
  · simp only [List.map_cons, List.map_map, Function.comp_def, String.ofList_toList]
  · intro digits hdigits
    rcases List.mem_cons.mp hdigits with rfl | hdigits
    · exact dot_not_mem_repr i
    · obtain ⟨j, -, rfl⟩ := List.mem_map.mp hdigits
      exact dot_not_mem_repr j
  · simp

theorem mapM_atoi_repr {idx : List Nat} (h : ∀ i ∈ idx, (i : Int) < 2 ^ 63) :
    (idx.map Nat.repr).mapM atoi = some (address idx) := by
  induction idx with
  | nil => rfl
  | cons i idx ih =>
      rw [List.map_cons, List.mapM_cons, atoi_repr (h i List.mem_cons_self),
        ih fun j hj => h j (List.mem_cons_of_mem i hj)]
      rfl

theorem parsePath_emitted {idx : List Nat} (h : ∀ i ∈ idx, (i : Int) < 2 ^ 63) :
    parsePath (emitted "" idx) = address idx := by
  cases idx with
  | nil => rfl
  | cons i idx =>
      have hne : emitted "" (i :: idx) ≠ "" := by
        rw [emitted]
        apply emitted_ne_empty
        rw [childPath, if_neg (not_not_intro rfl)]
        exact repr_ne_empty i
      rw [parsePath, if_neg hne, splitAtChar_emitted, mapM_atoi_repr h]
      rfl

/-! ## The controls of a node -/

/-- `len` of a slice is an `int`, so every child index is one. -/
def Node.Sliced (root : Node ω) : Prop :=
  ∀ path n cs, root.nodeAt path = some n → n.children? = some cs →
    (cs.length : Int) < 2 ^ 63

theorem Node.Sliced.indices {root t : Node ω} (h : root.Sliced) {idx : List Nat}
    (hat : root.nodeAt (address idx) = some t) : ∀ i ∈ idx, (i : Int) < 2 ^ 63 := by
  induction idx generalizing root with
  | nil => simp
  | cons i idx ih =>
      obtain ⟨c, hget, hfind⟩ := Branching.find_cons_eq_some.mp hat
      obtain ⟨pre, w, post, hcs, hi⟩ := Node.childAt_eq_some.mp hget
      have hlen := h [] root _ rfl hcs
      have hchild : c.Sliced := by
        intro path n cs hpath hn
        apply h (i :: path) n cs _ hn
        exact Branching.find_cons_eq_some.mpr ⟨c, hget, hpath⟩
      intro j hj
      rcases List.mem_cons.mp hj with rfl | hj
      · have hj : (j : Int) = pre.length := hi
        rw [List.length_append, List.length_cons] at hlen
        omega
      · exact ih hchild hfind j hj

theorem Node.sliced_leaf (l : Leaf) : (Node.leaf l : Node ω).Sliced := by
  intro path n cs hpath hn
  cases path with
  | nil =>
      cases hpath
      cases hn
  | cons i path =>
      obtain ⟨c, hget, -⟩ := Branching.find_cons_eq_some.mp hpath
      cases hget

theorem Node.sliced_split {dir : String} {cs : List (ω × Node ω)}
    (hlen : (cs.length : Int) < 2 ^ 63) (h : ∀ child ∈ cs, child.2.Sliced) :
    (Node.split dir cs).Sliced := by
  intro path n cs' hpath hn
  cases path with
  | nil =>
      cases hpath
      cases hn
      exact hlen
  | cons i path =>
      obtain ⟨c, hget, hfind⟩ := Branching.find_cons_eq_some.mp hpath
      have hchild : (Node.split dir cs).childAt i = some c := hget
      obtain ⟨pre, w, post, hcs, -⟩ := Node.childAt_eq_some.mp hchild
      cases hcs
      exact h (w, c) (by simp) path n cs' hfind hn

theorem Node.setChildAt_self {n c : Node ω} {i : Int} (h : n.childAt i = some c) :
    n.setChildAt i c = n := by
  obtain ⟨pre, w, post, hcs, rfl⟩ := Node.childAt_eq_some.mp h
  rw [setChildAt_eq hcs, setChildren_self hcs]

theorem Node.setChildAt_setChildAt {n c : Node ω} {i : Int} (d e : Node ω)
    (h : n.childAt i = some c) : (n.setChildAt i d).setChildAt i e = n.setChildAt i e := by
  obtain ⟨pre, w, post, hcs, rfl⟩ := Node.childAt_eq_some.mp h
  rw [setChildAt_eq hcs, setChildAt_eq (children?_setChildren hcs _), setChildAt_eq hcs]
  cases n <;> rfl

theorem Node.remove_of_nodeAt {root : Node ω} {parentPath : List Int} {dir : String}
    {pre post : List (ω × Node ω)} {w : ω} {c : Node ω}
    (hat : root.nodeAt parentPath = some (.split dir (pre ++ (w, c) :: post))) :
    root.remove (parentPath ++ [(pre.length : Int)]) =
      (.ok (), root.putAt parentPath
        ((split dir (pre ++ (w, c) :: post)).merged (pre ++ post))) := by
  have hidx : ¬ ((pre.length : Int) < 0 ∨
      ((pre ++ (w, c) :: post).length : Int) ≤ pre.length) := by
    rw [List.length_append, List.length_cons]
    omega
  simp only [remove, List.getLast?_concat, List.dropLast_concat, hat, children?,
    if_neg hidx, Int.toNat_natCast]
  rw [List.eraseIdx_append_of_length_le (Nat.le_refl _)]
  simp

theorem Node.Valid.parent {root t : Node ω} (hn : root.Valid) {idx : List Nat} {i : Nat}
    (hat : root.nodeAt (address (idx ++ [i])) = some t) :
    ∃ dir pre w post,
      root.nodeAt (address idx) = some (.split dir (pre ++ (w, t) :: post)) ∧
        i = pre.length := by
  rw [address_concat, Node.nodeAt, Branching.find_append] at hat
  obtain ⟨parent, hparent, hchild⟩ := Option.bind_eq_some_iff.mp hat
  obtain ⟨c, hget, hc⟩ := Branching.find_cons_eq_some.mp hchild
  cases hc
  obtain ⟨pre, w, post, hcs, hi⟩ := childAt_eq_some.mp hget
  have hvalid : parent.Valid := hn.nodeAt hparent
  obtain ⟨dir, rfl⟩ := hvalid.eq_split hcs
  cases hcs
  exact ⟨dir, pre, w, post, hparent, by omega⟩

variable [JsonWeight ω] (parseFloat : String → Option ω)

/-- What the requests sent from the controls of a node do, each to that node
alone: `t` is the node under `idx`, and `p` the path its controls send.  The
weights of a split are dragged at the dividers between its children. -/
def Controls (root t : Node ω) (idx : List Int) (p : String) : Prop :=
  match t with
  | .leaf l =>
      (∀ dir, dir = "row" ∨ dir = "col" →
        (Edit.split p dir).apply parseFloat root = root.putAt idx
          (.split dir [(Weight.one, .leaf l), (Weight.one, .leaf { widgetID := 0 })])) ∧
      (∀ widget, (Edit.setWidget p widget).apply parseFloat root =
        root.putAt idx (.leaf { l with widgetID := atoiValue widget })) ∧
      (p ≠ "" →
        (Call.remove idx).Effect root ((Edit.remove p).apply parseFloat root))
  | .split dir cs =>
      ∀ weights, ∃ cs', cs'.map Prod.snd = cs.map Prod.snd ∧
        (Edit.weights p weights).apply parseFloat root = root.putAt idx (.split dir cs')
  | .empty | .both _ _ _ => True

theorem setWeights_putAt {root : Node ω} {idx : List Int} {dir : String}
    {cs : List (ω × Node ω)} (hat : root.nodeAt idx = some (.split dir cs)) (i : Nat)
    (weights : List String) (cs₁ : List (ω × Node ω))
    (hcs₁ : cs₁.map Prod.snd = cs.map Prod.snd) :
    ∃ cs', cs'.map Prod.snd = cs.map Prod.snd ∧
      setWeights parseFloat idx i weights (root.putAt idx (.split dir cs₁)) =
        root.putAt idx (.split dir cs') := by
  induction weights generalizing i cs₁ with
  | nil => exact ⟨cs₁, hcs₁, rfl⟩
  | cons ws weights ih =>
      rw [setWeights]
      have hskip := ih (i + 1) cs₁ hcs₁
      cases parseFloat (trimSpace ws) with
      | none => exact hskip
      | some wgt =>
          by_cases hpos : Weight.nonPos wgt
          · simpa only [hpos, if_true] using hskip
          · simp only [hpos, Bool.false_eq_true, if_false]
            have hnow : (root.putAt idx (.split dir cs₁)).nodeAt idx =
                some (.split dir cs₁) := Branching.find_put _ hat
            rcases (root.putAt idx (.split dir cs₁)).setWeight_cases (idx ++ [(i : Int)]) wgt
              with ⟨err, h⟩ | ⟨parentPath, parent, pre, w, c, post, hpath, -, hparent, hch, h⟩
            · rw [h]
              exact hskip
            · obtain ⟨rfl, -⟩ := List.append_inj' hpath rfl
              rw [hnow] at hparent
              cases hparent
              cases hch
              rw [h]
              obtain ⟨cs', hcs', heq⟩ := ih (i + 1) (pre ++ (wgt, c) :: post) (by
                rw [← hcs₁]
                simp)
              have hput : (root.putAt idx (.split dir (pre ++ (w, c) :: post))).putAt idx
                  (.split dir (pre ++ (wgt, c) :: post)) =
                    root.putAt idx (.split dir (pre ++ (wgt, c) :: post)) :=
                Branching.put_put Node.setChildAt_setChildAt _ _ hat
              refine ⟨cs', hcs', ?_⟩
              rw [← heq, ← hput]
              rfl

theorem controls_of_parsePath {root t : Node ω} (hn : root.Valid) {idx : List Nat}
    {p : String} (hp : parsePath p = address idx) (hroot : idx = [] → p = "")
    (hat : root.nodeAt (address idx) = some t) :
    Controls parseFloat root t (address idx) p := by
  cases t with
  | empty => trivial
  | both l dir cs => trivial
  | leaf l =>
      refine ⟨?_, ?_, ?_⟩
      · intro dir hdir
        have hbad : ¬ (dir ≠ "row" ∧ dir ≠ "col") := by
          rcases hdir with rfl | rfl <;> decide
        rw [Edit.apply, hp, Node.splitLeaf, if_neg hbad, hat]
        rfl
      · intro widget
        rw [Edit.apply, hp, Node.setWidget, hat]
      · intro hne
        have hidx : idx ≠ [] := fun hnil => hne (hroot hnil)
        obtain ⟨front, last, rfl⟩ : ∃ front last, idx = front ++ [last] :=
          ⟨idx.dropLast, idx.getLast hidx, (List.dropLast_concat_getLast hidx).symm⟩
        obtain ⟨dir, pre, w, post, hparent, rfl⟩ := hn.parent hat
        rw [Edit.apply, hp, address_concat, Node.remove_of_nodeAt hparent]
        exact Node.effect_remove hparent
  | split dir cs =>
      intro weights
      rw [Edit.apply, hp]
      have hself : root.putAt (address idx) (.split dir cs) = root :=
        Branching.put_self Node.setChildAt_self hat
      have h := setWeights_putAt parseFloat hat 0 (splitAtChar weights ',') cs rfl
      rwa [hself] at h

/-- Every node of the page carries a path that addresses it and no other node,
and what its controls send is done to it alone. -/
theorem editor_paths (getWidget : Int → Option String) (root : Node ω) (hn : root.Valid)
    (hsliced : root.Sliced) (idx : List Nat) (t : Node ω)
    (hat : root.nodeAt (address idx) = some t) :
    ∃ p, (buildEditorVM getWidget root "").find idx = some (buildEditorVM getWidget t p) ∧
      parsePath p = address idx ∧ root.nodeAt (parsePath p) = some t ∧
      (∀ idx' vm, (buildEditorVM getWidget root "").find idx' = some vm →
        vm.path = p → idx' = idx) ∧
      Controls parseFloat root t (parsePath p) p := by
  have hp := parsePath_emitted (hsliced.indices hat)
  refine ⟨emitted "" idx, ?_, hp, by rwa [hp], ?_, ?_⟩
  · rw [find_buildEditorVM getWidget hn, hat]
    rfl
  · intro idx' vm hvm hpath
    rw [find_buildEditorVM getWidget hn] at hvm
    obtain ⟨t', hat', rfl⟩ := Option.map_eq_some_iff.mp hvm
    rw [path_buildEditorVM] at hpath
    have hp' := parsePath_emitted (hsliced.indices hat')
    rw [hpath, hp] at hp'
    exact (address_injective hp').symm
  · rw [hp]
    apply controls_of_parsePath parseFloat hn hp _ hat
    rintro rfl
    rfl

theorem threePanes_sliced : threePanes.Sliced := by
  apply Node.sliced_split (by decide)
  simp only [List.forall_mem_cons]
  refine ⟨Node.sliced_leaf _, ?_, by simp⟩
  apply Node.sliced_split (by decide)
  simp [Node.sliced_leaf]

theorem editor_paths_threePanes :
    ∃ p, (buildEditorVM (fun _ => none) threePanes "").find [1, 1] =
        some (.pane p 6 "") ∧
      parsePath p = [1, 1] ∧
      threePanes.nodeAt (parsePath p) = some (.leaf { widgetID := 6 }) ∧
      (∀ idx' vm, (buildEditorVM (fun _ => none) threePanes "").find idx' = some vm →
        vm.path = p → idx' = [1, 1]) ∧
      Controls (fun _ => none) threePanes (.leaf { widgetID := 6 }) (parsePath p) p :=
  editor_paths (fun _ => none) (fun _ => none) threePanes
    (by simp [threePanes, Node.valid_split, Node.valid_leaf]) threePanes_sliced [1, 1]
    (.leaf { widgetID := 6 }) rfl

end FamilyPlanner.Screen

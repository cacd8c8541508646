import FamilyPlanner.Screen.Saves

/-!
# Requests with a malformed path

`parsePath` answers a text that is no list of integers with the path of the
root, so the edits take such a request for one on the root.  A list of integers
that addresses no node is refused by every edit.
-/

namespace FamilyPlanner.Screen

open FamilyPlanner.Foundation FamilyPlanner.Widget

variable {ω : Type}

/-! ## Malformed paths -/

def Edit.path : Edit → String
  | .split path _ | .remove path | .setWidget path _ | .weights path _ => path

/-- The parts of a path are integers of an `int`. -/
def IsPath (p : String) : Prop := (splitAtChar p '.').mapM atoi ≠ none

instance (p : String) : Decidable (IsPath p) := inferInstanceAs (Decidable (¬ _ = _))

/-- The path is not empty and is no list of integers that addresses a node. -/
def Bad (root : Node ω) (p : String) : Prop :=
  p ≠ "" ∧ ∀ idx, (splitAtChar p '.').mapM atoi = some idx → root.nodeAt idx = none

theorem Bad.nodeAt_none {root : Node ω} {p : String} (hbad : Bad root p) (h : IsPath p) :
    root.nodeAt (parsePath p) = none := by
  obtain ⟨idx, hidx⟩ := Option.ne_none_iff_exists'.mp h
  have hparse : parsePath p = idx := by
    rw [parsePath, if_neg hbad.1, hidx]
    rfl
  rw [hparse]
  exact hbad.2 idx hidx

theorem parsePath_of_not_isPath {p : String} (h : ¬ IsPath p) : parsePath p = [] := by
  rw [IsPath, ne_eq, Classical.not_not] at h
  rw [parsePath, h]
  split <;> rfl

/-! ## A loaded tree is saved no deeper than its text -/

namespace Json

theorem depth_encodeLeaf (l : Leaf) :
    (encodeLeaf l : Json ω).depth =
      ((l.config.map fun text => nesting 0 0 false text.toList).getD 0) + 1 := by
  rcases l with ⟨widgetID, _ | text⟩ <;> simp [encodeLeaf, depth, membersDepth]

theorem depth_pane (l : Leaf) (hl : l.config = none) :
    (object [("leaf", encodeLeaf l)] : Json ω).depth = 2 := by
  simp [depth, membersDepth, depth_encodeLeaf, hl]

theorem depth_encodeSplit (dir : String) (vs : List (Json ω)) :
    (encodeSplit dir vs).depth = elementsDepth vs + 2 := by
  simp [encodeSplit, depth, membersDepth]

/-- A leaf that takes up at most `d` levels inside its own brackets. -/
def LeafWithin (d : Nat) (l : Leaf) : Prop :=
  ((l.config.map fun text => nesting 0 0 false text.toList).getD 0) ≤ d

theorem depth_decodeLeafMembers {ms : List (String × Json ω)} {l l' : Leaf} {d : Nat}
    (hl : LeafWithin d l) (h : decodeLeafMembers l ms = some l') :
    LeafWithin (max d (membersDepth ms)) l' := by
  fun_induction decodeLeafMembers l ms generalizing d with
  | case1 l =>
      cases h
      simpa [membersDepth] using hl
  | case2 l widgetID ms ih =>
      simpa [membersDepth, depth] using ih (d := d) hl h
  | case3 l ms ih => simpa [membersDepth, depth] using ih (d := d) hl h
  | case4 => cases h
  | case5 l text ms ih =>
      have := ih (d := max d (nesting 0 0 false text.toList)) (Nat.le_max_right _ _) h
      simpa [membersDepth, depth, Nat.max_assoc] using this
  | case6 l m ms _ _ _ _ ih =>
      have := ih (d := max d m.2.depth) (Nat.le_trans hl (Nat.le_max_left _ _)) h
      simpa [membersDepth, Nat.max_assoc] using this

theorem depth_decodeLeaf {v : Json ω} {l : Leaf} (h : decodeLeaf v = some (some l)) :
    (encodeLeaf l : Json ω).depth ≤ v.depth := by
  cases v with
  | object ms =>
      obtain ⟨l', hl', heq⟩ := Option.map_eq_some_iff.mp h
      cases heq
      have := depth_decodeLeafMembers (d := 0) (by simp [LeafWithin]) hl'
      rw [Nat.zero_max] at this
      rw [depth_encodeLeaf, depth]
      exact Nat.succ_le_succ this
  | null => cases h
  | int value => cases h
  | float value => cases h
  | str value => cases h
  | raw text => cases h
  | array vs => cases h

theorem not_valid_empty : ¬ (Node.empty : Node ω).Valid := by
  simp [Node.Valid, Node.validate]

def LeafPart (ω : Type) (d : Nat) (l : Option Leaf) : Prop :=
  ∀ leaf, l = some leaf → (encodeLeaf leaf : Json ω).depth ≤ d

theorem LeafPart.mono {d e : Nat} {l : Option Leaf} (h : LeafPart ω d l) (hde : d ≤ e) :
    LeafPart ω e l :=
  fun leaf hl => Nat.le_trans (h leaf hl) hde

section Decode

variable [JsonWeight ω]

/-! Bounds on what has been decoded so far: a node, a list of children and the
array it stands in, and the leaf and the split of a node. -/

def NodeWithin (d : Nat) (n : Node ω) : Prop :=
  ∀ v, n.Valid → encodeNode n = some v → v.depth ≤ d

def ChildrenWithin (d : Nat) (cs : List (ω × Node ω)) : Prop :=
  ∀ vs, (∀ child ∈ cs, child.2.Valid) → encodeChildren cs = some vs → elementsDepth vs ≤ d

def ArrayWithin (d : Nat) (cs : List (ω × Node ω)) : Prop :=
  ∀ vs, 2 ≤ cs.length → (∀ child ∈ cs, child.2.Valid) → encodeChildren cs = some vs →
    elementsDepth vs + 1 ≤ d

def SplitPart (d : Nat) (s : Option (String × List (ω × Node ω))) : Prop :=
  ∀ dir cs, s = some (dir, cs) → ∀ e, d ≤ e + 1 → ArrayWithin e cs

theorem nodeWithin_empty (d : Nat) : NodeWithin d (Node.empty : Node ω) :=
  fun _ hn _ => absurd hn not_valid_empty

theorem NodeWithin.mono {d e : Nat} {n : Node ω} (h : NodeWithin d n) (hde : d ≤ e) :
    NodeWithin e n := fun v hn hv => Nat.le_trans (h v hn hv) hde

theorem ArrayWithin.mono {d e : Nat} {cs : List (ω × Node ω)} (h : ArrayWithin d cs)
    (hde : d ≤ e) : ArrayWithin e cs :=
  fun vs hlen hcs hvs => Nat.le_trans (h vs hlen hcs hvs) hde

theorem SplitPart.mono {d e : Nat} {s : Option (String × List (ω × Node ω))}
    (h : SplitPart d s) (hde : d ≤ e) : SplitPart e s :=
  fun dir cs hs f hf => h dir cs hs f (Nat.le_trans hde hf)

theorem nodeWithin_ofPointers {d : Nat} {l : Option Leaf}
    {s : Option (String × List (ω × Node ω))} (hl : LeafPart ω d l)
    (hs : SplitPart d s) : NodeWithin (d + 1) (ofPointers l s) := by
  intro v hn hv
  rcases l with _ | leaf <;> rcases s with _ | ⟨dir, cs⟩
  · exact absurd hn not_valid_empty
  · obtain ⟨-, hlen, hcs⟩ := Node.valid_split.mp hn
    rw [ofPointers, encodeNode] at hv
    cases hvs : encodeChildren cs with
    | none => simp [hvs] at hv
    | some vs =>
        simp only [hvs, Option.some.injEq] at hv
        subst hv
        have := hs dir cs rfl (d - 1) (by omega) vs hlen hcs hvs
        simp only [depth, membersDepth, depth_encodeSplit]
        omega
  · cases hv
    have := hl leaf rfl
    simp only [depth, membersDepth]
    omega
  · exact absurd hn Node.Valid.not_both

mutual

theorem decodeNode_within :
    ∀ (j : Json ω) (n : Node ω), j.decodeNode = some n → NodeWithin j.depth n
  | null, n, h => by
      cases h
      exact nodeWithin_empty _
  | object ms, n, h => by
      have := decodeNodeMembers_within ms none none n 0 (by simp [LeafPart])
        (by simp [SplitPart]) h
      rwa [Nat.zero_max] at this
  | int _, n, h | float _, n, h | str _, n, h | raw _, n, h | array _, n, h => by cases h

theorem decodeNodeMembers_within :
    ∀ (ms : List (String × Json ω)) (l : Option Leaf)
      (s : Option (String × List (ω × Node ω))) (n : Node ω) (d : Nat),
      LeafPart ω d l → SplitPart d s → decodeNodeMembers l s ms = some n →
        NodeWithin (max d (membersDepth ms) + 1) n
  | [], l, s, n, d, hl, hs, h => by
      cases h
      rw [membersDepth, Nat.max_zero]
      exact nodeWithin_ofPointers hl hs
  | (name, v) :: ms, l, s, n, d, hl, hs, h => by
      have hnow : d ≤ max d v.depth := Nat.le_max_left _ _
      rw [membersDepth, ← Nat.max_assoc]
      rw [decodeNodeMembers] at h
      by_cases hsplit : name = "split"
      · rw [if_pos hsplit] at h
        cases hv : decodeSplit v with
        | none => simp [hv] at h
        | some s' =>
            simp only [hv] at h
            have hs' := (decodeSplit_within v s' hv).mono (Nat.le_max_right d v.depth)
            exact decodeNodeMembers_within ms l s' n _ (hl.mono hnow) hs' h
      · rw [if_neg hsplit] at h
        by_cases hleaf : name = "leaf"
        · rw [if_pos hleaf] at h
          cases hv : decodeLeaf v with
          | none => simp [hv] at h
          | some l' =>
              simp only [hv] at h
              have hl' : LeafPart ω (max d v.depth) l' := by
                rintro leaf rfl
                exact Nat.le_trans (depth_decodeLeaf hv) (Nat.le_max_right d v.depth)
              exact decodeNodeMembers_within ms l' s n _ hl' (hs.mono hnow) h
        · rw [if_neg hleaf] at h
          exact decodeNodeMembers_within ms l s n _ (hl.mono hnow) (hs.mono hnow) h

theorem decodeSplit_within :
    ∀ (j : Json ω) (s : Option (String × List (ω × Node ω))),
      decodeSplit j = some s → SplitPart j.depth s
  | null, s, h => by
      cases h
      simp [SplitPart]
  | object ms, s, h => by
      obtain ⟨⟨dir, cs⟩, hms, rfl⟩ := Option.map_eq_some_iff.mp h
      intro dir' cs' heq e he
      cases heq
      have := decodeSplitMembers_within ms "" [] dir cs 0
        (fun vs hlen => absurd hlen (by simp)) hms
      rw [Nat.zero_max] at this
      apply this.mono
      rw [depth] at he
      omega
  | int _, s, h | float _, s, h | str _, s, h | raw _, s, h | array _, s, h => by cases h

theorem decodeSplitMembers_within :
    ∀ (ms : List (String × Json ω)) (dir : String) (cs : List (ω × Node ω))
      (dir' : String) (cs' : List (ω × Node ω)) (d : Nat), ArrayWithin d cs →
        decodeSplitMembers dir cs ms = some (dir', cs') →
          ArrayWithin (max d (membersDepth ms)) cs'
  | [], dir, cs, dir', cs', d, hcs, h => by
      cases h
      rwa [membersDepth, Nat.max_zero]
  | (name, v) :: ms, dir, cs, dir', cs', d, hcs, h => by
      have hnow : d ≤ max d v.depth := Nat.le_max_left _ _
      rw [membersDepth, ← Nat.max_assoc]
      unfold decodeSplitMembers at h
      by_cases hdir : name = "dir"
      · rw [if_pos hdir] at h
        split at h
        · exact decodeSplitMembers_within ms _ cs dir' cs' _ (hcs.mono hnow) h
        · exact decodeSplitMembers_within ms _ cs dir' cs' _ (hcs.mono hnow) h
        · cases h
      · rw [if_neg hdir] at h
        by_cases hchildren : name = "children"
        · rw [if_pos hchildren] at h
          split at h
          · exact decodeSplitMembers_within ms _ [] dir' cs' _
              (fun vs hlen => absurd hlen (by simp)) h
          · rename_i vs
            cases hvs : decodeChildren vs with
            | none => simp [hvs] at h
            | some cs₁ =>
                simp only [hvs] at h
                have hnew : ArrayWithin (max d (array vs).depth) cs₁ := by
                  intro us _ hvalid hus
                  have := decodeChildren_within vs cs₁ hvs us hvalid hus
                  rw [depth]
                  omega
                exact decodeSplitMembers_within ms _ cs₁ dir' cs' _ hnew h
          · cases h
        · rw [if_neg hchildren] at h
          exact decodeSplitMembers_within ms _ cs dir' cs' _ (hcs.mono hnow) h

theorem decodeChildren_within :
    ∀ (vs : List (Json ω)) (cs : List (ω × Node ω)), decodeChildren vs = some cs →
      ChildrenWithin (elementsDepth vs) cs
  | [], cs, h => by
      cases h
      intro us _ hus
      cases hus
      exact Nat.le_refl _
  | v :: vs, cs, h => by
      rw [decodeChildren] at h
      cases hv : decodeChild v with
      | none => simp [hv] at h
      | some child =>
          cases hvs : decodeChildren vs with
          | none => simp [hv, hvs] at h
          | some rest =>
              simp only [hv, hvs, Option.some.injEq] at h
              subst h
              intro us hvalid hus
              obtain ⟨w, n⟩ := child
              rw [List.forall_mem_cons] at hvalid
              rw [encodeChildren] at hus
              split at hus
              · cases hn : encodeNode n with
                | none => simp [hn] at hus
                | some u =>
                    cases hrest : encodeChildren rest with
                    | none => simp [hn, hrest] at hus
                    | some us' =>
                        simp only [hn, hrest, Option.some.injEq] at hus
                        subst hus
                        have hchild := decodeChild_within v w n hv u hvalid.1 hn
                        have htail := decodeChildren_within vs rest hvs us' hvalid.2 hrest
                        simp only [elementsDepth, depth, membersDepth]
                        omega
              · cases hus

theorem decodeChild_within :
    ∀ (j : Json ω) (w : ω) (n : Node ω), decodeChild j = some (w, n) →
      ∀ v, n.Valid → encodeNode n = some v → v.depth + 1 ≤ j.depth
  | null, w, n, h => by
      cases h
      exact fun _ hn => absurd hn not_valid_empty
  | object ms, w, n, h => by
      intro v hn hv
      have := decodeChildMembers_within ms _ _ w n 0 (nodeWithin_empty 0) h v hn hv
      rw [depth]
      omega
  | int _, w, n, h | float _, w, n, h | str _, w, n, h | raw _, w, n, h
  | array _, w, n, h => by cases h

theorem decodeChildMembers_within :
    ∀ (ms : List (String × Json ω)) (w₀ : ω) (n₀ : Node ω) (w : ω) (n : Node ω) (d : Nat),
      NodeWithin d n₀ → decodeChildMembers w₀ n₀ ms = some (w, n) →
        NodeWithin (max d (membersDepth ms)) n
  | [], w₀, n₀, w, n, d, hn, h => by
      cases h
      rwa [membersDepth, Nat.max_zero]
  | (name, v) :: ms, w₀, n₀, w, n, d, hn, h => by
      have hnow : d ≤ max d v.depth := Nat.le_max_left _ _
      rw [membersDepth, ← Nat.max_assoc]
      unfold decodeChildMembers at h
      by_cases hweight : name = "weight"
      · rw [if_pos hweight] at h
        split at h
        · exact decodeChildMembers_within ms _ n₀ w n _ (hn.mono hnow) h
        · exact decodeChildMembers_within ms _ n₀ w n _ (hn.mono hnow) h
        · cases h
      · rw [if_neg hweight] at h
        by_cases hnode : name = "node"
        · rw [if_pos hnode] at h
          cases hv : v.decodeNode with
          | none => simp [hv] at h
          | some n₁ =>
              simp only [hv] at h
              have hnew := (decodeNode_within v n₁ hv).mono (Nat.le_max_right d v.depth)
              exact decodeChildMembers_within ms _ n₁ w n _ hnew h
        · rw [if_neg hnode] at h
          exact decodeChildMembers_within ms _ n₀ w n _ (hn.mono hnow) h

end

theorem depth_of_unmarshal {j v : Json ω} {n : Node ω} (h : j.unmarshal = .ok n)
    (hn : n.Valid) (hv : encodeNode n = some v) : v.depth ≤ maxNestingDepth := by
  rw [unmarshal] at h
  split at h
  · cases h
  · rename_i hdepth
    cases hj : j.decodeNode with
    | none => simp [hj] at h
    | some n' =>
        simp only [hj, Except.ok.injEq] at h
        subst h
        exact Nat.le_trans (decodeNode_within j n' hj v hn hv) (Nat.le_of_not_lt hdepth)

end Decode

end Json

variable [JsonWeight ω] {parseFloat : String → Option ω}

theorem parse_json {value : Json ω} {root : Node ω} (h : value.unmarshal = .ok root)
    (hn : root.Valid) : (Text.json value).layoutJson.parse = .ok root := by
  have hvalid : root.validate = .ok () := hn
  simp [Text.layoutJson, h, LayoutJson.parse, hvalid]

theorem parse_saved {text : Text ω} {root : Node ω} {value : Json ω}
    (h : text.layoutJson.parse = .ok root) (hv : Json.encodeNode root = some value) :
    (Text.json value).layoutJson.parse = .ok root := by
  have hn : root.Valid := LayoutJson.parse_valid h
  apply parse_json _ hn
  apply Json.unmarshal_encodeNode hv
  cases text with
  | blank => cases h
  | malformed err => cases h
  | json j =>
      rw [Text.layoutJson] at h
      cases hj : j.unmarshal with
      | error err =>
          rw [hj] at h
          cases h
      | ok n =>
          rw [hj, LayoutJson.parse] at h
          cases hvalid : n.validate with
          | error err => simp [hvalid] at h
          | ok u =>
              simp only [hvalid, Except.ok.injEq] at h
              subst h
              exact Json.depth_of_unmarshal hj hn hv

/-! ## Edits of no node -/

def listedWeight (parseFloat : String → Option ω) (ws : String) : Option ω :=
  (parseFloat (trimSpace ws)).filter fun wgt => !Weight.nonPos wgt

theorem setWeights_cons (path : List Int) (i : Nat) (ws : String) (weights : List String)
    (root : Node ω) :
    setWeights parseFloat path i (ws :: weights) root =
      setWeights parseFloat path (i + 1) weights
        ((listedWeight parseFloat ws).elim root fun wgt =>
          (root.setWeight (path ++ [(i : Int)]) wgt).2) := by
  rw [setWeights, listedWeight]
  cases parseFloat (trimSpace ws) with
  | none => rfl
  | some wgt => by_cases hpos : Weight.nonPos wgt <;> simp [hpos, Option.filter_some]

theorem listedWeight_pos {ws : String} {wgt : ω}
    (h : listedWeight parseFloat ws = some wgt) : Weight.nonPos wgt = false := by
  simpa using (Option.filter_eq_some_iff.mp h).2

theorem setWeights_of_none {root : Node ω} {path : List Int} (h : root.nodeAt path = none)
    (i : Nat) (weights : List String) :
    setWeights parseFloat path i weights root = root := by
  induction weights generalizing i with
  | nil => rfl
  | cons ws weights ih =>
      rw [setWeights_cons]
      cases listedWeight parseFloat ws with
      | none => exact ih (i + 1)
      | some wgt =>
          rcases root.setWeight_cases (path ++ [(i : Int)]) wgt with
            ⟨err, herr⟩ | ⟨parentPath, parent, pre, w, c, post, hpath, -, hparent, -, -⟩
          · rw [Option.elim_some, herr]
            exact ih (i + 1)
          · obtain ⟨rfl, -⟩ := List.append_inj' hpath rfl
            rw [h] at hparent
            cases hparent

theorem apply_of_nodeAt_none {root : Node ω} {e : Edit}
    (h : root.nodeAt (parsePath e.path) = none) :
    e.apply parseFloat root = root := by
  cases e with
  | split path dir =>
      rcases root.splitLeaf_cases (parsePath path) dir with
        ⟨err, herr⟩ | ⟨old, l, -, hat, -, -⟩
      · rw [Edit.apply, herr]
      · rw [Edit.path, hat] at h
        cases h
  | remove path =>
      rcases root.remove_cases (parsePath path) with
        ⟨err, herr⟩ | ⟨parentPath, parent, pre, w, c, post, hpath, hparent, hch, -⟩
      · rw [Edit.apply, herr]
      · have hget : parent.childAt pre.length = some c :=
          Node.childAt_eq_some.mpr ⟨pre, w, post, hch, rfl⟩
        have hsome : root.nodeAt (parsePath path) = some c := by
          rw [hpath, Node.nodeAt, Branching.find_append, ← Node.nodeAt, hparent]
          exact Branching.find_cons_eq_some.mpr ⟨c, hget, rfl⟩
        rw [Edit.path, hsome] at h
        cases h
  | setWidget path widget =>
      rcases root.setWidget_cases (parsePath path) (atoiValue widget) with
        ⟨err, herr⟩ | ⟨l, hat, -⟩ | ⟨l, dir, cs, hat, -⟩
      · rw [Edit.apply, herr]
      · rw [Edit.path, hat] at h
        cases h
      · rw [Edit.path, hat] at h
        cases h
  | weights path weights => exact setWeights_of_none h 0 _

/-! ## Edits of the root -/

/-- The listed texts give the child of a root whose weight is `old` the weight
`new`. -/
def Resizes (parseFloat : String → Option ω) (root : Node ω) (weights : String)
    (old new : ω) : Prop :=
  ∃ (dir : String) (cs : List (ω × Node ω)) (k : Nat) (c : Node ω) (ws : String),
    root = .split dir cs ∧ cs[k]? = some (old, c) ∧ (splitAtChar weights ',')[k]? = some ws ∧
      listedWeight parseFloat ws = some new

/-- The edit, made to the root, leaves it as it was or makes a tree that cannot
be saved. -/
def RootUntouched (parseFloat : String → Option ω) (root : Node ω) : Edit → Prop
  | .split _ dir => (dir = "row" ∨ dir = "col") → ∀ l, root ≠ .leaf l
  | .remove _ => True
  | .setWidget _ widget => ∀ l, root = .leaf l → l.widgetID = atoiValue widget
  | .weights _ weights =>
      (∃ old new, Resizes parseFloat root weights old new ∧
        JsonWeight.finite new = false) ∨
      ∀ old new, Resizes parseFloat root weights old new → old = new

theorem setWeights_leaf (i : Nat) (weights : List String) (l : Leaf) :
    setWeights parseFloat [] i weights (.leaf l) = .leaf l := by
  induction weights generalizing i with
  | nil => rfl
  | cons ws weights ih =>
      rw [setWeights_cons]
      cases hws : listedWeight parseFloat ws with
      | none => exact ih (i + 1)
      | some wgt =>
          have hpos := listedWeight_pos hws
          simpa [hpos, Node.setWeight, Node.nodeAt, Node.children?] using ih (i + 1)

theorem setWeight_root (dir : String) (cs : List (ω × Node ω)) (i : Nat) (wgt : ω)
    (hpos : Weight.nonPos wgt = false) :
    ((Node.split dir cs).setWeight [(i : Int)] wgt).2 =
      .split dir (cs.modify i fun child => (wgt, child.2)) := by
  have hpos' : ¬ Weight.nonPos wgt = true := by simp [hpos]
  simp only [Node.setWeight, List.getLast?_singleton, if_neg hpos', List.dropLast_singleton]
  simp only [Node.nodeAt, Branching.find_nil, Node.children?, Node.putAt,
    Branching.put_nil, Node.setChildren, Int.toNat_natCast]
  split
  · rename_i hout
    rw [List.modify_eq_self (by omega)]
  · rfl

theorem setWeights_root (dir : String) (i : Nat) (weights : List String)
    (cs : List (ω × Node ω)) :
    ∃ cs', setWeights parseFloat [] i weights (.split dir cs) = .split dir cs' ∧
      ∀ k, cs'[k]? = cs[k]?.map fun child =>
        (((if i ≤ k then weights[k - i]? else none).bind
          (listedWeight parseFloat)).getD child.1, child.2) := by
  induction weights generalizing i cs with
  | nil =>
      refine ⟨cs, rfl, fun k => ?_⟩
      simp
  | cons ws weights ih =>
      rw [setWeights_cons]
      cases hws : listedWeight parseFloat ws with
      | none =>
          obtain ⟨cs', hcs', hall⟩ := ih (i + 1) cs
          refine ⟨cs', hcs', fun k => ?_⟩
          rw [hall]
          rcases Nat.lt_trichotomy k i with hlt | rfl | hlt
          · rw [if_neg (by omega), if_neg (by omega)]
          · rw [if_neg (by omega)]
            simp [hws]
          · rw [if_pos (by omega), if_pos (by omega)]
            have hk : k - i = k - (i + 1) + 1 := by omega
            rw [hk, List.getElem?_cons_succ]
      | some wgt =>
          obtain ⟨cs', hcs', hall⟩ := ih (i + 1) (cs.modify i fun child => (wgt, child.2))
          refine ⟨cs', ?_, fun k => ?_⟩
          · rw [← hcs', Option.elim_some, List.nil_append,
              setWeight_root dir cs i wgt (listedWeight_pos hws)]
          · rw [hall, List.getElem?_modify]
            cases cs[k]? with
            | none => rfl
            | some child =>
                rcases Nat.lt_trichotomy k i with hlt | rfl | hlt
                · have hne : i ≠ k := by omega
                  simp [hne, Nat.not_le_of_lt hlt, show ¬ i + 1 ≤ k by omega]
                · simp [hws, show ¬ k + 1 ≤ k by omega]
                · have hne : i ≠ k := by omega
                  have hk : k - i = k - (i + 1) + 1 := by omega
                  simp [hne, Nat.le_of_lt hlt, Nat.succ_le_of_lt hlt, hk]

theorem encodeChildren_isSome {cs : List (ω × Node ω)} :
    (Json.encodeChildren cs).isSome ↔
      ∀ child ∈ cs, JsonWeight.finite child.1 = true ∧ (Json.encodeNode child.2).isSome := by
  induction cs with
  | nil => simp [Json.encodeChildren]
  | cons child cs ih =>
      obtain ⟨w, n⟩ := child
      rw [Json.encodeChildren, List.forall_mem_cons, ← ih]
      by_cases hw : JsonWeight.finite w
      · cases Json.encodeNode n <;> cases Json.encodeChildren cs <;> simp [hw]
      · simp [hw]

theorem encodeSplit_isSome {dir : String} {cs : List (ω × Node ω)} :
    (Json.encodeNode (.split dir cs)).isSome ↔ (Json.encodeChildren cs).isSome := by
  rw [Json.encodeNode]
  cases Json.encodeChildren cs <;> rfl

def Resized (parseFloat : String → Option ω) (weights : String)
    (cs cs' : List (ω × Node ω)) : Prop :=
  ∀ k : Nat, cs'[k]? = cs[k]?.map fun child : ω × Node ω =>
    (((splitAtChar weights ',')[k]?.bind (listedWeight parseFloat)).getD child.1, child.2)

section Resizing

variable {dir weights : String} {cs cs' : List (ω × Node ω)}

theorem Resized.eq_iff (hcs' : Resized parseFloat weights cs cs') :
    cs' = cs ↔
      ∀ old new, Resizes parseFloat (.split dir cs) weights old new → old = new := by
  constructor
  · rintro rfl old new ⟨dir', cs₁, k, c, ws, heq, hk, hws, hnew⟩
    cases heq
    have := hcs' k
    rw [hk, hws] at this
    simpa [hnew] using this
  · intro hall
    apply List.ext_getElem?
    intro k
    rw [hcs']
    cases hk : cs[k]? with
    | none => rfl
    | some child =>
        cases hws : (splitAtChar weights ',')[k]? with
        | none => rfl
        | some ws =>
            cases hnew : listedWeight parseFloat ws with
            | none => simp [hnew]
            | some new =>
                have hsame := hall child.1 new ⟨dir, cs, k, child.2, ws, rfl, hk, hws, hnew⟩
                simp [hnew, ← hsame]

theorem Resized.encode_none_iff (hcs' : Resized parseFloat weights cs cs')
    (hcs : (Json.encodeChildren cs).isSome) :
    Json.encodeChildren cs' = none ↔
      ∃ old new, Resizes parseFloat (.split dir cs) weights old new ∧
        JsonWeight.finite new = false := by
  rw [← Option.not_isSome_iff_eq_none, encodeChildren_isSome]
  constructor
  · intro hnot
    by_contra hnone
    apply hnot
    intro child hchild
    obtain ⟨k, hk⟩ := List.mem_iff_getElem?.mp hchild
    rw [hcs'] at hk
    obtain ⟨old, hold, rfl⟩ := Option.map_eq_some_iff.mp hk
    obtain ⟨hfinite, hnode⟩ := encodeChildren_isSome.mp hcs old (List.mem_of_getElem? hold)
    refine ⟨?_, hnode⟩
    cases hws : (splitAtChar weights ',')[k]? with
    | none => exact hfinite
    | some ws =>
        cases hnew : listedWeight parseFloat ws with
        | none => simpa [hnew] using hfinite
        | some new =>
            by_contra hinf
            apply hnone
            refine ⟨old.1, new, ⟨dir, cs, k, old.2, ws, rfl, hold, hws, hnew⟩, ?_⟩
            simpa [hnew] using hinf
  · rintro ⟨old, new, ⟨dir', cs₁, k, c, ws, heq, hk, hws, hnew⟩, hinf⟩ hall
    cases heq
    have hk' : cs'[k]? = some (new, c) := by
      rw [hcs', hk, hws]
      simp [hnew]
    have := (hall _ (List.mem_of_getElem? hk')).1
    rw [hinf] at this
    cases this

end Resizing

section Root

variable {root : Node ω}

theorem splitLeaf_root_iff (hn : root.Valid) (dir : String) :
    Json.encodeNode (root.splitLeaf [] dir).2 = none ∨ (root.splitLeaf [] dir).2 = root ↔
      ((dir = "row" ∨ dir = "col") → ∀ l, root ≠ .leaf l) := by
  by_cases hdir : dir = "row" ∨ dir = "col"
  · have hbad : ¬ (dir ≠ "row" ∧ dir ≠ "col") := by
      rcases hdir with rfl | rfl <;> decide
    rcases hn.leaf_or_split with ⟨l, rfl⟩ | ⟨dir', cs, rfl⟩
    · simp [Node.splitLeaf, hbad, Node.nodeAt, Node.leaf?, hdir, Node.putAt,
        Json.encodeNode, Json.encodeChildren, JsonWeight.finite_one]
    · simp [Node.splitLeaf, hbad, Node.nodeAt, Node.leaf?]
  · have hbad : dir ≠ "row" ∧ dir ≠ "col" := not_or.mp hdir
    simp [Node.splitLeaf, hbad]

theorem setWidget_root_iff (hn : root.Valid) (widgetID : Int) :
    Json.encodeNode (root.setWidget [] widgetID).2 = none ∨
        (root.setWidget [] widgetID).2 = root ↔
      ∀ l, root = .leaf l → l.widgetID = widgetID := by
  rcases hn.leaf_or_split with ⟨⟨old, config⟩, rfl⟩ | ⟨dir, cs, rfl⟩
  · simp [Node.setWidget, Node.nodeAt, Node.putAt, Json.encodeNode, eq_comm]
  · simp [Node.setWidget, Node.nodeAt]

theorem setWeights_root_iff (hn : root.Valid) (hjson : (Json.encodeNode root).isSome)
    (weights : String) :
    Json.encodeNode (setWeights parseFloat [] 0 (splitAtChar weights ',') root) = none ∨
        setWeights parseFloat [] 0 (splitAtChar weights ',') root = root ↔
      (∃ old new, Resizes parseFloat root weights old new ∧ JsonWeight.finite new = false) ∨
        ∀ old new, Resizes parseFloat root weights old new → old = new := by
  rcases hn.leaf_or_split with ⟨l, rfl⟩ | ⟨dir, cs, rfl⟩
  · simp [setWeights_leaf, Resizes]
  · obtain ⟨cs', heq, hcs'⟩ := @setWeights_root _ _ parseFloat dir 0
      (splitAtChar weights ',') cs
    simp only [Nat.zero_le, if_true, Nat.sub_zero] at hcs'
    have hresized : Resized parseFloat weights cs cs' := hcs'
    have hnone : Json.encodeNode (.split dir cs') = none ↔
        Json.encodeChildren cs' = none := by
      rw [← Option.not_isSome_iff_eq_none, encodeSplit_isSome,
        Option.not_isSome_iff_eq_none]
    have hsame : Node.split dir cs' = .split dir cs ↔ cs' = cs := by simp
    rw [heq, hnone, hsame, hresized.encode_none_iff (encodeSplit_isSome.mp hjson),
      hresized.eq_iff]

/-- Made to the root, an edit saves a tree other than before unless the root is
one that it leaves alone. -/
theorem rootUntouched_iff {e : Edit} (hn : root.Valid)
    (hroot : parsePath e.path = []) (hjson : (Json.encodeNode root).isSome) :
    Json.encodeNode (e.apply parseFloat root) = none ∨ e.apply parseFloat root = root ↔
      RootUntouched parseFloat root e := by
  cases e with
  | remove path =>
      rw [Edit.path] at hroot
      simp [Edit.apply, hroot, Node.remove, RootUntouched]
  | split path dir =>
      rw [Edit.path] at hroot
      rw [Edit.apply, hroot, RootUntouched]
      exact splitLeaf_root_iff hn dir
  | setWidget path widget =>
      rw [Edit.path] at hroot
      rw [Edit.apply, hroot, RootUntouched]
      exact setWidget_root_iff hn (atoiValue widget)
  | weights path weights =>
      rw [Edit.path] at hroot
      rw [Edit.apply, hroot, RootUntouched]
      exact setWeights_root_iff hn hjson weights

end Root

/-! ## What is stored after a request -/

def EditsNothing (parseFloat : String → Option ω) (e : Turn) (views : Views ω) : Prop :=
  ∀ id, ((e.run parseFloat views).2 id).map loadLayout = (views id).map loadLayout

theorem shallow_of_pane {e : Edit} (hroot : parsePath e.path = []) {value : Json ω}
    (hv : Json.encodeNode (e.apply parseFloat (.leaf { widgetID := 0 })) = some value) :
    value.depth ≤ 6 := by
  have hpane : ∀ l : Leaf, l.config = none →
      (Json.object [("leaf", Json.encodeLeaf l)] : Json ω).depth ≤ 6 := by
    intro l hl
    rw [Json.depth_pane l hl]
    omega
  cases e with
  | remove path =>
      rw [Edit.path] at hroot
      simp only [Edit.apply, hroot, Node.remove, List.getLast?_nil] at hv
      cases hv
      exact hpane _ rfl
  | split path dir =>
      rw [Edit.path] at hroot
      rw [Edit.apply, hroot] at hv
      by_cases hbad : dir ≠ "row" ∧ dir ≠ "col"
      · rw [Node.splitLeaf, if_pos hbad] at hv
        cases hv
        exact hpane _ rfl
      · simp only [Node.splitLeaf, if_neg hbad, Node.nodeAt, Branching.find_nil, Node.leaf?,
          reduceCtorEq, if_false, Node.putAt, Branching.put_nil, Json.encodeNode,
          Json.encodeChildren, JsonWeight.finite_one, if_true, Option.some.injEq] at hv
        subst hv
        simp [Json.depth, Json.membersDepth, Json.elementsDepth, Json.encodeSplit,
          Json.encodeLeaf]
  | setWidget path widget =>
      rw [Edit.path] at hroot
      rw [Edit.apply, hroot] at hv
      cases hv
      exact hpane _ rfl
  | weights path weights =>
      rw [Edit.path] at hroot
      rw [Edit.apply, hroot, setWeights_leaf] at hv
      cases hv
      exact hpane _ rfl

theorem loadLayout_saved_ne {e : Edit} {root : Node ω} {value : Json ω}
    (hroot : parsePath e.path = []) (hn : root.Valid)
    (hv : Json.encodeNode (e.apply parseFloat root) = some value)
    (hne : e.apply parseFloat root ≠ root) : loadLayout (.json value) ≠ root := by
  intro hload
  have hloads : ∀ d, value.depth ≤ d → d ≤ Json.maxNestingDepth →
      loadLayout (.json value) = e.apply parseFloat root := by
    intro d hd hmax
    have hback := Json.unmarshal_encodeNode hv (Nat.le_trans hd hmax)
    exact loadLayout_of_parse (parse_json hback (e.apply_valid hn))
  by_cases hdepth : value.depth ≤ Json.maxNestingDepth
  · exact hne ((hloads _ hdepth (Nat.le_refl _)).symm.trans hload)
  · have hpane : root = .leaf { widgetID := 0 } := by
      rw [← hload, loadLayout, Text.layoutJson, Json.unmarshal,
        if_pos (Nat.lt_of_not_le hdepth)]
      rfl
    subst hpane
    have hsmall := shallow_of_pane hroot hv
    exact hdepth (Nat.le_trans hsmall (by decide))

section Request

variable {e : Turn} {views : Views ω} {id : Int} {text : Text ω} {root : Node ω}

/-- What the edit makes of the tree cannot be saved, or it is the tree itself. -/
def KeepsTree (parseFloat : String → Option ω) (root : Node ω) (e : Edit) : Prop :=
  Json.encodeNode (e.apply parseFloat root) = none ∨ e.apply parseFloat root = root

theorem keepsTree_iff (hn : root.Valid) (hjson : (Json.encodeNode root).isSome)
    {edit : Edit} (hbad : Bad root edit.path) :
    KeepsTree parseFloat root edit ↔
      IsPath edit.path ∨ RootUntouched parseFloat root edit := by
  by_cases hpath : IsPath edit.path
  · exact iff_of_true (.inr (apply_of_nodeAt_none (hbad.nodeAt_none hpath))) (.inl hpath)
  · rw [or_iff_right hpath]
    exact rootUntouched_iff hn (parsePath_of_not_isPath hpath) hjson

theorem run_unsaved (hid : atoi e.request.id = some id) (htext : views id = some text)
    (h : e.faults.getView = true ∨ e.faults.setViewLayout = true ∨
      Json.encodeNode (e.request.edit.apply parseFloat (loadLayout text)) = none) :
    (e.run parseFloat views).2 = views := by
  rw [e.run_eq views hid]
  by_cases hget : e.faults.getView = true
  · rw [if_pos hget]
    rfl
  rw [if_neg hget, htext, editLayout, Edit.marshal_eq]
  cases hv : Json.encodeNode (e.request.edit.apply parseFloat (loadLayout text)) with
  | none => rfl
  | some value =>
      simp only [hget, hv, reduceCtorEq, or_false, false_or] at h
      simp only [alone_saveLayout, h, if_true]

theorem run_saved (hid : atoi e.request.id = some id) (htext : views id = some text)
    (hget : e.faults.getView ≠ true) (hset : e.faults.setViewLayout ≠ true) {value : Json ω}
    (hv : Json.encodeNode (e.request.edit.apply parseFloat (loadLayout text)) = some value) :
    (e.run parseFloat views).2 = Function.update views id (some (.json value)) := by
  rw [e.run_eq views hid, if_neg hget, htext, editLayout, Edit.marshal_eq, hv]
  simp only [alone_saveLayout, if_neg hset, htext, Option.map_some]

theorem editsNothing_of_saved (htext : views id = some text) {value : Json ω}
    (h : (e.run parseFloat views).2 = Function.update views id (some (.json value))) :
    EditsNothing parseFloat e views ↔ loadLayout (.json value) = loadLayout text := by
  rw [EditsNothing, h]
  constructor
  · intro hall
    have hid := hall id
    rw [Function.update_self, htext, Option.map_some, Option.map_some] at hid
    exact Option.some.inj hid
  · intro hload id'
    by_cases hid' : id' = id
    · subst hid'
      rw [Function.update_self, htext, Option.map_some, Option.map_some, hload]
    · rw [Function.update_of_ne hid']

theorem loadLayout_saved_iff (hstored : text.layoutJson.parse = .ok root) {edit : Edit}
    (hbad : Bad root edit.path) {value : Json ω}
    (hv : Json.encodeNode (edit.apply parseFloat root) = some value) :
    loadLayout (.json value) = root ↔ edit.apply parseFloat root = root := by
  constructor
  · intro hload
    by_cases hpath : IsPath edit.path
    · exact apply_of_nodeAt_none (hbad.nodeAt_none hpath)
    · by_contra hne
      exact loadLayout_saved_ne (parsePath_of_not_isPath hpath)
        (LayoutJson.parse_valid hstored) hv hne hload
  · intro happly
    rw [happly] at hv
    exact loadLayout_of_parse (parse_saved hstored hv)

theorem editsNothing_iff (hid : atoi e.request.id = some id) (htext : views id = some text)
    (hstored : text.layoutJson.parse = .ok root) (hbad : Bad root e.request.edit.path) :
    EditsNothing parseFloat e views ↔
      e.faults.getView = true ∨ e.faults.setViewLayout = true ∨
        KeepsTree parseFloat root e.request.edit := by
  have hload : loadLayout text = root := loadLayout_of_parse hstored
  have hnothing : (e.run parseFloat views).2 = views → EditsNothing parseFloat e views := by
    intro h id'
    rw [h]
  by_cases hget : e.faults.getView = true
  · exact iff_of_true (hnothing (run_unsaved hid htext (.inl hget))) (.inl hget)
  by_cases hset : e.faults.setViewLayout = true
  · exact iff_of_true (hnothing (run_unsaved hid htext (.inr (.inl hset)))) (.inr (.inl hset))
  rw [or_iff_right hget, or_iff_right hset, KeepsTree]
  cases hv : Json.encodeNode (e.request.edit.apply parseFloat root) with
  | none =>
      rw [← hload] at hv
      exact iff_of_true (hnothing (run_unsaved hid htext (.inr (.inr hv)))) (.inl rfl)
  | some value =>
      have hsaved := run_saved hid htext hget hset (hload.symm ▸ hv)
      rw [editsNothing_of_saved htext hsaved, hload, loadLayout_saved_iff hstored hbad hv]
      simp only [reduceCtorEq, false_or]

end Request

/-- A request with a malformed path edits nothing exactly when the store fails
under it, the path is a list of integers, or it leaves the root alone. -/
theorem malformed_edits_nothing_iff (parseFloat : String → Option ω) (e : Turn)
    (views : Views ω) (id : Int) (text : Text ω) (root : Node ω)
    (hid : atoi e.request.id = some id) (htext : views id = some text)
    (hstored : text.layoutJson.parse = .ok root) (hjson : (Json.encodeNode root).isSome)
    (hbad : Bad root e.request.edit.path) :
    EditsNothing parseFloat e views ↔
      e.faults.getView = true ∨ e.faults.setViewLayout = true ∨
        IsPath e.request.edit.path ∨ RootUntouched parseFloat root e.request.edit := by
  rw [editsNothing_iff hid htext hstored hbad,
    keepsTree_iff (LayoutJson.parse_valid hstored) hjson hbad]

def paneText (widgetID : Int) : Text Float64 :=
  .json (.object [("leaf", Json.encodeLeaf { widgetID })])

theorem parse_paneText (widgetID : Int) :
    (paneText widgetID).layoutJson.parse = .ok (.leaf { widgetID }) := by
  apply parse_json _ (Node.valid_leaf _)
  apply Json.unmarshal_encodeNode rfl
  rw [Json.depth_pane _ rfl, Json.maxNestingDepth]
  omega

theorem bad_x (root : Node Float64) : Bad root "x" := by
  have hnone : (splitAtChar "x" '.').mapM atoi = none := by decide +kernel
  refine ⟨by decide, fun idx hidx => ?_⟩
  rw [hnone] at hidx
  cases hidx

theorem malformed_edits_nothing_remove :
    EditsNothing noFloat { request := ⟨"1", .remove "x"⟩ } fun _ => some (paneText 4) :=
  (malformed_edits_nothing_iff noFloat _ _ 1 (paneText 4) (.leaf { widgetID := 4 })
    (by decide +kernel) rfl (parse_paneText 4) rfl (bad_x _)).mpr (.inr (.inr (.inr trivial)))

def splitNowhere : Turn where
  request := ⟨"1", .split "x" "row"⟩

theorem splitNowhere_run (views : Views Float64) (htext : views 1 = some (paneText 4)) :
    ∃ value, Json.encodeNode ((Edit.split "x" "row").apply noFloat
        (.leaf { widgetID := 4 })) = some value ∧
      (splitNowhere.run noFloat views).2 1 = some (.json value) := by
  have hroot : parsePath "x" = [] := by decide +kernel
  have hload : loadLayout (paneText 4) = .leaf { widgetID := 4 } :=
    loadLayout_of_parse (parse_paneText 4)
  obtain ⟨value, hvalue⟩ : ∃ value, Json.encodeNode
      ((Edit.split "x" "row").apply noFloat (.leaf { widgetID := 4 })) = some value := by
    rw [Edit.apply, hroot]
    exact ⟨_, rfl⟩
  have hsave : (Edit.split "x" "row").marshal noFloat (paneText 4) = .ok value := by
    rw [Edit.marshal_eq, hload, hvalue]
  refine ⟨value, hvalue, ?_⟩
  have hid : atoi splitNowhere.request.id = some 1 := by decide +kernel
  rw [splitNowhere.run_eq views hid]
  change ((editLayout noFloat (.split "x" "row") 1 (views 1)).alone _ views).2 1 = _
  rw [htext, editLayout, hsave]
  change ((saveLayout (.split "x" "row") 1 value).alone
    (ViewCall.exec (Faults.fails {})) views).2 1 = _
  rw [alone_saveLayout, if_neg (by decide), htext]
  exact Function.update_self 1 _ views

theorem malformed_splits_root :
    ∃ (views : Views Float64) (root : Node Float64),
      (views 1).map loadLayout = some root ∧ Bad root splitNowhere.request.edit.path ∧
        ¬ EditsNothing noFloat splitNowhere views := by
  have hload : loadLayout (paneText 4) = .leaf { widgetID := 4 } :=
    loadLayout_of_parse (parse_paneText 4)
  refine ⟨fun _ => some (paneText 4), .leaf { widgetID := 4 }, congrArg some hload, bad_x _, ?_⟩
  intro h
  obtain ⟨value, hvalue, hafter⟩ := splitNowhere_run (fun _ => some (paneText 4)) rfl
  have hnow := h 1
  rw [hafter, Option.map_some, Option.map_some, hload] at hnow
  have hroot : parsePath splitNowhere.request.edit.path = [] := by decide +kernel
  apply loadLayout_saved_ne hroot (Node.valid_leaf { widgetID := 4 }) hvalue _
    (Option.some.inj hnow)
  have hx : parsePath "x" = [] := hroot
  change (Node.splitLeaf _ (parsePath "x") "row").2 ≠ _
  rw [hx]
  simp [Node.splitLeaf, Node.nodeAt, Node.leaf?, Node.putAt]

end FamilyPlanner.Screen

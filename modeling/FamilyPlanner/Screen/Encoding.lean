import FamilyPlanner.Screen.Tree

/-!
# The JSON of a layout

What `json.Marshal` writes for a tree and `json.Unmarshal` reads back.  The
encoder refuses a weight that is not finite; the decoder refuses a text that
nests more than 10000 levels deep, which the encoder does write.
-/

namespace FamilyPlanner.Screen

/-- `finite` is what JSON has a number for. -/
class JsonWeight (ω : Type) extends Weight ω where
  zero : ω
  finite : ω → Bool
  finite_one : finite one = true

instance : JsonWeight Float64 where
  zero := .finite 0
  finite
    | .finite _ => true
    | _ => false
  finite_one := rfl

/--
`int` and `float` are numbers as an `int64` and a `float64` member read them;
`raw` is a value kept as its text, as the member `config` is.
-/
inductive Json (ω : Type) where
  | null
  | int (value : Int)
  | float (value : ω)
  | str (value : String)
  | raw (text : String)
  | array (elements : List (Json ω))
  | object (members : List (String × Json ω))

namespace Json

variable {ω : Type}

/-! ## Nesting -/

/-- How deep the brackets of a text nest, those in strings left out. -/
def nesting (level deepest : Nat) (inString : Bool) : List Char → Nat
  | [] => deepest
  | '\\' :: _ :: cs => nesting level deepest inString cs
  | '"' :: cs => nesting level deepest (!inString) cs
  | c :: cs =>
      if inString then nesting level deepest true cs
      else if c = '[' ∨ c = '{' then nesting (level + 1) (max deepest (level + 1)) false cs
      else if c = ']' ∨ c = '}' then nesting (level - 1) deepest false cs
      else nesting level deepest false cs

mutual

def depth : Json ω → Nat
  | raw text => nesting 0 0 false text.toList
  | array elements => elementsDepth elements + 1
  | object members => membersDepth members + 1
  | _ => 0

def elementsDepth : List (Json ω) → Nat
  | [] => 0
  | v :: vs => max v.depth (elementsDepth vs)

def membersDepth : List (String × Json ω) → Nat
  | [] => 0
  | (_, v) :: ms => max v.depth (membersDepth ms)

end

def maxNestingDepth : Nat := 10000

/-! ## Decoding -/

def decodeLeafMembers (l : Leaf) : List (String × Json ω) → Option Leaf
  | [] => some l
  | ("widget_id", int widgetID) :: ms => decodeLeafMembers { l with widgetID } ms
  | ("widget_id", null) :: ms => decodeLeafMembers l ms
  | ("widget_id", _) :: _ => none
  | ("config", raw text) :: ms => decodeLeafMembers { l with config := some text } ms
  | _ :: ms => decodeLeafMembers l ms

/-- A pointer; `null` makes it nil. -/
def decodeLeaf : Json ω → Option (Option Leaf)
  | null => some none
  | object ms => (decodeLeafMembers { widgetID := 0 } ms).map some
  | _ => none

def ofPointers : Option Leaf → Option (String × List (ω × Node ω)) → Node ω
  | none, none => .empty
  | some l, none => .leaf l
  | none, some (dir, cs) => .split dir cs
  | some l, some (dir, cs) => .both l dir cs

section Decode

variable [JsonWeight ω]

mutual

def decodeNode : Json ω → Option (Node ω)
  | null => some .empty
  | object ms => decodeNodeMembers none none ms
  | _ => none

def decodeNodeMembers (l : Option Leaf) (s : Option (String × List (ω × Node ω))) :
    List (String × Json ω) → Option (Node ω)
  | [] => some (ofPointers l s)
  | (name, v) :: ms =>
      if name = "split" then
        match decodeSplit v with
        | none => none
        | some s => decodeNodeMembers l s ms
      else if name = "leaf" then
        match decodeLeaf v with
        | none => none
        | some l => decodeNodeMembers l s ms
      else decodeNodeMembers l s ms

def decodeSplit : Json ω → Option (Option (String × List (ω × Node ω)))
  | null => some none
  | object ms => (decodeSplitMembers "" [] ms).map some
  | _ => none

def decodeSplitMembers (dir : String) (cs : List (ω × Node ω)) :
    List (String × Json ω) → Option (String × List (ω × Node ω))
  | [] => some (dir, cs)
  | (name, v) :: ms =>
      if name = "dir" then
        match v with
        | str dir => decodeSplitMembers dir cs ms
        | null => decodeSplitMembers dir cs ms
        | _ => none
      else if name = "children" then
        match v with
        | null => decodeSplitMembers dir [] ms
        | array vs =>
            match decodeChildren vs with
            | none => none
            | some cs => decodeSplitMembers dir cs ms
        | _ => none
      else decodeSplitMembers dir cs ms

def decodeChildren : List (Json ω) → Option (List (ω × Node ω))
  | [] => some []
  | v :: vs =>
      match decodeChild v, decodeChildren vs with
      | some child, some cs => some (child :: cs)
      | _, _ => none

def decodeChild : Json ω → Option (ω × Node ω)
  | null => some (JsonWeight.zero, .empty)
  | object ms => decodeChildMembers JsonWeight.zero .empty ms
  | _ => none

def decodeChildMembers (weight : ω) (node : Node ω) :
    List (String × Json ω) → Option (ω × Node ω)
  | [] => some (weight, node)
  | (name, v) :: ms =>
      if name = "weight" then
        match v with
        | float weight => decodeChildMembers weight node ms
        | null => decodeChildMembers weight node ms
        | _ => none
      else if name = "node" then
        match decodeNode v with
        | none => none
        | some node => decodeChildMembers weight node ms
      else decodeChildMembers weight node ms

end

def unmarshal (j : Json ω) : Except String (Node ω) :=
  if maxNestingDepth < j.depth then .error "exceeded max depth"
  else
    match j.decodeNode with
    | none => .error "json: cannot unmarshal"
    | some n => .ok n

end Decode

/-! ## Encoding -/

/-- An empty `config` is left out. -/
def encodeLeaf (l : Leaf) : Json ω :=
  object (("widget_id", int l.widgetID) ::
    match l.config with
    | none => []
    | some text => [("config", raw text)])

def encodeSplit (dir : String) (children : List (Json ω)) : Json ω :=
  object [("dir", str dir), ("children", array children)]

theorem decodeLeaf_encodeLeaf (l : Leaf) :
    decodeLeaf (encodeLeaf l : Json ω) = some (some l) := by
  rcases l with ⟨widgetID, _ | text⟩ <;> rfl

section Encode

variable [JsonWeight ω]

mutual

def encodeNode : Node ω → Option (Json ω)
  | .empty => some (object [])
  | .leaf l => some (object [("leaf", encodeLeaf l)])
  | .split dir cs =>
      match encodeChildren cs with
      | none => none
      | some vs => some (object [("split", encodeSplit dir vs)])
  | .both l dir cs =>
      match encodeChildren cs with
      | none => none
      | some vs => some (object [("split", encodeSplit dir vs), ("leaf", encodeLeaf l)])

def encodeChildren : List (ω × Node ω) → Option (List (Json ω))
  | [] => some []
  | (w, n) :: cs =>
      if JsonWeight.finite w then
        match encodeNode n, encodeChildren cs with
        | some v, some vs => some (object [("weight", float w), ("node", v)] :: vs)
        | _, _ => none
      else none

end

theorem decodeSplit_encodeSplit (dir : String) {cs : List (ω × Node ω)}
    {vs : List (Json ω)} (h : decodeChildren vs = some cs) :
    decodeSplit (encodeSplit dir vs) = some (some (dir, cs)) := by
  simp [encodeSplit, decodeSplit, decodeSplitMembers, h]

mutual

theorem decodeNode_encodeNode :
    ∀ (n : Node ω) (j : Json ω), encodeNode n = some j → j.decodeNode = some n
  | .empty, j, h => by
      cases h
      rfl
  | .leaf l, j, h => by
      cases h
      simp [decodeNode, decodeNodeMembers, decodeLeaf_encodeLeaf, ofPointers]
  | .split dir cs, j, h => by
      rw [encodeNode] at h
      cases hcs : encodeChildren cs with
      | none => simp [hcs] at h
      | some vs =>
          have hback := decodeSplit_encodeSplit dir
            (decodeChildren_encodeChildren cs vs hcs)
          simp only [hcs, Option.some.injEq] at h
          subst h
          simp [decodeNode, decodeNodeMembers, hback, ofPointers]
  | .both l dir cs, j, h => by
      rw [encodeNode] at h
      cases hcs : encodeChildren cs with
      | none => simp [hcs] at h
      | some vs =>
          have hback := decodeSplit_encodeSplit dir
            (decodeChildren_encodeChildren cs vs hcs)
          simp only [hcs, Option.some.injEq] at h
          subst h
          simp [decodeNode, decodeNodeMembers, hback, decodeLeaf_encodeLeaf, ofPointers]

theorem decodeChildren_encodeChildren :
    ∀ (cs : List (ω × Node ω)) (vs : List (Json ω)),
      encodeChildren cs = some vs → decodeChildren vs = some cs
  | [], vs, h => by
      cases h
      rfl
  | (w, n) :: cs, vs, h => by
      rw [encodeChildren] at h
      by_cases hw : JsonWeight.finite w
      · rw [if_pos hw] at h
        cases hn : encodeNode n with
        | none => simp [hn] at h
        | some v =>
            cases hcs : encodeChildren cs with
            | none => simp [hn, hcs] at h
            | some rest =>
                have hnode := decodeNode_encodeNode n v hn
                have hrest := decodeChildren_encodeChildren cs rest hcs
                simp only [hn, hcs, Option.some.injEq] at h
                subst h
                simp [decodeChildren, decodeChild, decodeChildMembers, hnode, hrest]
      · simp [hw] at h

end

/-- What the encoder writes is read back, as far as the decoder reads at all. -/
theorem unmarshal_encodeNode {n : Node ω} {j : Json ω} (h : encodeNode n = some j)
    (hdepth : j.depth ≤ maxNestingDepth) : j.unmarshal = .ok n := by
  rw [unmarshal, if_neg (Nat.not_lt.mpr hdepth), decodeNode_encodeNode n j h]

end Encode

end Json

end FamilyPlanner.Screen

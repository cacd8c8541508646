import Mathlib.Data.List.Basic

/-!
# Layout trees

The arrangement of a screen as a tree of weighted splits.  `Node` keeps apart
the four shapes that the two optional members of the source's `Node` can have;
only `leaf` and `split` pass `Validate`.
-/

namespace FamilyPlanner.Screen

/-- `config` is raw JSON that this package hands through. -/
structure Leaf where
  widgetID : Int
  config : Option String := none
  deriving DecidableEq, Repr

/-- `ω` stands for the weights, which only the renderer looks at. -/
inductive Node (ω : Type) where
  | empty
  | leaf (l : Leaf)
  | split (dir : String) (children : List (ω × Node ω))
  | both (l : Leaf) (dir : String) (children : List (ω × Node ω))
  deriving Repr

namespace Node

variable {ω : Type}

mutual

def validate : Node ω → Except String Unit
  | both _ _ _ => .error "layout: node has both leaf and split"
  | empty => .error "layout: empty node"
  | leaf _ => .ok ()
  | split dir children =>
      if dir ≠ "row" ∧ dir ≠ "col" then .error "layout: invalid direction"
      else if children.length < 2 then
        .error "layout: split needs at least two children"
      else validateChildren children

def validateChildren : List (ω × Node ω) → Except String Unit
  | [] => .ok ()
  | (_, n) :: cs =>
      match n.validate with
      | .error err => .error err
      | .ok () => validateChildren cs

end

/-! ## The widgets in the panes -/

mutual

def widgetIDs : Node ω → List Int
  | empty => []
  | leaf l => if l.widgetID = 0 then [] else [l.widgetID]
  | split _ children => childrenWidgetIDs children
  | both l _ children =>
      (if l.widgetID = 0 then [] else [l.widgetID]) ++ childrenWidgetIDs children

def childrenWidgetIDs : List (ω × Node ω) → List Int
  | [] => []
  | (_, n) :: cs => n.widgetIDs ++ childrenWidgetIDs cs

end

end Node

/-- A view's `layout_json`; `malformed` is a text that does not decode. -/
inductive LayoutJson (ω : Type) where
  | blank
  | malformed (err : String)
  | node (root : Node ω)
  deriving Repr

namespace LayoutJson

variable {ω : Type}

def parse : LayoutJson ω → Except String (Node ω)
  | blank => .error "unexpected end of JSON input"
  | malformed err => .error err
  | node root =>
      match root.validate with
      | .error err => .error err
      | .ok () => .ok root

def tree (j : LayoutJson ω) : Option (Node ω) :=
  match j with
  | blank => none
  | j => j.parse.toOption

end LayoutJson

end FamilyPlanner.Screen

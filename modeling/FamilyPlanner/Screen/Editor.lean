import FamilyPlanner.Foundation.Service
import FamilyPlanner.Screen.Encoding
import FamilyPlanner.Screen.Leaves
import FamilyPlanner.Widget.Providers

/-!
# The layout editor

The requests of the editor page.  Each loads the whole tree of a view, edits
it and stores the whole tree, in two calls of the store.
-/

namespace FamilyPlanner.Screen

open FamilyPlanner.Foundation FamilyPlanner.Widget

/-- A text in `views.layout_json`; `malformed` is one that is no JSON. -/
inductive Text (ω : Type) where
  | blank
  | malformed (err : String)
  | json (value : Json ω)

/-- `strings.Split` at one character. -/
def splitAtChar (s : String) (sep : Char) : List String :=
  (s.toList.splitOn sep).map String.ofList

/-- A path with a part that is no number is the path of the root. -/
def parsePath (s : String) : List Int :=
  if s = "" then [] else ((splitAtChar s '.').mapM atoi).getD []

variable {ω : Type}

namespace LayoutJson

variable {j : LayoutJson ω}

theorem tree_of_parse {root : Node ω} (h : j.parse = .ok root) : j.tree = some root := by
  cases j with
  | blank => cases h
  | malformed err => cases h
  | node n => simp [tree, h, Except.toOption]

theorem tree_of_parse_error {err : String} (h : j.parse = .error err) : j.tree = none := by
  cases j with
  | blank => rfl
  | malformed err => rfl
  | node n => simp [tree, h, Except.toOption]

theorem parse_valid {root : Node ω} (h : j.parse = .ok root) : root.Valid := by
  cases j with
  | blank => cases h
  | malformed err => cases h
  | node n =>
      rw [parse] at h
      cases hn : n.validate with
      | error err => simp [hn] at h
      | ok u =>
          simp only [hn, Except.ok.injEq] at h
          subst h
          exact hn

end LayoutJson

variable [JsonWeight ω]

def Text.layoutJson : Text ω → LayoutJson ω
  | blank => .blank
  | malformed err => .malformed err
  | json value =>
      match value.unmarshal with
      | .error err => .malformed err
      | .ok root => .node root

/-- A text that does not parse is a single empty pane. -/
def loadLayout (text : Text ω) : Node ω :=
  text.layoutJson.tree.getD (.leaf { widgetID := 0 })

/-! ## The edits -/

inductive Edit where
  | split (path dir : String)
  | remove (path : String)
  | setWidget (path widget : String)
  | weights (path weights : String)
  deriving DecidableEq, Repr

def setWeights (parseFloat : String → Option ω) (parent : List Int) :
    Nat → List String → Node ω → Node ω
  | _, [], root => root
  | i, ws :: rest, root =>
      setWeights parseFloat parent (i + 1) rest <|
        match parseFloat (trimSpace ws) with
        | none => root
        | some wgt =>
            if Weight.nonPos wgt then root
            else (root.setWeight (parent ++ [(i : Int)]) wgt).2

/-- Errors of the tree operations are ignored. -/
def Edit.apply (parseFloat : String → Option ω) (root : Node ω) : Edit → Node ω
  | split path dir => (root.splitLeaf (parsePath path) dir).2
  | remove path => (root.remove (parsePath path)).2
  | setWidget path widget => (root.setWidget (parsePath path) (atoiValue widget)).2
  | weights path ws => setWeights parseFloat (parsePath path) 0 (splitAtChar ws ',') root

/-! ## The handlers -/

structure Request where
  id : String
  edit : Edit
  deriving DecidableEq, Repr

inductive ViewCall (ω : Type) where
  | getView (id : Int)
  | setViewLayout (layoutJson : Text ω) (id : Int)

@[reducible] def ViewCall.Res : ViewCall ω → Type
  | getView _ => Option (Text ω)
  | setViewLayout _ _ => Bool

/-- `views.layout_json` by the id of the view. -/
abbrev Views (ω : Type) := Int → Option (Text ω)

def ViewCall.exec (fails : ViewCall ω → Bool) :
    (c : ViewCall ω) → Views ω → ViewCall.Res c × Views ω
  | getView id, views => (if fails (getView id) then none else views id, views)
  | setViewLayout text id, views =>
      if fails (setViewLayout text id) then (false, views)
      else (true, Function.update views id ((views id).map fun _ => text))

def Edit.status : Edit → Nat
  | weights _ _ => 204
  | _ => 200

def Edit.validates : Edit → Bool
  | weights _ _ => false
  | _ => true

def Edit.marshal (parseFloat : String → Option ω) (e : Edit) (text : Text ω) :
    Except (String × Nat) (Json ω) :=
  let root := e.apply parseFloat (loadLayout text)
  if e.validates ∧ root.validate ≠ .ok () then .error ("invalid layout", 400)
  else
    match Json.encodeNode root with
    | none => .error ("save failed", 500)
    | some value => .ok value

def saveLayout (e : Edit) (id : Int) (value : Json ω) :
    Prog (ViewCall ω) ViewCall.Res Answer :=
  .call (.setViewLayout (.json value) id) fun (ok : Bool) =>
    .ret (if ok then .ok e.status else .error ("save failed", 500))

/-- `mutateLayout` for three of the edits, `handleLayoutWeights` for the last. -/
def editLayout (parseFloat : String → Option ω) (e : Edit) (id : Int) :
    Option (Text ω) → Prog (ViewCall ω) ViewCall.Res Answer
  | none => .ret (.error ("not found", 404))
  | some text =>
      match e.marshal parseFloat text with
      | .error err => .ret (.error err)
      | .ok value => saveLayout e id value

def handle (parseFloat : String → Option ω) (r : Request) :
    Prog (ViewCall ω) ViewCall.Res Answer :=
  match atoi r.id with
  | none => .ret (.error ("bad id", 400))
  | some id => .call (.getView id) (editLayout parseFloat r.edit id)

/-! ## What is stored is loaded -/

variable {parseFloat : String → Option ω}

theorem loadLayout_of_parse {text : Text ω} {root : Node ω}
    (h : text.layoutJson.parse = .ok root) : loadLayout text = root := by
  rw [loadLayout, LayoutJson.tree_of_parse h]
  rfl

theorem loadLayout_valid (text : Text ω) : (loadLayout text).Valid := by
  cases hparse : text.layoutJson.parse with
  | ok root =>
      rw [loadLayout_of_parse hparse]
      exact LayoutJson.parse_valid hparse
  | error err =>
      rw [loadLayout, LayoutJson.tree_of_parse_error hparse]
      exact Node.valid_leaf _

theorem setWeights_valid (parent : List Int) (i : Nat) (weights : List String)
    {root : Node ω} (h : root.Valid) :
    (setWeights parseFloat parent i weights root).Valid := by
  induction weights generalizing i root with
  | nil => exact h
  | cons ws weights ih =>
      apply ih
      cases parseFloat (trimSpace ws) with
      | none => exact h
      | some wgt =>
          by_cases hpos : Weight.nonPos wgt
          · simpa [hpos] using h
          · simp only [hpos]
            exact (Call.effective h (.setWeight (parent ++ [(i : Int)]) wgt)).1

theorem Edit.apply_valid {root : Node ω} (h : root.Valid) (e : Edit) :
    (e.apply parseFloat root).Valid := by
  cases e with
  | split path dir => exact (Call.effective h (.splitLeaf (parsePath path) dir)).1
  | remove path => exact (Call.effective h (.remove (parsePath path))).1
  | setWidget path widget =>
      exact (Call.effective h (.setWidget (parsePath path) (atoiValue widget))).1
  | weights path weights => exact setWeights_valid _ _ _ h

/-- Only an unencodable weight stops a request before it saves. -/
theorem Edit.marshal_eq (e : Edit) (text : Text ω) :
    e.marshal parseFloat text =
      match Json.encodeNode (e.apply parseFloat (loadLayout text)) with
      | none => .error ("save failed", 500)
      | some value => .ok value := by
  have hvalid : (e.apply parseFloat (loadLayout text)).validate = .ok () :=
    e.apply_valid (loadLayout_valid text)
  simp [marshal, hvalid]

theorem Edit.encodeNode_of_marshal {e : Edit} {text : Text ω} {value : Json ω}
    (h : e.marshal parseFloat text = .ok value) :
    Json.encodeNode (e.apply parseFloat (loadLayout text)) = some value := by
  rw [marshal_eq] at h
  cases hj : Json.encodeNode (e.apply parseFloat (loadLayout text)) with
  | none => simp [hj] at h
  | some j =>
      simp only [hj, Except.ok.injEq] at h
      rw [h]

theorem parse_of_marshal {e : Edit} {text : Text ω} {value : Json ω}
    (h : e.marshal parseFloat text = .ok value)
    (hdepth : value.depth ≤ Json.maxNestingDepth) :
    (Text.json value).layoutJson.parse = .ok (e.apply parseFloat (loadLayout text)) := by
  have hvalid : (e.apply parseFloat (loadLayout text)).validate = .ok () :=
    e.apply_valid (loadLayout_valid text)
  have hback := Json.unmarshal_encodeNode (Edit.encodeNode_of_marshal h) hdepth
  simp [Text.layoutJson, hback, LayoutJson.parse, hvalid]

end FamilyPlanner.Screen

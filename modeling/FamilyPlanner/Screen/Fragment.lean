import FamilyPlanner.Broker.Broker
import FamilyPlanner.Screen.Layout

/-!
# The fragment of a view

A view is rendered from its layout tree, as one of its widgets, or on the
legacy grid.  The stream decides on its own whether it leaves the advance to
the client; the client goes by the attribute `data-advance-on-end` of the
fragment it has loaded.
-/

namespace FamilyPlanner.Screen

open FamilyPlanner.Broker FamilyPlanner.Widget

structure View (ω : Type) where
  id : Int
  layoutJson : LayoutJson ω
  renderMode : String
  advanceMode : String
  deriving Repr

/--
The answers of the store; `none` is an error.  `listPlacementsByView` is kept
as the widgets of the rows.
-/
structure Reads (ω : Type) where
  getView : Int → Option (View ω)
  getWidget : Int → Option WidgetRow
  listPlacementsByView : Int → Option (List Int)

/-- `widget.PdfSlideshowInterval`, which drops the error of `Atoi`. -/
def pdfSlideshowInterval : ConfigJson → Int
  | .malformed _ => 0
  | .object members =>
      let n := atoiValue ((ConfigJson.object members).get "interval")
      if n < 0 then 0 else n

section Server

variable {ω : Type} (r : Reads ω)

def viewWidgetIDs (view : View ω) : List Int :=
  match view.layoutJson.tree with
  | some root => root.widgetIDs
  | none =>
      match r.listPlacementsByView view.id with
      | none => []
      | some ids => ids.filter (· ≠ 0)

def isEndWidget (w : WidgetRow) : Bool :=
  w.type = "video" || (w.type = "pdf" && 0 < pdfSlideshowInterval w.configJson)

def viewHasEndWidget (view : View ω) : Bool :=
  (viewWidgetIDs r view).any fun id =>
    match r.getWidget id with
    | none => false
    | some w => isEndWidget w

def suspends (viewID : Int) : Bool :=
  match r.getView viewID with
  | none => false
  | some v => v.advanceMode = "on_end" && viewHasEndWidget r v

/-! ## Rendering -/

/-- A cell is kept as the id of its widget, 0 for an empty pane. -/
inductive LayoutVM (ω : Type) where
  | cell (widgetID : Int)
  | split (dir : String) (children : List (ω × LayoutVM ω))
  deriving Repr

mutual

def buildLayoutVM : Node ω → LayoutVM ω
  | .leaf l => .cell l.widgetID
  | .both l _ _ => .cell l.widgetID
  | .split dir children => .split dir (buildChildren children)
  | .empty => .split "" []

def buildChildren : List (ω × Node ω) → List (ω × LayoutVM ω)
  | [] => []
  | (weight, n) :: cs => (weight, buildLayoutVM n) :: buildChildren cs

end

inductive Component (ω : Type) where
  | previewWidget (cell : Int) (onEnd : Bool)
  | view (root : LayoutVM ω) (onEnd : Bool)
  | grid (cells : List Int)
  deriving Repr

def boolAttr (b : Bool) : String := if b then "1" else "0"

def Component.advanceOnEnd : Component ω → Option String
  | previewWidget _ onEnd => some (boolAttr onEnd)
  | view _ onEnd => some (boolAttr onEnd)
  | grid _ => none

def renderLegacyGrid (view : View ω) : List Int :=
  (r.listPlacementsByView view.id).getD []

/-- `rand` is the number drawn for a random choice, reduced to the range asked for. -/
def renderViewComponent (view : View ω) (rand : Nat) : Component ω :=
  let onEnd := view.advanceMode = "on_end" && viewHasEndWidget r view
  let ids := viewWidgetIDs r view
  match (if view.renderMode = "random_single" then ids[rand % ids.length]? else none) with
  | some wid => .previewWidget wid onEnd
  | none =>
      match view.layoutJson.tree with
      | some root => .view (buildLayoutVM root) onEnd
      | none => .grid (renderLegacyGrid r view)

end Server

/-! ## Who advances -/

variable {ω : Type} {r : Reads ω} {view : View ω}

/-- The client advances at the end of every fragment of the view. -/
def ClientAdvances (r : Reads ω) (view : View ω) : Prop :=
  ∀ rand, (renderViewComponent r view rand).advanceOnEnd = some "1"

def View.Legacy (view : View ω) : Prop :=
  view.renderMode ≠ "random_single" ∧ view.layoutJson.tree = none

@[simp] theorem boolAttr_eq_one {b : Bool} : boolAttr b = "1" ↔ b = true := by
  cases b <;> decide

theorem suspends_of_getView {viewID : Int} (hview : r.getView viewID = some view) :
    suspends r viewID =
      (view.advanceMode = "on_end" && viewHasEndWidget r view) := by
  simp [suspends, hview]

theorem viewWidgetIDs_ne_nil (h : viewHasEndWidget r view = true) :
    viewWidgetIDs r view ≠ [] := by
  intro hnil
  simp [viewHasEndWidget, hnil] at h

theorem viewWidgetIDs_draw (h : viewHasEndWidget r view = true) (rand : Nat) :
    (viewWidgetIDs r view)[rand % (viewWidgetIDs r view).length]? ≠ none := by
  have hpos := List.length_pos_of_ne_nil (viewWidgetIDs_ne_nil h)
  have hlt := Nat.mod_lt rand hpos
  simp [hlt]

theorem advanceOnEnd_eq_one_iff (rand : Nat) :
    (renderViewComponent r view rand).advanceOnEnd = some "1" ↔
      (view.advanceMode = "on_end" ∧ viewHasEndWidget r view = true) ∧
        ¬ view.Legacy := by
  unfold renderViewComponent
  simp only
  split
  · rename_i wid hdraw
    have hrandom : view.renderMode = "random_single" := by
      by_contra hgrid
      simp [hgrid] at hdraw
    simp [Component.advanceOnEnd, View.Legacy, hrandom]
  · rename_i hdraw
    split
    · rename_i root htree
      simp [Component.advanceOnEnd, View.Legacy, htree]
    · rename_i htree
      simp only [Component.advanceOnEnd, reduceCtorEq, false_iff]
      rintro ⟨⟨-, hend⟩, hlegacy⟩
      apply hlegacy
      refine ⟨?_, htree⟩
      intro hrandom
      rw [if_pos hrandom] at hdraw
      exact viewWidgetIDs_draw hend rand hdraw

/--
Stream and client agree on who advances, except about a view on the legacy
grid that advances on end and has an end-capable widget.
-/
theorem suspends_iff_clientAdvances_iff {viewID : Int}
    (hview : r.getView viewID = some view) :
    (suspends r viewID = true ↔ ClientAdvances r view) ↔
      ¬ (view.advanceMode = "on_end" ∧ viewHasEndWidget r view = true ∧
        view.Legacy) := by
  have hserver : suspends r viewID = true ↔
      view.advanceMode = "on_end" ∧ viewHasEndWidget r view = true := by
    simp [suspends_of_getView hview]
  have hclient : ClientAdvances r view ↔
      (view.advanceMode = "on_end" ∧ viewHasEndWidget r view = true) ∧
        ¬ view.Legacy := by
    constructor
    · intro h
      exact (advanceOnEnd_eq_one_iff 0).mp (h 0)
    · intro h rand
      exact (advanceOnEnd_eq_one_iff rand).mpr h
  rw [hserver, hclient]
  tauto

private def single (layoutJson : LayoutJson Nat) : Reads Nat where
  getView := fun id =>
    if id = 1 then some ⟨1, layoutJson, "grid", "on_end"⟩ else none
  getWidget := fun id => if id = 5 then some ⟨5, "video", .object []⟩ else none
  listPlacementsByView := fun _ => some [5]

theorem suspends_of_video_in_layout :
    suspends (single (.node (.leaf ⟨5, none⟩))) 1 = true ↔
      ClientAdvances (single (.node (.leaf ⟨5, none⟩)))
        ⟨1, .node (.leaf ⟨5, none⟩), "grid", "on_end"⟩ := by
  refine (suspends_iff_clientAdvances_iff rfl).mpr ?_
  rintro ⟨-, -, -, htree⟩
  cases htree

/-- A video on the legacy grid stops the timer and nobody advances. -/
theorem video_on_legacy_grid_stalls :
    ∃ (r : Reads Nat) (view : View Nat),
      r.getView 1 = some view ∧ suspends r 1 = true ∧ ¬ ClientAdvances r view := by
  refine ⟨single .blank, ⟨1, .blank, "grid", "on_end"⟩, rfl, by decide, ?_⟩
  intro h
  exact absurd (h 0) (by decide)

end FamilyPlanner.Screen

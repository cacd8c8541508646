import FamilyPlanner.Screen.Editor
import FamilyPlanner.Screen.Fragment

/-!
# The widgets that a fragment shows

`viewWidgetIDs` walks the layout tree on its own, with its own way out to the
placements.  Its list is what the rendered cells show.
-/

namespace FamilyPlanner.Screen

open FamilyPlanner.Widget

variable {ω : Type}

namespace LayoutVM

mutual

def cells : LayoutVM ω → List Int
  | cell widgetID => [widgetID]
  | split _ children => childCells children

def childCells : List (ω × LayoutVM ω) → List Int
  | [] => []
  | (_, vm) :: cs => vm.cells ++ childCells cs

end

end LayoutVM

def Component.cells : Component ω → List Int
  | .previewWidget cell _ => [cell]
  | .view root _ => root.cells
  | .grid cells => cells

/-- The widgets on the screen in the order of their cells; an empty pane shows none. -/
def Component.shownIDs (c : Component ω) : List Int := c.cells.filter (· ≠ 0)

/-! ## The two walks -/

mutual

theorem cells_buildLayoutVM :
    ∀ n : Node ω, n.Valid → (buildLayoutVM n).cells = n.leaves
  | .leaf _, _ => rfl
  | .empty, _ => rfl
  | .both _ _ _, hn => absurd hn Node.Valid.not_both
  | .split _ children, hn => by
      rw [buildLayoutVM, LayoutVM.cells, Node.leaves]
      exact childCells_buildChildren children (Node.valid_split.mp hn).2.2

theorem childCells_buildChildren :
    ∀ cs : List (ω × Node ω), (∀ child ∈ cs, child.2.Valid) →
      LayoutVM.childCells (buildChildren cs) = Node.childrenLeaves cs
  | [], _ => rfl
  | (weight, n) :: cs, hcs => by
      have hn : n.Valid := hcs (weight, n) List.mem_cons_self
      have hrest : ∀ child ∈ cs, child.2.Valid :=
        fun child hchild => hcs child (List.mem_cons_of_mem _ hchild)
      rw [buildChildren, LayoutVM.childCells, Node.childrenLeaves]
      rw [cells_buildLayoutVM n hn, childCells_buildChildren cs hrest]

end

theorem LayoutJson.valid_of_tree {j : LayoutJson ω} {root : Node ω}
    (h : j.tree = some root) : root.Valid := by
  cases hparse : j.parse with
  | error err =>
      rw [LayoutJson.tree_of_parse_error hparse] at h
      cases h
  | ok n =>
      rw [LayoutJson.tree_of_parse hparse] at h
      cases h
      exact LayoutJson.parse_valid hparse

section Views

variable {r : Reads ω} {view : View ω}

theorem renderViewComponent_tree (hmode : view.renderMode ≠ "random_single")
    {root : Node ω} (htree : view.layoutJson.tree = some root) (rand : Nat) :
    renderViewComponent r view rand =
      .view (buildLayoutVM root)
        (view.advanceMode = "on_end" && viewHasEndWidget r view) := by
  simp only [renderViewComponent, if_neg hmode, htree]

theorem renderViewComponent_grid (hmode : view.renderMode ≠ "random_single")
    (htree : view.layoutJson.tree = none) (rand : Nat) :
    renderViewComponent r view rand = .grid (renderLegacyGrid r view) := by
  simp only [renderViewComponent, if_neg hmode, htree]

theorem shownIDs_grid (hmode : view.renderMode ≠ "random_single") (rand : Nat) :
    (renderViewComponent r view rand).shownIDs = viewWidgetIDs r view := by
  unfold viewWidgetIDs
  cases htree : view.layoutJson.tree with
  | some root =>
      have hroot : root.Valid := LayoutJson.valid_of_tree htree
      rw [renderViewComponent_tree hmode htree]
      show (buildLayoutVM root).cells.filter (· ≠ 0) = root.widgetIDs
      rw [cells_buildLayoutVM root hroot, Node.widgetIDs_eq]
  | none =>
      rw [renderViewComponent_grid hmode htree]
      show (renderLegacyGrid r view).filter (· ≠ 0) = _
      unfold renderLegacyGrid
      cases r.listPlacementsByView view.id with
      | none => rfl
      | some ids => rfl

/-- The stream waits for the end exactly if some content on the screen has one. -/
theorem viewHasEndWidget_iff (hmode : view.renderMode ≠ "random_single") (rand : Nat) :
    viewHasEndWidget r view = true ↔
      ∃ id ∈ (renderViewComponent r view rand).shownIDs,
        ∃ w, r.getWidget id = some w ∧ isEndWidget w = true := by
  rw [shownIDs_grid hmode, viewHasEndWidget, List.any_eq_true]
  apply exists_congr
  intro id
  cases hget : r.getWidget id with
  | none => simp
  | some w => simp

theorem draw_mem {ids : List Int} (hne : ids ≠ []) (rand : Nat) :
    ∃ wid ∈ ids, ids[rand % ids.length]? = some wid := by
  have hlt : rand % ids.length < ids.length :=
    Nat.mod_lt rand (List.length_pos_of_ne_nil hne)
  exact ⟨ids[rand % ids.length], List.getElem_mem hlt, List.getElem?_eq_getElem hlt⟩

theorem shows_drawn (hmode : view.renderMode = "random_single")
    (hne : viewWidgetIDs r view ≠ []) (rand : Nat) :
    ∃ wid ∈ viewWidgetIDs r view, ∃ onEnd,
      renderViewComponent r view rand = .previewWidget wid onEnd := by
  obtain ⟨wid, hmem, hdraw⟩ := draw_mem hne rand
  refine ⟨wid, hmem, view.advanceMode = "on_end" && viewHasEndWidget r view, ?_⟩
  unfold renderViewComponent
  simp only [if_pos hmode, hdraw]

/--
In grid mode the widgets of the list are those of the rendered cells in their
order; in random mode the one cell shows a widget of the list, unless the list
is empty.
-/
theorem shown_are_viewWidgetIDs (r : Reads ω) (view : View ω) (rand : Nat) :
    (view.renderMode ≠ "random_single" →
      (renderViewComponent r view rand).shownIDs = viewWidgetIDs r view) ∧
    (view.renderMode = "random_single" → viewWidgetIDs r view ≠ [] →
      ∃ wid ∈ viewWidgetIDs r view, ∃ onEnd,
        renderViewComponent r view rand = .previewWidget wid onEnd) :=
  ⟨fun hmode => shownIDs_grid hmode rand, fun hmode hne => shows_drawn hmode hne rand⟩

private def lefthand : Node Nat :=
  .split "row" [(1, .leaf ⟨5, none⟩),
    (2, .split "col" [(1, .leaf ⟨0, none⟩), (1, .leaf ⟨7, none⟩)])]

private def placed : Reads Nat where
  getView := fun _ => none
  getWidget := fun _ => none
  listPlacementsByView := fun _ => some [9, 0, 4]

theorem shown_are_viewWidgetIDs_nested :
    (renderViewComponent placed ⟨1, .node lefthand, "grid", "timer"⟩ 0).shownIDs = [5, 7] ∧
    (renderViewComponent placed ⟨1, .malformed "", "grid", "timer"⟩ 0).shownIDs = [9, 4] ∧
    ∃ wid ∈ [9, 4], ∃ onEnd,
      renderViewComponent placed ⟨1, .blank, "random_single", "timer"⟩ 3 =
        .previewWidget wid onEnd := by
  refine ⟨?_, ?_, ?_⟩
  · exact ((shown_are_viewWidgetIDs placed _ 0).1 (by decide)).trans (by decide)
  · exact ((shown_are_viewWidgetIDs placed _ 0).1 (by decide)).trans (by decide)
  · exact (shown_are_viewWidgetIDs placed ⟨1, .blank, "random_single", "timer"⟩ 3).2 rfl
      (by decide)

end Views

end FamilyPlanner.Screen

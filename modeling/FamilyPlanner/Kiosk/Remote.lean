import FamilyPlanner.Kiosk.PauseKey
import Mathlib.Data.List.Nodup
import Mathlib.Data.List.Perm.Basic
import Mathlib.Logic.Function.Basic

/-!
# The keyboard of a kiosk

What a key does depends on the overlay, on the selection in the screen picker
and on the widget that has the focus.  The scroller of that widget is frozen,
so that only the user moves it, while all others scroll by themselves.
-/

namespace FamilyPlanner.Kiosk.Remote

open FamilyPlanner.Foundation FamilyPlanner.Rotation

/-- A `.widget` element on the stage, with the `.cell-scroll` elements in it. -/
structure Widget where
  el : Nat
  scrollers : List Nat := []
  video : Bool := false
  slideshow : Bool := false
  pdf : Bool := false
  pdfSlides : Bool := false
  fitWidth : Bool := false
  deriving DecidableEq, Repr

inductive PipCommand where
  | playPause
  | toggle
  | next
  | prev
  deriving DecidableEq, Repr

/-- `auto` tells the animation from the user. -/
inductive What where
  | ctl (cmd : Command)
  | pip (cmd : PipCommand)
  | snooze
  | transient (id : String)
  | video (el : Nat)
  | slide (el : Nat) (dir : Int)
  | pdfScroll (el : Nat) (dir : Int)
  | pdfStep (el : Nat) (dir : Int)
  | pdfZoom (el : Nat) (delta : Int)
  | scroll (scroller : Nat) (auto : Bool)
  deriving DecidableEq, Repr

/-- Something that was done, and what the user saw when it was. -/
structure Ask where
  what : What
  overlay : OvState
  listed : List (String × Bool)
  focus : Option Nat
  deriving DecidableEq, Repr

/--
`viewNames` is in the order of its keys, `listed` the picker as it was rendered
last, with the entry that is highlighted.  `frozen` and `outlined` are the
elements with the flag and the class, `frames` the animation frames that are
pending, by handle and scroller.  `used` and `asked` are history.
-/
structure Page where
  keyboard : Keyboard := {}
  viewNames : List (String × String) := []
  scrSel : Int := 0
  scrIds : List String := []
  listed : List (String × Bool) := []
  widgets : List Widget := []
  corner : List Nat := []
  focusIdx : Int := -1
  frozenEl : Option Nat := none
  frozen : List Nat := []
  outlined : List Nat := []
  frames : List (Nat × Nat) := []
  raf : Nat → Nat := fun _ => 0
  handle : Nat := 0
  used : List Nat := []
  asked : List Ask := []

namespace Page

variable (p : Page)

def body : List Nat := p.widgets.flatMap (·.scrollers) ++ p.corner

def widgetAt (idx : Int) : Option Widget := if 0 ≤ idx then p.widgets[idx.toNat]? else none

def focus : Option Nat := (p.widgetAt p.focusIdx).bind (·.scrollers.head?)

def ask (what : What) : Page :=
  { p with asked := p.asked ++ [⟨what, p.keyboard.ovState, p.listed, p.focus⟩] }

/-! ### The overlay -/

def renderScreens : Page :=
  let scrIds := p.viewNames.map Prod.fst
  let n : Int := scrIds.length
  let scrSel := if p.scrSel ≥ n then max 0 (n - 1) else p.scrSel
  { p with
    scrIds, scrSel
    listed := scrIds.mapIdx fun i id => (id, decide ((i : Int) = scrSel)) }

def setOverlay (state : OvState) : Page :=
  let p := { p with keyboard := { p.keyboard with ovState := state } }
  if state = .screens then p.renderScreens else p

def selected : Option String := if 0 ≤ p.scrSel then p.scrIds[p.scrSel.toNat]? else none

/-- An empty id is none. -/
def loadSelectedScreen : Page :=
  let p :=
    match p.selected with
    | some id => if id ≠ "" then p.ask (.transient id) else p
    | none => p
  p.setOverlay .none

/-! ### The focus -/

def unfreeze : Page :=
  match p.frozenEl with
  | some sc => { p with frozen := p.frozen.filter (· ≠ sc), frozenEl := none }
  | none => p

def freeze : Page :=
  match p.focus with
  | some sc => { p with frozen := sc :: p.frozen, frozenEl := some sc }
  | none => p

def outline : Page :=
  { p with
    outlined := ((p.widgetAt p.focusIdx).map (·.el)).toList ++
      p.outlined.filter fun el => ! (p.widgets.map (·.el)).contains el }

def freezeFocused : Page := p.unfreeze.freeze.outline

def focusWidget (delta : Int) : Page :=
  let n := p.widgets.length
  if n = 0 then p
  else
    let idx :=
      if p.focusIdx < 0 then if delta > 0 then 0 else (n : Int) - 1
      else (p.focusIdx + delta).tmod n
    freezeFocused { p with focusIdx := if idx < 0 then idx + n else idx }

def scrollFocused (dir : Int) : Page :=
  match p.widgetAt p.focusIdx with
  | none => p.focusWidget 1
  | some w =>
      if w.video then p.ask (.video w.el)
      else if w.slideshow then p.ask (.slide w.el dir)
      else if w.pdf && w.pdfSlides then
        if w.fitWidth then p.ask (.pdfScroll w.el dir) else p.ask (.pdfStep w.el dir)
      else
        let p := if p.frozenEl.isNone then p.freezeFocused else p
        match p.frozenEl with
        | some sc => p.ask (.scroll sc false)
        | none => p

def exitManual : Page :=
  outline { p.unfreeze with focusIdx := -1 }

/-- The PDF of the focused widget, or the first on the stage if none has it. -/
def zoomFocusedPdf (delta : Int) : Page :=
  let el :=
    match p.widgetAt p.focusIdx with
    | some w => if w.pdf then some w.el else none
    | none => (p.widgets.find? (·.pdf)).map (·.el)
  match el with
  | some el => p.ask (.pdfZoom el delta)
  | none => p

/-! ### The scrollers -/

def requestFrame (sc : Nat) : Page :=
  { p with
    handle := p.handle + 1
    frames := p.frames ++ [(p.handle + 1, sc)]
    raf := Function.update p.raf sc (p.handle + 1) }

def cancelFrame (sc : Nat) : Page :=
  if p.raf sc ≠ 0 then
    { p with
      frames := p.frames.filter (·.1 ≠ p.raf sc)
      raf := Function.update p.raf sc 0 }
  else p

/-- One pass of the loop; `excess` is by how much the content of a scroller is
larger than the scroller. -/
def setupScroller (excess : Nat → Int) (sc : Nat) : Page :=
  if sc ∈ p.frozen then p
  else
    let p := (p.cancelFrame sc).ask (.scroll sc true)
    if excess sc < 4 then p else p.requestFrame sc

def setupCellScroll (excess : Nat → Int) (root : List Nat) : Page :=
  root.foldl (fun p sc => p.setupScroller excess sc) p

/-- The callback of a frame. -/
def frame (excess : Nat → Int) (sc : Nat) : Page :=
  if sc ∈ p.body then
    if sc ∈ p.frozen then p.requestFrame sc
    else if excess sc ≥ 4 then (p.ask (.scroll sc true)).requestFrame sc
    else p.requestFrame sc
  else { p with raf := Function.update p.raf sc 0 }

/-! ### The events -/

structure Press where
  event : KeyEvent
  zoom : Int := 0

def ctrlKey (e : Press) : Page :=
  match e.event.key with
  | .arrowRight => p.focusWidget 1
  | .arrowLeft => p.focusWidget (-1)
  | .arrowDown => p.scrollFocused 1
  | .arrowUp => p.scrollFocused (-1)
  | .other => if e.zoom ≠ 0 then p.zoomFocusedPdf e.zoom else p
  | _ => p

def shiftKey (key : Key) : Page :=
  match key with
  | .arrowUp => p.ask (.pip .playPause)
  | .arrowDown => p.ask (.pip .toggle)
  | .arrowRight => p.ask (.pip .next)
  | .arrowLeft => p.ask (.pip .prev)
  | _ => p

def plainKey (key : Key) : Page :=
  match key with
  | .arrowLeft => p.ask (.ctl .prev)
  | .arrowRight => p.ask (.ctl .next)
  | .arrowUp =>
      let pressed := p.keyboard.pauseKey
      ask { p with keyboard := pressed.2 } (.ctl pressed.1)
  | .arrowDown => p.ask .snooze
  | _ => p

def pickerKey (key : Key) : Page :=
  match key with
  | .arrowDown =>
      renderScreens { p with scrSel := min ((p.scrIds.length : Int) - 1) (p.scrSel + 1) }
  | .arrowUp => renderScreens { p with scrSel := max 0 (p.scrSel - 1) }
  | .enter => p.loadSelectedScreen
  | .escape => p.setOverlay .none
  | _ => p

def keydown (e : Press) : Page :=
  let ov := p.keyboard.ovState
  match e.event.key with
  | .i => p.setOverlay (if ov = .none then .info else if ov = .screens then .info else .none)
  | .o =>
      if ov = .info then setOverlay { p with scrSel := 0 } .screens
      else if ov = .screens then p.loadSelectedScreen
      else p
  | key =>
      if ov = .screens then p.pickerKey key
      else if ov = .info ∧ key = .escape then p.setOverlay .none
      else if key = .escape then p.exitManual
      else if e.event.ctrlKey then p.ctrlKey e
      else if e.event.shiftKey then p.shiftKey key
      else p.plainKey key

def elements (widgets : List Widget) : List Nat :=
  widgets.map (·.el) ++ widgets.flatMap (·.scrollers)

def loadView (excess : Nat → Int) (widgets : List Widget) : Page :=
  setupCellScroll { p with
      widgets
      focusIdx := -1
      frozenEl := none
      used := p.used ++ elements widgets }
    excess (widgets.flatMap (·.scrollers))

def loadCorner (excess : Nat → Int) (corner : List Nat) : Page :=
  setupCellScroll { p with corner, used := p.used ++ corner } excess corner

inductive Event where
  | keydown (e : Press)
  | names (viewNames : List (String × String))
  | loaded (excess : Nat → Int) (widgets : List Widget)
  | cornerLoaded (excess : Nat → Int) (corner : List Nat)
  | dwell (excess : Nat → Int)
  | frame (excess : Nat → Int) (i : Nat)

/-- Elements are never used twice. -/
def New (els : List Nat) : Prop := els.Nodup ∧ ∀ el ∈ els, el ∉ p.used

instance (els : List Nat) : Decidable (p.New els) := inferInstanceAs (Decidable (_ ∧ _))

def step : Event → Option Page
  | .keydown e => some (p.keydown e)
  | .names viewNames => some { p with viewNames }
  | .loaded excess widgets =>
      if p.New (elements widgets) then
        some (p.loadView excess widgets)
      else none
  | .cornerLoaded excess corner =>
      if p.New corner then some (p.loadCorner excess corner) else none
  | .dwell excess => some (p.setupCellScroll excess (p.widgets.flatMap (·.scrollers)))
  | .frame excess i =>
      match p.frames[i]? with
      | some (_, sc) => some (frame { p with frames := p.frames.eraseIdx i } excess sc)
      | none => none

def events : System Page Event := ⟨step⟩

end Page

/-! ## Loops -/

namespace Page

variable {p q : Page} {sc : Nat}

/-- Each frame that is pending is the one that its scroller knows of. -/
structure Loops (p : Page) : Prop where
  handles : ∀ f ∈ p.frames, 0 < f.1 ∧ f.1 ≤ p.handle
  once : (p.frames.map Prod.fst).Nodup
  raf : ∀ f ∈ p.frames, p.raf f.2 = f.1
  pending : ∀ sc, p.raf sc ≠ 0 → (p.raf sc, sc) ∈ p.frames

/-- The same, but of `sc` there is no frame, whatever it knows. -/
structure LoopsBut (sc : Nat) (p : Page) : Prop where
  handles : ∀ f ∈ p.frames, 0 < f.1 ∧ f.1 ≤ p.handle
  once : (p.frames.map Prod.fst).Nodup
  raf : ∀ f ∈ p.frames, p.raf f.2 = f.1
  pending : ∀ sc', sc' ≠ sc → p.raf sc' ≠ 0 → (p.raf sc', sc') ∈ p.frames
  none : ∀ f ∈ p.frames, f.2 ≠ sc

theorem Loops.single (h : p.Loops) : (p.frames.map Prod.snd).Nodup := by
  apply List.Nodup.map_on _ h.once.of_map
  intro f hf g hg heq
  apply List.inj_on_of_nodup_map h.once hf hg
  rw [← h.raf f hf, ← h.raf g hg, heq]

theorem Loops.cancelFrame (h : p.Loops) (sc : Nat) :
    (p.cancelFrame sc).Loops ∧ (p.cancelFrame sc).LoopsBut sc := by
  unfold Page.cancelFrame
  split
  · rename_i hraf
    have hmem := h.pending sc hraf
    have hne : ∀ f ∈ p.frames, f.1 ≠ p.raf sc → f.2 ≠ sc := by
      intro f hf hne heq
      exact hne (by rw [← heq, h.raf f hf])
    have hall : LoopsBut sc { p with
        frames := p.frames.filter (·.1 ≠ p.raf sc)
        raf := Function.update p.raf sc 0 } := by
      constructor
      · intro f hf
        exact h.handles f (List.mem_filter.mp hf).1
      · exact h.once.sublist ((List.filter_sublist).map Prod.fst)
      · intro f hf
        obtain ⟨hf, hkept⟩ := List.mem_filter.mp hf
        dsimp only
        rw [Function.update_of_ne (hne f hf (by simpa using hkept))]
        exact h.raf f hf
      · intro sc' hsc' hraf'
        dsimp only at hraf' ⊢
        rw [Function.update_of_ne hsc'] at hraf' ⊢
        refine List.mem_filter.mpr ⟨h.pending sc' hraf', ?_⟩
        simp only [decide_eq_true_eq]
        intro heq
        have hsame := List.inj_on_of_nodup_map h.once (h.pending sc' hraf') hmem heq
        exact hsc' (congrArg Prod.snd hsame)
      · intro f hf
        obtain ⟨hf, hkept⟩ := List.mem_filter.mp hf
        exact hne f hf (by simpa using hkept)
    refine ⟨⟨hall.handles, hall.once, hall.raf, ?_⟩, hall⟩
    intro sc' hraf'
    by_cases hsc' : sc' = sc
    · subst hsc'
      simp at hraf'
    · exact hall.pending sc' hsc' hraf'
  · rename_i hraf
    have hraf : p.raf sc = 0 := not_not.mp hraf
    refine ⟨h, h.handles, h.once, h.raf, fun sc' _ => h.pending sc', ?_⟩
    intro f hf heq
    have hfirst := h.raf f hf
    have := (h.handles f hf).1
    rw [heq, hraf] at hfirst
    omega

theorem LoopsBut.requestFrame (h : p.LoopsBut sc) : (p.requestFrame sc).Loops := by
  constructor
  · intro f hf
    rcases List.mem_append.mp hf with hf | hf
    · have := h.handles f hf
      dsimp only [Page.requestFrame]
      omega
    · rw [List.mem_singleton.mp hf]
      dsimp only [Page.requestFrame]
      omega
  · dsimp only [Page.requestFrame]
    rw [List.map_append, List.nodup_append]
    refine ⟨h.once, by simp, ?_⟩
    intro x hx y hy heq
    obtain ⟨f, hf, rfl⟩ := List.mem_map.mp hx
    have hlast : y = p.handle + 1 := by simpa using hy
    have := (h.handles f hf).2
    omega
  · intro f hf
    dsimp only [Page.requestFrame]
    rcases List.mem_append.mp hf with hf | hf
    · rw [Function.update_of_ne (h.none f hf)]
      exact h.raf f hf
    · rw [List.mem_singleton.mp hf]
      exact Function.update_self ..
  · intro sc' hraf
    dsimp only [Page.requestFrame] at hraf ⊢
    by_cases hsc' : sc' = sc
    · subst hsc'
      rw [Function.update_self]
      exact List.mem_append_right _ (List.mem_singleton.mpr rfl)
    · rw [Function.update_of_ne hsc'] at hraf ⊢
      exact List.mem_append_left _ (h.pending sc' hsc' hraf)

theorem LoopsBut.dropped (h : p.LoopsBut sc) :
    Loops { p with raf := Function.update p.raf sc 0 } := by
  refine ⟨h.handles, h.once, ?_, ?_⟩
  · intro f hf
    dsimp only
    rw [Function.update_of_ne (h.none f hf)]
    exact h.raf f hf
  · intro sc' hraf
    dsimp only at hraf ⊢
    by_cases hsc' : sc' = sc
    · subst hsc'
      simp at hraf
    · rw [Function.update_of_ne hsc'] at hraf ⊢
      exact h.pending sc' hsc' hraf

theorem Loops.running (h : p.Loops) {i handle : Nat} (hf : p.frames[i]? = some (handle, sc)) :
    LoopsBut sc { p with frames := p.frames.eraseIdx i } := by
  have hperm : p.frames.Perm ((handle, sc) :: p.frames.eraseIdx i) := by
    obtain ⟨hlt, hget⟩ := List.getElem?_eq_some_iff.mp hf
    rw [← hget]
    exact (List.getElem_cons_eraseIdx_perm hlt).symm
  have hsub : ∀ f ∈ p.frames.eraseIdx i, f ∈ p.frames := fun f => List.mem_of_mem_eraseIdx
  have hnodup := (hperm.map Prod.snd).nodup_iff.mp h.single
  rw [List.map_cons, List.nodup_cons] at hnodup
  refine ⟨fun f hf => h.handles f (hsub f hf), ?_, fun f hf => h.raf f (hsub f hf), ?_, ?_⟩
  · exact h.once.sublist ((List.eraseIdx_sublist p.frames i).map Prod.fst)
  · intro sc' hsc' hraf
    rcases List.mem_cons.mp (hperm.mem_iff.mp (h.pending sc' hraf)) with heq | hmem
    · exact absurd (congrArg Prod.snd heq) hsc'
    · exact hmem
  · intro f hf heq
    have hmem : f.2 ∈ (p.frames.eraseIdx i).map Prod.snd := List.mem_map_of_mem hf
    rw [heq] at hmem
    exact hnodup.1 hmem

/-! ## The focus -/

theorem mem_of_widgetAt {idx : Int} {w : Widget} (h : p.widgetAt idx = some w) : w ∈ p.widgets := by
  unfold widgetAt at h
  split at h
  · exact List.mem_of_getElem? h
  · contradiction

theorem mem_scrollers_of_focus (h : p.focus = some sc) :
    sc ∈ p.widgets.flatMap (·.scrollers) := by
  obtain ⟨w, hw, hsc⟩ := Option.bind_eq_some_iff.mp h
  exact List.mem_flatMap.mpr ⟨w, mem_of_widgetAt hw, List.mem_of_mem_head? hsc⟩

/-- The flags belong to the elements of this document, and no scroller is
frozen but the one that is remembered. -/
structure Marked (p : Page) : Prop where
  nodup : (elements p.widgets ++ p.corner).Nodup
  known : ∀ el ∈ elements p.widgets ++ p.corner, el ∈ p.used
  frozenKnown : ∀ el ∈ p.frozen, el ∈ p.used
  outlinedKnown : ∀ el ∈ p.outlined, el ∈ p.used
  frozen : ∀ sc ∈ p.body, (sc ∈ p.frozen ↔ p.frozenEl = some sc)

structure Focused (p : Page) : Prop extends Marked p where
  idx : p.focusIdx = -1 ∨ 0 ≤ p.focusIdx ∧ p.focusIdx < p.widgets.length
  frozenEl : p.frozenEl = p.focus
  outlined : ∀ w ∈ p.widgets, (w.el ∈ p.outlined ↔ p.widgetAt p.focusIdx = some w)

theorem Marked.unfreeze (h : p.Marked) :
    p.unfreeze.Marked ∧ p.unfreeze.frozenEl = none ∧ p.unfreeze.widgets = p.widgets ∧
      p.unfreeze.focusIdx = p.focusIdx := by
  unfold Page.unfreeze
  split
  · rename_i sc hsc
    refine ⟨⟨h.nodup, h.known, ?_, h.outlinedKnown, ?_⟩, rfl, rfl, rfl⟩
    · intro el hel
      exact h.frozenKnown el (List.mem_filter.mp hel).1
    · intro sc' hbody
      have hfrozen := h.frozen sc' hbody
      rw [hsc] at hfrozen
      simp only [List.mem_filter, hfrozen]
      grind
  · rename_i hnone
    exact ⟨h, hnone, rfl, rfl⟩

theorem outlined_iff {outlined : List Nat} (hnodup : (p.widgets.map (·.el)).Nodup) {idx : Int}
    {w : Widget} (hw : w ∈ p.widgets) :
    w.el ∈ ((p.widgetAt idx).map (·.el)).toList ++
        outlined.filter (fun el => ! (p.widgets.map (·.el)).contains el) ↔
      p.widgetAt idx = some w := by
  have hin : (p.widgets.map (·.el)).contains w.el = true :=
    List.contains_iff_mem.mpr (List.mem_map_of_mem hw)
  rw [List.mem_append, List.mem_filter, hin]
  simp only [Bool.not_true, Bool.false_eq_true, and_false, or_false, Option.mem_toList,
    Option.map_eq_some_iff]
  constructor
  · rintro ⟨w', hw', hel⟩
    rw [hw', List.inj_on_of_nodup_map hnodup (mem_of_widgetAt hw') hw hel]
  · intro hw'
    exact ⟨w, hw', rfl⟩

theorem Marked.freeze (h : p.Marked) (hnone : p.frozenEl = none) :
    p.freeze.Marked ∧ p.freeze.frozenEl = p.freeze.focus ∧ p.freeze.widgets = p.widgets ∧
      p.freeze.focusIdx = p.focusIdx := by
  unfold Page.freeze
  split
  · rename_i sc hsc
    have hmem := mem_scrollers_of_focus hsc
    refine ⟨⟨h.nodup, h.known, ?_, h.outlinedKnown, ?_⟩, hsc.symm, rfl, rfl⟩
    · intro el hel
      rcases List.mem_cons.mp hel with rfl | hel
      · exact h.known el (List.mem_append_left _ (List.mem_append_right _ hmem))
      · exact h.frozenKnown el hel
    · intro sc' hbody
      have hfrozen := h.frozen sc' hbody
      rw [hnone] at hfrozen
      simp only [List.mem_cons, hfrozen]
      grind
  · rename_i hfocus
    exact ⟨h, hnone.trans hfocus.symm, rfl, rfl⟩

theorem Marked.outline (h : p.Marked)
    (hidx : p.focusIdx = -1 ∨ 0 ≤ p.focusIdx ∧ p.focusIdx < p.widgets.length)
    (hfrozen : p.frozenEl = p.focus) : p.outline.Focused := by
  have hnodup : (p.widgets.map (·.el)).Nodup :=
    (List.nodup_append.mp (List.nodup_append.mp h.nodup).1).1
  refine ⟨⟨h.nodup, h.known, h.frozenKnown, ?_, h.frozen⟩, hidx, hfrozen, ?_⟩
  · intro el hel
    rcases List.mem_append.mp hel with hel | hel
    · obtain ⟨w, hw, rfl⟩ := Option.map_eq_some_iff.mp (Option.mem_toList.mp hel)
      apply h.known
      exact List.mem_append_left _ (List.mem_append_left _ (List.mem_map_of_mem (mem_of_widgetAt hw)))
    · exact h.outlinedKnown el (List.mem_filter.mp hel).1
  · intro w hw
    exact outlined_iff hnodup hw

theorem Marked.freezeFocused (h : p.Marked)
    (hidx : p.focusIdx = -1 ∨ 0 ≤ p.focusIdx ∧ p.focusIdx < p.widgets.length) :
    p.freezeFocused.Focused := by
  obtain ⟨hmarked, hnone, hwidgets, hfocusIdx⟩ := h.unfreeze
  obtain ⟨hmarked', hfrozen, hwidgets', hfocusIdx'⟩ := hmarked.freeze hnone
  apply hmarked'.outline _ hfrozen
  rw [hfocusIdx', hfocusIdx, hwidgets', hwidgets]
  exact hidx

theorem Focused.exitManual (h : p.Focused) : p.exitManual.Focused := by
  obtain ⟨hmarked, hnone, -, -⟩ := h.toMarked.unfreeze
  have hmarked' : Marked { p.unfreeze with focusIdx := -1 } := { hmarked with }
  exact hmarked'.outline (.inl rfl) hnone

theorem Focused.focusWidget (h : p.Focused) (delta : Int) : (p.focusWidget delta).Focused := by
  unfold Page.focusWidget
  dsimp only
  split
  · exact h
  · rename_i hwidgets
    have hpos : (0 : Int) < p.widgets.length := by omega
    have hlt := Int.tmod_lt_of_pos (p.focusIdx + delta) hpos
    have hgt := Int.lt_tmod_of_pos (p.focusIdx + delta) hpos
    apply Marked.freezeFocused
    · exact { h.toMarked with }
    · dsimp only
      right
      split <;> split <;> (try split) <;> omega

/-! ## The picker -/

/-- `id` is the one entry that is highlighted. -/
def Highlighted (listed : List (String × Bool)) (id : String) : Prop :=
  ∃ k : Nat, listed[k]? = some (id, true) ∧ ∀ j id', listed[j]? = some (id', true) → j = k

/-- The picker shows the ids and the selection that it will load from. -/
def Rendered (p : Page) : Prop :=
  p.listed = p.scrIds.mapIdx fun i id => (id, decide ((i : Int) = p.scrSel))

theorem Rendered.highlighted (h : p.Rendered) {id : String} (hid : p.selected = some id) :
    Highlighted p.listed id := by
  unfold selected at hid
  split at hid
  · rename_i hpos
    refine ⟨p.scrSel.toNat, ?_, ?_⟩
    · have hsel : (p.scrSel.toNat : Int) = p.scrSel := Int.toNat_of_nonneg hpos
      rw [h, List.getElem?_mapIdx, hid, Option.map_some, decide_eq_true hsel]
    · intro j id' hj
      rw [h, List.getElem?_mapIdx] at hj
      obtain ⟨id'', -, hj⟩ := Option.map_eq_some_iff.mp hj
      have hsel : (j : Int) = p.scrSel := by simpa using (Prod.mk.inj hj).2
      omega
  · contradiction

theorem Rendered.setOverlay (h : p.Rendered) (state : OvState) : (p.setOverlay state).Rendered := by
  unfold Page.setOverlay
  dsimp only
  split
  · rfl
  · exact h

/-! ## What is asked -/

/--
The picker loads what it highlights and keeps all other keys from the rotation,
the corner, the chime and the widgets; the scroller of the focused widget is
moved by the user and no other one is.
-/
structure Fair (a : Ask) : Prop where
  transient : ∀ id, a.what = .transient id → a.overlay = .screens ∧ Highlighted a.listed id
  covered : a.overlay = .screens →
    (∃ id, a.what = .transient id) ∨ ∃ sc, a.what = .scroll sc true
  scroll : ∀ sc auto, a.what = .scroll sc auto → (auto = true ↔ a.focus ≠ some sc)

structure Sound (p : Page) : Prop where
  focused : p.Focused
  loops : p.Loops
  rendered : p.Rendered
  asked : ∀ a ∈ p.asked, Fair a

theorem Sound.ask {what : What} (h : p.Sound)
    (hfair : Fair ⟨what, p.keyboard.ovState, p.listed, p.focus⟩) : (p.ask what).Sound := by
  refine ⟨{ h.focused with }, { h.loops with }, h.rendered, ?_⟩
  intro a ha
  rcases List.mem_append.mp ha with ha | ha
  · exact h.asked a ha
  · rwa [List.mem_singleton.mp ha]

theorem Sound.askKey {what : What} (h : p.Sound) (hov : p.keyboard.ovState ≠ .screens)
    (htransient : ∀ id, what ≠ .transient id) (hscroll : ∀ sc auto, what ≠ .scroll sc auto) :
    (p.ask what).Sound :=
  h.ask ⟨fun id hid => absurd hid (htransient id), fun hscreens => absurd hscreens hov,
    fun sc auto heq => absurd heq (hscroll sc auto)⟩

theorem Sound.askAuto (h : p.Sound) (hbody : sc ∈ p.body) (hfree : sc ∉ p.frozen) :
    (p.ask (.scroll sc true)).Sound := by
  apply h.ask
  refine ⟨by simp, fun _ => .inr ⟨sc, rfl⟩, ?_⟩
  intro sc' auto heq
  cases heq
  rw [← h.focused.frozenEl]
  simpa using fun hfrozen => hfree ((h.focused.frozen sc hbody).mpr hfrozen)

theorem Sound.setOverlay (h : p.Sound) (state : OvState) : (p.setOverlay state).Sound := by
  refine ⟨?_, ?_, h.rendered.setOverlay state, ?_⟩
  all_goals
    unfold Page.setOverlay
    dsimp only
    split
  · exact { h.focused with }
  · exact { h.focused with }
  · exact { h.loops with }
  · exact { h.loops with }
  · exact h.asked
  · exact h.asked

theorem Sound.renderScreens (h : p.Sound) (scrSel : Int) :
    (Page.renderScreens { p with scrSel }).Sound :=
  ⟨{ h.focused with }, { h.loops with }, rfl, h.asked⟩

theorem Sound.openScreens (h : p.Sound) :
    (Page.setOverlay { p with scrSel := 0 } .screens).Sound :=
  ⟨{ h.focused with }, { h.loops with }, rfl, h.asked⟩

theorem Sound.loadSelectedScreen (h : p.Sound) (hov : p.keyboard.ovState = .screens) :
    p.loadSelectedScreen.Sound := by
  unfold Page.loadSelectedScreen
  apply Sound.setOverlay
  split
  · rename_i id hid
    split
    · apply h.ask
      refine ⟨?_, fun _ => .inl ⟨id, rfl⟩, by simp⟩
      intro id' heq
      cases heq
      exact ⟨hov, h.rendered.highlighted hid⟩
    · exact h
  · exact h

/-- Only the focus and its marks have changed. -/
def Refocused (p q : Page) : Prop :=
  ∃ focusIdx frozenEl frozen outlined, q = { p with focusIdx, frozenEl, frozen, outlined }

theorem Refocused.trans {r : Page} (h : p.Refocused q) (h' : q.Refocused r) : p.Refocused r := by
  obtain ⟨_, _, _, _, rfl⟩ := h
  obtain ⟨_, _, _, _, rfl⟩ := h'
  exact ⟨_, _, _, _, rfl⟩

theorem refocused_unfreeze (p : Page) : p.Refocused p.unfreeze := by
  unfold unfreeze
  split <;> exact ⟨_, _, _, _, rfl⟩

theorem refocused_freeze (p : Page) : p.Refocused p.freeze := by
  unfold freeze
  split <;> exact ⟨_, _, _, _, rfl⟩

theorem refocused_freezeFocused (p : Page) : p.Refocused p.freezeFocused :=
  ((refocused_unfreeze p).trans (refocused_freeze _)).trans ⟨_, _, _, _, rfl⟩

theorem refocused_focusWidget (p : Page) (delta : Int) : p.Refocused (p.focusWidget delta) := by
  unfold focusWidget
  dsimp only
  split
  · exact ⟨_, _, _, _, rfl⟩
  · exact Refocused.trans ⟨_, _, _, _, rfl⟩ (refocused_freezeFocused _)

theorem refocused_exitManual (p : Page) : p.Refocused p.exitManual :=
  (refocused_unfreeze p).trans ⟨_, _, _, _, rfl⟩

theorem Sound.refocus (h : p.Sound) (hr : p.Refocused q) (hq : q.Focused) : q.Sound := by
  obtain ⟨_, _, _, _, rfl⟩ := hr
  exact ⟨hq, { h.loops with }, h.rendered, h.asked⟩

theorem Sound.scrollFocused (h : p.Sound) (hov : p.keyboard.ovState ≠ .screens) (dir : Int) :
    (p.scrollFocused dir).Sound := by
  unfold Page.scrollFocused
  split
  · exact h.refocus (refocused_focusWidget p 1) (h.focused.focusWidget 1)
  · split
    · exact h.askKey hov (by simp) (by simp)
    split
    · exact h.askKey hov (by simp) (by simp)
    split
    · split
      · exact h.askKey hov (by simp) (by simp)
      · exact h.askKey hov (by simp) (by simp)
    · -- A scroller that is not frozen yet gets frozen first.
      generalize hq : (if p.frozenEl.isNone then p.freezeFocused else p) = q
      have hsound : q.Sound ∧ q.keyboard = p.keyboard := by
        rw [← hq]
        split
        · refine ⟨h.refocus (refocused_freezeFocused p)
            (h.focused.toMarked.freezeFocused h.focused.idx), ?_⟩
          obtain ⟨_, _, _, _, heq⟩ := refocused_freezeFocused p
          rw [heq]
        · exact ⟨h, rfl⟩
      dsimp only
      split
      · rename_i sc hsc
        apply hsound.1.ask
        refine ⟨by simp, fun hscreens => absurd (hsound.2 ▸ hscreens) hov, ?_⟩
        intro sc' auto heq
        cases heq
        simp [← hsound.1.focused.frozenEl, hsc]
      · exact hsound.1

theorem Sound.zoomFocusedPdf (h : p.Sound) (hov : p.keyboard.ovState ≠ .screens) (delta : Int) :
    (p.zoomFocusedPdf delta).Sound := by
  unfold Page.zoomFocusedPdf
  dsimp only
  split
  · exact h.askKey hov (by simp) (by simp)
  · exact h

/-! ## Events -/

theorem body_setupScroller (p : Page) (excess : Nat → Int) (sc : Nat) :
    (p.setupScroller excess sc).body = p.body := by
  unfold setupScroller cancelFrame
  split
  · rfl
  · split <;> dsimp only <;> split <;> rfl

theorem Sound.setupScroller (h : p.Sound) (excess : Nat → Int) (hsc : sc ∈ p.body) :
    (p.setupScroller excess sc).Sound := by
  unfold Page.setupScroller
  split
  · exact h
  · rename_i hfree
    obtain ⟨hloops, hbut⟩ := h.loops.cancelFrame sc
    have hcancelled : (p.cancelFrame sc).Sound ∧ (p.cancelFrame sc).frozen = p.frozen ∧
        (p.cancelFrame sc).body = p.body := by
      refine ⟨⟨?_, hloops, ?_, ?_⟩, ?_, ?_⟩
      all_goals
        unfold Page.cancelFrame
        split
      · exact { h.focused with }
      · exact h.focused
      · exact h.rendered
      · exact h.rendered
      · exact h.asked
      · exact h.asked
      all_goals rfl
    obtain ⟨hsound, hfrozen, hbody⟩ := hcancelled
    have hasked := hsound.askAuto (hbody ▸ hsc) (hfrozen ▸ hfree)
    dsimp only
    split
    · exact hasked
    · refine ⟨{ hasked.focused with }, ?_, hasked.rendered, hasked.asked⟩
      exact LoopsBut.requestFrame { hbut with }

theorem Sound.setupCellScroll (h : p.Sound) (excess : Nat → Int) {root : List Nat}
    (hroot : ∀ sc ∈ root, sc ∈ p.body) : (p.setupCellScroll excess root).Sound := by
  unfold Page.setupCellScroll
  induction root generalizing p with
  | nil => exact h
  | cons sc root ih =>
      rw [List.foldl_cons]
      apply ih (h.setupScroller excess (hroot sc List.mem_cons_self))
      intro sc' hsc'
      rw [body_setupScroller]
      exact hroot sc' (List.mem_cons_of_mem sc hsc')

theorem Sound.frame (h : p.Sound) (excess : Nat → Int) {i handle : Nat}
    (hf : p.frames[i]? = some (handle, sc)) :
    (Page.frame { p with frames := p.frames.eraseIdx i } excess sc).Sound := by
  have hbut := h.loops.running hf
  unfold Page.frame
  split
  · rename_i hbody
    split
    · exact ⟨{ h.focused with }, hbut.requestFrame, h.rendered, h.asked⟩
    · rename_i hfree
      split
      · have hasked := h.askAuto hbody hfree
        refine ⟨{ h.focused with }, ?_, h.rendered, hasked.asked⟩
        exact LoopsBut.requestFrame { hbut with }
      · exact ⟨{ h.focused with }, hbut.requestFrame, h.rendered, h.asked⟩
  · exact ⟨{ h.focused with }, hbut.dropped, h.rendered, h.asked⟩

theorem Marked.load (h : p.Focused) {widgets : List Widget} (hnew : p.New (elements widgets)) :
    Focused { p with
      widgets
      focusIdx := -1
      frozenEl := none
      used := p.used ++ elements widgets } := by
  have hcorner := (List.nodup_append.mp h.nodup).2.1
  refine ⟨⟨?_, ?_, ?_, ?_, ?_⟩, .inl rfl, rfl, ?_⟩
  · refine List.nodup_append.mpr ⟨hnew.1, hcorner, ?_⟩
    rintro el hel _ hcorner rfl
    exact hnew.2 el hel (h.known el (List.mem_append_right _ hcorner))
  · intro el hel
    rcases List.mem_append.mp hel with hel | hel
    · exact List.mem_append_right _ hel
    · exact List.mem_append_left _ (h.known el (List.mem_append_right _ hel))
  · exact fun el hel => List.mem_append_left _ (h.frozenKnown el hel)
  · exact fun el hel => List.mem_append_left _ (h.outlinedKnown el hel)
  · intro sc hbody
    refine iff_of_false ?_ (by simp)
    intro hfrozen
    rcases List.mem_append.mp hbody with hstage | hcorner
    · exact hnew.2 sc (List.mem_append_right _ hstage) (h.frozenKnown sc hfrozen)
    · -- What was frozen is not in the corner.
      have hold := (h.frozen sc (List.mem_append_right _ hcorner)).mp hfrozen
      rw [h.frozenEl] at hold
      have hstage := mem_scrollers_of_focus hold
      exact (List.nodup_append.mp h.nodup).2.2 sc (List.mem_append_right _ hstage) sc hcorner rfl
  · intro w hw
    refine iff_of_false ?_ (by simp [widgetAt])
    intro houtlined
    exact hnew.2 w.el (List.mem_append_left _ (List.mem_map_of_mem hw))
      (h.outlinedKnown w.el houtlined)

theorem Marked.loadCorner (h : p.Focused) {corner : List Nat} (hnew : p.New corner) :
    Focused { p with corner, used := p.used ++ corner } := by
  refine ⟨⟨?_, ?_, ?_, ?_, ?_⟩, h.idx, h.frozenEl, h.outlined⟩
  · refine List.nodup_append.mpr ⟨(List.nodup_append.mp h.nodup).1, hnew.1, ?_⟩
    rintro el hel _ hcorner rfl
    exact hnew.2 el hcorner (h.known el (List.mem_append_left _ hel))
  · intro el hel
    rcases List.mem_append.mp hel with hel | hel
    · exact List.mem_append_left _ (h.known el (List.mem_append_left _ hel))
    · exact List.mem_append_right _ hel
  · exact fun el hel => List.mem_append_left _ (h.frozenKnown el hel)
  · exact fun el hel => List.mem_append_left _ (h.outlinedKnown el hel)
  · intro sc hbody
    rcases List.mem_append.mp hbody with hstage | hcorner
    · exact h.frozen sc (List.mem_append_left _ hstage)
    · refine iff_of_false ?_ ?_
      · exact fun hfrozen => hnew.2 sc hcorner (h.frozenKnown sc hfrozen)
      · intro hfrozen
        have hfocus := h.frozenEl.symm.trans hfrozen
        have hstage := List.mem_append_right (p.widgets.map (·.el)) (mem_scrollers_of_focus hfocus)
        exact hnew.2 sc hcorner (h.known sc (List.mem_append_left _ hstage))

theorem Sound.pickerKey (h : p.Sound) (hov : p.keyboard.ovState = .screens) (key : Key) :
    (p.pickerKey key).Sound := by
  cases key with
  | arrowDown => exact h.renderScreens _
  | arrowUp => exact h.renderScreens _
  | enter => exact h.loadSelectedScreen hov
  | escape => exact h.setOverlay .none
  | i | o | arrowLeft | arrowRight | other => exact h

theorem Sound.ctrlKey (h : p.Sound) (hov : p.keyboard.ovState ≠ .screens) (e : Press) :
    (p.ctrlKey e).Sound := by
  unfold Page.ctrlKey
  split
  · exact h.refocus (refocused_focusWidget p _) (h.focused.focusWidget _)
  · exact h.refocus (refocused_focusWidget p _) (h.focused.focusWidget _)
  · exact h.scrollFocused hov 1
  · exact h.scrollFocused hov (-1)
  · split
    · exact h.zoomFocusedPdf hov e.zoom
    · exact h
  · exact h

theorem Sound.shiftKey (h : p.Sound) (hov : p.keyboard.ovState ≠ .screens) (key : Key) :
    (p.shiftKey key).Sound := by
  cases key with
  | arrowUp | arrowDown | arrowRight | arrowLeft => exact h.askKey hov (by simp) (by simp)
  | i | o | enter | escape | other => exact h

theorem pauseKey_ovState (kb : Keyboard) : kb.pauseKey.2.ovState = kb.ovState := rfl

theorem Sound.plainKey (h : p.Sound) (hov : p.keyboard.ovState ≠ .screens) (key : Key) :
    (p.plainKey key).Sound := by
  cases key with
  | arrowLeft | arrowRight | arrowDown => exact h.askKey hov (by simp) (by simp)
  | arrowUp =>
      -- The pause key changes what it will send next and not the overlay.
      refine Sound.askKey ?_ ?_ (by simp) (by simp)
      · exact ⟨{ h.focused with }, { h.loops with }, h.rendered, h.asked⟩
      · rwa [pauseKey_ovState]
  | i | o | enter | escape | other => exact h

theorem Sound.keydown (h : p.Sound) (e : Press) : (p.keydown e).Sound := by
  unfold Page.keydown
  dsimp only
  split
  · exact h.setOverlay _
  · split
    · exact h.openScreens
    · split
      · rename_i hov
        exact h.loadSelectedScreen hov
      · exact h
  · split
    · rename_i hov
      exact h.pickerKey hov _
    rename_i hov
    split
    · exact h.setOverlay .none
    split
    · exact h.refocus (refocused_exitManual p) h.focused.exitManual
    split
    · exact h.ctrlKey hov e
    split
    · exact h.shiftKey hov _
    · exact h.plainKey hov _

/-! ### The focus under the picker -/

/-- The focus, its marks and the scrollers are as they were. -/
structure Unmoved (p q : Page) : Prop where
  focusIdx : q.focusIdx = p.focusIdx
  frozenEl : q.frozenEl = p.frozenEl
  frozen : q.frozen = p.frozen
  outlined : q.outlined = p.outlined
  frames : q.frames = p.frames

theorem unmoved_setOverlay (p : Page) (state : OvState) : p.Unmoved (p.setOverlay state) := by
  unfold setOverlay
  dsimp only
  split
  · exact ⟨rfl, rfl, rfl, rfl, rfl⟩
  · exact ⟨rfl, rfl, rfl, rfl, rfl⟩

theorem unmoved_loadSelectedScreen (p : Page) : p.Unmoved p.loadSelectedScreen := by
  unfold loadSelectedScreen
  cases p.selected with
  | none => exact unmoved_setOverlay p .none
  | some id =>
      dsimp only
      split
      · exact { unmoved_setOverlay (p.ask (.transient id)) .none with }
      · exact unmoved_setOverlay p .none

theorem unmoved_pickerKey (p : Page) (key : Key) : p.Unmoved (p.pickerKey key) := by
  cases key with
  | enter => exact unmoved_loadSelectedScreen p
  | escape => exact unmoved_setOverlay p .none
  | i | o | arrowUp | arrowDown | arrowLeft | arrowRight | other =>
      exact ⟨rfl, rfl, rfl, rfl, rfl⟩

theorem unmoved_keydown (hov : p.keyboard.ovState = .screens) (e : Press) :
    p.Unmoved (p.keydown e) := by
  unfold keydown
  simp only [hov]
  split
  · exact unmoved_setOverlay p _
  · exact unmoved_loadSelectedScreen p
  · exact unmoved_pickerKey p _

/-! ### The pause key -/

def sent (p : Page) : List Command :=
  p.asked.filterMap fun a => match a.what with | .ctl cmd => some cmd | _ => none

/-- Neither the keyboard nor the rotation has noticed. -/
def Quiet (p q : Page) : Prop := q.keyboard = p.keyboard ∧ q.sent = p.sent

theorem quiet_ask {what : What} (h : ∀ cmd, what ≠ .ctl cmd) : p.Quiet (p.ask what) := by
  refine ⟨rfl, ?_⟩
  unfold sent ask
  rw [List.filterMap_append]
  cases what with
  | ctl cmd => exact absurd rfl (h cmd)
  | pip | snooze | transient | video | slide | pdfScroll | pdfStep | pdfZoom | scroll =>
      exact List.append_nil _

theorem sent_ask_ctl (cmd : Command) : (p.ask (.ctl cmd)).sent = p.sent ++ [cmd] := by
  unfold sent ask
  rw [List.filterMap_append]
  rfl

theorem Refocused.quiet (h : p.Refocused q) : p.Quiet q := by
  obtain ⟨_, _, _, _, rfl⟩ := h
  exact ⟨rfl, rfl⟩

theorem setOverlay_keyboard (p : Page) (state : OvState) :
    (p.setOverlay state).keyboard = { p.keyboard with ovState := state } ∧
      (p.setOverlay state).sent = p.sent := by
  unfold setOverlay
  dsimp only
  split
  · exact ⟨rfl, rfl⟩
  · exact ⟨rfl, rfl⟩

theorem loadSelectedScreen_keyboard (p : Page) :
    p.loadSelectedScreen.keyboard = { p.keyboard with ovState := .none } ∧
      p.loadSelectedScreen.sent = p.sent := by
  unfold loadSelectedScreen
  obtain ⟨hkeyboard, hsent⟩ := setOverlay_keyboard
    (match p.selected with
      | some id => if id ≠ "" then p.ask (.transient id) else p
      | none => p) .none
  rw [hkeyboard, hsent]
  split
  · split
    · exact ⟨rfl, (quiet_ask (by simp)).2⟩
    · exact ⟨rfl, rfl⟩
  · exact ⟨rfl, rfl⟩

theorem pickerKey_keyboard (p : Page) (key : Key) :
    (p.pickerKey key).keyboard =
        (if key = .enter ∨ key = .escape then { p.keyboard with ovState := .none }
          else p.keyboard) ∧
      (p.pickerKey key).sent = p.sent := by
  cases key with
  | enter => exact loadSelectedScreen_keyboard p
  | escape => exact setOverlay_keyboard p .none
  | i | o | arrowUp | arrowDown | arrowLeft | arrowRight | other => exact ⟨rfl, rfl⟩

theorem quiet_scrollFocused (p : Page) (dir : Int) : p.Quiet (p.scrollFocused dir) := by
  unfold scrollFocused
  split
  · exact (refocused_focusWidget p 1).quiet
  · split
    · exact quiet_ask (by simp)
    split
    · exact quiet_ask (by simp)
    split
    · split
      · exact quiet_ask (by simp)
      · exact quiet_ask (by simp)
    · generalize hq : (if p.frozenEl.isNone then p.freezeFocused else p) = q
      have hquiet : p.Quiet q := by
        rw [← hq]
        split
        · exact (refocused_freezeFocused p).quiet
        · exact ⟨rfl, rfl⟩
      dsimp only
      split
      · rename_i sc _
        have hask : q.Quiet (q.ask (.scroll sc false)) := quiet_ask (by simp)
        exact ⟨hask.1.trans hquiet.1, hask.2.trans hquiet.2⟩
      · exact hquiet

theorem quiet_ctrlKey (p : Page) (e : Press) : p.Quiet (p.ctrlKey e) := by
  unfold ctrlKey zoomFocusedPdf
  split
  · exact (refocused_focusWidget p _).quiet
  · exact (refocused_focusWidget p _).quiet
  · exact quiet_scrollFocused p 1
  · exact quiet_scrollFocused p (-1)
  · split
    · dsimp only
      split
      · exact quiet_ask (by simp)
      · exact ⟨rfl, rfl⟩
    · exact ⟨rfl, rfl⟩
  · exact ⟨rfl, rfl⟩

theorem quiet_shiftKey (p : Page) (key : Key) : p.Quiet (p.shiftKey key) := by
  cases key with
  | arrowUp | arrowDown | arrowRight | arrowLeft => exact quiet_ask (by simp)
  | i | o | enter | escape | other => exact ⟨rfl, rfl⟩

theorem plainKey_keyboard (p : Page) (key : Key) :
    (p.plainKey key).keyboard =
        (if key = .arrowUp then p.keyboard.pauseKey.2 else p.keyboard) ∧
      (p.plainKey key).sent = p.sent ++
        (if key = .arrowLeft then [Command.prev] else if key = .arrowRight then [.next]
          else if key = .arrowUp then [p.keyboard.pauseKey.1] else []) := by
  cases key with
  | arrowLeft | arrowRight => exact ⟨rfl, sent_ask_ctl _⟩
  | arrowUp => exact ⟨rfl, sent_ask_ctl (p := { p with keyboard := p.keyboard.pauseKey.2 }) _⟩
  | arrowDown => exact ⟨rfl, (quiet_ask (by simp)).2.trans (List.append_nil _).symm⟩
  | i | o | enter | escape | other => exact ⟨rfl, (List.append_nil _).symm⟩

/--
A key does to the overlay and to the pause flag what the keyboard alone does,
and the rotation gets the same command, if any.
-/
theorem keydown_keyboard (p : Page) (e : Press) :
    (p.keydown e).keyboard = (p.keyboard.keydown e.event).2 ∧
      (p.keydown e).sent = p.sent ++ (p.keyboard.keydown e.event).1.toList := by
  obtain ⟨⟨key, ctrl, shift⟩, zoom⟩ := e
  unfold keydown Keyboard.keydown
  cases key with
  | i =>
      obtain ⟨hkeyboard, hsent⟩ := setOverlay_keyboard p
        (if p.keyboard.ovState = .none then .info
          else if p.keyboard.ovState = .screens then .info else .none)
      refine ⟨hkeyboard.trans ?_, hsent.trans (by simp)⟩
      cases p.keyboard.ovState <;> rfl
  | o =>
      cases hov : p.keyboard.ovState with
      | none =>
          have hkeyboard : p.keyboard = { p.keyboard with ovState := .none } := by rw [← hov]
          refine ⟨?_, by simp⟩
          simpa using hkeyboard
      | info =>
          obtain ⟨hkeyboard, hsent⟩ := setOverlay_keyboard { p with scrSel := 0 } .screens
          exact ⟨hkeyboard, hsent.trans (List.append_nil _).symm⟩
      | screens =>
          obtain ⟨hkeyboard, hsent⟩ := loadSelectedScreen_keyboard p
          exact ⟨hkeyboard, hsent.trans (List.append_nil _).symm⟩
  | escape =>
      cases hov : p.keyboard.ovState with
      | none => simpa [Quiet] using (refocused_exitManual p).quiet
      | info => simpa using setOverlay_keyboard p .none
      | screens => simpa using pickerKey_keyboard p .escape
  | enter | arrowUp | arrowDown | arrowLeft | arrowRight | other =>
      by_cases hov : p.keyboard.ovState = .screens
      · have hpicked := pickerKey_keyboard p
        simp [hov, (hpicked _).1, (hpicked _).2]
      · cases ctrl
        · cases shift
          · have hplain := plainKey_keyboard p
            simp [hov, (hplain _).1, (hplain _).2]
          · simpa [hov, Quiet] using quiet_shiftKey p _
        · simpa [hov, Quiet] using quiet_ctrlKey p _

theorem Sound.step (h : p.Sound) {e : Event} (hstep : p.step e = some q) : q.Sound := by
  cases e with
  | keydown e =>
      cases hstep
      exact h.keydown e
  | names viewNames =>
      cases hstep
      exact ⟨{ h.focused with }, { h.loops with }, h.rendered, h.asked⟩
  | loaded excess widgets =>
      simp only [Page.step] at hstep
      split at hstep
      · rename_i hnew
        cases hstep
        apply Sound.setupCellScroll
        · exact ⟨Marked.load h.focused hnew, { h.loops with }, h.rendered, h.asked⟩
        · exact fun sc hsc => List.mem_append_left _ hsc
      · contradiction
  | cornerLoaded excess corner =>
      simp only [Page.step] at hstep
      split at hstep
      · rename_i hnew
        cases hstep
        apply Sound.setupCellScroll
        · exact ⟨Marked.loadCorner h.focused hnew, { h.loops with }, h.rendered, h.asked⟩
        · exact fun sc hsc => List.mem_append_right _ hsc
      · contradiction
  | dwell excess =>
      cases hstep
      exact h.setupCellScroll excess fun sc hsc => List.mem_append_left _ hsc
  | frame excess i =>
      simp only [Page.step] at hstep
      split at hstep
      · rename_i handle sc hf
        cases hstep
        exact h.frame excess hf
      · contradiction

theorem Sound.run {es : List Event} (hrun : events.run {} es = some p) : p.Sound := by
  apply System.run_invariant (I := Sound) (fun _ _ _ h hstep => h.step hstep) _ hrun
  refine ⟨⟨?_, .inl rfl, rfl, by simp⟩, ?_, rfl, by simp⟩
  · constructor <;> simp [elements, body]
  · constructor <;> simp

/--
Whatever keys are pressed while views, corners and names come in: at most one
scroller is frozen, that of the focused widget, which is also the one outlined;
no scroller is driven by two loops; and the animation moves only scrollers that
do not have the focus, the user only the one that has it.
-/
theorem focus_frozen {es : List Event} (hrun : events.run {} es = some p) :
    (∀ sc ∈ p.body, (sc ∈ p.frozen ↔ p.focus = some sc)) ∧
    (∀ w ∈ p.widgets, (w.el ∈ p.outlined ↔ p.widgetAt p.focusIdx = some w)) ∧
    (p.frames.map Prod.snd).Nodup ∧
    ∀ a ∈ p.asked, ∀ sc auto, a.what = .scroll sc auto → (auto = true ↔ a.focus ≠ some sc) := by
  have h := Sound.run hrun
  refine ⟨?_, h.focused.outlined, h.loops.single, fun a ha => (h.asked a ha).scroll⟩
  rw [← h.focused.frozenEl]
  exact h.focused.frozen

def focused : List Event :=
  [.loaded (fun _ => 9) [⟨1, [2], false, false, false, false, false⟩,
      ⟨3, [4], false, false, false, false, false⟩],
    .frame (fun _ => 9) 0,
    .keydown ⟨⟨.arrowLeft, true, false⟩, 0⟩, .keydown ⟨⟨.arrowDown, true, false⟩, 0⟩,
    .frame (fun _ => 9) 0, .frame (fun _ => 9) 0]

theorem focus_frozen_second :
    ∃ p, events.run {} focused = some p ∧
      (∀ sc ∈ p.body, (sc ∈ p.frozen ↔ p.focus = some sc)) ∧
      (∀ w ∈ p.widgets, (w.el ∈ p.outlined ↔ p.widgetAt p.focusIdx = some w)) ∧
      (p.frames.map Prod.snd).Nodup ∧
      ∀ a ∈ p.asked, ∀ sc auto, a.what = .scroll sc auto →
        (auto = true ↔ a.focus ≠ some sc) := by
  obtain ⟨p, hrun⟩ : ∃ p, events.run {} focused = some p :=
    Option.isSome_iff_exists.mp (by decide +kernel)
  exact ⟨p, hrun, focus_frozen hrun⟩

example : ((events.run {} focused).map fun p => (p.focusIdx, p.frozenEl, p.outlined)) =
    some (1, some 4, [3]) := by decide +kernel

/--
The picker loads the one screen that it highlights, also when the list of
screens has changed since it was drawn, and while it is open no key reaches the
rotation, the corner, the chime or a widget, nor moves the focus.
-/
theorem picker_loads_highlighted {es : List Event} (hrun : events.run {} es = some p) :
    (∀ a ∈ p.asked,
      (∀ id, a.what = .transient id → a.overlay = .screens ∧ Highlighted a.listed id) ∧
      (a.overlay = .screens →
        (∃ id, a.what = .transient id) ∨ ∃ sc, a.what = .scroll sc true)) ∧
    (p.keyboard.ovState = .screens → ∀ e, p.Unmoved (p.keydown e)) := by
  refine ⟨?_, unmoved_keydown⟩
  intro a ha
  have hfair := (Sound.run hrun).asked a ha
  exact ⟨hfair.transient, hfair.covered⟩

def picked : List Event :=
  [.names [("1", "Week"), ("2", "Photos")],
    .keydown ⟨⟨.i, false, false⟩, 0⟩, .keydown ⟨⟨.o, false, false⟩, 0⟩,
    .keydown ⟨⟨.arrowDown, false, false⟩, 0⟩, .names [("1", "Week")],
    .keydown ⟨⟨.enter, false, false⟩, 0⟩]

theorem picker_loads_highlighted_second :
    ∃ p, events.run {} picked = some p ∧
      (∀ a ∈ p.asked,
        (∀ id, a.what = .transient id → a.overlay = .screens ∧ Highlighted a.listed id) ∧
        (a.overlay = .screens →
          (∃ id, a.what = .transient id) ∨ ∃ sc, a.what = .scroll sc true)) ∧
      (p.keyboard.ovState = .screens → ∀ e, p.Unmoved (p.keydown e)) := by
  obtain ⟨p, hrun⟩ : ∃ p, events.run {} picked = some p :=
    Option.isSome_iff_exists.mp (by decide +kernel)
  exact ⟨p, hrun, picker_loads_highlighted hrun⟩

example : ((events.run {} picked).map fun p => p.asked.map (·.what)) =
    some [.transient "2"] := by decide +kernel

end Page

end FamilyPlanner.Kiosk.Remote

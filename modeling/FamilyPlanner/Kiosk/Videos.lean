import FamilyPlanner.Foundation.Run
import Mathlib.Data.List.Nodup
import Mathlib.Logic.Function.Iterate

/-!
# The players of the videos

A script from outside brings the players.  What asks for players before it has
come is kept and asked again then, in whatever the stage and the corner show at
that time.
-/

namespace FamilyPlanner.Kiosk.Youtube

open FamilyPlanner.Foundation System

inductive Place where
  | stage
  | corner
  deriving DecidableEq, Repr

structure VideoEl where
  ids : List String
  mute : Bool
  deriving DecidableEq, Repr

structure Node extends VideoEl where
  num : Nat
  deriving DecidableEq, Repr

/-- A controller with its player, which is `live` as long as it is in the
document; `ended` is history: how many videos it has played to their end. -/
structure Ctrl where
  id : Nat
  place : Place
  el : Nat
  list : List String
  mute : Bool
  onAllEnded : Bool
  i : Nat := 0
  live : Bool := true
  ended : Nat := 0
  deriving DecidableEq, Repr

/-- A call of `fpVideosIn`; `players` is the array that it returns and fills. -/
structure Call where
  place : Place
  mute : Option Bool
  onAllEnded : Bool
  players : Nat
  deriving DecidableEq, Repr

/-- `place` is history: where the players are that the array gets. -/
structure Players where
  place : Place
  items : List Nat
  deriving DecidableEq, Repr

/-- `wanted` is history: the options of the last call for a place, and `reports`
the players that have called `onAllEnded`. -/
structure Videos where
  apiReady : Bool := false
  handlers : Nat := 0
  queue : List Call := []
  shown : Place → List Node := fun _ => []
  nodes : Nat := 0
  arrays : List Players := []
  players : Place → Option Nat := fun _ => none
  ctrls : List Ctrl := []
  wanted : Place → Option Bool × Bool := fun _ => (none, false)
  reports : List Nat := []

def Players.push (ps : Players) (k : Nat) : Players := { ps with items := ps.items ++ [k] }

namespace Ctrl

def remove (g : Ctrl → Bool) (c : Ctrl) : Ctrl :=
  if g c then { c with live := false } else c

/-- `onStateChange` with ENDED. -/
def onEnded (c : Ctrl) : Ctrl :=
  { c with
    ended := c.ended + 1
    i := if c.list.length ≤ c.i + 1 ∧ c.onAllEnded then c.i else (c.i + 1) % c.list.length }

end Ctrl

namespace Videos

def remove (g : Ctrl → Bool) (y : Videos) : Videos :=
  { y with ctrls := y.ctrls.map (Ctrl.remove g) }

def makePlayer (call : Call) (y : Videos) (el : Node) : Videos :=
  if el.ids = [] then y
  else { y with
    ctrls := y.ctrls.map (Ctrl.remove (·.el = el.num)) ++
      [{ id := y.ctrls.length, place := call.place, el := el.num, list := el.ids,
         mute := call.mute.getD el.mute, onAllEnded := call.onAllEnded }]
    arrays := y.arrays.modify call.players (·.push y.ctrls.length) }

/-- What `fpVideosIn` does when the API is there. -/
def fill (y : Videos) (call : Call) : Videos :=
  (y.shown call.place).foldl (makePlayer call) y

def fpVideosIn (y : Videos) (place : Place) (mute : Option Bool) (onAllEnded : Bool) : Videos :=
  let call : Call := { place, mute, onAllEnded, players := y.arrays.length }
  let y : Videos := { y with
    arrays := y.arrays ++ [{ place, items := [] }]
    players := Function.update y.players place (some call.players)
    wanted := Function.update y.wanted place (mute, onAllEnded) }
  if y.apiReady then y.fill call
  else { y with handlers := y.handlers + 1, queue := y.queue ++ [call] }

/-- One of the handlers of `onYouTubeIframeAPIReady`; each calls the one before it
first.  Nothing that is caught up on looks at the queue. -/
def ready (y : Videos) : Videos :=
  y.queue.foldl fill { y with apiReady := true, queue := [] }

def setHTML (y : Videos) (place : Place) (els : List VideoEl) : Videos :=
  { y.remove (·.place = place) with
    shown := Function.update y.shown place
      ((els.zipIdx y.nodes).map fun e => (⟨e.1, e.2⟩ : Node))
    nodes := y.nodes + els.length }

def stopPlayers (y : Videos) (place : Place) : Videos :=
  match (y.players place).bind (y.arrays[·]?) with
  | none => y
  | some ps => y.remove fun c => c.id ∈ ps.items

/-- `loadView` puts a fragment on the stage, and `fpSetupVideos`. -/
def swap (y : Videos) (els : List VideoEl) (advanceOnEnd : Bool) : Videos :=
  ((y.setHTML .stage els).stopPlayers .stage).fpVideosIn .stage none advanceOnEnd

def pipStopPlayers (y : Videos) : Videos :=
  { y.stopPlayers .corner with players := Function.update y.players .corner none }

/-- `pipRotate` from its answer on. -/
def pipSwap (y : Videos) (els : List VideoEl) (onEnd : Bool) : Videos :=
  (y.setHTML .corner els).fpVideosIn .corner (some true) (els ≠ [] && onEnd)

def ended (y : Videos) (c : Ctrl) : Videos :=
  { y with
    ctrls := y.ctrls.map fun c' => if c'.id = c.id then c'.onEnded else c'
    reports := if c.list.length ≤ c.i + 1 ∧ c.onAllEnded then y.reports ++ [c.id]
      else y.reports }

inductive VideoInput where
  | swap (els : List VideoEl) (advanceOnEnd : Bool)
  | pipStop
  | pipSwap (els : List VideoEl) (onEnd : Bool)
  | pipClear
  | apiLoaded
  | ended (id : Nat)
  deriving DecidableEq, Repr

def step (y : Videos) : VideoInput → Option Videos
  | .swap els advanceOnEnd => some (y.swap els advanceOnEnd)
  | .pipStop => some y.pipStopPlayers
  | .pipSwap els onEnd => some (y.pipSwap els onEnd)
  | .pipClear => some (y.pipStopPlayers.setHTML .corner [])
  | .apiLoaded => if y.apiReady ∨ y.handlers = 0 then none else some (ready^[y.handlers] y)
  | .ended id => (y.ctrls.find? fun c => c.id = id && c.live).map y.ended

def inputs : System Videos VideoInput := ⟨step⟩

def opened (els : List VideoEl) (advanceOnEnd : Bool) : Videos :=
  ({} : Videos).swap els advanceOnEnd

end Videos

/-! ## Filling -/

def Made (call : Call) (n : Node) (c : Ctrl) : Prop :=
  c.place = call.place ∧ c.el = n.num ∧ c.list = n.ids ∧ c.mute = call.mute.getD n.mute ∧
    c.onAllEnded = call.onAllEnded

structure Same (y y' : Videos) : Prop where
  apiReady : y'.apiReady = y.apiReady
  handlers : y'.handlers = y.handlers
  queue : y'.queue = y.queue
  shown : y'.shown = y.shown
  nodes : y'.nodes = y.nodes
  players : y'.players = y.players
  wanted : y'.wanted = y.wanted
  reports : y'.reports = y.reports

namespace Videos

/-- A live player is that of an element in the document, and its only one. -/
structure Placed (y : Videos) : Prop where
  ids : y.ctrls.map Ctrl.id = List.range y.ctrls.length
  nums : ∀ p, ∀ n ∈ y.shown p, n.num < y.nodes
  apart : ∀ p p', ∀ n ∈ y.shown p, ∀ n' ∈ y.shown p', n.num = n'.num → p = p' ∧ n = n'
  live : ∀ c ∈ y.ctrls, c.live = true → ∃ n ∈ y.shown c.place, c.el = n.num ∧ n.ids ≠ []
  single : ∀ c ∈ y.ctrls, ∀ c' ∈ y.ctrls, c.live = true → c'.live = true → c.el = c'.el → c = c'

end Videos

theorem Same.trans {x y z : Videos} (h : Same x y) (h' : Same y z) : Same x z where
  apiReady := h'.apiReady.trans h.apiReady
  handlers := h'.handlers.trans h.handlers
  queue := h'.queue.trans h.queue
  shown := h'.shown.trans h.shown
  nodes := h'.nodes.trans h.nodes
  players := h'.players.trans h.players
  wanted := h'.wanted.trans h.wanted
  reports := h'.reports.trans h.reports

theorem Same.refl (y : Videos) : Same y y := ⟨rfl, rfl, rfl, rfl, rfl, rfl, rfl, rfl⟩

variable {y y' : Videos} {call : Call} {c c' : Ctrl} {n : Node} {ns : List Node} {p : Place}
variable {g : Ctrl → Bool}

@[simp] theorem Ctrl.id_remove : (c.remove g).id = c.id := by
  unfold Ctrl.remove
  split <;> rfl

theorem Ctrl.remove_live (h : (c.remove g).live = true) :
    c.remove g = c ∧ g c = false ∧ c.live = true := by
  unfold Ctrl.remove at h ⊢
  split at h
  · contradiction
  · rename_i hgone
    rw [if_neg hgone]
    exact ⟨rfl, by simpa using hgone, h⟩

namespace Videos

theorem mem_remove (hc : c ∈ (y.remove g).ctrls) (hlive : c.live = true) :
    c ∈ y.ctrls ∧ g c = false := by
  obtain ⟨c', hc', rfl⟩ := List.mem_map.mp hc
  obtain ⟨heq, hgone, -⟩ := Ctrl.remove_live hlive
  rw [heq]
  exact ⟨hc', hgone⟩

theorem mem_remove_of (hc : c ∈ y.ctrls) (hgone : g c = false) : c ∈ (y.remove g).ctrls := by
  refine List.mem_map.mpr ⟨c, hc, ?_⟩
  rw [Ctrl.remove, if_neg (by simp [hgone])]

theorem Placed.remove (hy : y.Placed) : (y.remove g).Placed where
  ids := by
    have hids : (y.remove g).ctrls.map Ctrl.id = y.ctrls.map Ctrl.id := by
      simp [Videos.remove, Function.comp_def]
    rw [hids, hy.ids]
    simp [Videos.remove]
  nums := hy.nums
  apart := hy.apart
  live c hc hlive := hy.live c (mem_remove hc hlive).1 hlive
  single c hc c' hc' hlive hlive' :=
    hy.single c (mem_remove hc hlive).1 c' (mem_remove hc' hlive').1 hlive hlive'

def newCtrl (call : Call) (y : Videos) (n : Node) : Ctrl :=
  { id := y.ctrls.length, place := call.place, el := n.num, list := n.ids,
    mute := call.mute.getD n.mute, onAllEnded := call.onAllEnded }

theorem makePlayer_of_ne (h : n.ids ≠ []) :
    makePlayer call y n = { y.remove (·.el = n.num) with
      ctrls := (y.remove (·.el = n.num)).ctrls ++ [newCtrl call y n]
      arrays := y.arrays.modify call.players (·.push y.ctrls.length) } := by
  rw [makePlayer, if_neg h]
  rfl

theorem same_makePlayer : Same y (makePlayer call y n) := by
  unfold makePlayer
  split
  · exact Same.refl y
  · exact ⟨rfl, rfl, rfl, rfl, rfl, rfl, rfl, rfl⟩

theorem mem_makePlayer (h : n.ids ≠ []) :
    c ∈ (makePlayer call y n).ctrls ↔
      c ∈ (y.remove (·.el = n.num)).ctrls ∨ c = newCtrl call y n := by
  rw [makePlayer_of_ne h]
  simp

theorem Placed.makePlayer (hy : y.Placed) (hn : n ∈ y.shown call.place) :
    (makePlayer call y n).Placed := by
  by_cases h : n.ids = []
  · rwa [Videos.makePlayer, if_pos h]
  have hremove := hy.remove (g := (·.el = n.num))
  have hel : ∀ c ∈ (y.remove (·.el = n.num)).ctrls, c.live = true → c.el ≠ n.num := by
    intro c hc hlive
    simpa using (mem_remove hc hlive).2
  have hsame : Same y (Videos.makePlayer call y n) := same_makePlayer
  constructor
  · rw [makePlayer_of_ne h]
    dsimp only
    rw [List.map_append, hremove.ids, List.length_append, List.length_singleton,
      List.range_succ]
    simp [newCtrl, Videos.remove]
  · rw [hsame.shown, hsame.nodes]
    exact hy.nums
  · rw [hsame.shown]
    exact hy.apart
  · intro c hc hlive
    rw [hsame.shown]
    rcases (mem_makePlayer h).mp hc with hc | rfl
    · exact hremove.live c hc hlive
    · exact ⟨n, hn, rfl, h⟩
  · intro c hc c' hc' hlive hlive' heq
    rcases (mem_makePlayer h).mp hc with hc | rfl
    · rcases (mem_makePlayer h).mp hc' with hc' | rfl
      · exact hremove.single c hc c' hc' hlive hlive' heq
      · exact absurd heq (hel c hc hlive)
    · rcases (mem_makePlayer h).mp hc' with hc' | rfl
      · exact absurd heq.symm (hel c' hc' hlive')
      · rfl

structure Filled (call : Call) (ns : List Node) (y y' : Videos) : Prop where
  placed : y'.Placed
  same : Same y y'
  made : ∀ c ∈ y'.ctrls, c.live = true →
    (c ∈ y.ctrls ∧ ∀ n ∈ ns, n.ids ≠ [] → c.el ≠ n.num) ∨ ∃ n ∈ ns, Made call n c
  kept : ∀ c ∈ y.ctrls, c.live = true → (∀ n ∈ ns, c.el ≠ n.num) → c ∈ y'.ctrls
  each : ∀ n ∈ ns, n.ids ≠ [] → ∃ c ∈ y'.ctrls, c.live = true ∧ Made call n c

theorem filled_foldl (hy : y.Placed) (hns : ∀ n ∈ ns, n ∈ y.shown call.place) :
    Filled call ns y (ns.foldl (makePlayer call) y) := by
  induction ns generalizing y with
  | nil => exact ⟨hy, Same.refl y, fun c hc _ => .inl ⟨hc, by simp⟩, fun c hc _ _ => hc, by simp⟩
  | cons n ns ih =>
      have hn := hns n List.mem_cons_self
      have hsame : Same y (makePlayer call y n) := same_makePlayer
      have hrest : ∀ m ∈ ns, m ∈ (makePlayer call y n).shown call.place := by
        intro m hm
        rw [hsame.shown]
        exact hns m (List.mem_cons_of_mem n hm)
      have h := ih (hy.makePlayer hn) hrest
      refine ⟨h.placed, hsame.trans h.same, ?_, ?_, ?_⟩
      · intro c hc hlive
        rcases h.made c hc hlive with ⟨hc, hne⟩ | ⟨m, hm, hmade⟩
        · by_cases hempty : n.ids = []
          · rw [makePlayer, if_pos hempty] at hc
            refine .inl ⟨hc, ?_⟩
            intro m hm hids
            rcases List.mem_cons.mp hm with rfl | hm
            · exact absurd hempty hids
            · exact hne m hm hids
          · rcases (mem_makePlayer hempty).mp hc with hc | rfl
            · obtain ⟨hc, hgone⟩ := mem_remove hc hlive
              refine .inl ⟨hc, ?_⟩
              intro m hm hids
              rcases List.mem_cons.mp hm with rfl | hm
              · simpa using hgone
              · exact hne m hm hids
            · exact .inr ⟨n, List.mem_cons_self, rfl, rfl, rfl, rfl, rfl⟩
        · exact .inr ⟨m, List.mem_cons_of_mem n hm, hmade⟩
      · intro c hc hlive hne
        apply h.kept c _ hlive fun m hm => hne m (List.mem_cons_of_mem n hm)
        by_cases hempty : n.ids = []
        · rwa [makePlayer, if_pos hempty]
        · refine (mem_makePlayer hempty).mpr (.inl (mem_remove_of hc ?_))
          simpa using hne n List.mem_cons_self
      · intro m hm hids
        by_cases hlater : m ∈ ns
        · exact h.each m hlater hids
        · obtain rfl : m = n := by
            rcases List.mem_cons.mp hm with hm | hm
            · exact hm
            · exact absurd hm hlater
          refine ⟨newCtrl call y m, ?_, rfl, rfl, rfl, rfl, rfl, rfl⟩
          refine h.kept _ ((mem_makePlayer hids).mpr (.inr rfl)) rfl ?_
          intro m' hm' heq
          have hm'' := hns m' (List.mem_cons_of_mem m hm')
          obtain ⟨-, rfl⟩ := hy.apart _ _ m hn m' hm'' heq
          exact hlater hm'

theorem filled_fill (hy : y.Placed) : Filled call (y.shown call.place) y (y.fill call) :=
  filled_foldl hy fun _ hn => hn

/-- The live players of a place are those that the options ask for. -/
def As (y : Videos) (p : Place) (o : Option Bool × Bool) : Prop :=
  ∀ c ∈ y.ctrls, c.live = true → c.place = p →
    ∃ n ∈ y.shown p, Made ⟨p, o.1, o.2, 0⟩ n c

def Complete (y : Videos) (p : Place) : Prop :=
  ∀ n ∈ y.shown p, n.ids ≠ [] → ∃ c ∈ y.ctrls, c.live = true ∧ c.place = p ∧ c.el = n.num

theorem Filled.as (h : Filled call (y.shown call.place) y y') (hy : y.Placed) :
    y'.As call.place (call.mute, call.onAllEnded) := by
  intro c hc hlive hplace
  rw [h.same.shown]
  rcases h.made c hc hlive with ⟨hc, hne⟩ | ⟨n, hn, hmade⟩
  · obtain ⟨n, hn, hel, hids⟩ := hy.live c hc hlive
    rw [hplace] at hn
    exact absurd hel (hne n hn hids)
  · exact ⟨n, hn, hmade⟩

theorem Filled.complete (h : Filled call (y.shown call.place) y y') :
    y'.Complete call.place := by
  intro n hn hids
  rw [h.same.shown] at hn
  obtain ⟨c, hc, hlive, hplace, hel, -⟩ := h.each n hn hids
  exact ⟨c, hc, hlive, hplace, hel⟩

theorem Filled.elsewhere (h : Filled call (y.shown call.place) y y') (hy : y.Placed)
    (hp : p ≠ call.place) (hlive : c.live = true) (hc : c.place = p) :
    c ∈ y'.ctrls ↔ c ∈ y.ctrls := by
  constructor
  · intro hmem
    rcases h.made c hmem hlive with ⟨hmem, -⟩ | ⟨n, -, hmade⟩
    · exact hmem
    · exact absurd (hc.symm.trans hmade.1) hp
  · intro hmem
    apply h.kept c hmem hlive
    intro n hn heq
    obtain ⟨m, hm, hel, -⟩ := hy.live c hmem hlive
    obtain ⟨hplace, -⟩ := hy.apart _ _ m hm n hn (hel.symm.trans heq)
    exact hp (hc.symm.trans hplace)

theorem As.elsewhere {o : Option Bool × Bool} (h : Filled call (y.shown call.place) y y')
    (hy : y.Placed) (hp : p ≠ call.place) (has : y.As p o) : y'.As p o := by
  intro c hc hlive hplace
  rw [h.same.shown]
  exact has c ((h.elsewhere hy hp hlive hplace).mp hc) hlive hplace

theorem Complete.elsewhere (h : Filled call (y.shown call.place) y y') (hy : y.Placed)
    (hp : p ≠ call.place) (hall : y.Complete p) : y'.Complete p := by
  intro n hn hids
  rw [h.same.shown] at hn
  obtain ⟨c, hc, hlive, hplace, hel⟩ := hall n hn hids
  exact ⟨c, (h.elsewhere hy hp hlive hplace).mpr hc, hlive, hplace, hel⟩

/-! ## One pass through a list -/

def Pass (reports : List Nat) (c : Ctrl) : Prop :=
  c.list ≠ [] ∧
    (c.onAllEnded = true → c.i = min c.ended (c.list.length - 1) ∧
      reports.count c.id = c.ended + 1 - c.list.length) ∧
    (c.onAllEnded = false → c.i = c.ended % c.list.length ∧ reports.count c.id = 0)

structure Counted (y : Videos) : Prop where
  reported : ∀ k ∈ y.reports, k < y.ctrls.length
  pass : ∀ c ∈ y.ctrls, Pass y.reports c

theorem Counted.remove (hy : y.Counted) : (y.remove g).Counted where
  reported k hk := by
    have := hy.reported k hk
    simpa [Videos.remove] using this
  pass c hc := by
    obtain ⟨c, hmem, rfl⟩ := List.mem_map.mp hc
    have hpass := hy.pass c hmem
    unfold Ctrl.remove
    split
    · exact hpass
    · exact hpass

theorem Counted.makePlayer (hy : y.Counted) : (makePlayer call y n).Counted := by
  by_cases h : n.ids = []
  · rwa [Videos.makePlayer, if_pos h]
  have hremove := hy.remove (g := (·.el = n.num))
  constructor
  · rw [same_makePlayer.reports]
    intro k hk
    have hlt := hremove.reported k hk
    rw [makePlayer_of_ne h]
    simp only [List.length_append, List.length_singleton]
    omega
  · rw [same_makePlayer.reports]
    intro c hc
    rcases (mem_makePlayer h).mp hc with hc | rfl
    · exact hremove.pass c hc
    · have hnone : y.reports.count y.ctrls.length = 0 := by
        rw [List.count_eq_zero]
        intro hmem
        exact Nat.lt_irrefl _ (hy.reported _ hmem)
      have hpos : 0 < n.ids.length := List.length_pos_of_ne_nil h
      refine ⟨h, fun _ => ⟨(Nat.zero_min _).symm, hnone.trans ?_⟩,
        fun _ => ⟨(Nat.zero_mod _).symm, hnone⟩⟩
      dsimp only [newCtrl]
      omega

theorem Counted.fill (hy : y.Counted) : (y.fill call).Counted := by
  unfold Videos.fill
  induction y.shown call.place generalizing y with
  | nil => exact hy
  | cons n ns ih => exact ih hy.makePlayer

theorem Pass.onEnded {reports : List Nat} (h : Pass reports c) :
    Pass (if c.list.length ≤ c.i + 1 ∧ c.onAllEnded then reports ++ [c.id] else reports)
      c.onEnded := by
  obtain ⟨hne, hone, hcycle⟩ := h
  have hpos : 0 < c.list.length := List.length_pos_of_ne_nil hne
  refine ⟨hne, ?_, ?_⟩
  · intro hreport
    have hreport : c.onAllEnded = true := hreport
    obtain ⟨hi, hcount⟩ := hone hreport
    by_cases hlast : c.list.length ≤ c.i + 1
    · rw [Ctrl.onEnded, if_pos ⟨hlast, hreport⟩, if_pos ⟨hlast, hreport⟩, List.count_append,
        hcount, List.count_singleton_self]
      dsimp only
      omega
    · have hnot : ¬ (c.list.length ≤ c.i + 1 ∧ c.onAllEnded = true) := fun h => hlast h.1
      rw [Ctrl.onEnded, if_neg hnot, if_neg hnot, Nat.mod_eq_of_lt (by omega), hcount]
      dsimp only
      omega
  · intro hreport
    have hreport : c.onAllEnded = false := hreport
    obtain ⟨hi, hcount⟩ := hcycle hreport
    have hnot : ¬ (c.list.length ≤ c.i + 1 ∧ c.onAllEnded = true) := by simp [hreport]
    rw [Ctrl.onEnded, if_neg hnot, if_neg hnot, hi, Nat.mod_add_mod]
    exact ⟨rfl, hcount⟩

theorem Pass.of_ne {reports : List Nat} {k : Nat} (h : Pass reports c) (hk : k ≠ c.id) :
    Pass (reports ++ [k]) c := by
  have hcount : (reports ++ [k]).count c.id = reports.count c.id := by
    rw [List.count_append, List.count_singleton, if_neg (by simpa using hk), Nat.add_zero]
  rwa [Pass, hcount]

theorem Placed.eq_of_id (hy : y.Placed) (hc : c ∈ y.ctrls) (hc' : c' ∈ y.ctrls)
    (h : c.id = c'.id) : c = c' := by
  have hnodup : (y.ctrls.map Ctrl.id).Nodup := by
    rw [hy.ids]
    exact List.nodup_range
  exact List.inj_on_of_nodup_map hnodup hc hc' h

theorem Placed.id_lt (hy : y.Placed) (hc : c ∈ y.ctrls) : c.id < y.ctrls.length := by
  have hid : c.id ∈ y.ctrls.map Ctrl.id := List.mem_map_of_mem hc
  rw [hy.ids] at hid
  exact List.mem_range.mp hid

theorem Counted.ended (hy : y.Counted) (hplaced : y.Placed) (hc : c ∈ y.ctrls) :
    (y.ended c).Counted := by
  constructor
  · intro k hk
    have hlen : (y.ended c).ctrls.length = y.ctrls.length := List.length_map _
    rw [hlen]
    unfold Videos.ended at hk
    dsimp only at hk
    split at hk
    · rcases List.mem_append.mp hk with hk | hk
      · exact hy.reported k hk
      · obtain rfl := List.mem_singleton.mp hk
        exact hplaced.id_lt hc
    · exact hy.reported k hk
  · intro c' hc'
    obtain ⟨d, hd, rfl⟩ := List.mem_map.mp hc'
    have hpass := hy.pass d hd
    by_cases hid : d.id = c.id
    · rw [if_pos hid]
      obtain rfl := hplaced.eq_of_id hd hc hid
      exact hpass.onEnded
    · rw [if_neg hid]
      unfold Videos.ended
      dsimp only
      split
      · exact hpass.of_ne (Ne.symm hid)
      · exact hpass

end Videos

end FamilyPlanner.Kiosk.Youtube

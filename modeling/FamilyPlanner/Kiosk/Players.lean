import FamilyPlanner.Kiosk.Videos
import Mathlib.Data.List.Induction

/-!
# One player for each video

However late the script with the players comes, and however often the stage and
the corner have changed until then, each video on the screen has one player.
-/

namespace FamilyPlanner.Kiosk.Youtube

open FamilyPlanner.Foundation System

variable {y y' : Videos} {call : Call} {c c' : Ctrl} {n : Node} {ns : List Node} {p : Place}
variable {g : Ctrl → Bool}

namespace Videos

/-! ## The arrays of players -/

def placeOf (y : Videos) (a : Nat) : Option Place := y.arrays[a]?.map Players.place

/-- An array holds players of one place only. -/
structure Owned (y : Videos) : Prop where
  items : ∀ ps ∈ y.arrays, ∀ c ∈ y.ctrls, c.id ∈ ps.items → c.place = ps.place
  bound : ∀ ps ∈ y.arrays, ∀ k ∈ ps.items, k < y.ctrls.length
  queue : ∀ call ∈ y.queue, y.placeOf call.players = some call.place
  current : ∀ p, ∀ a ∈ y.players p, y.placeOf a = some p

theorem Owned.remove (hy : y.Owned) : (y.remove g).Owned where
  items ps hps c hc hid := by
    obtain ⟨d, hd, rfl⟩ := List.mem_map.mp hc
    have hplace : (d.remove g).place = d.place := by
      unfold Ctrl.remove
      split <;> rfl
    rw [Ctrl.id_remove] at hid
    rw [hplace]
    exact hy.items ps hps d hd hid
  bound ps hps k hk := by
    have := hy.bound ps hps k hk
    simpa [Videos.remove] using this
  queue := hy.queue
  current := hy.current

theorem placeOf_makePlayer (a : Nat) : (makePlayer call y n).placeOf a = y.placeOf a := by
  unfold makePlayer placeOf
  split
  · rfl
  · dsimp only
    rw [List.getElem?_modify]
    cases y.arrays[a]? with
    | none => rfl
    | some ps =>
        by_cases ha : call.players = a
        · simp [ha, Players.push]
        · simp [ha]

theorem Owned.makePlayer (hy : y.Owned) (hplaced : y.Placed)
    (hcall : y.placeOf call.players = some call.place) : (makePlayer call y n).Owned := by
  have hsame : Same y (Videos.makePlayer call y n) := same_makePlayer
  by_cases h : n.ids = []
  · rwa [Videos.makePlayer, if_pos h]
  have hremove := hy.remove (g := (·.el = n.num))
  have harrays : ∀ ps ∈ (Videos.makePlayer call y n).arrays, ps ∈ y.arrays ∨
      ∃ qs ∈ y.arrays, ps = qs.push y.ctrls.length ∧ qs.place = call.place := by
    intro ps hps
    rw [makePlayer_of_ne h] at hps
    dsimp only at hps
    obtain ⟨i, hi⟩ := List.mem_iff_getElem?.mp hps
    rw [List.getElem?_modify] at hi
    obtain ⟨qs, hqs, rfl⟩ := Option.map_eq_some_iff.mp hi
    by_cases ha : call.players = i
    · rw [placeOf, ha, hqs, Option.map_some, Option.some.injEq] at hcall
      exact .inr ⟨qs, List.mem_of_getElem? hqs, by simp [ha], hcall⟩
    · exact .inl (by simpa [ha] using List.mem_of_getElem? hqs)
  constructor
  · intro ps hps c hc hid
    rcases (mem_makePlayer h).mp hc with hc | rfl
    · rcases harrays ps hps with hps | ⟨qs, hqs, rfl, -⟩
      · exact hremove.items ps hps c hc hid
      · rcases List.mem_append.mp hid with hid | hid
        · exact hremove.items qs hqs c hc hid
        · obtain ⟨d, hd, rfl⟩ := List.mem_map.mp hc
          have hlt := hplaced.id_lt hd
          rw [Ctrl.id_remove, List.mem_singleton] at hid
          omega
    · rcases harrays ps hps with hps | ⟨qs, hqs, rfl, hplace⟩
      · exact absurd (hy.bound ps hps _ hid) (Nat.lt_irrefl _)
      · exact hplace.symm
  · intro ps hps k hk
    rw [makePlayer_of_ne h]
    dsimp only
    rw [List.length_append, List.length_singleton]
    rcases harrays ps hps with hps | ⟨qs, hqs, rfl, -⟩
    · have := hremove.bound ps hps k hk
      omega
    · rcases List.mem_append.mp hk with hk | hk
      · have := hremove.bound qs hqs k hk
        omega
      · obtain rfl := List.mem_singleton.mp hk
        simp [Videos.remove]
  · rw [hsame.queue]
    intro call' hcall'
    rw [placeOf_makePlayer]
    exact hy.queue call' hcall'
  · rw [hsame.players]
    intro p a ha
    rw [placeOf_makePlayer]
    exact hy.current p a ha

theorem owned_foldl (hy : y.Owned) (hplaced : y.Placed)
    (hcall : y.placeOf call.players = some call.place)
    (hns : ∀ n ∈ ns, n ∈ y.shown call.place) : (ns.foldl (makePlayer call) y).Owned ∧
      ∀ a, (ns.foldl (makePlayer call) y).placeOf a = y.placeOf a := by
  induction ns generalizing y with
  | nil => exact ⟨hy, fun _ => rfl⟩
  | cons n ns ih =>
      have hn := hns n List.mem_cons_self
      have hrest : ∀ m ∈ ns, m ∈ (makePlayer call y n).shown call.place := by
        intro m hm
        rw [same_makePlayer.shown]
        exact hns m (List.mem_cons_of_mem n hm)
      have hcall' : (makePlayer call y n).placeOf call.players = some call.place := by
        rw [placeOf_makePlayer, hcall]
      obtain ⟨howned, hplaces⟩ := ih (hy.makePlayer hplaced hcall) (hplaced.makePlayer hn) hcall'
        hrest
      refine ⟨howned, fun a => ?_⟩
      rw [List.foldl_cons, hplaces, placeOf_makePlayer]

theorem Owned.fill (hy : y.Owned) (hplaced : y.Placed)
    (hcall : y.placeOf call.players = some call.place) : (y.fill call).Owned :=
  (owned_foldl hy hplaced hcall fun _ hn => hn).1

theorem placeOf_fill (hy : y.Owned) (hplaced : y.Placed)
    (hcall : y.placeOf call.players = some call.place) (a : Nat) :
    (y.fill call).placeOf a = y.placeOf a :=
  (owned_foldl hy hplaced hcall fun _ hn => hn).2 a

/-! ## The invariant -/

def last (q : List Call) (p : Place) : Option Call := (q.filter (·.place = p)).getLast?

/-- The place is as the last call for it wants, or will be when the API has come. -/
structure Serves (y : Videos) (p : Place) : Prop where
  as : y.apiReady = true → y.As p (y.wanted p)
  complete : y.apiReady = true → y.players p ≠ none → y.Complete p
  asked : y.apiReady = false → ∀ call, last y.queue p = some call →
    (call.mute, call.onAllEnded) = y.wanted p
  waits : y.apiReady = false → y.players p ≠ none → last y.queue p ≠ none

structure Base (y : Videos) : Prop where
  placed : y.Placed
  counted : y.Counted
  owned : y.Owned
  idle : y.apiReady = true → y.queue = []
  empty : y.apiReady = false → y.ctrls = []

structure Sound (y : Videos) : Prop extends y.Base where
  serves : ∀ p, y.Serves p
  stage : y.players .stage ≠ none

theorem Base.remove (hy : y.Base) : (y.remove g).Base where
  placed := hy.placed.remove
  counted := hy.counted.remove
  owned := hy.owned.remove
  idle := hy.idle
  empty hready := by
    have hnil := hy.empty hready
    simp [Videos.remove, hnil]

theorem Serves.remove (hp : y.Serves p) (hgone : ∀ c ∈ y.ctrls, c.place = p → g c = false) :
    (y.remove g).Serves p where
  as hready c hc hlive hplace := hp.as hready c (mem_remove hc hlive).1 hlive hplace
  complete hready hplayers n hn hids := by
    obtain ⟨c, hc, hlive, hplace, hel⟩ := hp.complete hready hplayers n hn hids
    exact ⟨c, mem_remove_of hc (hgone c hc hplace), hlive, hplace, hel⟩
  asked := hp.asked
  waits := hp.waits

theorem shown_setHTML_self (q : Place) (els : List VideoEl) :
    (y.setHTML q els).shown q = (els.zipIdx y.nodes).map fun e => (⟨e.1, e.2⟩ : Node) :=
  Function.update_self _ _ _

theorem shown_setHTML_of_ne {q : Place} (h : p ≠ q) (els : List VideoEl) :
    (y.setHTML q els).shown p = y.shown p :=
  Function.update_of_ne h _ _

theorem Base.setHTML (hy : y.Base) (q : Place) (els : List VideoEl) : (y.setHTML q els).Base := by
  have hremove := hy.remove (g := (·.place = q))
  have hshown : ∀ p, ∀ n ∈ (y.setHTML q els).shown p,
      (p ≠ q ∧ n ∈ y.shown p) ∨ (p = q ∧ y.nodes ≤ n.num ∧ n.num < y.nodes + els.length ∧
        els[n.num - y.nodes]? = some n.toVideoEl) := by
    intro p n hn
    by_cases hp : p = q
    · subst hp
      rw [shown_setHTML_self] at hn
      obtain ⟨e, he, rfl⟩ := List.mem_map.mp hn
      obtain ⟨hle, hlt, heq⟩ := List.mem_zipIdx he
      have hidx : e.2 - y.nodes < els.length := by omega
      exact .inr ⟨rfl, hle, hlt, (List.getElem?_eq_getElem hidx).trans (congrArg some heq.symm)⟩
    · rw [shown_setHTML_of_ne hp] at hn
      exact .inl ⟨hp, hn⟩
  refine ⟨⟨hremove.placed.ids, ?_, ?_, ?_, hremove.placed.single⟩, ?_, ?_, hremove.idle,
    hremove.empty⟩
  · intro p n hn
    rcases hshown p n hn with ⟨-, hn⟩ | ⟨-, -, hlt, -⟩
    · have := hy.placed.nums p n hn
      exact Nat.lt_of_lt_of_le this (Nat.le_add_right _ _)
    · exact hlt
  · intro p p' n hn n' hn' heq
    rcases hshown p n hn with ⟨hp, hn⟩ | ⟨hp, hle, -, hel⟩
    · rcases hshown p' n' hn' with ⟨-, hn'⟩ | ⟨-, hle', -⟩
      · exact hy.placed.apart p p' n hn n' hn' heq
      · have := hy.placed.nums p n hn
        omega
    · rcases hshown p' n' hn' with ⟨-, hn'⟩ | ⟨hp', -, -, hel'⟩
      · have := hy.placed.nums p' n' hn'
        omega
      · refine ⟨hp.trans hp'.symm, ?_⟩
        rw [heq, hel', Option.some.injEq] at hel
        cases n
        cases n'
        simp_all
  · intro c hc hlive
    obtain ⟨hc, hgone⟩ := mem_remove hc hlive
    have hplace : c.place ≠ q := by simpa using hgone
    rw [shown_setHTML_of_ne hplace]
    exact hy.placed.live c hc hlive
  · exact ⟨hremove.counted.reported, hremove.counted.pass⟩
  · exact ⟨hremove.owned.items, hremove.owned.bound, hremove.owned.queue, hremove.owned.current⟩

theorem Serves.setHTML (hp : y.Serves p) {q : Place} (hne : p ≠ q) (els : List VideoEl) :
    (y.setHTML q els).Serves p := by
  have hremove : (y.remove (·.place = q)).Serves p := by
    apply hp.remove
    intro c hc hplace
    simpa [hplace] using hne
  have hshown := shown_setHTML_of_ne (y := y) hne els
  refine ⟨?_, ?_, hremove.asked, hremove.waits⟩
  · intro hready c hc hlive hplace
    rw [hshown]
    exact hremove.as hready c hc hlive hplace
  · intro hready hplayers n hn hids
    rw [hshown] at hn
    exact hremove.complete hready hplayers n hn hids

theorem Base.stopPlayers (hy : y.Base) (q : Place) : (y.stopPlayers q).Base := by
  unfold Videos.stopPlayers
  split
  · exact hy
  · exact hy.remove

theorem Serves.stopPlayers (hy : y.Base) (hp : y.Serves p) {q : Place} (hne : p ≠ q) :
    (y.stopPlayers q).Serves p := by
  unfold Videos.stopPlayers
  split
  · exact hp
  · rename_i ps hps
    obtain ⟨a, ha, hget⟩ := Option.bind_eq_some_iff.mp hps
    have hplace := hy.owned.current q a ha
    rw [placeOf, hget, Option.map_some, Option.some.injEq] at hplace
    apply hp.remove
    intro c hc hcp
    by_contra hgone
    have hid : c.id ∈ ps.items := by simpa using hgone
    have := hy.owned.items ps (List.mem_of_getElem? hget) c hc hid
    exact hne (hcp.symm.trans (this.trans hplace))

/-- The state in which `fpVideosIn` makes its players or joins the queue. -/
def asking (y : Videos) (place : Place) (mute : Option Bool) (onAllEnded : Bool) : Videos :=
  { y with
    arrays := y.arrays ++ [{ place, items := [] }]
    players := Function.update y.players place (some y.arrays.length)
    wanted := Function.update y.wanted place (mute, onAllEnded) }

def queued (y : Videos) (call : Call) : Videos :=
  { y with
    handlers := y.handlers + 1
    queue := y.queue ++ [call] }

theorem fpVideosIn_eq (y : Videos) (place : Place) (mute : Option Bool) (onAllEnded : Bool) :
    y.fpVideosIn place mute onAllEnded =
      if y.apiReady then (y.asking place mute onAllEnded).fill
        ⟨place, mute, onAllEnded, y.arrays.length⟩
      else (y.asking place mute onAllEnded).queued
        ⟨place, mute, onAllEnded, y.arrays.length⟩ := rfl

section Asking

variable {q : Place} {mute : Option Bool} {onAllEnded : Bool}

theorem placeOf_asking_last :
    (y.asking q mute onAllEnded).placeOf y.arrays.length = some q := by
  simp [placeOf, asking]

theorem placeOf_asking {a : Nat} (h : y.placeOf a = some p) :
    (y.asking q mute onAllEnded).placeOf a = some p := by
  obtain ⟨ps, hps, hplace⟩ := Option.map_eq_some_iff.mp h
  have hlt := (List.getElem?_eq_some_iff.mp hps).1
  rw [placeOf, asking, List.getElem?_append_left hlt, hps, Option.map_some, hplace]

theorem players_asking_of_ne (h : p ≠ q) :
    (y.asking q mute onAllEnded).players p = y.players p := Function.update_of_ne h _ _

theorem wanted_asking_of_ne (h : p ≠ q) :
    (y.asking q mute onAllEnded).wanted p = y.wanted p := Function.update_of_ne h _ _

theorem wanted_asking_self : (y.asking q mute onAllEnded).wanted q = (mute, onAllEnded) :=
  Function.update_self _ _ _

theorem Owned.asking (hy : y.Owned) : (y.asking q mute onAllEnded).Owned where
  items ps hps := by
    rcases List.mem_append.mp hps with hps | hps
    · exact hy.items ps hps
    · obtain rfl := List.mem_singleton.mp hps
      simp
  bound ps hps := by
    rcases List.mem_append.mp hps with hps | hps
    · exact hy.bound ps hps
    · obtain rfl := List.mem_singleton.mp hps
      simp
  queue call hcall := placeOf_asking (hy.queue call hcall)
  current p a ha := by
    by_cases hp : p = q
    · subst hp
      obtain rfl : y.arrays.length = a := by
        simpa [Videos.asking] using ha
      exact placeOf_asking_last
    · rw [players_asking_of_ne hp] at ha
      exact placeOf_asking (hy.current p a ha)

theorem Base.asking (hy : y.Base) : (y.asking q mute onAllEnded).Base where
  placed := ⟨hy.placed.ids, hy.placed.nums, hy.placed.apart, hy.placed.live, hy.placed.single⟩
  counted := ⟨hy.counted.reported, hy.counted.pass⟩
  owned := hy.owned.asking
  idle := hy.idle
  empty := hy.empty

theorem Serves.asking (hp : y.Serves p) (hne : p ≠ q) :
    (y.asking q mute onAllEnded).Serves p := by
  constructor
  · rw [wanted_asking_of_ne hne]
    exact hp.as
  · rw [players_asking_of_ne hne]
    exact hp.complete
  · rw [wanted_asking_of_ne hne]
    exact hp.asked
  · rw [players_asking_of_ne hne]
    exact hp.waits

theorem Base.fill (hy : y.Base) (hready : y.apiReady = true)
    (hcall : y.placeOf call.players = some call.place) : (y.fill call).Base := by
  have h : Filled call (y.shown call.place) y (y.fill call) := filled_fill hy.placed
  refine ⟨h.placed, hy.counted.fill, hy.owned.fill hy.placed hcall, ?_, ?_⟩
  · rw [h.same.queue]
    exact fun _ => hy.idle hready
  · rw [h.same.apiReady, hready]
    simp

theorem Serves.fill (hy : y.Base) (hp : y.Serves p) (hready : y.apiReady = true)
    (hne : p ≠ call.place) : (y.fill call).Serves p := by
  have h : Filled call (y.shown call.place) y (y.fill call) := filled_fill hy.placed
  constructor
  · rw [h.same.wanted]
    exact fun _ => (hp.as hready).elsewhere h hy.placed hne
  · rw [h.same.players]
    exact fun _ hplayers => (hp.complete hready hplayers).elsewhere h hy.placed hne
  · rw [h.same.apiReady, hready]
    simp
  · rw [h.same.apiReady, hready]
    simp

theorem last_append (calls : List Call) (call : Call) (p : Place) :
    last (calls ++ [call]) p = if call.place = p then some call else last calls p := by
  unfold last
  rw [List.filter_append]
  by_cases hp : call.place = p
  · simp [hp]
  · simp [hp]

theorem Base.queued (hy : y.Base) (hready : y.apiReady = false)
    (hcall : y.placeOf call.players = some call.place) : (y.queued call).Base where
  placed := ⟨hy.placed.ids, hy.placed.nums, hy.placed.apart, hy.placed.live, hy.placed.single⟩
  counted := ⟨hy.counted.reported, hy.counted.pass⟩
  owned := by
    refine ⟨hy.owned.items, hy.owned.bound, ?_, hy.owned.current⟩
    intro call' hmem
    rcases List.mem_append.mp hmem with hmem | hmem
    · exact hy.owned.queue call' hmem
    · obtain rfl := List.mem_singleton.mp hmem
      exact hcall
  idle htrue := absurd (hready.symm.trans htrue) (by decide)
  empty := hy.empty

theorem Serves.queued_self (hready : y.apiReady = false)
    (hwanted : (call.mute, call.onAllEnded) = y.wanted call.place) :
    (y.queued call).Serves call.place := by
  have hnot : (y.queued call).apiReady ≠ true := by
    rw [show (y.queued call).apiReady = y.apiReady from rfl, hready]
    decide
  have hlast : last (y.queued call).queue call.place = some call := by
    rw [show (y.queued call).queue = y.queue ++ [call] from rfl, last_append, if_pos rfl]
  refine ⟨fun h => absurd h hnot, fun h => absurd h hnot, ?_, ?_⟩
  · intro _ call' hcall'
    rw [hlast, Option.some.injEq] at hcall'
    exact hcall' ▸ hwanted
  · rw [hlast]
    simp

theorem Serves.queued (hp : y.Serves p) (hne : p ≠ call.place) : (y.queued call).Serves p := by
  have hlast : last (y.queued call).queue p = last y.queue p := by
    rw [show (y.queued call).queue = y.queue ++ [call] from rfl, last_append,
      if_neg (Ne.symm hne)]
  refine ⟨hp.as, hp.complete, ?_, ?_⟩
  · rw [hlast]
    exact hp.asked
  · rw [hlast]
    exact hp.waits

theorem Sound.fpVideosIn (hy : y.Base) (hserves : ∀ p, p ≠ q → y.Serves p)
    (hstage : q = .stage ∨ y.players .stage ≠ none) :
    (y.fpVideosIn q mute onAllEnded).Sound := by
  have hbase : (y.asking q mute onAllEnded).Base := hy.asking
  have hstage' : (y.asking q mute onAllEnded).players .stage ≠ none := by
    by_cases hq : q = .stage
    · subst hq
      simp [asking]
    · rw [players_asking_of_ne (Ne.symm hq)]
      exact hstage.resolve_left hq
  have hrest : ∀ p, p ≠ q → (y.asking q mute onAllEnded).Serves p :=
    fun p hp => (hserves p hp).asking hp
  rw [fpVideosIn_eq]
  cases hready : (y.asking q mute onAllEnded).apiReady with
  | true =>
      have hready' : y.apiReady = true := hready
      rw [if_pos hready']
      have h : Filled ⟨q, mute, onAllEnded, y.arrays.length⟩
          ((y.asking q mute onAllEnded).shown q) (y.asking q mute onAllEnded)
          ((y.asking q mute onAllEnded).fill ⟨q, mute, onAllEnded, y.arrays.length⟩) :=
        filled_fill hbase.placed
      refine ⟨hbase.fill hready placeOf_asking_last, ?_, ?_⟩
      · intro p
        by_cases hp : p = q
        · subst hp
          refine ⟨fun _ => ?_, fun _ _ => h.complete, ?_, ?_⟩
          · rw [h.same.wanted, wanted_asking_self]
            exact h.as hbase.placed
          · rw [h.same.apiReady, hready]
            simp
          · rw [h.same.apiReady, hready]
            simp
        · exact (hrest p hp).fill hbase hready hp
      · rw [h.same.players]
        exact hstage'
  | false =>
      have hnot : ¬ y.apiReady = true := by
        rw [show y.apiReady = (y.asking q mute onAllEnded).apiReady from rfl, hready]
        decide
      rw [if_neg hnot]
      refine ⟨hbase.queued hready placeOf_asking_last, ?_, hstage'⟩
      intro p
      by_cases hp : p = q
      · subst hp
        exact Serves.queued_self hready wanted_asking_self.symm
      · exact (hrest p hp).queued hp

end Asking

/-! ### When the API comes -/

/-- The calls that waited fill the places, and the last one for a place counts. -/
structure Caught (calls : List Call) (y y' : Videos) : Prop where
  base : y'.Base
  same : Same y y'
  places : ∀ a, y'.placeOf a = y.placeOf a
  as : ∀ p, ∀ call, last calls p = some call → y'.As p (call.mute, call.onAllEnded)
  complete : ∀ p, last calls p ≠ none → y'.Complete p
  rest : ∀ p, last calls p = none → ∀ c ∈ y'.ctrls, c.live = true → c.place = p → c ∈ y.ctrls

theorem caught_foldl (calls : List Call) (hy : y.Base) (hready : y.apiReady = true)
    (hcalls : ∀ call ∈ calls, y.placeOf call.players = some call.place) :
    Caught calls y (calls.foldl fill y) := by
  induction calls using List.reverseRecOn with
  | nil =>
      exact ⟨hy, Same.refl y, fun _ => rfl, by simp [last], by simp [last],
        fun _ _ c hc _ _ => hc⟩
  | append_singleton calls call ih =>
      have h := ih fun call' hcall' => hcalls call' (List.mem_append_left _ hcall')
      rw [List.foldl_append, List.foldl_cons, List.foldl_nil]
      have hready' : (calls.foldl fill y).apiReady = true := by
        rw [h.same.apiReady, hready]
      have hcall : (calls.foldl fill y).placeOf call.players = some call.place := by
        rw [h.places]
        exact hcalls call (by simp)
      have hfill : Filled call ((calls.foldl fill y).shown call.place) (calls.foldl fill y)
          ((calls.foldl fill y).fill call) := filled_fill h.base.placed
      refine ⟨h.base.fill hready' hcall, h.same.trans hfill.same, ?_, ?_, ?_, ?_⟩
      · intro a
        rw [placeOf_fill h.base.owned h.base.placed hcall, h.places]
      · intro p call' hlast
        rw [last_append] at hlast
        split at hlast
        · rename_i hp
          cases hlast
          subst hp
          exact hfill.as h.base.placed
        · rename_i hp
          exact (h.as p call' hlast).elsewhere hfill h.base.placed (Ne.symm hp)
      · intro p hlast
        rw [last_append] at hlast
        split at hlast
        · rename_i hp
          subst hp
          exact hfill.complete
        · rename_i hp
          exact (h.complete p hlast).elsewhere hfill h.base.placed (Ne.symm hp)
      · intro p hlast c hc hlive hplace
        rw [last_append] at hlast
        split at hlast
        · contradiction
        · rename_i hp
          exact h.rest p hlast c ((hfill.elsewhere h.base.placed (Ne.symm hp) hlive hplace).mp hc)
            hlive hplace

theorem Sound.ready (hy : y.Sound) (hready : y.apiReady = false) : y.ready.Sound := by
  have hempty := hy.empty hready
  have hbase : ({ y with apiReady := true, queue := [] } : Videos).Base :=
    ⟨⟨hy.placed.ids, hy.placed.nums, hy.placed.apart, hy.placed.live, hy.placed.single⟩,
      ⟨hy.counted.reported, hy.counted.pass⟩,
      ⟨hy.owned.items, hy.owned.bound, by simp, hy.owned.current⟩, fun _ => rfl, by simp⟩
  have h := caught_foldl y.queue hbase rfl hy.owned.queue
  refine ⟨h.base, ?_, ?_⟩
  · intro p
    have hserves := hy.serves p
    refine ⟨fun _ => ?_, fun _ hplayers => ?_, ?_, ?_⟩
    · rw [show y.ready.wanted = y.wanted from h.same.wanted]
      cases hlast : last y.queue p with
      | some call =>
          rw [← hserves.asked hready call hlast]
          exact h.as p call hlast
      | none =>
          intro c hc hlive hplace
          have := h.rest p hlast c hc hlive hplace
          rw [show ({ y with apiReady := true, queue := [] } : Videos).ctrls = y.ctrls from rfl,
            hempty] at this
          contradiction
    · rw [show y.ready.players = y.players from h.same.players] at hplayers
      exact h.complete p (hserves.waits hready hplayers)
    · rw [show y.ready.apiReady = true from h.same.apiReady]
      simp
    · rw [show y.ready.apiReady = true from h.same.apiReady]
      simp
  · rw [show y.ready.players = y.players from h.same.players]
    exact hy.stage

theorem same_fill : Same y (y.fill call) := by
  unfold Videos.fill
  induction y.shown call.place generalizing y with
  | nil => exact Same.refl y
  | cons n ns ih => exact same_makePlayer.trans ih

theorem apiReady_foldl (calls : List Call) (y : Videos) :
    (calls.foldl fill y).apiReady = y.apiReady := by
  induction calls generalizing y with
  | nil => rfl
  | cons call calls ih => rw [List.foldl_cons, ih, same_fill.apiReady]

theorem ready_of_done (hqueue : y.queue = []) (hready : y.apiReady = true) : y.ready = y := by
  unfold Videos.ready
  rw [hqueue, List.foldl_nil]
  obtain ⟨_, _, _, _, _, _, _, _, _, _⟩ := y
  cases hqueue
  cases hready
  rfl

/-- All but the first of the handlers find nothing to do. -/
theorem iterate_ready (hy : y.Sound) (hready : y.apiReady = false) (k : Nat) :
    Videos.ready^[k + 1] y = y.ready := by
  have hdone : y.ready.apiReady = true := apiReady_foldl _ _
  have hfixed := ready_of_done ((hy.ready hready).idle hdone) hdone
  rw [Function.iterate_succ_apply, Function.iterate_fixed hfixed]

/-! ### Every input -/

theorem mem_ended (h : c' ∈ (y.ended c).ctrls) : ∃ d ∈ y.ctrls,
    c' = (if d.id = c.id then d.onEnded else d) ∧ c'.id = d.id ∧ c'.place = d.place ∧
      c'.el = d.el ∧ c'.list = d.list ∧ c'.mute = d.mute ∧ c'.onAllEnded = d.onAllEnded ∧
      c'.live = d.live := by
  obtain ⟨d, hd, rfl⟩ := List.mem_map.mp h
  refine ⟨d, hd, rfl, ?_⟩
  split
  · exact ⟨rfl, rfl, rfl, rfl, rfl, rfl, rfl⟩
  · exact ⟨rfl, rfl, rfl, rfl, rfl, rfl, rfl⟩

theorem mem_ended_of (h : c' ∈ y.ctrls) : ∃ d ∈ (y.ended c).ctrls,
    d.place = c'.place ∧ d.el = c'.el ∧ d.live = c'.live := by
  refine ⟨_, List.mem_map_of_mem h, ?_⟩
  split
  · exact ⟨rfl, rfl, rfl⟩
  · exact ⟨rfl, rfl, rfl⟩

theorem Placed.ended (hy : y.Placed) : (y.ended c).Placed where
  ids := by
    have hids : (y.ended c).ctrls.map Ctrl.id = y.ctrls.map Ctrl.id := by
      unfold Videos.ended
      rw [List.map_map]
      apply List.map_congr_left
      intro d _
      dsimp only [Function.comp_apply]
      split
      · rfl
      · rfl
    have hlen : (y.ended c).ctrls.length = y.ctrls.length := List.length_map _
    rw [hids, hlen, hy.ids]
  nums := hy.nums
  apart := hy.apart
  live c' hc' hlive := by
    obtain ⟨d, hd, -, -, hplace, hel, -, -, -, hdlive⟩ := mem_ended hc'
    rw [hplace, hel]
    exact hy.live d hd (hdlive.symm.trans hlive)
  single c₁ hc₁ c₂ hc₂ hlive₁ hlive₂ heq := by
    obtain ⟨d₁, hd₁, rfl, -, -, hel₁, -, -, -, hl₁⟩ := mem_ended hc₁
    obtain ⟨d₂, hd₂, rfl, -, -, hel₂, -, -, -, hl₂⟩ := mem_ended hc₂
    have hd := hy.single d₁ hd₁ d₂ hd₂ (hl₁.symm.trans hlive₁) (hl₂.symm.trans hlive₂)
      (hel₁.symm.trans (heq.trans hel₂))
    rw [hd]

theorem Owned.ended (hy : y.Owned) : (y.ended c).Owned where
  items ps hps c' hc' hid := by
    obtain ⟨d, hd, -, hdid, hplace, -⟩ := mem_ended hc'
    rw [hplace]
    exact hy.items ps hps d hd (hdid ▸ hid)
  bound ps hps k hk := by
    have hlen : (y.ended c).ctrls.length = y.ctrls.length := List.length_map _
    rw [hlen]
    exact hy.bound ps hps k hk
  queue := hy.queue
  current := hy.current

theorem Sound.ended (hy : y.Sound) (hc : c ∈ y.ctrls) : (y.ended c).Sound := by
  refine ⟨⟨hy.placed.ended, hy.counted.ended hy.placed hc, hy.owned.ended, hy.idle, ?_⟩, ?_,
    hy.stage⟩
  · intro hready
    rw [hy.empty hready] at hc
    contradiction
  · intro p
    have hp := hy.serves p
    refine ⟨?_, ?_, hp.asked, hp.waits⟩
    · intro hready c' hc' hlive hplace
      obtain ⟨d, hd, -, -, hdplace, hel, hlist, hmute, hreport, hdlive⟩ := mem_ended hc'
      obtain ⟨n, hn, hmade⟩ :=
        hp.as hready d hd (hdlive.symm.trans hlive) (hdplace.symm.trans hplace)
      refine ⟨n, hn, ?_⟩
      unfold Made
      rw [hdplace, hel, hlist, hmute, hreport]
      exact hmade
    · intro hready hplayers n hn hids
      obtain ⟨d, hd, hlive, hplace, hel⟩ := hp.complete hready hplayers n hn hids
      obtain ⟨d', hd', hplace', hel', hlive'⟩ := mem_ended_of (c := c) hd
      exact ⟨d', hd', hlive'.trans hlive, hplace'.trans hplace, hel'.trans hel⟩

theorem Sound.swap (hy : y.Base) (hcorner : y.Serves .corner) (els : List VideoEl)
    (advanceOnEnd : Bool) : (y.swap els advanceOnEnd).Sound := by
  have hhtml := hy.setHTML .stage els
  apply Sound.fpVideosIn (hhtml.stopPlayers .stage) _ (.inl rfl)
  intro p hp
  obtain rfl : p = .corner := by
    cases p with
    | stage => exact absurd rfl hp
    | corner => rfl
  exact Serves.stopPlayers hhtml (hcorner.setHTML (by decide) els) (by decide)

theorem players_stopPlayers {q : Place} : (y.stopPlayers q).players = y.players := by
  unfold Videos.stopPlayers
  split
  · rfl
  · rfl

theorem players_pipStopPlayers (hp : p ≠ .corner) :
    y.pipStopPlayers.players p = y.players p := Function.update_of_ne hp _ _

theorem Serves.pipStopPlayers (hy : y.Sound) (p : Place) : y.pipStopPlayers.Serves p := by
  by_cases hp : p = .corner
  · subst hp
    have hnone : ¬ y.pipStopPlayers.players .corner ≠ none := by simp [Videos.pipStopPlayers]
    have hsame : y.pipStopPlayers.apiReady = y.apiReady ∧ y.pipStopPlayers.queue = y.queue ∧
        y.pipStopPlayers.wanted = y.wanted ∧ y.pipStopPlayers.shown = y.shown ∧
        ∀ c ∈ y.pipStopPlayers.ctrls, c.live = true → c ∈ y.ctrls := by
      unfold Videos.pipStopPlayers Videos.stopPlayers
      split
      · exact ⟨rfl, rfl, rfl, rfl, fun c hc _ => hc⟩
      · exact ⟨rfl, rfl, rfl, rfl, fun c hc hlive => (mem_remove hc hlive).1⟩
    obtain ⟨hready, hqueue, hwanted, hshown, hctrls⟩ := hsame
    refine ⟨?_, fun _ h => absurd h hnone, ?_, fun _ h => absurd h hnone⟩
    · rw [hready, hwanted]
      intro hready c hc hlive hplace
      rw [hshown]
      exact (hy.serves .corner).as hready c (hctrls c hc hlive) hlive hplace
    · rw [hready, hwanted, hqueue]
      exact (hy.serves .corner).asked
  · have hserves := Serves.stopPlayers hy.toBase (hy.serves p) hp
    have hplayers := (players_pipStopPlayers hp).trans
      (congrFun (players_stopPlayers (y := y) (q := .corner)).symm p)
    refine ⟨hserves.as, ?_, hserves.asked, ?_⟩
    · rw [hplayers]
      exact hserves.complete
    · rw [hplayers]
      exact hserves.waits

theorem Sound.pipStopPlayers (hy : y.Sound) : y.pipStopPlayers.Sound := by
  have hbase := hy.toBase.stopPlayers .corner
  refine ⟨⟨⟨hbase.placed.ids, hbase.placed.nums, hbase.placed.apart, hbase.placed.live,
    hbase.placed.single⟩, ⟨hbase.counted.reported, hbase.counted.pass⟩,
    ⟨hbase.owned.items, hbase.owned.bound, hbase.owned.queue, ?_⟩, hbase.idle, hbase.empty⟩,
    Serves.pipStopPlayers hy, ?_⟩
  · intro p a ha
    by_cases hp : p = .corner
    · subst hp
      simp [Videos.pipStopPlayers] at ha
    · rw [players_pipStopPlayers hp, ← players_stopPlayers (q := .corner)] at ha
      exact hbase.owned.current p a ha
  · rw [players_pipStopPlayers (by decide)]
    exact hy.stage

theorem Sound.pipClear (hy : y.Sound) : (y.pipStopPlayers.setHTML .corner []).Sound := by
  have hstop := hy.pipStopPlayers
  refine ⟨hstop.toBase.setHTML .corner [], ?_, hstop.stage⟩
  intro p
  by_cases hp : p = .corner
  · subst hp
    refine ⟨?_, ?_, (hstop.serves .corner).asked, (hstop.serves .corner).waits⟩
    · intro _ c hc hlive hplace
      have hgone := (mem_remove hc hlive).2
      simp [hplace] at hgone
    · intro _ _ n hn
      rw [shown_setHTML_self] at hn
      simp at hn
  · exact (hstop.serves p).setHTML hp []

theorem Sound.step {e : VideoInput} (hy : y.Sound) (h : y.step e = some y') : y'.Sound := by
  cases e with
  | swap els advanceOnEnd =>
      cases h
      exact Sound.swap hy.toBase (hy.serves .corner) els advanceOnEnd
  | pipStop =>
      cases h
      exact hy.pipStopPlayers
  | pipSwap els onEnd =>
      cases h
      apply Sound.fpVideosIn (hy.toBase.setHTML .corner els) _ (.inr hy.stage)
      intro p hp
      exact (hy.serves p).setHTML hp els
  | pipClear =>
      cases h
      exact hy.pipClear
  | apiLoaded =>
      have h : (if y.apiReady = true ∨ y.handlers = 0 then none
        else some (Videos.ready^[y.handlers] y)) = some y' := h
      split at h
      · contradiction
      · rename_i hnot
        cases h
        have hready : y.apiReady = false := by
          simpa using fun h => hnot (.inl h)
        obtain ⟨k, hk⟩ := Nat.exists_eq_succ_of_ne_zero fun h => hnot (.inr h)
        rw [hk, iterate_ready hy hready]
        exact hy.ready hready
  | ended id =>
      obtain ⟨c, hfind, rfl⟩ := Option.map_eq_some_iff.mp h
      exact hy.ended (List.mem_of_find?_eq_some hfind)

/-! ## What the inputs ask for -/

/-- The options with which a fragment is set up. -/
def VideoInput.options : VideoInput → Place → Option (Option Bool × Bool)
  | .swap _ advanceOnEnd, .stage => some (none, advanceOnEnd)
  | .pipSwap els onEnd, .corner => some (some true, els ≠ [] && onEnd)
  | _, _ => none

def wantedAfter (p : Place) (o : Option Bool × Bool) (es : List VideoInput) : Option Bool × Bool :=
  es.foldl (fun o e => (e.options p).getD o) o

theorem wanted_fpVideosIn {q : Place} {mute : Option Bool} {onAllEnded : Bool} :
    (y.fpVideosIn q mute onAllEnded).wanted = Function.update y.wanted q (mute, onAllEnded) := by
  rw [fpVideosIn_eq]
  split
  · rw [same_fill.wanted]
    rfl
  · rfl

theorem wanted_stopPlayers {q : Place} : (y.stopPlayers q).wanted = y.wanted := by
  unfold Videos.stopPlayers
  split
  · rfl
  · rfl

theorem wanted_foldl (calls : List Call) (y : Videos) :
    (calls.foldl fill y).wanted = y.wanted := by
  induction calls generalizing y with
  | nil => rfl
  | cons call calls ih => rw [List.foldl_cons, ih, same_fill.wanted]

theorem wanted_iterate (k : Nat) (y : Videos) : (Videos.ready^[k] y).wanted = y.wanted := by
  induction k generalizing y with
  | zero => rfl
  | succ k ih =>
      rw [Function.iterate_succ_apply, ih]
      exact wanted_foldl _ _

theorem wanted_step {e : VideoInput} (h : y.step e = some y') (p : Place) :
    y'.wanted p = (e.options p).getD (y.wanted p) := by
  cases e with
  | swap els advanceOnEnd =>
      cases h
      rw [Videos.swap, wanted_fpVideosIn, wanted_stopPlayers]
      cases p <;> rfl
  | pipStop =>
      cases h
      exact congrFun wanted_stopPlayers p
  | pipSwap els onEnd =>
      cases h
      rw [Videos.pipSwap, wanted_fpVideosIn]
      cases p <;> rfl
  | pipClear =>
      cases h
      exact congrFun wanted_stopPlayers p
  | apiLoaded =>
      have h : (if y.apiReady = true ∨ y.handlers = 0 then none
        else some (Videos.ready^[y.handlers] y)) = some y' := h
      split at h
      · contradiction
      · cases h
        exact congrFun (wanted_iterate _ y) p
  | ended id =>
      obtain ⟨c, -, rfl⟩ := Option.map_eq_some_iff.mp h
      rfl

theorem wanted_run {es : List VideoInput} (h : inputs.run y es = some y') (p : Place) :
    y'.wanted p = wantedAfter p (y.wanted p) es := by
  induction es generalizing y with
  | nil =>
      cases h
      rfl
  | cons e es ih =>
      obtain ⟨z, hstep, hrun⟩ := run_cons_eq_some.mp h
      rw [ih hrun, wanted_step hstep]
      rfl

theorem sound_opened (els : List VideoEl) (advanceOnEnd : Bool) :
    (opened els advanceOnEnd).Sound := by
  apply Sound.swap
  · exact ⟨⟨rfl, by simp, by simp, by simp, by simp⟩, ⟨by simp, by simp⟩,
      ⟨by simp, by simp, by simp, by simp⟩, fun _ => rfl, fun _ => rfl⟩
  · exact ⟨by simp, by simp, by simp [last], by simp⟩

/--
`wanted` are the options that each place was last set up with.  `each`: once the API
is there, each video of the stage, and of the corner while it shows one, has one live
player, whatever its options.  `options`: they are the ones wanted.  `alone`: no other
player is in the document.  `pass`: each player goes through its list in order; where
an end is to be reported it stops after the last video, and reports then and not before.
-/
structure Tidy (wanted : Place → Option Bool × Bool) (y : Videos) : Prop where
  each : y.apiReady = true → ∀ p, p = .stage ∨ y.players p ≠ none → ∀ n ∈ y.shown p,
    n.ids ≠ [] → ∃! c, c ∈ y.ctrls ∧ c.live = true ∧ c.el = n.num
  options : y.apiReady = true → ∀ p, ∀ n ∈ y.shown p, ∀ c ∈ y.ctrls, c.live = true →
    c.el = n.num → c.list = n.ids ∧ c.mute = (wanted p).1.getD n.mute ∧
      c.onAllEnded = (wanted p).2
  alone : ∀ c ∈ y.ctrls, c.live = true →
    y.apiReady = true ∧ ∃ n ∈ y.shown c.place, c.el = n.num ∧ c.list = n.ids
  pass : ∀ c ∈ y.ctrls, Pass y.reports c

def apiLate : List VideoInput :=
  [.swap [⟨["a", "b"], false⟩] true, .apiLoaded, .ended 1, .ended 1]

end Videos

end FamilyPlanner.Kiosk.Youtube

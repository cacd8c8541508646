import FamilyPlanner.Server.Edits

/-!
# Callers and the loop of one stream

Any number of control requests and the loop of the connected stream take turns
at the granularity of the `State` methods.  `notify` holds one signal at most,
and every announcement reads the state in several critical sections; what makes
up for both is that a caller signals after its last change.
-/

namespace FamilyPlanner.Server

open FamilyPlanner.Foundation FamilyPlanner.Rotation

/-- Nothing is taken off the wire here, so it holds all events sent. -/
structure Callers where
  device : Device
  loop : Program Unit
  calls : List (Program Bool) := []

namespace Callers

inductive Act where
  | wake (w : Wake)
  | loop
  | press (c : Command)
  | call (i : Nat)
  deriving DecidableEq, Repr

variable (suspends : Int → Bool)

def start (items : List Item) : Callers where
  device := { state := State.new items }
  loop := Stream.connect suspends

def step (s : Callers) : Act → Option Callers
  | .wake w =>
      match s.loop with
      | .call _ _ => none
      | .ret _ =>
          if w = .notify then
            if s.device.notify then
              some { s with
                device := { s.device with notify := false }
                loop := Stream.onWake suspends w }
            else none
          else some { s with loop := Stream.onWake suspends w }
  | .loop =>
      match s.loop with
      | .ret _ => none
      | .call o next =>
          some { s with
            device := (Device.exec o s.device).2
            loop := next (Device.exec o s.device).1 }
  | .press c => some { s with calls := s.calls ++ [Manager.command c] }
  | .call i =>
      match s.calls[i]? with
      | some (.call o next) =>
          some { s with
            device := (Device.exec o s.device).2
            calls := s.calls.set i (next (Device.exec o s.device).1) }
      | _ => none

def acts : System Callers Act := ⟨step suspends⟩

variable {suspends} {s s' : Callers}

theorem wake_cases {w : Wake} (h : (acts suspends).step s (.wake w) = some s') :
    (∃ u, s.loop = .ret u) ∧
      ((w = .notify ∧ s' = { s with
          device := { s.device with notify := false }
          loop := Stream.onWake suspends w }) ∨
        (w ≠ .notify ∧ s' = { s with loop := Stream.onWake suspends w })) := by
  simp only [acts, step] at h
  split at h
  · contradiction
  · rename_i u hloop
    refine ⟨⟨u, hloop⟩, ?_⟩
    split at h
    · rename_i hw
      split at h
      · exact .inl ⟨hw, by cases h; rfl⟩
      · contradiction
    · rename_i hw
      exact .inr ⟨hw, by cases h; rfl⟩

theorem loop_cases (h : (acts suspends).step s .loop = some s') :
    ∃ o next, s.loop = .call o next ∧ s' = { s with
      device := (Device.exec o s.device).2
      loop := next (Device.exec o s.device).1 } := by
  simp only [acts, step] at h
  split at h
  · contradiction
  · rename_i o next hloop
    exact ⟨o, next, hloop, by cases h; rfl⟩

theorem call_cases {i : Nat} (h : (acts suspends).step s (.call i) = some s') :
    ∃ o next, s.calls[i]? = some (.call o next) ∧ s' = { s with
      device := (Device.exec o s.device).2
      calls := s.calls.set i (next (Device.exec o s.device).1) } := by
  simp only [acts, step] at h
  split at h
  · rename_i o next hcall
    exact ⟨o, next, hcall, by cases h; rfl⟩
  · contradiction

theorem inRange_step {a : Act} (hs : s.device.state.InRange)
    (h : (acts suspends).step s a = some s') : s'.device.state.InRange := by
  cases a with
  | wake w =>
      obtain ⟨-, ⟨-, rfl⟩ | ⟨-, rfl⟩⟩ := wake_cases h
      · exact hs
      · exact hs
  | loop =>
      obtain ⟨o, next, -, rfl⟩ := loop_cases h
      exact Device.exec_inRange o hs
  | press c =>
      cases h
      exact hs
  | call i =>
      obtain ⟨o, next, -, rfl⟩ := call_cases h
      exact Device.exec_inRange o hs

/-! ## What has been announced -/

def announced : Event → Option (Option Int)
  | .navigate v => some (some v)
  | .refresh data => if data = "empty" then some none else none
  | _ => none

def dwelt : Event → Option Int
  | .dwell secs => some secs
  | _ => none

def lastAnnounced (d : Device) : Option (Option Int) :=
  ((Stream.sent d).filterMap announced).getLast?

def lastDwell (d : Device) : Option Int :=
  ((Stream.sent d).filterMap dwelt).getLast?

def countdown (it : Item) (paused : Bool) : Int :=
  if paused then 0
  else Stream.seconds (if 0 < it.dwell then it.dwell else 30 * second)

/-- The last events sent tell the page what is shown and for how long. -/
structure Agrees (d : Device) : Prop where
  navigate : ∀ it, d.state.shown = some it →
    Stream.lastNavigate d = some it.viewID
  dwell : ∀ it, d.state.shown = some it →
    lastDwell d = some (countdown it d.state.paused)
  empty : d.state.shown = none → lastAnnounced d = some none

def Silent (e : Event) : Prop := announced e = none ∧ dwelt e = none

theorem navigated_of_announced {e : Event} (h : announced e = none) :
    Stream.navigated e = none := by
  cases e <;> first | rfl | simp [announced] at h

theorem filterMap_append_silent {α : Type} {f : Event → Option α}
    {es silent : List Event} (h : ∀ e ∈ silent, f e = none) :
    (es ++ silent).filterMap f = es.filterMap f := by
  rw [List.filterMap_append, List.filterMap_eq_nil_iff.mpr h, List.append_nil]

theorem Agrees.of_silent {d d' : Device} {es : List Event} (h : Agrees d)
    (hshown : d'.state.shown = d.state.shown)
    (hpaused : d'.state.paused = d.state.paused) (hsent : Stream.sent d' = Stream.sent d ++ es)
    (hes : ∀ e ∈ es, Silent e) : Agrees d' := by
  have hannounced : ∀ e ∈ es, announced e = none := fun e he => (hes e he).1
  have hdwelt : ∀ e ∈ es, dwelt e = none := fun e he => (hes e he).2
  have hnavigated : ∀ e ∈ es, Stream.navigated e = none :=
    fun e he => navigated_of_announced (hannounced e he)
  constructor
  · intro it hit
    rw [Stream.lastNavigate, hsent, filterMap_append_silent hnavigated]
    exact h.navigate it (hshown ▸ hit)
  · intro it hit
    rw [lastDwell, hsent, filterMap_append_silent hdwelt, hpaused]
    exact h.dwell it (hshown ▸ hit)
  · intro hnone
    rw [lastAnnounced, hsent, filterMap_append_silent hannounced]
    exact h.empty (hshown ▸ hnone)

theorem Agrees.of_sent_some {d : Device} {es : List Event} {it : Item}
    (hit : d.state.shown = some it)
    (hsent : Stream.sent d = es ++ Stream.currentEvents it d.state.paused) :
    Agrees d := by
  constructor
  · intro it' hit'
    cases hit.symm.trans hit'
    exact Stream.lastNavigate_of_sent hsent
  · intro it' hit'
    cases hit.symm.trans hit'
    simp [lastDwell, hsent, Stream.currentEvents, List.filterMap_cons, dwelt,
      countdown]
  · intro hnone
    rw [hit] at hnone
    contradiction

theorem Agrees.of_sent_none {d : Device} {es : List Event}
    (hnone : d.state.shown = none)
    (hsent : Stream.sent d = es ++ [.refresh "empty"]) : Agrees d := by
  constructor
  · intro it hit
    rw [hnone] at hit
    contradiction
  · intro it hit
    rw [hnone] at hit
    contradiction
  · intro _
    simp [lastAnnounced, hsent, announced]

/-! ## An undisturbed announcement agrees -/

theorem sendCurrent_alone_none {d : Device} (hd : d.state.InRange)
    (hnone : d.state.shown = none) :
    (Stream.sendCurrent.alone Device.exec d).2 =
      { d with
        read := (none, d.moves)
        wire := d.wire ++ [(.refresh "empty", d.moves)] } := by
  simp [Stream.sendCurrent, Device.exec, hd.current_state, hnone,
    Stream.sends_alone]

theorem sendCurrent_agrees {d : Device} (hd : d.state.InRange) :
    (Stream.sendCurrent.alone Device.exec d).2.state = d.state ∧
      Agrees (Stream.sendCurrent.alone Device.exec d).2 := by
  cases hshown : d.state.shown with
  | none =>
      rw [sendCurrent_alone_none hd hshown]
      refine ⟨rfl, ?_⟩
      refine @Agrees.of_sent_none _ (Stream.sent d) hshown ?_
      simp [Stream.sent]
  | some it =>
      rw [Stream.sendCurrent_alone hd hshown]
      refine ⟨rfl, ?_⟩
      refine @Agrees.of_sent_some _ (Stream.sent d) it hshown ?_
      simp [Stream.sent, Function.comp_def]

theorem resetAdvance_agrees {d : Device} (hd : d.state.InRange) (h : Agrees d) :
    Agrees ((Stream.resetAdvance suspends).alone Device.exec d).2 := by
  obtain ⟨t, ht⟩ := @Stream.resetAdvance_alone suspends d hd
  rw [ht]
  refine @Agrees.of_silent d _ [] h rfl rfl ?_ ?_
  · simp [Stream.sent]
  · simp

theorem showCurrent_agrees {d : Device} (hd : d.state.InRange) :
    Agrees ((Stream.showCurrent suspends).alone Device.exec d).2 := by
  obtain ⟨hstate, hagrees⟩ := sendCurrent_agrees hd
  rw [Stream.showCurrent, Prog.alone_bind]
  apply resetAdvance_agrees _ hagrees
  rw [hstate]
  exact hd

theorem sends_agrees {d : Device} {es : List Event} {rest : Program Unit}
    (h : Agrees d) (hes : ∀ e ∈ es, Silent e)
    (hrest : ∀ d', d'.state = d.state → Agrees d' →
      Agrees (rest.alone Device.exec d').2) :
    Agrees ((Stream.sends es rest).alone Device.exec d).2 := by
  rw [Stream.sends_alone]
  refine hrest _ rfl (@Agrees.of_silent d _ es h rfl rfl ?_ hes)
  simp [Stream.sent, Function.comp_def]

theorem connect_agrees {d : Device} (hd : d.state.InRange) :
    Agrees ((Stream.connect suspends).alone Device.exec d).2 := by
  obtain ⟨hstate, hagrees⟩ := sendCurrent_agrees hd
  rw [Stream.connect, Prog.alone_bind]
  apply sends_agrees hagrees
  · simp [Silent, announced, dwelt]
  · intro d' hstate' h
    apply resetAdvance_agrees _ h
    rw [hstate', hstate]
    exact hd

theorem chime_agrees {d : Device} (hd : d.state.InRange) (h : Agrees d)
    (clock : Option Int) :
    Agrees ((Stream.onWake suspends (.chime true clock)).alone Device.exec d).2 := by
  have hchime : Agrees (Device.exec (.send .chime) d).2 := by
    refine @Agrees.of_silent d _ [.chime] h rfl rfl ?_ ?_
    · simp [Stream.sent, Device.exec]
    · simp [Silent, announced, dwelt]
  have hread : Agrees (Device.exec .current (Device.exec (.send .chime) d).2).2 := by
    refine @Agrees.of_silent _ _ [] hchime ?_ ?_ ?_ ?_
    · simp only [Device.exec, hd.current_state]
    · exact State.current_paused d.state
    · simp [Stream.sent, Device.exec]
    · simp
  simp only [Stream.onWake, if_true, Prog.alone_call]
  by_cases hpaused :
      (Device.exec .isPaused (Device.exec (.send .chime) d).2).1 = true
  · rw [if_pos hpaused]
    exact hchime
  · rw [if_neg hpaused]
    cases clock with
    | none => exact hchime
    | some vid =>
        simp only [Prog.alone_call]
        split
        · exact hread
        · apply showCurrent_agrees
          apply Device.exec_inRange (.goto vid)
          exact Device.exec_inRange .current hd

theorem onWake_agrees {d : Device} {w : Wake} (hd : d.state.InRange)
    (h : w = .notify ∨ Agrees d) (hw : ∀ l, w = .refresh l → l = d.state.items) :
    Agrees ((Stream.onWake suspends w).alone Device.exec d).2 := by
  cases w with
  | notify => exact showCurrent_agrees hd
  | cmd name =>
      apply sends_agrees (h.resolve_left (by simp))
      · simp [Silent, announced, dwelt]
      · intro d' _ h
        exact h
  | refresh items =>
      obtain rfl := hw items rfl
      have hset : Agrees (Device.exec (.setItems d.state.items) d).2 :=
        @Agrees.of_silent d _ [] (h.resolve_left (by simp))
          hd.shown_setItems_self rfl (by simp [Stream.sent, Device.exec, Device.replace])
          (by simp)
      apply sends_agrees hset
      · simp [Silent, announced, dwelt]
      · intro d' _ h
        exact h
  | advance =>
      rw [Stream.onWake, Prog.alone_call]
      by_cases hpaused : (Device.exec .isPaused d).1 = true
      · rw [if_pos hpaused]
        exact showCurrent_agrees hd
      · rw [if_neg hpaused]
        exact showCurrent_agrees (State.inRange_next d.state)
  | chime decided clock =>
      cases decided with
      | false => exact h.resolve_left (by simp)
      | true => exact chime_agrees hd (h.resolve_left (by simp)) clock

/-! ## Every caller signals last -/

/-- The call has still to signal, which is the last thing it does. -/
def Signals : Program Bool → Prop
  | .ret _ => False
  | .call o next =>
      (o = .signal ∧ ∀ r, ∃ b, next r = .ret b) ∨
        (o ≠ .signal ∧ ∀ r, Signals (next r))

theorem command_signals (c : Command) : Signals (Manager.command c) := by
  cases c <;> simp [Manager.command, Signals]

theorem command_puts (l : List Item) (c : Command) :
    (Manager.command c).Only (Stream.Puts l) (fun _ _ => True) := by
  cases c <;> simp [Manager.command, Stream.Puts]

def Owed (s : Callers) : Prop :=
  s.device.notify = true ∨ ∃ p ∈ s.calls, Signals p

/-- Unless a signal is owed, the loop's own rest makes the page agree. -/
structure Coherent (l : List Item) (s : Callers) : Prop where
  inRange : s.device.state.InRange
  items : s.device.state.items = l
  puts : s.loop.Only (Stream.Puts l) fun _ _ => True
  calls : ∀ p ∈ s.calls, (Signals p ∨ ∃ b, p = .ret b) ∧
    p.Only (Stream.Puts l) fun _ _ => True
  agrees : s.Owed ∨ Agrees (s.loop.alone Device.exec s.device).2

theorem exec_items {o : Op} {d : Device} {l : List Item}
    (hitems : d.state.items = l) (ho : Stream.Puts l o) :
    (Device.exec o d).2.state.items = l := by
  cases o with
  | setItems l' => exact ho l' rfl
  | current =>
      simp only [Device.exec, State.current]
      split
      · exact hitems
      · split
        · exact hitems
        · split
          · exact hitems
          · exact hitems
  | goto v =>
      simp only [Device.exec, Device.move, State.goto]
      split
      · exact hitems
      · exact hitems
  | _ => exact hitems

theorem exec_notify {o : Op} {d : Device} (h : d.notify = true ∨ o = .signal) :
    (Device.exec o d).2.notify = true := by
  rcases h with h | rfl
  · cases o <;> first | exact h | rfl
  · rfl

variable {l : List Item}

theorem coherent_start (items : List Item) :
    Coherent items (start suspends items) where
  inRange := State.inRange_new items
  items := rfl
  puts := Stream.connect_puts items
  calls := by simp [start]
  agrees := .inr (connect_agrees (State.inRange_new items))

theorem Coherent.wake {w : Wake} (hs : Coherent l s)
    (hw : ∀ l', w = .refresh l' → l' = l)
    (h : (acts suspends).step s (.wake w) = some s') : Coherent l s' := by
  obtain ⟨⟨u, hidle⟩, hcase⟩ := wake_cases h
  have hitems : ∀ l', w = .refresh l' → l' = s.device.state.items :=
    fun l' hl' => (hw l' hl').trans hs.items.symm
  rcases hcase with ⟨rfl, rfl⟩ | ⟨-, rfl⟩
  · exact ⟨hs.inRange, hs.items, Stream.onWake_puts _ hw, hs.calls,
      .inr (@onWake_agrees suspends { s.device with notify := false } .notify
        hs.inRange (.inl rfl) hitems)⟩
  · refine ⟨hs.inRange, hs.items, Stream.onWake_puts _ hw, hs.calls, ?_⟩
    rcases hs.agrees with howed | hagrees
    · exact .inl howed
    · rw [hidle] at hagrees
      exact .inr (onWake_agrees hs.inRange (.inr hagrees) hitems)

theorem Coherent.loop (hs : Coherent l s)
    (h : (acts suspends).step s .loop = some s') : Coherent l s' := by
  obtain ⟨o, next, hloop, rfl⟩ := loop_cases h
  have hputs := hs.puts
  have hagrees := hs.agrees
  rw [hloop] at hputs hagrees
  refine ⟨Device.exec_inRange o hs.inRange, exec_items hs.items hputs.1,
    hputs.2 _ trivial, hs.calls, ?_⟩
  rcases hagrees with (hnotify | hsignals) | hagrees
  · exact .inl (.inl (exec_notify (.inl hnotify)))
  · exact .inl (.inr hsignals)
  · exact .inr hagrees

theorem Coherent.press (hs : Coherent l s) (c : Command) :
    Coherent l { s with calls := s.calls ++ [Manager.command c] } := by
  refine ⟨hs.inRange, hs.items, hs.puts, ?_, ?_⟩
  · exact forall_started hs.calls ⟨.inl (command_signals c), command_puts l c⟩
  · exact .inl (.inr ⟨Manager.command c, by simp, command_signals c⟩)

theorem Coherent.call {i : Nat} (hs : Coherent l s)
    (h : (acts suspends).step s (.call i) = some s') : Coherent l s' := by
  obtain ⟨o, next, hcall, rfl⟩ := call_cases h
  obtain ⟨hrest, hputs⟩ := hs.calls _ (List.mem_of_getElem? hcall)
  have hlt : i < s.calls.length := (List.getElem?_eq_some_iff.mp hcall).1
  have hsignals : Signals (.call o next) := by
    apply hrest.resolve_right
    rintro ⟨b, hb⟩
    cases hb
  have hitems := exec_items hs.items hputs.1
  refine ⟨Device.exec_inRange o hs.inRange, hitems, hs.puts, ?_, .inl ?_⟩
  · apply forall_resumed hs.calls
    refine ⟨?_, hputs.2 _ trivial⟩
    rcases hsignals with ⟨-, hret⟩ | ⟨-, hnext⟩
    · exact .inr (hret _)
    · exact .inl (hnext _)
  · rcases hsignals with ⟨hsignal, -⟩ | ⟨-, hnext⟩
    · exact .inl (exec_notify (.inr hsignal))
    · exact .inr ⟨_, List.mem_set hlt _, hnext _⟩

theorem Coherent.step {a : Act} (hs : Coherent l s)
    (ha : ∀ l', a = .wake (.refresh l') → l' = l)
    (h : (acts suspends).step s a = some s') : Coherent l s' := by
  cases a with
  | wake w => exact hs.wake (fun l' hl' => ha l' (by rw [hl'])) h
  | loop => exact hs.loop h
  | press c =>
      cases h
      exact hs.press c
  | call i => exact hs.call h

structure Quiescent (s : Callers) : Prop where
  idle : s.loop = .ret ()
  returned : ∀ p ∈ s.calls, ∃ b, p = .ret b
  empty : s.device.notify = false

/--
No command is lost: in every quiescent state the page has been told what the
playback state has come to.
-/
theorem agrees_of_quiescent {items : List Item} {as : List Act}
    (hitems : ∀ a ∈ as, ∀ l, a = .wake (.refresh l) → l = items)
    (hrun : (acts suspends).run (start suspends items) as = some s)
    (hquiet : s.Quiescent) : Agrees s.device := by
  have hs : Coherent items s := System.run_invariant_along
    (fun _ _ _ hs ha hstep => hs.step ha hstep) (coherent_start items)
    (System.Along.of_mem hitems _) hrun
  have hagrees := hs.agrees
  rw [hquiet.idle] at hagrees
  rcases hagrees with (hnotify | ⟨p, hp, hsignals⟩) | hagrees
  · rw [hquiet.empty] at hnotify
    contradiction
  · obtain ⟨b, rfl⟩ := hquiet.returned p hp
    exact hsignals.elim
  · exact hagrees

private def pair : List Item := [⟨1, 60 * second⟩, ⟨2, 60 * second⟩]

private def coalesced : List Act :=
  [.loop, .press .next, .press .pause, .call 0, .call 1, .call 0, .call 1] ++
    List.replicate 10 .loop ++ [.wake .notify] ++ List.replicate 7 .loop

private theorem returned_pair {b b' : Bool} {calls : List (Program Bool)}
    (h : calls = [.ret b, .ret b']) : ∀ p ∈ calls, ∃ b, p = .ret b := by
  simp [h]

theorem agrees_after_coalesced_signals :
    ∃ s, (acts fun _ => false).run (start (fun _ => false) pair) coalesced = some s ∧
      s.Quiescent ∧ Agrees s.device := by
  obtain ⟨s, hrun⟩ : ∃ s,
      (acts fun _ => false).run (start (fun _ => false) pair) coalesced = some s :=
    ⟨_, rfl⟩
  have hquiet : s.Quiescent := by
    cases hrun
    exact ⟨rfl, returned_pair rfl, rfl⟩
  exact ⟨s, hrun, hquiet, agrees_of_quiescent (by simp [coalesced]) hrun hquiet⟩

private def visited : List Act :=
  List.replicate 8 .loop ++
    [.press (.goto 9), .call 0, .call 0, .call 0, .wake .notify] ++
    List.replicate 7 .loop ++ [.press .next, .call 1, .call 1, .wake .notify] ++
    List.replicate 4 .loop

/-- With an empty playlist, the view that was left is the last one named. -/
theorem nothing_to_show_after_parked_view :
    ∃ (as : List Act) (s : Callers),
      (acts fun _ => false).run (start (fun _ => false) []) as = some s ∧
        (∀ l, .wake (.refresh l) ∉ as) ∧ s.Quiescent ∧
        ¬ Stream.Announced s.device := by
  exact ⟨visited, _, rfl, by simp [visited], ⟨rfl, returned_pair rfl, rfl⟩,
    by decide⟩

end Callers

end FamilyPlanner.Server

import FamilyPlanner.Session.Session

/-!
# End reports

A report that the content on stage has ended carries no view id: it is the
same `next` a user would send.  Whether it still concerns the current view is
a matter of what moved the cursor between the `navigate` that brought the view
on stage and the moment the report is applied.
-/

namespace FamilyPlanner

open FamilyPlanner.Foundation FamilyPlanner.Rotation FamilyPlanner.Server
open FamilyPlanner.Kiosk

namespace Session

def applying (s : Session) (i : Nat) : Option EndReport :=
  match s.calls[i]? with
  | some ⟨some r, .call .next _⟩ => some r
  | _ => none

/-- The view that ended is the current one when its report is applied. -/
def Justified (s : Session) : Act → Prop
  | .call i => ∀ r, s.applying i = some r →
      r.view = s.device.state.shown.map Item.viewID
  | _ => True

/--
The stage showed the view of the `navigate` handled last when the report was
sent, and since the loop read the current item for that `navigate` no `Next`,
`Prev` or `Goto` has run, and no `SetItems` has changed that item.
-/
def OnTime (s : Session) : Act → Prop
  | .call i => ∀ r, s.applying i = some r →
      ∃ v stamp, r.seen = some (v, stamp) ∧ r.view = some v ∧
        stamp = s.device.moves
  | _ => True

instance (s : Session) (a : Act) : Decidable (s.Justified a) :=
  match a with
  | .call i =>
      match happ : s.applying i with
      | none => .isTrue (by simp [Justified, happ])
      | some r =>
          decidable_of_iff (r.view = s.device.state.shown.map Item.viewID)
            (by simp [Justified, happ])
  | .wake _ | .loop | .press _ | .deliver | .input _ => .isTrue trivial

instance (s : Session) (a : Act) : Decidable (s.OnTime a) :=
  match a with
  | .call i =>
      match happ : s.applying i with
      | none => .isTrue (by simp [OnTime, happ])
      | some ⟨_, _, none⟩ => .isFalse (by simp [OnTime, happ])
      | some ⟨view, _, some (v, stamp)⟩ =>
          decidable_of_iff (stamp = s.device.moves ∧ view = some v)
            (by simp [OnTime, happ])
  | .wake _ | .loop | .press _ | .deliver | .input _ => .isTrue trivial

/-! ## What a stamp witnesses -/

def Witnessed (d : Device) (v : Int) (stamp : Nat) : Prop :=
  stamp ≤ d.moves ∧
    (stamp = d.moves → d.state.shown.map Item.viewID = some v)

theorem Witnessed.exec {d : Device} (hd : d.state.InRange) {v : Int}
    {stamp : Nat} (h : Witnessed d v stamp) (o : Op) :
    Witnessed (Device.exec o d).2 v stamp := by
  rcases Device.exec_moves o hd with hlt | ⟨hmoves, hshown⟩
  · have hle := h.1
    refine ⟨by omega, ?_⟩
    intro heq
    omega
  · rw [Witnessed, hmoves, hshown]
    exact h

def CommandOp : Op → Prop
  | .next | .prev | .goto _ | .setPaused _ | .signal => True
  | _ => False

theorem command_only (c : Command) :
    (Manager.command c).Only CommandOp fun _ _ => True := by
  cases c with
  | goto v =>
      exact ⟨trivial, fun _ _ => ⟨trivial, fun _ _ => ⟨trivial, fun _ _ => trivial⟩⟩⟩
  | _ => exact ⟨trivial, fun _ _ => ⟨trivial, fun _ _ => trivial⟩⟩

def ReadCurrent (d : Device) : Prop :=
  d.read.2 ≤ d.moves ∧ (d.read.2 = d.moves → d.state.shown = d.read.1)

theorem ReadCurrent.exec {d : Device} (hd : d.state.InRange)
    (h : ReadCurrent d) (o : Op) : ReadCurrent (Device.exec o d).2 := by
  by_cases hcur : o = .current
  · subst hcur
    refine ⟨Nat.le_refl _, ?_⟩
    intro _
    show d.state.current.2.shown = d.state.shown
    rw [hd.current_state]
  · rw [ReadCurrent, Device.exec_read d hcur]
    rcases Device.exec_moves o hd with hlt | ⟨hmoves, hshown⟩
    · have hle := h.1
      refine ⟨by omega, ?_⟩
      intro heq
      omega
    · rw [hmoves, hshown]
      exact h

structure Stamped (s : Session) : Prop where
  inRange : s.device.state.InRange
  read : ReadCurrent s.device
  loop : Stream.Announces s.device.read.1 s.loop
  wire : ∀ v stamp, (.navigate v, stamp) ∈ s.device.wire →
    Witnessed s.device v stamp
  seen : ∀ v stamp, s.seen = some (v, stamp) → Witnessed s.device v stamp
  calls : ∀ c ∈ s.calls, c.rest.Only CommandOp fun _ _ => True
  reports : ∀ c ∈ s.calls, ∀ r v stamp, c.report = some r →
    r.seen = some (v, stamp) → Witnessed s.device v stamp

variable {suspends : Int → Bool} {s s' : Session}

theorem stamped_start (items : List Item) (page : Page) :
    (start suspends items page).Stamped where
  inRange := State.inRange_new items
  read := ⟨Nat.zero_le 1, by simp [start]⟩
  loop := Stream.connect_announces _
  wire := by simp [start]
  seen := by simp [start]
  calls := by simp [start]
  reports := by simp [start]

theorem Stamped.loop_step {o : Op} {next : o.Res → Program Unit}
    (hs : s.Stamped) (hloop : s.loop = .call o next) :
    ({ s with
        device := (Device.exec o s.device).2
        loop := next (Device.exec o s.device).1 } : Session).Stamped := by
  have hannounces := hs.loop
  rw [hloop, Stream.Announces, Prog.tracks_call] at hannounces
  obtain ⟨hnames, hnext⟩ := hannounces
  refine ⟨Device.exec_inRange o hs.inRange, hs.read.exec hs.inRange o, ?_, ?_,
    fun v stamp h => (hs.seen v stamp h).exec hs.inRange o, hs.calls,
    fun c hc r v stamp hr h => (hs.reports c hc r v stamp hr h).exec hs.inRange o⟩
  · have hlatest : Stream.latest o (Device.exec o s.device).1 s.device.read.1 =
        (Device.exec o s.device).2.read.1 := by
      cases o <;> rfl
    exact hlatest ▸ hnext _
  · intro v stamp hmem
    by_cases hold : (.navigate v, stamp) ∈ s.device.wire
    · exact (hs.wire v stamp hold).exec hs.inRange o
    · -- the event is the one just sent
      cases o with
      | send e =>
          rcases List.mem_append.mp hmem with hmem | hmem
          · exact absurd hmem hold
          · simp only [List.mem_singleton, Prod.mk.injEq] at hmem
            obtain ⟨rfl, rfl⟩ := hmem
            refine ⟨hs.read.1, ?_⟩
            intro heq
            exact (congrArg _ (hs.read.2 heq)).trans (hnames v rfl)
      | _ => exact absurd hmem hold

theorem Stamped.call_step {i : Nat} {report : Option EndReport} {o : Op}
    {next : o.Res → Program Bool} {applied : List (Nat × Nat)} (hs : s.Stamped)
    (hcall : s.calls[i]? = some ⟨report, .call o next⟩) :
    ({ s with
        device := (Device.exec o s.device).2
        calls := s.calls.set i ⟨report, next (Device.exec o s.device).1⟩
        applied := applied } : Session).Stamped := by
  have hmem := List.mem_of_getElem? hcall
  obtain ⟨hop, hnext⟩ := hs.calls _ hmem
  have hread : (Device.exec o s.device).2.read = s.device.read :=
    Device.exec_read _ (by rintro rfl; exact hop)
  have hwire : (Device.exec o s.device).2.wire = s.device.wire :=
    Device.exec_wire _ (by rintro e rfl; exact hop)
  refine ⟨Device.exec_inRange o hs.inRange, hs.read.exec hs.inRange o, ?_, ?_,
    fun v stamp h => (hs.seen v stamp h).exec hs.inRange o, ?_, ?_⟩
  · show Stream.Announces (Device.exec o s.device).2.read.1 s.loop
    rw [hread]
    exact hs.loop
  · intro v stamp h
    exact (hs.wire v stamp (hwire ▸ h)).exec hs.inRange o
  · exact forall_resumed hs.calls i (hnext _ trivial)
  · have hreports (c) (hc : c ∈ s.calls) (r) (v) (stamp) (hr) (h) :=
      (hs.reports c hc r v stamp hr h).exec hs.inRange o
    exact forall_resumed hreports i fun r v stamp hr h => hreports _ hmem r v stamp hr h

theorem Stamped.deliver {e : Event} {stamp : Nat} {wire : List (Event × Nat)}
    (hs : s.Stamped) (hwire : s.device.wire = (e, stamp) :: wire) :
    ({ s with device := { s.device with wire := wire } }.handle stamp e).Stamped := by
  have hrest : ∀ v m, (.navigate v, m) ∈ wire → Witnessed s.device v m :=
    fun v m h => hs.wire v m (hwire ▸ List.mem_cons_of_mem _ h)
  have hbase : ({ s with device := { s.device with wire := wire } } :
      Session).Stamped :=
    ⟨hs.inRange, hs.read, hs.loop, hrest, hs.seen, hs.calls, hs.reports⟩
  cases e with
  | navigate v =>
      refine ⟨hs.inRange, hs.read, hs.loop, hrest, ?_, hs.calls, hs.reports⟩
      intro w m h
      cases h
      exact hs.wire v stamp (hwire ▸ List.mem_cons_self)
  | dwell secs =>
      exact ⟨hs.inRange, hs.read, hs.loop, hrest, hs.seen, hs.calls, hs.reports⟩
  | refresh data =>
      exact ⟨hs.inRange, hs.read, hs.loop, hrest, hs.seen, hs.calls, hs.reports⟩
  | _ => exact hbase

theorem Stamped.step {a : Act} (hs : s.Stamped)
    (h : s.step suspends a = some s') : s'.Stamped := by
  cases a with
  | wake w =>
      obtain ⟨notify, rfl⟩ := wake_cases h
      exact ⟨hs.inRange, hs.read, Stream.onWake_announces w _, hs.wire, hs.seen,
        hs.calls, hs.reports⟩
  | loop =>
      obtain ⟨o, next, hloop, rfl⟩ := loop_cases h
      exact hs.loop_step hloop
  | press c =>
      cases h
      refine ⟨hs.inRange, hs.read, hs.loop, hs.wire, hs.seen, ?_, ?_⟩
      · exact forall_started hs.calls (command_only c)
      · apply forall_started hs.reports
        intro r v stamp hr
        cases hr
  | call i =>
      obtain ⟨report, o, next, hcall, rfl⟩ := call_cases h
      exact hs.call_step hcall
  | deliver =>
      obtain ⟨e, stamp, wire, hwire, rfl⟩ := deliver_cases h
      exact hs.deliver hwire
  | input e =>
      obtain ⟨page, -, -, rfl⟩ := input_cases h
      refine ⟨hs.inRange, hs.read, hs.loop, hs.wire, hs.seen, ?_, ?_⟩
      · intro c hc
        rcases List.mem_append.mp hc with hc | hc
        · exact hs.calls c hc
        · rw [mem_reported hc]
          exact command_only .next
      · intro c hc r v stamp hr hseen
        rcases List.mem_append.mp hc with hc | hc
        · exact hs.reports c hc r v stamp hr hseen
        · rw [mem_reported hc] at hr
          cases hr
          exact hs.seen v stamp hseen

theorem mem_calls_of_applying {i : Nat} {r : EndReport}
    (h : s.applying i = some r) : ∃ c ∈ s.calls, c.report = some r := by
  unfold applying at h
  split at h
  · rename_i r' next hcall
    cases h
    exact ⟨_, List.mem_of_getElem? hcall, rfl⟩
  · contradiction

theorem Stamped.justified {a : Act} (hs : s.Stamped) (ha : s.OnTime a) :
    s.Justified a := by
  cases a with
  | call i =>
      intro r hr
      obtain ⟨v, stamp, hseen, hview, hstamp⟩ := ha r hr
      obtain ⟨c, hc, hreport⟩ := mem_calls_of_applying hr
      rw [hview, (hs.reports c hc r v stamp hreport hseen).2 hstamp]
  | _ => trivial

/--
In every run whose end reports are all on time, each of them is applied while
the view that ended is the current one.
-/
theorem justified_of_onTime {items : List Item} {page : Page} {as : List Act}
    (hontime : (session suspends).Along OnTime (start suspends items page) as) :
    (session suspends).Along Justified (start suspends items page) as :=
  System.Along.of_invariant (fun _ _ _ hs _ hstep => hs.step hstep)
    (fun _ _ hs ha => hs.justified ha) (stamped_start items page) hontime

private def videos : Session :=
  start (fun _ => true) [⟨1, 60 * second⟩, ⟨2, 60 * second⟩, ⟨3, 60 * second⟩]
    (Page.opened (some 1) ⟨true, 2, []⟩)

private def opening : List Act := List.replicate 11 .loop ++ [.deliver]

theorem justified_first_report :
    (session fun _ => true).Along Justified videos
      (opening ++ [.input .ended, .call 0, .call 0]) :=
  justified_of_onTime (by decide)

/-- The second video's report skips the view that answers the first. -/
theorem second_report_skips_a_view :
    ∃ s t, (session fun _ => true).run videos
        (opening ++ [.input .ended, .input .ended, .call 0, .call 0]) = some s ∧
      ¬ s.Justified (.call 1) ∧
      (session fun _ => true).run s [.call 1] = some t ∧
      s.device.state.shown.map Item.viewID = some 2 ∧
      t.device.state.shown.map Item.viewID = some 3 :=
  ⟨_, _, rfl, by decide, rfl, rfl, rfl⟩

end Session

end FamilyPlanner

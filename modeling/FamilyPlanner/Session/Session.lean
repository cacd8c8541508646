import FamilyPlanner.Kiosk.Page
import FamilyPlanner.Server.Stream

/-!
# One kiosk: stream, callers and page

A session is the life of one stream connection: the shared device state, what
the SSE loop and every control request still have to do, and the page with the
events on their way to it.  The loop and the callers take turns at the
granularity of the `State` methods; the page handles one event at a time.
-/

namespace FamilyPlanner

open FamilyPlanner.Foundation FamilyPlanner.Rotation FamilyPlanner.Server
open FamilyPlanner.Kiosk

namespace Session

/--
History of an end report, taken when the page sends it: the view on stage, the
number of the fragment that ended, and the `navigate` handled last.
-/
structure EndReport where
  view : Option Int
  load : Nat
  seen : Option (Int × Nat)
  deriving DecidableEq, Repr

/-- A control request; `report` is `none` for one a user made. -/
structure Call where
  report : Option EndReport
  rest : Program Bool

inductive Act where
  | wake (w : Wake)
  | loop
  | press (c : Command)
  | call (i : Nat)
  | deliver
  | input (e : Input)
  deriving DecidableEq, Repr

end Session

/--
`seen`, `applied` and `answered` are history: the `navigate` the page handled
last with the moment it was read for, the fragments whose end report has moved
the cursor with the moment after that, and the fragments for which the page
has handled a `navigate` read later.
-/
structure Session where
  device : Device
  loop : Program Unit
  calls : List Session.Call := []
  page : Page
  seen : Option (Int × Nat) := none
  applied : List (Nat × Nat) := []
  answered : List Nat := []

namespace Session

variable (suspends : Int → Bool)

def start (items : List Item) (page : Page) : Session :=
  { device := { state := State.new items }
    loop := Stream.connect suspends
    page := page }

def nextOp {α : Type} : Program α → Option Op
  | .ret _ => none
  | .call o _ => some o

def callOp (s : Session) (i : Nat) : Option Op :=
  s.calls[i]?.bind fun c => nextOp c.rest

def endReport (s : Session) : EndReport :=
  ⟨s.page.stage.view, s.page.stage.loads, s.seen⟩

def handle (s : Session) (stamp : Nat) : Event → Session
  | .navigate v =>
      { s with
        page := s.page.navigate v
        seen := some (v, stamp)
        answered := s.answered ++
          (s.applied.filter (·.2 ≤ stamp)).map Prod.fst }
  | .dwell secs => { s with page := { s.page with lastDwellSecs := secs } }
  | .refresh _ => { s with page := s.page.refresh }
  | _ => s

def reported (s : Session) : Input → List Call
  | .ended | .fallback => [⟨some s.endReport, Manager.command .next⟩]
  | _ => []

def isLocal : Input → Bool
  | .navigate _ | .dwell _ | .refresh => false
  | _ => true

def applies (report : Option EndReport) (o : Op) (moves : Nat) :
    List (Nat × Nat) :=
  match report, o with
  | some r, .next => [(r.load, moves)]
  | _, _ => []

def step (s : Session) : Act → Option Session
  | .wake w =>
      match s.loop with
      | .call _ _ => none
      | .ret _ =>
          if w = .notify then
            if s.device.notify then
              some { s with
                device := { s.device with notify := false }
                loop := Stream.onWake suspends w }
            else none
          else some { s with loop := Stream.onWake suspends w }
  | .loop =>
      match s.loop with
      | .ret _ => none
      | .call o next =>
          some { s with
            device := (Device.exec o s.device).2
            loop := next (Device.exec o s.device).1 }
  | .press c => some { s with calls := s.calls ++ [⟨none, Manager.command c⟩] }
  | .call i =>
      match s.calls[i]? with
      | some ⟨report, .call o next⟩ =>
          some { s with
            device := (Device.exec o s.device).2
            calls := s.calls.set i ⟨report, next (Device.exec o s.device).1⟩
            applied := s.applied ++
              applies report o (Device.exec o s.device).2.moves }
      | _ => none
  | .deliver =>
      match s.device.wire with
      | [] => none
      | (e, stamp) :: wire =>
          some ({ s with device := { s.device with wire := wire } }.handle stamp e)
  | .input e =>
      if isLocal e then
        (s.page.step e).map fun page =>
          { s with page := page, calls := s.calls ++ s.reported e }
      else none

end Session

def session (suspends : Int → Bool) : System Session Session.Act :=
  ⟨Session.step suspends⟩

/-! ## What a step can do -/

namespace Session

variable {suspends : Int → Bool} {s s' : Session}

theorem wake_cases {w : Wake} (h : s.step suspends (.wake w) = some s') :
    ∃ notify, s' = { s with
      device := { s.device with notify := notify }
      loop := Stream.onWake suspends w } := by
  simp only [step] at h
  split at h
  · contradiction
  · split at h
    · split at h
      · exact ⟨false, by cases h; rfl⟩
      · contradiction
    · exact ⟨s.device.notify, by cases h; rfl⟩

theorem loop_cases (h : s.step suspends .loop = some s') :
    ∃ o next, s.loop = .call o next ∧ s' = { s with
      device := (Device.exec o s.device).2
      loop := next (Device.exec o s.device).1 } := by
  simp only [step] at h
  split at h
  · contradiction
  · rename_i o next hloop
    exact ⟨o, next, hloop, by cases h; rfl⟩

theorem call_cases {i : Nat} (h : s.step suspends (.call i) = some s') :
    ∃ report o next, s.calls[i]? = some ⟨report, .call o next⟩ ∧
      s' = { s with
        device := (Device.exec o s.device).2
        calls := s.calls.set i ⟨report, next (Device.exec o s.device).1⟩
        applied := s.applied ++
          applies report o (Device.exec o s.device).2.moves } := by
  simp only [step] at h
  split at h
  · rename_i report o next hcall
    exact ⟨report, o, next, hcall, by cases h; rfl⟩
  · contradiction

theorem deliver_cases (h : s.step suspends .deliver = some s') :
    ∃ e stamp wire, s.device.wire = (e, stamp) :: wire ∧
      s' = { s with device := { s.device with wire := wire } }.handle stamp e := by
  simp only [step] at h
  split at h
  · contradiction
  · rename_i e stamp wire hwire
    exact ⟨e, stamp, wire, hwire, by cases h; rfl⟩

theorem input_cases {e : Input} (h : s.step suspends (.input e) = some s') :
    ∃ page, isLocal e = true ∧ s.page.step e = some page ∧
      s' = { s with page := page, calls := s.calls ++ s.reported e } := by
  simp only [step] at h
  split at h
  · rename_i hlocal
    simp only [Option.map_eq_some_iff] at h
    obtain ⟨page, hpage, rfl⟩ := h
    exact ⟨page, hlocal, hpage, rfl⟩
  · contradiction

theorem mem_reported {e : Input} {c : Call} (h : c ∈ s.reported e) :
    c = ⟨some s.endReport, Manager.command .next⟩ := by
  cases e <;> simp_all [reported]

@[simp] theorem handle_device (s : Session) (stamp : Nat) (e : Event) :
    (s.handle stamp e).device = s.device := by
  cases e <;> rfl

@[simp] theorem handle_loop (s : Session) (stamp : Nat) (e : Event) :
    (s.handle stamp e).loop = s.loop := by
  cases e <;> rfl

theorem step_state {a : Act} (h : s.step suspends a = some s') :
    (s'.device.state = s.device.state ∧ s'.device.moves = s.device.moves) ∨
      ∃ o, s'.device = (Device.exec o s.device).2 ∧
        ((a = .loop ∧ nextOp s.loop = some o) ∨
          ∃ i, a = .call i ∧ s.callOp i = some o) := by
  cases a with
  | wake w =>
      obtain ⟨notify, rfl⟩ := wake_cases h
      exact .inl ⟨rfl, rfl⟩
  | loop =>
      obtain ⟨o, next, hloop, rfl⟩ := loop_cases h
      exact .inr ⟨o, rfl, .inl ⟨rfl, by rw [hloop]; rfl⟩⟩
  | press c =>
      cases h
      exact .inl ⟨rfl, rfl⟩
  | call i =>
      obtain ⟨report, o, next, hcall, rfl⟩ := call_cases h
      exact .inr ⟨o, rfl, .inr ⟨i, rfl, by rw [callOp, hcall]; rfl⟩⟩
  | deliver =>
      obtain ⟨e, stamp, wire, -, rfl⟩ := deliver_cases h
      exact .inl ⟨by rw [handle_device], by rw [handle_device]⟩
  | input e =>
      obtain ⟨page, -, -, rfl⟩ := input_cases h
      exact .inl ⟨rfl, rfl⟩

theorem inRange_step {a : Act} (hs : s.device.state.InRange)
    (h : s.step suspends a = some s') : s'.device.state.InRange := by
  rcases step_state h with ⟨hstate, -⟩ | ⟨o, hdevice, -⟩
  · rw [hstate]
    exact hs
  · rw [hdevice]
    exact Device.exec_inRange o hs

theorem inRange_of_run {items : List Item} {page : Page} {as : List Act}
    {s : Session} (h : (session suspends).run (start suspends items page) as =
      some s) : s.device.state.InRange :=
  System.run_invariant (I := fun s : Session => s.device.state.InRange)
    (fun _ _ _ hs hstep => inRange_step hs hstep) (State.inRange_new items) h

end Session

end FamilyPlanner

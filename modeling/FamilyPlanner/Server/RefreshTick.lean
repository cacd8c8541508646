import FamilyPlanner.Server.Edits
import FamilyPlanner.Server.Playlists

/-!
# The refresh tick of an open stream

The tick resolves the playlists again, from the row of the device that the
request brought along when the stream was opened.  The playback state may be
moved by anyone in between, one method at a time, and the tables by any
sequence of statements.
-/

namespace FamilyPlanner.Server

open FamilyPlanner.Foundation FamilyPlanner.Rotation FamilyPlanner.Screen

/-- `dev` is the row that was read at connect, `pip` the payload pushed last. -/
structure Live (ω : Type) where
  tables : Tables ω
  dev : KioskDevice
  device : Device
  pip : List PipItem

namespace Live

variable {ω : Type}

/--
`screens` replaces views, widgets and placements, `play` is one operation of
the loop or of a caller, and `refresh` says which queries of `deviceItems` and
of `pipItems` fail.
-/
inductive Act (ω : Type) where
  | write (w : Write)
  | screens (r : Reads ω)
  | play (o : Op)
  | refresh (main pip : ReadFaults)

def connect (tables : Tables ω) (dev : KioskDevice) (main pip : ReadFaults) :
    Live ω where
  tables := tables
  dev := dev
  device := { state := State.new (deviceItems (tables.queries main) dev) }
  pip := pipItems (tables.queries pip) dev

def refresh (s : Live ω) (main pip : ReadFaults) : Live ω :=
  { s with
    device := Stream.serve (suspends s.tables.screen)
      (.refresh (deviceItems (s.tables.queries main) s.dev)) s.device
    pip := pipItems (s.tables.queries pip) s.dev }

def step (s : Live ω) : Act ω → Option (Live ω)
  | .write w => some { s with tables := s.tables.write w }
  | .screens r => some { s with tables := { s.tables with screen := r } }
  | .play (.setItems _) => none
  | .play o => some { s with device := (Device.exec o s.device).2 }
  | .refresh main pip => some (s.refresh main pip)

def acts : System (Live ω) (Act ω) := ⟨step⟩

variable {s s' : Live ω} {main pip : ReadFaults}

theorem refresh_state (s : Live ω) (main pip : ReadFaults) :
    (s.refresh main pip).device.state =
      s.device.state.setItems (deviceItems (s.tables.queries main) s.dev) :=
  @Stream.serve_refresh (suspends s.tables.screen) _ _

/-! ## The assignment of the device -/

/-- The stored row still assigns what the row read at connect did. -/
def Assigned (s : Live ω) : Prop :=
  ∀ row, s.tables.getDevice s.dev.id = some row →
    row.playlistID = s.dev.playlistID ∧ row.pipPlaylistID = s.dev.pipPlaylistID

def UpToDate (s : Live ω) (main pip : ReadFaults) : Prop :=
  ∀ row, s.tables.getDevice s.dev.id = some row →
    s.device.state.items = deviceItems (s.tables.queries main) row ∧
      s.pip = pipItems (s.tables.queries pip) row

def AssignedAtTick (s : Live ω) : Act ω → Prop
  | .refresh _ _ => s.Assigned
  | _ => True

def FollowsAtTick (s : Live ω) : Act ω → Prop
  | .refresh main pip => (s.refresh main pip).UpToDate main pip
  | _ => True

theorem deviceItems_congr {q : Queries ω} {dev row : KioskDevice}
    (h : row.playlistID = dev.playlistID) :
    deviceItems q row = deviceItems q dev := by
  simp only [deviceItems, resolvePlaylist, h]

theorem pipItems_congr {q : Queries ω} {dev row : KioskDevice}
    (h : row.pipPlaylistID = dev.pipPlaylistID) :
    pipItems q row = pipItems q dev := by
  simp only [pipItems, h]

theorem Assigned.upToDate (h : s.Assigned) (main pip : ReadFaults) :
    (s.refresh main pip).UpToDate main pip := by
  intro row hrow
  obtain ⟨hplaylist, hpip⟩ := h row hrow
  constructor
  · rw [refresh_state]
    exact (deviceItems_congr hplaylist).symm
  · exact (pipItems_congr hpip).symm

/--
An open stream follows playlists, items and views; it follows the assignment
of its device at every tick at which that is the one it was opened with.
-/
theorem follows_assignment (tables : Tables ω) (dev : KioskDevice)
    (main pip : ReadFaults) (es : List (Act ω))
    (h : acts.Along AssignedAtTick (connect tables dev main pip) es) :
    acts.Along FollowsAtTick (connect tables dev main pip) es := by
  apply h.mono
  intro s e hassigned
  cases e with
  | refresh main pip => exact Assigned.upToDate hassigned main pip
  | _ => trivial

/-- A statement that leaves the assignment of `dev` as it was at connect. -/
def KeepsAssignment (dev : KioskDevice) : Act ω → Prop
  | .write (.setDevicePlaylist playlistID id) =>
      id = dev.id → playlistID = dev.playlistID
  | .write (.setDevicePip pipPlaylistID _ id) =>
      id = dev.id → pipPlaylistID = dev.pipPlaylistID
  | _ => True

theorem getDevice_updateDevice (t : Tables ω) (id id' : Int)
    {f : KioskDevice → KioskDevice} (hf : ∀ d, (f d).id = d.id) :
    (t.updateDevice id f).getDevice id' =
      (t.getDevice id').map fun d => if d.id = id then f d else d := by
  simp only [Tables.updateDevice, Tables.getDevice]
  induction t.devices with
  | nil => rfl
  | cons d ds ih =>
      have hid : (if d.id = id then f d else d).id = d.id := by
        split
        · exact hf d
        · rfl
      rw [List.map_cons, List.find?_cons, List.find?_cons, hid]
      by_cases hfound : d.id = id'
      · simp [hfound]
      · simpa [hfound] using ih

theorem getDevice_id {t : Tables ω} {id : Int} {row : KioskDevice}
    (h : t.getDevice id = some row) : row.id = id := by
  simpa using List.find?_some h

theorem Assigned.write {w : Write} (h : s.Assigned)
    (hkeeps : KeepsAssignment s.dev (.write w : Act ω)) :
    Assigned { s with tables := s.tables.write w } := by
  intro row hrow
  cases w with
  | setDevicePlaylist playlistID id =>
      have hid : ∀ d : KioskDevice, { d with playlistID }.id = d.id := fun _ => rfl
      obtain ⟨old, hold, rfl⟩ := Option.map_eq_some_iff.mp
        (getDevice_updateDevice s.tables id s.dev.id hid ▸ hrow)
      split
      · rename_i hid
        exact ⟨hkeeps (hid ▸ getDevice_id hold), (h old hold).2⟩
      · exact h old hold
  | setDevicePip pipPlaylistID pipConfigJson id =>
      have hid : ∀ d : KioskDevice,
          { d with pipPlaylistID, pipConfigJson }.id = d.id := fun _ => rfl
      obtain ⟨old, hold, rfl⟩ := Option.map_eq_some_iff.mp
        (getDevice_updateDevice s.tables id s.dev.id hid ▸ hrow)
      split
      · rename_i hid
        exact ⟨(h old hold).1, hkeeps (hid ▸ getDevice_id hold)⟩
      · exact h old hold
  | addPlaylistItem playlistID viewID position dwellSeconds =>
      simp only [Tables.write] at hrow
      split at hrow
      · exact h row hrow
      · exact h row hrow
  | _ => exact h row hrow

theorem Assigned.step {dev : KioskDevice} {e : Act ω}
    (h : s.dev = dev ∧ s.Assigned) (hkeeps : KeepsAssignment dev e)
    (hstep : acts.step s e = some s') : s'.dev = dev ∧ s'.Assigned := by
  obtain ⟨rfl, hassigned⟩ := h
  cases e with
  | write w =>
      cases hstep
      exact ⟨rfl, hassigned.write hkeeps⟩
  | screens r =>
      cases hstep
      exact ⟨rfl, hassigned⟩
  | play o =>
      cases o <;> cases hstep <;> exact ⟨rfl, hassigned⟩
  | refresh main pip =>
      cases hstep
      exact ⟨rfl, hassigned⟩

theorem assignedAtTick_of_keeps {tables : Tables ω} {dev : KioskDevice}
    (hdev : tables.getDevice dev.id = some dev) (main pip : ReadFaults)
    {es : List (Act ω)}
    (h : acts.Along (fun _ => KeepsAssignment dev)
      (connect tables dev main pip) es) :
    acts.Along AssignedAtTick (connect tables dev main pip) es := by
  apply h.of_invariant (I := fun s => s.dev = dev ∧ s.Assigned)
  · intro s e s' hs hkeeps hstep
    exact Assigned.step hs hkeeps hstep
  · rintro s e ⟨-, hassigned⟩ -
    cases e with
    | refresh main pip => exact hassigned
    | _ => trivial
  · refine ⟨rfl, ?_⟩
    intro row hrow
    rw [connect, hdev] at hrow
    cases hrow
    exact ⟨rfl, rfl⟩

private def home : Tables Nat where
  devices := [⟨1, 1, 0, ""⟩]
  playlists := [⟨1, "day", 1, 60⟩, ⟨2, "night", 0, 60⟩]
  playlistItems := [⟨1, 1, 10, 0, 0⟩, ⟨2, 1, 11, 1, 0⟩, ⟨3, 2, 20, 0, 0⟩]
  playlistSeq := 2
  itemSeq := 3
  screen := ⟨fun _ => none, fun _ => none, fun _ => none⟩

theorem follows_playlist_edit :
    acts.Along FollowsAtTick (connect home ⟨1, 1, 0, ""⟩ {} {})
      [.write (.deletePlaylistItem 2), .refresh {} {}] := by
  apply follows_assignment
  refine ⟨trivial, ?_⟩
  rintro _ ⟨⟩
  refine ⟨?_, fun _ _ => System.along_nil _ _⟩
  rintro row ⟨⟩
  exact ⟨rfl, rfl⟩

/-- A new assignment reaches no stream that is already open. -/
theorem misses_assignment :
    ∃ (tables : Tables Nat) (dev : KioskDevice) (es : List (Act Nat)),
      tables.getDevice dev.id = some dev ∧
        ¬ acts.Along FollowsAtTick (connect tables dev {} {}) es := by
  refine ⟨home, ⟨1, 1, 0, ""⟩,
    [.write (.setDevicePlaylist 2 1), .write (.setDevicePip 0 "" 1),
      .refresh {} {}], rfl, ?_⟩
  intro h
  have hfollows := ((h.2 _ rfl).2 _ rfl).1
  exact absurd (hfollows ⟨1, 2, 0, ""⟩ rfl).1 (by decide)

/-! ## Queries that fail -/

def NeededReadFails (s : Live ω) (f : ReadFaults) : Prop :=
  let q := s.tables.queries f
  (s.dev.playlistID ≠ 0 ∧ q.getPlaylist s.dev.playlistID = .error .failed) ∨
  (q.getDefaultPlaylist = .error .failed ∧
    (s.dev.playlistID = 0 ∨ ∃ e, q.getPlaylist s.dev.playlistID = .error e)) ∨
  ∃ pl, resolvePlaylist q s.dev = some pl ∧
    q.listPlaylistItems pl.id = .error .failed

def LeftAlone (s : Live ω) (main pip : ReadFaults) : Prop :=
  (s.refresh main pip).device.state.items = s.device.state.items ∧
    (s.refresh main pip).device.state.index = s.device.state.index

/-- What plays is what a resolution without the assigned playlist finds. -/
def Spared (s : Live ω) (f : ReadFaults) : Prop :=
  match (if f.getDefaultPlaylist || f.listPlaylistItems then none
      else s.tables.getDefaultPlaylist) with
  | some pl =>
      s.device.state.items =
        (s.tables.listPlaylistItems pl.id).map (rotationItem pl)
  | none => s.device.state.items = []

def Settled (s : State) : Prop := s.InRange ∧ (s.items = [] → s.index = 0)

theorem settled_setItems (s : State) (l : List Item) : Settled (s.setItems l) := by
  refine ⟨State.inRange_setItems s l, ?_⟩
  rintro (rfl : l = [])
  simp [State.setItems]

theorem Settled.exec {d : Device} (h : Settled d.state) (o : Op) :
    Settled (Device.exec o d).2.state := by
  refine ⟨Device.exec_inRange o h.1, ?_⟩
  cases o with
  | setItems l => exact (settled_setItems d.state l).2
  | current =>
      show d.state.current.2.items = [] → d.state.current.2.index = 0
      rw [h.1.current_state]
      exact h.2
  | next =>
      intro (hnil : d.state.items = [])
      simp [Device.exec, Device.move, State.next, hnil, h.2 hnil]
  | prev =>
      intro (hnil : d.state.items = [])
      simp [Device.exec, Device.move, State.prev, hnil, h.2 hnil]
  | goto v =>
      simp only [Device.exec, Device.move, State.goto]
      split
      · rename_i i hi
        intro (hnil : d.state.items = [])
        simp [hnil] at hi
      · exact h.2
  | _ => exact h.2

theorem settled_step {e : Act ω} (h : Settled s.device.state)
    (hstep : acts.step s e = some s') : Settled s'.device.state := by
  cases e with
  | write w =>
      cases hstep
      exact h
  | screens r =>
      cases hstep
      exact h
  | play o => cases o <;> cases hstep <;> exact h.exec _
  | refresh main pip =>
      cases hstep
      rw [refresh_state]
      exact settled_setItems _ _

theorem settled_of_run {tables : Tables ω} {dev : KioskDevice} {es : List (Act ω)}
    (hrun : acts.run (connect tables dev main pip) es = some s) :
    Settled s.device.state := by
  apply System.run_invariant (I := fun s => Settled s.device.state)
    (fun _ _ _ hs hstep => settled_step hs hstep) _ hrun
  refine ⟨State.inRange_new _, ?_⟩
  intro _
  rfl

theorem setItems_eq_iff {st : State} (h : Settled st) (l : List Item) :
    (st.setItems l).items = st.items ∧ (st.setItems l).index = st.index ↔
      st.items = l := by
  constructor
  · rintro ⟨hitems, -⟩
    exact hitems.symm
  · rintro rfl
    refine ⟨rfl, ?_⟩
    by_cases hnil : st.items = []
    · simp [State.setItems, hnil, h.2 hnil]
    · rw [State.setItems_self (h.1 hnil)]

@[simp] theorem answer_true {α : Type} (row : Option α) :
    Tables.answer true row = .error .failed := rfl

@[simp] theorem answer_none {α : Type} :
    Tables.answer false (none : Option α) = .error .noRows := rfl

@[simp] theorem answer_some {α : Type} (a : α) :
    Tables.answer false (some a) = .ok a := rfl

/-- Without the assigned playlist the resolution ends at the default one. -/
theorem resolvePlaylist_of_unread {t : Tables ω} {f : ReadFaults} {dev : KioskDevice}
    (h : dev.playlistID = 0 ∨ ∃ e, (t.queries f).getPlaylist dev.playlistID = .error e) :
    resolvePlaylist (t.queries f) dev =
      if f.getDefaultPlaylist then none else t.getDefaultPlaylist := by
  have hread : resolvePlaylist (t.queries f) dev =
      resolvePlaylist (t.queries f) { dev with playlistID := 0 } := by
    rcases h with hzero | ⟨e, he⟩
    · simp only [resolvePlaylist, hzero]
    · simp only [resolvePlaylist, he, ite_self, ne_eq, not_true_eq_false, if_false]
  rw [hread]
  simp only [resolvePlaylist, Tables.queries, ne_eq, not_true_eq_false, if_false]
  cases f.getDefaultPlaylist with
  | true => rfl
  | false => cases t.getDefaultPlaylist <;> rfl

theorem deviceItems_of_fails {f : ReadFaults} (h : s.NeededReadFails f) :
    deviceItems (s.tables.queries f) s.dev =
      match (if f.getDefaultPlaylist || f.listPlaylistItems then none
          else s.tables.getDefaultPlaylist) with
      | some pl => (s.tables.listPlaylistItems pl.id).map (rotationItem pl)
      | none => [] := by
  obtain ⟨getPlaylist, getDefaultPlaylist, listPlaylistItems⟩ := f
  cases listPlaylistItems with
  | true =>
      simp only [deviceItems, Tables.queries, answer_true, Bool.or_true, if_true]
      split <;> rfl
  | false =>
      -- the items can be read, so the playlist could not
      have hunread : s.dev.playlistID = 0 ∨
          ∃ e, (s.tables.queries ⟨getPlaylist, getDefaultPlaylist, false⟩).getPlaylist
            s.dev.playlistID = .error e := by
        rcases h with ⟨-, hfails⟩ | ⟨-, hunread⟩ | ⟨pl, -, hfails⟩
        · exact .inr ⟨_, hfails⟩
        · exact hunread
        · simp [Tables.queries] at hfails
      rw [deviceItems, resolvePlaylist_of_unread hunread]
      cases getDefaultPlaylist with
      | true => rfl
      | false => cases s.tables.getDefaultPlaylist <;> rfl

/--
A tick that misses a query it needs leaves playback alone exactly if what plays
is what such a tick falls back on.
-/
theorem leftAlone_iff {tables : Tables ω} {dev : KioskDevice}
    {main₀ pip₀ : ReadFaults} {es : List (Act ω)}
    (hrun : acts.run (connect tables dev main₀ pip₀) es = some s)
    (main pip : ReadFaults) (hfails : s.NeededReadFails main) :
    s.LeftAlone main pip ↔ s.Spared main := by
  have hsettled := settled_of_run hrun
  rw [LeftAlone, refresh_state, setItems_eq_iff hsettled,
    deviceItems_of_fails hfails, Spared]
  split <;> rfl

theorem leftAlone_on_default_playlist :
    LeftAlone (connect home ⟨1, 1, 0, ""⟩ {} {}) { getPlaylist := true } {} :=
  (leftAlone_iff (System.run_nil _) _ {} (.inl ⟨by decide, rfl⟩)).mpr rfl

/-- At the second item of a device, a failed read takes playback back to nothing,
and the next tick starts again at the first item. -/
theorem failed_read_restarts_rotation :
    ∃ s : Live Nat,
      acts.run (connect home ⟨1, 1, 0, ""⟩ {} {}) [.play .next] = some s ∧
        s.NeededReadFails { listPlaylistItems := true } ∧
        ¬ s.LeftAlone { listPlaylistItems := true } {} ∧
        s.device.state.index = 1 ∧
        ((s.refresh { listPlaylistItems := true } {}).refresh {} {}).device.state.index =
          0 := by
  refine ⟨_, rfl, .inr (.inr ⟨_, rfl, rfl⟩), ?_, rfl, by decide⟩
  rintro ⟨hitems, -⟩
  exact absurd hitems (by decide)

end Live

end FamilyPlanner.Server

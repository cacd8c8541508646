import FamilyPlanner.Foundation.Run
import FamilyPlanner.Rotation.Manager
import Mathlib.Data.Nat.Find
import Mathlib.Logic.Function.Basic

/-!
# The live streams of all devices

`Registry` is the `Manager` of the server: the map from a device to the
connection that commands reach.  A second stream of a device takes over the
slot, and a release empties the slot only if it still holds its own connection.
Connections are pointers in the source; here they are positions in the list of
all connections made so far.
-/

namespace FamilyPlanner.Rotation

open FamilyPlanner.Foundation

/-- `deviceID` is what `release` has captured; `released` says it was called. -/
structure Conn where
  deviceID : Int
  device : Device
  released : Bool := false
  deriving DecidableEq, Repr

structure Registry where
  devices : Int → Option Nat
  conns : List Conn

namespace Registry

def new : Registry := ⟨fun _ => none, []⟩

def connect (m : Registry) (deviceID : Int) (items : List Item) : Registry where
  devices := Function.update m.devices deviceID (some m.conns.length)
  conns := m.conns ++ [{ deviceID, device := { state := State.new items } }]

def release (m : Registry) (k : Nat) : Option Registry :=
  match m.conns[k]? with
  | none => none
  | some c =>
      if c.released then none
      else
        some
          { devices :=
              if m.devices c.deviceID = some k then
                Function.update m.devices c.deviceID none
              else m.devices
            conns := m.conns.set k { c with released := true } }

def lookup (m : Registry) (deviceID : Int) : Option Nat := m.devices deviceID

def command (m : Registry) (deviceID : Int) (cmd : Command) : Bool × Registry :=
  match m.lookup deviceID with
  | none => (false, m)
  | some k =>
      match m.conns[k]? with
      | none => (false, m)
      | some c =>
          let (done, device) := (Manager.command cmd).alone Device.exec c.device
          (done, { m with conns := m.conns.set k { c with device } })

inductive Call where
  | connect (deviceID : Int) (items : List Item)
  | release (k : Nat)
  | command (deviceID : Int) (cmd : Command)
  deriving DecidableEq, Repr

def step (m : Registry) : Call → Option Registry
  | .connect deviceID items => some (m.connect deviceID items)
  | .release k => m.release k
  | .command deviceID cmd => some (m.command deviceID cmd).2

def calls : System Registry Call := ⟨step⟩

/-! ## Open streams -/

def Stream (m : Registry) (deviceID : Int) (k : Nat) : Prop :=
  ∃ c ∈ m.conns[k]?, c.deviceID = deviceID

def Open (m : Registry) (deviceID : Int) (k : Nat) : Prop :=
  ∃ c ∈ m.conns[k]?, c.deviceID = deviceID ∧ c.released = false

def NewestOpen (m : Registry) (deviceID : Int) (k : Nat) : Prop :=
  m.Open deviceID k ∧ ∀ j, m.Open deviceID j → j ≤ k

/-- The most recently connected stream of all, and it has not been released. -/
def LastOpen (m : Registry) (deviceID : Int) (k : Nat) : Prop :=
  m.Open deviceID k ∧ ∀ j, m.Stream deviceID j → j ≤ k

/-- `next` goes to the newest open stream, and nowhere if none is open. -/
def Reaches (m : Registry) (deviceID : Int) : Prop :=
  (∀ k c, m.NewestOpen deviceID k → m.conns[k]? = some c →
    (m.command deviceID .next).1 = true ∧
      ∃ c', (m.command deviceID .next).2.conns = m.conns.set k c' ∧
        c'.device.state = c.device.state.next) ∧
  ((∀ k, ¬ m.Open deviceID k) → (m.command deviceID .next).1 = false)

/-- The slot of a device holds its last stream, as long as that one is open. -/
def Slots (m : Registry) : Prop :=
  ∀ deviceID k, m.devices deviceID = some k ↔ m.LastOpen deviceID k

variable {m m' : Registry} {deviceID : Int} {k j : Nat}

theorem Open.stream (h : m.Open deviceID k) : m.Stream deviceID k := by
  obtain ⟨c, hc, hdevice, -⟩ := h
  exact ⟨c, hc, hdevice⟩

theorem Stream.lt_length (h : m.Stream deviceID k) : k < m.conns.length := by
  obtain ⟨c, hc, -⟩ := h
  exact (List.getElem?_eq_some_iff.mp hc).1

theorem slots_new : new.Slots := by
  intro deviceID k
  simp [new, LastOpen, Open]

/-! ## A connection -/

theorem stream_connect {d : Int} {items : List Item} :
    (m.connect d items).Stream deviceID j ↔
      m.Stream deviceID j ∨ j = m.conns.length ∧ d = deviceID := by
  simp only [Stream, connect, List.getElem?_append, List.getElem?_singleton]
  rcases Nat.lt_trichotomy j m.conns.length with hlt | heq | hgt
  · simp [hlt, Nat.ne_of_lt hlt]
  · simp [heq]
  · have hout : j - m.conns.length ≠ 0 := by omega
    have hlt : ¬ j < m.conns.length := by omega
    have hne : j ≠ m.conns.length := by omega
    simp [hlt, hout, hne]

theorem open_connect {d : Int} {items : List Item} :
    (m.connect d items).Open deviceID j ↔
      m.Open deviceID j ∨ j = m.conns.length ∧ d = deviceID := by
  simp only [Open, connect, List.getElem?_append, List.getElem?_singleton]
  rcases Nat.lt_trichotomy j m.conns.length with hlt | heq | hgt
  · simp [hlt, Nat.ne_of_lt hlt]
  · simp [heq]
  · have hout : j - m.conns.length ≠ 0 := by omega
    have hlt : ¬ j < m.conns.length := by omega
    have hne : j ≠ m.conns.length := by omega
    simp [hlt, hout, hne]

theorem Slots.connect (hm : m.Slots) (d : Int) (items : List Item) :
    (m.connect d items).Slots := by
  intro deviceID k
  simp only [LastOpen, stream_connect, open_connect]
  by_cases hd : deviceID = d
  · subst hd
    have hslot : (m.connect deviceID items).devices deviceID =
        some m.conns.length := by
      simp [Registry.connect]
    rw [hslot]
    constructor
    · intro h
      cases h
      refine ⟨.inr ⟨rfl, rfl⟩, ?_⟩
      rintro j (hj | ⟨rfl, -⟩)
      · exact Nat.le_of_lt hj.lt_length
      · exact Nat.le_refl _
    · rintro ⟨hopen | ⟨rfl, -⟩, hlast⟩
      · have hlt := hopen.stream.lt_length
        have hle := hlast m.conns.length (.inr ⟨rfl, rfl⟩)
        omega
      · rfl
  · have hslot : (m.connect d items).devices deviceID = m.devices deviceID := by
      simp [Registry.connect, hd]
    have hne : d ≠ deviceID := fun h => hd h.symm
    rw [hslot, hm deviceID k]
    simp [LastOpen, hne]

/-! ## A release -/

theorem stream_set {c c' : Conn} (hc : m.conns[k]? = some c)
    (hconns : m'.conns = m.conns.set k c') (hdevice : c'.deviceID = c.deviceID) :
    m'.Stream deviceID j ↔ m.Stream deviceID j := by
  have hlt : k < m.conns.length := (List.getElem?_eq_some_iff.mp hc).1
  simp only [Stream, hconns, List.getElem?_set]
  by_cases hj : k = j
  · subst hj
    rw [if_pos rfl, if_pos hlt, hc]
    simp [hdevice]
  · simp [hj]

theorem open_set_self {c c' : Conn} (hc : m.conns[k]? = some c)
    (hconns : m'.conns = m.conns.set k c') :
    m'.Open deviceID k ↔ c'.deviceID = deviceID ∧ c'.released = false := by
  have hlt : k < m.conns.length := (List.getElem?_eq_some_iff.mp hc).1
  simp [Open, hconns, hlt]

theorem open_set_of_ne {c' : Conn} (hconns : m'.conns = m.conns.set k c')
    (hj : j ≠ k) : m'.Open deviceID j ↔ m.Open deviceID j := by
  simp [Open, hconns, Ne.symm hj]

theorem release_cases (h : m.release k = some m') :
    ∃ c, m.conns[k]? = some c ∧ c.released = false ∧
      m'.conns = m.conns.set k { c with released := true } ∧
      m'.devices =
        if m.devices c.deviceID = some k then
          Function.update m.devices c.deviceID none
        else m.devices := by
  unfold release at h
  cases hc : m.conns[k]? with
  | none => simp [hc] at h
  | some c =>
      simp only [hc] at h
      split at h
      · cases h
      · rename_i hopen
        cases h
        exact ⟨c, rfl, by simpa using hopen, rfl, rfl⟩

theorem stream_release (h : m.release k = some m') :
    m'.Stream deviceID j ↔ m.Stream deviceID j := by
  obtain ⟨c, hc, -, hconns, -⟩ := release_cases h
  apply stream_set hc hconns
  rfl

theorem open_release (h : m.release k = some m') :
    m'.Open deviceID j ↔ m.Open deviceID j ∧ j ≠ k := by
  obtain ⟨c, hc, -, hconns, -⟩ := release_cases h
  by_cases hj : j = k
  · subst hj
    rw [open_set_self hc hconns]
    simp
  · rw [open_set_of_ne hconns hj]
    simp [hj]

theorem lastOpen_release (h : m.release k = some m') :
    m'.LastOpen deviceID j ↔ m.LastOpen deviceID j ∧ j ≠ k := by
  simp only [LastOpen, stream_release h, open_release h]
  constructor
  · rintro ⟨⟨hopen, hne⟩, hlast⟩
    exact ⟨⟨hopen, hlast⟩, hne⟩
  · rintro ⟨⟨hopen, hlast⟩, hne⟩
    exact ⟨⟨hopen, hne⟩, hlast⟩

theorem Slots.release (hm : m.Slots) (h : m.release k = some m') : m'.Slots := by
  intro deviceID j
  rw [lastOpen_release h, ← hm deviceID j]
  obtain ⟨c, hc, -, -, hdevices⟩ := release_cases h
  -- the slots of the other devices do not hold `k`
  have hother : m.devices deviceID = some k → deviceID = c.deviceID := by
    intro hslot
    obtain ⟨c', hc', hdevice, -⟩ := ((hm deviceID k).mp hslot).1
    rw [← hdevice, Option.mem_unique hc hc']
  rw [hdevices]
  split
  · rename_i hown
    by_cases hd : deviceID = c.deviceID
    · subst hd
      simp only [Function.update_self, hown, reduceCtorEq, false_iff,
        Option.some.injEq]
      rintro ⟨heq, hne⟩
      exact hne heq.symm
    · rw [Function.update_of_ne hd]
      constructor
      · intro hslot
        refine ⟨hslot, ?_⟩
        rintro rfl
        exact hd (hother hslot)
      · exact And.left
  · rename_i hown
    constructor
    · intro hslot
      refine ⟨hslot, ?_⟩
      rintro rfl
      apply hown
      rw [← hother hslot]
      exact hslot
    · exact And.left

/-! ## A command -/

theorem command_of_lookup {c : Conn} (cmd : Command)
    (hslot : m.devices deviceID = some k) (hc : m.conns[k]? = some c) :
    (m.command deviceID cmd).1 = true ∧
      (m.command deviceID cmd).2.devices = m.devices ∧
      (m.command deviceID cmd).2.conns =
        m.conns.set k
          { c with
            device := ((Manager.command cmd).alone Device.exec c.device).2 } := by
  cases cmd <;> simp [command, lookup, hslot, hc, Manager.command]

theorem command_of_empty (cmd : Command) (hslot : m.devices deviceID = none) :
    m.command deviceID cmd = (false, m) := by
  simp [command, lookup, hslot]

theorem Slots.command (hm : m.Slots) (d : Int) (cmd : Command) :
    (m.command d cmd).2.Slots := by
  cases hslot : m.devices d with
  | none =>
      rw [command_of_empty cmd hslot]
      exact hm
  | some k =>
      obtain ⟨c, hc, -⟩ := ((hm d k).mp hslot).1
      obtain ⟨-, hdevices, hconns⟩ := command_of_lookup cmd hslot hc
      intro deviceID j
      have hopen : ∀ i, (m.command d cmd).2.Open deviceID i ↔ m.Open deviceID i := by
        intro i
        by_cases hi : i = k
        · subst hi
          rw [open_set_self hc hconns]
          simp [Open, Option.mem_def.mp hc]
        · exact open_set_of_ne hconns hi
      rw [hdevices, hm deviceID j]
      simp only [LastOpen, hopen, stream_set hc hconns rfl]

theorem Slots.step {call : Call} (hm : m.Slots) (h : calls.step m call = some m') :
    m'.Slots := by
  cases call with
  | connect d items =>
      cases h
      exact hm.connect d items
  | release k => exact hm.release h
  | command d cmd =>
      cases h
      exact hm.command d cmd

theorem slots_of_run {es : List Call} (hrun : calls.run new es = some m) :
    m.Slots :=
  System.run_invariant (I := Slots) (fun _ _ _ hm h => hm.step h) slots_new hrun

/-! ## Where a command goes -/

theorem exists_newestOpen (h : m.Open deviceID j) :
    ∃ k, m.NewestOpen deviceID k := by
  classical
  have hbound : ∀ i, m.Open deviceID i → i ≤ m.conns.length :=
    fun i hi => Nat.le_of_lt hi.stream.lt_length
  refine ⟨Nat.findGreatest (m.Open deviceID) m.conns.length, ?_, ?_⟩
  · exact Nat.findGreatest_spec (hbound j h) h
  · intro i hi
    exact Nat.le_findGreatest (hbound i hi) hi

/--
A `next` reaches the newest open stream of a device exactly as long as the
stream connected last is itself open, or none is open.
-/
theorem reaches_iff {es : List Call} (hrun : calls.run new es = some m)
    (deviceID : Int) :
    m.Reaches deviceID ↔
      ∀ j, m.Open deviceID j → ∃ k, m.LastOpen deviceID k := by
  have hslots := slots_of_run hrun
  constructor
  · rintro ⟨hnewest, -⟩ j hj
    obtain ⟨k, hk⟩ := exists_newestOpen hj
    obtain ⟨c, hc, -⟩ := id hk.1
    obtain ⟨hdone, -⟩ := hnewest k c hk hc
    cases hslot : m.devices deviceID with
    | none => simp [command_of_empty _ hslot] at hdone
    | some i => exact ⟨i, (hslots deviceID i).mp hslot⟩
  · intro hlast
    constructor
    · intro k c hk hc
      obtain ⟨i, hi⟩ := hlast k hk.1
      have heq : i = k := by
        have hle := hk.2 i hi.1
        have hge := hi.2 k hk.1.stream
        omega
      subst heq
      obtain ⟨hdone, -, hconns⟩ :=
        command_of_lookup .next ((hslots deviceID i).mpr hi) hc
      exact ⟨hdone, _, hconns, rfl⟩
    · intro hnone
      cases hslot : m.devices deviceID with
      | none => simp [command_of_empty _ hslot]
      | some i => exact absurd ((hslots deviceID i).mp hslot).1 (hnone i)

theorem reaches_after_older_release :
    ∃ m, calls.run new [.connect 7 [], .connect 7 [], .release 0] = some m ∧
      m.Reaches 7 := by
  obtain ⟨m, hrun⟩ : ∃ m,
      calls.run new [.connect 7 [], .connect 7 [], .release 0] = some m := ⟨_, rfl⟩
  refine ⟨m, hrun, (reaches_iff hrun 7).mpr ?_⟩
  cases hrun
  intro j _
  refine ⟨1, ⟨_, rfl, rfl, rfl⟩, ?_⟩
  intro i hi
  exact Nat.le_of_lt_succ hi.lt_length

/-- The newer of two streams is released; commands go nowhere. -/
theorem lost_after_newer_release :
    ∃ m, calls.run new [.connect 7 [], .connect 7 [], .release 1] = some m ∧
      m.NewestOpen 7 0 ∧ ¬ m.Reaches 7 := by
  have hnewest : ∀ m, calls.run new [.connect 7 [], .connect 7 [], .release 1] =
      some m → m.NewestOpen 7 0 := by
    rintro m ⟨⟩
    refine ⟨⟨_, rfl, rfl, rfl⟩, ?_⟩
    intro j hj
    have hlt := hj.stream.lt_length
    match j, hj, hlt with
    | 0, _, _ => exact Nat.le_refl 0
    | 1, hj, _ =>
        obtain ⟨c, hc, -, hopen⟩ := hj
        cases hc
        cases hopen
  refine ⟨_, rfl, hnewest _ rfl, ?_⟩
  rintro ⟨hreaches, -⟩
  exact absurd (hreaches 0 _ (hnewest _ rfl) rfl).1 (by decide)

/-! ## The flag of a device -/

section Paused

variable {dev : Int}

/-- `State.Paused` of the stream that commands reach; none without a stream. -/
def paused (m : Registry) (dev : Int) : Option Bool :=
  (m.lookup dev).bind fun k => m.conns[k]?.map (·.device.state.paused)

theorem paused_of_slot {k : Nat} {c : Conn} (hslot : m.devices dev = some k)
    (hc : m.conns[k]? = some c) : m.paused dev = some c.device.state.paused := by
  simp [paused, lookup, hslot, hc]

theorem paused_of_empty (hslot : m.devices dev = none) : m.paused dev = none := by
  simp [paused, lookup, hslot]

theorem Slots.conn {k : Nat} (hm : m.Slots) (hslot : m.devices dev = some k) :
    ∃ c, m.conns[k]? = some c ∧ c.deviceID = dev := by
  obtain ⟨c, hc, hdevice, -⟩ := ((hm dev k).mp hslot).1
  exact ⟨c, hc, hdevice⟩

theorem Slots.paused_connect (hm : m.Slots) (d : Int) (items : List Item) :
    (m.connect d items).paused dev = if d = dev then some false else m.paused dev := by
  by_cases hd : d = dev
  · subst hd
    rw [if_pos rfl]
    have hslot : (m.connect d items).devices d = some m.conns.length := by
      simp [Registry.connect]
    have hc : (m.connect d items).conns[m.conns.length]? =
        some { deviceID := d, device := { state := State.new items } } := by
      simp [Registry.connect]
    exact paused_of_slot hslot hc
  · rw [if_neg hd]
    have hslots : (m.connect d items).devices dev = m.devices dev := by
      simp [Registry.connect, Ne.symm hd]
    cases hslot : m.devices dev with
    | none => rw [paused_of_empty hslot, paused_of_empty (hslots.trans hslot)]
    | some k =>
        obtain ⟨c, hc, -⟩ := hm.conn hslot
        have hlt : k < m.conns.length := (List.getElem?_eq_some_iff.mp hc).1
        rw [paused_of_slot hslot hc]
        apply paused_of_slot (hslots.trans hslot)
        rw [Registry.connect, List.getElem?_append_left hlt, hc]

theorem paused_release {k : Nat} (h : m.release k = some m') :
    m'.paused dev = m.paused dev ∨ m'.paused dev = none := by
  obtain ⟨c, hc, -, hconns, hdevices⟩ := release_cases h
  have hstates : ∀ j : Nat, m'.conns[j]?.map (·.device.state.paused) =
      m.conns[j]?.map (·.device.state.paused) := by
    intro j
    rw [hconns, List.getElem?_set]
    split
    · rename_i hj
      subst hj
      split
      · simp [hc]
      · simp_all
    · rfl
  unfold paused lookup
  simp only [hstates, hdevices]
  split
  · by_cases hd : dev = c.deviceID
    · right
      simp [hd]
    · left
      rw [Function.update_of_ne hd]
  · exact .inl rfl

theorem Slots.paused_command (hm : m.Slots) (d : Int) (cmd : Command) :
    (m.command d cmd).2.paused dev =
      if d = dev then (m.paused dev).map cmd.sets.getD else m.paused dev := by
  cases hslot : m.devices d with
  | none =>
      rw [command_of_empty cmd hslot]
      split
      · rename_i hd
        rw [← hd, paused_of_empty hslot]
        rfl
      · rfl
  | some k =>
      obtain ⟨c, hc, hdevice⟩ := hm.conn hslot
      obtain ⟨-, hdevices, hconns⟩ := command_of_lookup cmd hslot hc
      have hlt : k < m.conns.length := (List.getElem?_eq_some_iff.mp hc).1
      by_cases hd : d = dev
      · subst hd
        rw [if_pos rfl, paused_of_slot hslot hc]
        rw [paused_of_slot (by rw [hdevices, hslot]) (by rw [hconns, List.getElem?_set_self hlt])]
        rw [Manager.command_paused]
        rfl
      · rw [if_neg hd]
        unfold paused lookup
        rw [hdevices, hconns]
        cases hother : m.devices dev with
        | none => rfl
        | some j =>
            obtain ⟨c', hc', hdevice'⟩ := hm.conn hother
            have hne : k ≠ j := by
              rintro rfl
              rw [hc] at hc'
              cases hc'
              exact hd (hdevice.symm.trans hdevice')
            simp [List.getElem?_set_ne hne]

end Paused

end Registry

end FamilyPlanner.Rotation

import FamilyPlanner.Rotation.Manager

/-!
# The SSE loop of a kiosk

`handleKioskStream` as a program of atomic operations on the device it is
connected to.  `onWake` is the body of its `select` statement; what a case
reads from the store comes with the wake-up.  A failed write returns from the
handler, which ends the run of the connection, so sends succeed here.
-/

namespace FamilyPlanner.Server

open FamilyPlanner.Foundation FamilyPlanner.Rotation

/--
The cases of the `select`: `refresh` carries the result of `deviceItems`,
`chime` whether the beat is announced and the result of `announceClockView`.
-/
inductive Wake where
  | notify
  | cmd (name : String)
  | refresh (items : List Item)
  | advance
  | chime (decided : Bool) (clock : Option Int)
  deriving DecidableEq, Repr

namespace Stream

def seconds (d : Duration) : Int := d.tdiv second

def sends : List Event → Program Unit → Program Unit
  | [], rest => rest
  | e :: es, rest => .call (.send e) fun _ => sends es rest

def displayDwell : Program Duration :=
  .call .current fun (it : Option Item) =>
    match it with
    | some it => .ret (if 0 < it.dwell then it.dwell else 30 * second)
    | none => .ret (30 * second)

/--
`suspends` says of a view that it advances on end and has an end-capable
widget; such a view only gets the safety cap of half an hour.
-/
def dwell (suspends : Int → Bool) : Program Duration :=
  .call .current fun (it : Option Item) =>
    match it with
    | none => .ret (30 * second)
    | some it => if suspends it.viewID then .ret (1800 * second) else displayDwell

def sendCurrent : Program Unit :=
  .call .current fun (it : Option Item) =>
    match it with
    | none => sends [.refresh "empty"] (.ret ())
    | some it =>
        .call (.send (.navigate it.viewID)) fun _ =>
        .call .isPaused fun (paused : Bool) =>
          if paused then sends [.dwell 0] (.ret ())
          else displayDwell >>= fun d => sends [.dwell (seconds d)] (.ret ())

variable (suspends : Int → Bool)

def resetAdvance : Program Unit :=
  dwell suspends >>= fun d => .call (.reset d) fun _ => .ret ()

def showCurrent : Program Unit := sendCurrent >>= fun _ => resetAdvance suspends

def connect : Program Unit :=
  sendCurrent >>= fun _ =>
    sends [.config, .names, .pip, .version] (resetAdvance suspends)

def onWake : Wake → Program Unit
  | .notify => showCurrent suspends
  | .cmd name => sends [.cmd name] (.ret ())
  | .refresh items =>
      .call (.setItems items) fun _ =>
        sends [.refresh "tick", .config, .names, .pip] (.ret ())
  | .advance =>
      .call .isPaused fun (paused : Bool) =>
        if paused then showCurrent suspends
        else .call .next fun _ => showCurrent suspends
  | .chime decided clock =>
      if decided then
        .call (.send .chime) fun _ =>
        .call .isPaused fun (paused : Bool) =>
          if paused then .ret ()
          else
            match clock with
            | none => .ret ()
            | some vid =>
                .call .current fun (cur : Option Item) =>
                  if cur.map Item.viewID = some vid then .ret ()
                  else .call (.goto vid) fun _ => showCurrent suspends
      else .ret ()

/-! ## Announcing changes nothing -/

def Looks : Op → Prop
  | .current | .isPaused | .send _ | .reset _ => True
  | _ => False

variable {suspends} {R : (o : Op) → o.Res → Prop}

theorem sends_only {Q : Op → Prop} {R : (o : Op) → o.Res → Prop}
    (hsend : ∀ e, Q (.send e)) {rest : Program Unit} (hrest : rest.Only Q R)
    (es : List Event) : (sends es rest).Only Q R := by
  induction es with
  | nil => exact hrest
  | cons e es ih => exact ⟨hsend e, fun _ _ => ih⟩

theorem displayDwell_looks : displayDwell.Only Looks R := by
  refine ⟨trivial, ?_⟩
  intro it _
  cases it <;> trivial

theorem dwell_looks : (dwell suspends).Only Looks R := by
  refine ⟨trivial, ?_⟩
  intro it _
  cases it with
  | none => trivial
  | some it =>
      simp only
      split
      · trivial
      · exact displayDwell_looks

theorem sendCurrent_looks : sendCurrent.Only Looks R := by
  refine ⟨trivial, ?_⟩
  intro it _
  cases it with
  | none => exact sends_only (fun _ => trivial) (Prog.only_ret ()) _
  | some it =>
      refine ⟨trivial, fun _ _ => ⟨trivial, ?_⟩⟩
      intro paused _
      cases paused with
      | true => exact sends_only (fun _ => trivial) (Prog.only_ret ()) _
      | false =>
          apply displayDwell_looks.bind
          intro d
          exact sends_only (fun _ => trivial) (Prog.only_ret ()) _

theorem resetAdvance_looks : (resetAdvance suspends).Only Looks R :=
  dwell_looks.bind fun _ => ⟨trivial, fun _ _ => trivial⟩

theorem showCurrent_looks : (showCurrent suspends).Only Looks R :=
  sendCurrent_looks.bind fun _ => resetAdvance_looks

theorem connect_looks : (connect suspends).Only Looks R :=
  sendCurrent_looks.bind fun _ =>
    sends_only (fun _ => trivial) resetAdvance_looks _

/-- No other items than `l` are put into the state. -/
def Puts (l : List Item) (o : Op) : Prop := ∀ l', o = .setItems l' → l' = l

theorem puts_of_ne {l : List Item} {o : Op} (h : ∀ l', o ≠ .setItems l') :
    Puts l o :=
  fun l' hl' => absurd hl' (h l')

theorem onWake_puts {l : List Item} (w : Wake) (hw : ∀ l', w = .refresh l' → l' = l) :
    (onWake suspends w).Only (Puts l) R := by
  have hlooks : ∀ o, Looks o → Puts l o := by
    rintro o ho l' rfl
    exact ho.elim
  have hshow : (showCurrent suspends).Only (Puts l) R :=
    showCurrent_looks.mono hlooks fun _ _ h => h
  have hsends : ∀ es, (sends es (.ret ())).Only (Puts l) R :=
    sends_only (fun _ => puts_of_ne (by simp)) (Prog.only_ret ())
  cases w with
  | notify => exact hshow
  | cmd name => exact hsends _
  | refresh items =>
      refine ⟨?_, fun _ _ => hsends _⟩
      rintro l' ⟨⟩
      exact hw items rfl
  | advance =>
      refine ⟨puts_of_ne (by simp), ?_⟩
      intro paused _
      cases paused with
      | true => exact hshow
      | false => exact ⟨puts_of_ne (by simp), fun _ _ => hshow⟩
  | chime decided clock =>
      cases decided with
      | false => trivial
      | true =>
          refine ⟨puts_of_ne (by simp), fun _ _ => ⟨puts_of_ne (by simp), ?_⟩⟩
          intro paused _
          cases paused with
          | true => trivial
          | false =>
              cases clock with
              | none => trivial
              | some vid =>
                  refine ⟨puts_of_ne (by simp), ?_⟩
                  intro cur _
                  simp only
                  split
                  · trivial
                  · exact ⟨puts_of_ne (by simp), fun _ _ => hshow⟩

theorem connect_puts (l : List Item) : (connect suspends).Only (Puts l) R := by
  apply connect_looks.mono _ (fun _ _ h => h)
  rintro o ho l' rfl
  exact ho.elim

/-! ## The loop does not move a paused device -/

def Steady : Op → Prop
  | .next | .prev | .goto _ | .setPaused _ | .signal => False
  | _ => True

def PausedRead : (o : Op) → o.Res → Prop
  | .isPaused, paused => paused = true
  | _, _ => True

theorem steady_of_looks {α : Type} {p : Program α} (h : p.Only Looks PausedRead) :
    p.Only Steady PausedRead := by
  apply h.mono _ (fun _ _ h => h)
  intro o ho
  cases o <;> trivial

theorem showCurrent_steady : (showCurrent suspends).Only Steady PausedRead :=
  steady_of_looks showCurrent_looks

/-- As long as every test of the pause flag finds it set, no case of the
`select` moves the cursor. -/
theorem onWake_steady (w : Wake) :
    (onWake suspends w).Only Steady PausedRead := by
  cases w with
  | notify => exact showCurrent_steady
  | cmd name => exact sends_only (fun _ => trivial) (Prog.only_ret ()) _
  | refresh items =>
      exact ⟨trivial, fun _ _ => sends_only (fun _ => trivial) (Prog.only_ret ()) _⟩
  | advance =>
      refine ⟨trivial, ?_⟩
      intro paused hpaused
      have hpaused : paused = true := hpaused
      subst hpaused
      exact showCurrent_steady
  | chime decided clock =>
      cases decided with
      | false => trivial
      | true =>
          refine ⟨trivial, fun _ _ => ⟨trivial, ?_⟩⟩
          intro paused hpaused
          have hpaused : paused = true := hpaused
          subst hpaused
          trivial

theorem pausedRead_exec (o : Op) {d : Device} (hd : d.state.paused = true) :
    PausedRead o (Device.exec o d).1 := by
  cases o <;> first | exact hd | trivial

theorem steady_exec {o : Op} {next : o.Res → Program Unit} {d : Device}
    (hrange : d.state.InRange) (hpaused : d.state.paused = true)
    (hsteady : (Prog.call o next : Program Unit).Only Steady PausedRead)
    (hitems : ∀ l, o = .setItems l → (d.state.setItems l).shown = d.state.shown) :
    (Device.exec o d).2.state.paused = true ∧
      (next (Device.exec o d).1).Only Steady PausedRead ∧
      (Device.exec o d).2.state.shown = d.state.shown := by
  obtain ⟨ho, hnext⟩ := hsteady
  refine ⟨?_, ?_, ?_⟩
  · rw [Device.exec_paused, hpaused]
    rintro p rfl
    exact ho
  · exact hnext _ (pausedRead_exec o hpaused)
  · by_cases hmoves : o.Moves
    · cases o with
      | setItems l => exact hitems l rfl
      | next => exact ho.elim
      | prev => exact ho.elim
      | goto v => exact ho.elim
      | _ => exact hmoves.elim
    · exact Device.exec_shown_of_not hrange hmoves

/-! ## The loop announces what it has read -/

def latest : (o : Op) → o.Res → Option Item → Option Item
  | .current, it, _ => it
  | _, _, it => it

def Names (it : Option Item) (o : Op) : Prop :=
  ∀ v, o = .send (.navigate v) → it.map Item.viewID = some v

abbrev Announces (it : Option Item) (p : Program Unit) : Prop :=
  p.Tracks latest Names it

theorem names_of_ne {it : Option Item} {o : Op}
    (h : ∀ v, o ≠ .send (.navigate v)) : Names it o :=
  fun v hv => absurd hv (h v)

theorem sends_announces {es : List Event} {rest : Program Unit}
    (hes : ∀ v, .navigate v ∉ es) (hrest : ∀ it, Announces it rest)
    (it : Option Item) : Announces it (sends es rest) := by
  induction es with
  | nil => exact hrest it
  | cons e es ih =>
      refine ⟨?_, fun _ => ih fun v hv => hes v (List.mem_cons_of_mem _ hv)⟩
      intro v hv
      cases hv
      exact absurd List.mem_cons_self (hes v)

theorem displayDwell_tracks (it : Option Item) :
    displayDwell.Tracks latest Names it := by
  refine ⟨names_of_ne (by simp), ?_⟩
  intro it'
  cases it' <;> trivial

theorem resetAdvance_announces (it : Option Item) :
    Announces it (resetAdvance suspends) := by
  refine Prog.Tracks.bind (p := dwell suspends) ?_ ?_
  · refine ⟨names_of_ne (by simp), ?_⟩
    intro it'
    cases it' with
    | none => trivial
    | some it' =>
        simp only
        split
        · trivial
        · exact displayDwell_tracks _
  · intro it' d
    exact ⟨names_of_ne (by simp), fun _ => trivial⟩

theorem sendCurrent_announces (it : Option Item) : Announces it sendCurrent := by
  refine ⟨names_of_ne (by simp), ?_⟩
  intro it'
  cases it' with
  | none => exact sends_announces (by simp) (fun _ => Prog.tracks_ret _ ()) _
  | some it' =>
      refine ⟨?_, fun _ => ⟨names_of_ne (by simp), ?_⟩⟩
      · intro v hv
        cases hv
        rfl
      · intro paused
        cases paused with
        | true => exact sends_announces (by simp) (fun _ => Prog.tracks_ret _ ()) _
        | false =>
            apply Prog.Tracks.bind (displayDwell_tracks _)
            intro it'' d
            exact sends_announces (by simp) (fun _ => Prog.tracks_ret _ ()) _

theorem showCurrent_announces (it : Option Item) :
    Announces it (showCurrent suspends) :=
  (sendCurrent_announces it).bind fun it' _ => resetAdvance_announces it'

theorem connect_announces (it : Option Item) :
    Announces it (connect suspends) :=
  (sendCurrent_announces it).bind fun it' _ =>
    sends_announces (by simp) resetAdvance_announces it'

/-- Every `navigate` the loop sends names the item of its latest `Current()`. -/
theorem onWake_announces (w : Wake) (it : Option Item) :
    Announces it (onWake suspends w) := by
  cases w with
  | notify => exact showCurrent_announces it
  | cmd name => exact sends_announces (by simp) (fun _ => Prog.tracks_ret _ ()) it
  | refresh items =>
      refine ⟨names_of_ne (by simp), fun _ => ?_⟩
      exact sends_announces (by simp) (fun _ => Prog.tracks_ret _ ()) _
  | advance =>
      refine ⟨names_of_ne (by simp), ?_⟩
      intro paused
      cases paused with
      | true => exact showCurrent_announces _
      | false =>
          exact ⟨names_of_ne (by simp), fun _ => showCurrent_announces _⟩
  | chime decided clock =>
      cases decided with
      | false => trivial
      | true =>
          refine ⟨names_of_ne (by simp), fun _ => ⟨names_of_ne (by simp), ?_⟩⟩
          intro paused
          cases paused with
          | true => trivial
          | false =>
              cases clock with
              | none => trivial
              | some vid =>
                  refine ⟨names_of_ne (by simp), ?_⟩
                  intro cur
                  show Announces _ (if _ then _ else _)
                  split
                  · trivial
                  · exact ⟨names_of_ne (by simp),
                      fun _ => showCurrent_announces _⟩

end Stream

end FamilyPlanner.Server

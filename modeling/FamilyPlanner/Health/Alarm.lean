import FamilyPlanner.Health.Assess
import FamilyPlanner.Server.Reconnect

/-!
# The reconnect alarm

The broker writes `health` and the OAuth callback `oauth_status`; the badge and the
pill both read the two columns.
-/

namespace FamilyPlanner.Health

open FamilyPlanner.Foundation FamilyPlanner.Widget FamilyPlanner.Broker FamilyPlanner.Server

variable {P D : Type}

/-- `settled` is history: the token of a reconnect has been stored, and no refresh of
the source has failed since. -/
structure Alarm (P D : Type) where
  conn : Connection P D
  settled : Bool := false

namespace Alarm

/-- The health that a thread records for the source in its next call. -/
def recording (id : Int) : Program P D Unit → Option String
  | .call (.updateDataSourceHealth _ _ health id') _ => if id' = id then some health else none
  | _ => none

def reconnects (id : Int) (s : Connection P D) : Connection.Act P D → Bool
  | .call i env =>
      match s.threads[i]? with
      | some ⟨.call c _, note, _⟩ => Connection.replaces env id s.world c && !note.presented
      | _ => false
  | _ => false

/-- After the call that has led to `s`, a refresh of the source has failed. -/
def failed (id : Int) (s : Connection P D) : Connection.Act P D → Bool
  | .call i _ =>
      match s.threads[i]? with
      | some th => (recording id th.rest).any (· ≠ "ok")
      | none => false
  | _ => false

def step (b : Broker P D) (id : Int) (s : Alarm P D) (a : Connection.Act P D) :
    Option (Alarm P D) :=
  (Connection.step b id s.conn a).map fun conn =>
    ⟨conn, (reconnects id s.conn a || s.settled) && !failed id conn a⟩

def acts (b : Broker P D) (id : Int) : System (Alarm P D) (Connection.Act P D) := ⟨step b id⟩

def start (b : Broker P D) (id : Int) (store : Store D) : Alarm P D :=
  { conn := Connection.connected b id store }

/-- When a reconnect stores its token, the source does not count as one to reconnect,
and no refresh has found that out without having recorded it yet. -/
def Calm (id : Int) (s : Alarm P D) (a : Connection.Act P D) : Prop :=
  reconnects id s.conn a = true →
    (∀ ds ∈ s.conn.world.store.dataSources id, ds.health ≠ "reconnect") ∧
      ∀ th ∈ s.conn.threads, recording id th.rest ≠ some "reconnect"

instance (id : Int) (s : Alarm P D) (a : Connection.Act P D) : Decidable (Calm id s a) :=
  inferInstanceAs (Decidable (_ → _))

/-! ## What a call writes -/

theorem write_dataSource {w : World D} {fault : Bool} {id id' : Int}
    {f : DataSource → DataSource} {ds : DataSource}
    (h : (w.write fault fun s => s.updateDataSource id' f).store.dataSources id = some ds) :
    w.store.dataSources id = some ds ∨
      id' = id ∧ ∃ old, w.store.dataSources id = some old ∧ f old = ds := by
  rw [World.write_store] at h
  split at h
  · exact Or.inl h
  · by_cases hid : id' = id
    · subst hid
      simp only [Store.updateDataSource, Function.update_self] at h
      exact Or.inr ⟨rfl, Option.map_eq_some_iff.mp h⟩
    · simp only [Store.updateDataSource, Function.update_of_ne (Ne.symm hid)] at h
      exact Or.inl h

structure Changes (id : Int) (c : Call P D) (old ds : DataSource) : Prop where
  health : ds.health = old.health ∨
    ∃ expiry msg, c = .updateDataSourceHealth expiry msg ds.health id
  oauthStatus : ds.oauthStatus = old.oauthStatus ∨
    ∃ cipher, c = .updateDataSourceSecret cipher ds.oauthStatus id

theorem exec_dataSource {env : Env P D} {c : Call P D} {w : World D} {id : Int}
    {ds : DataSource} (h : (env.exec c w).2.store.dataSources id = some ds) :
    ∃ old, w.store.dataSources id = some old ∧ Changes id c old ds := by
  have hsame (h : w.store.dataSources id = some ds) :
      ∃ old, w.store.dataSources id = some old ∧ Changes id c old ds :=
    ⟨ds, h, Or.inl rfl, Or.inl rfl⟩
  cases c with
  | updateDataSourceSecret cipher status id' =>
      rcases write_dataSource h with h | ⟨rfl, old, hold, rfl⟩
      · exact hsame h
      · exact ⟨old, hold, Or.inl rfl, Or.inr ⟨cipher, rfl⟩⟩
  | updateDataSourceHealth expiry msg health id' =>
      rcases write_dataSource h with h | ⟨rfl, old, hold, rfl⟩
      · exact hsame h
      · exact ⟨old, hold, Or.inr ⟨expiry, msg, rfl⟩, Or.inl rfl⟩
  | markDataSourceSynced id' =>
      rcases write_dataSource h with h | ⟨rfl, old, hold, rfl⟩
      · exact hsame h
      · exact ⟨old, hold, Or.inl rfl, Or.inl rfl⟩
  | markWidgetCacheStale | upsertWidgetCache =>
      simp only [Env.exec, World.write_store] at h
      split at h
      · exact hsame h
      · exact hsame h
  | listWidgetSources | getSetting | getWidgetCache | freshToken | fetch | now => exact hsame h

theorem exec_oauthStatus {env : Env P D} {c : Call P D} {w : World D} {id : Int}
    (hc : Connection.replaces env id w c = true) {ds : DataSource}
    (h : (env.exec c w).2.store.dataSources id = some ds) :
    ∃ cipher, c = .updateDataSourceSecret cipher ds.oauthStatus id := by
  cases c with
  | updateDataSourceSecret cipher status id' =>
      simp only [Connection.replaces, Bool.and_eq_true, decide_eq_true_eq,
        Bool.not_eq_true'] at hc
      obtain ⟨⟨rfl, hfault⟩, -⟩ := hc
      simp only [Env.exec, World.write_store, hfault, Bool.false_eq_true, if_false,
        Store.updateDataSource, Function.update_self] at h
      obtain ⟨old, -, rfl⟩ := Option.map_eq_some_iff.mp h
      exact ⟨cipher, rfl⟩
  | _ => cases hc

/-! ## What a thread can still do -/

def Connects : Call P D → Prop
  | .updateDataSourceSecret _ oauthStatus _ => oauthStatus = "connected"
  | _ => True

abbrev Connecting {α : Type} (p : Program P D α) : Prop := p.Only Connects fun _ _ => True

theorem connecting_refreshWidget (b : Broker P D) (wgt : WidgetRow) :
    Connecting (b.refreshWidget wgt) := by
  have hobtain : Connecting (b.obtain wgt) := by
    apply Prog.Only.mono (obtaining_obtain b wgt) _ fun _ _ h => h
    intro c hc
    cases c with
    | updateDataSourceSecret => exact hc
    | _ => trivial
  apply hobtain.bind
  intro r
  cases r with
  | error msg => exact only_markErr trivial trivial trivial fun _ => trivial
  | ok fetched => exact ⟨trivial, fun _ _ => ⟨trivial, fun _ _ => Prog.only_ret ()⟩⟩

theorem connecting_storeToken (b : Broker P D) (id : Int) (tok : Token) :
    Connecting (storeToken b id tok) := by
  unfold storeToken
  cases b.sealSecret (.token tok) with
  | none => exact Prog.only_ret ()
  | some cipher => exact ⟨rfl, fun _ _ => Prog.only_ret ()⟩

theorem connecting_freshAccessToken (b : Broker P D) (id : Int) (ds : DataSource) :
    Connecting (freshAccessToken b id ds) := by
  unfold freshAccessToken
  cases tokenFromSecret b ds.secretCiphertext with
  | none => exact Prog.only_ret none
  | some tok =>
      refine ⟨trivial, ?_⟩
      intro r _
      cases r with
      | error e => exact Prog.only_ret none
      | ok fresh =>
          apply Prog.Only.bind _ fun _ => Prog.only_ret _
          split
          · exact connecting_storeToken b id fresh
          · exact Prog.only_ret ()

theorem recording_refreshWidget (b : Broker P D) (id : Int) (wgt : WidgetRow) :
    recording id (b.refreshWidget wgt) = none := by
  unfold refreshWidget obtain
  cases b.typ wgt.type with
  | none => rfl
  | some newProvider => rfl

theorem recording_storeToken (b : Broker P D) (id : Int) (tok : Token) :
    recording id (storeToken b id tok) = none := by
  unfold storeToken
  cases b.sealSecret (.token tok) with
  | none => rfl
  | some cipher => rfl

theorem recording_accessToken (b : Broker P D) (id : Int) (ds : DataSource) :
    recording id (freshAccessToken b id ds >>= fun _ => .ret ()) = none := by
  unfold freshAccessToken
  cases tokenFromSecret b ds.secretCiphertext with
  | none => rfl
  | some tok => rfl

/-! ## The invariant -/

/-- `quiet`: the columns do not report the source, and no thread is about to. -/
structure Cleared (id : Int) (s : Alarm P D) : Prop where
  connects : ∀ th ∈ s.conn.threads, Connecting th.rest
  columns : s.settled = true → ∀ ds ∈ s.conn.world.store.dataSources id,
    ds.health ≠ "reconnect" ∧ ds.oauthStatus = "connected"
  quiet : s.settled = true → ∀ th ∈ s.conn.threads, recording id th.rest ≠ some "reconnect"

variable {b : Broker P D} {id : Int} {s s' : Alarm P D}

theorem Cleared.thread (hs : s.Cleared id) {th : Thread P D} (hconnects : Connecting th.rest)
    (hrecording : recording id th.rest = none) :
    Cleared id ⟨{ s.conn with threads := s.conn.threads ++ [th] }, s.settled⟩ := by
  refine ⟨forall_started hs.connects hconnects, hs.columns, ?_⟩
  intro hsettled
  apply forall_started (hs.quiet hsettled)
  simp [hrecording]

theorem recording_of_not_failed {i : Nat} (env : Env P D) (conn : Connection P D)
    {th th' : Thread P D} (hthread : conn.threads[i]? = some th')
    (hfailed : failed id { conn with threads := conn.threads.set i th } (.call i env) = false) :
    recording id th.rest ≠ some "reconnect" := by
  have hlt : i < conn.threads.length := (List.getElem?_eq_some_iff.mp hthread).1
  simp only [failed, List.getElem?_set_self hlt] at hfailed
  intro hrecording
  simp [hrecording] at hfailed

theorem health_of_exec {env : Env P D} {c : Call P D} {next : Call.Res c → Program P D Unit}
    {w : World D} {ds : DataSource}
    (hcolumn : ∀ ds ∈ w.store.dataSources id, ds.health ≠ "reconnect")
    (hquiet : recording id (.call c next) ≠ some "reconnect")
    (hds : (env.exec c w).2.store.dataSources id = some ds) : ds.health ≠ "reconnect" := by
  obtain ⟨old, hold, hhealth, -⟩ := exec_dataSource hds
  rcases hhealth with hhealth | ⟨expiry, msg, rfl⟩
  · rw [hhealth]
    exact hcolumn old hold
  · intro hreconnect
    apply hquiet
    simp [recording, hreconnect]

theorem status_of_stored {c : Call P D} {next : Call.Res c → Program P D Unit}
    {status : String} (hconnects : Connecting (.call c next))
    (h : ∃ cipher, c = .updateDataSourceSecret cipher status id) : status = "connected" := by
  obtain ⟨cipher, rfl⟩ := h
  exact hconnects.1

theorem Cleared.call {i : Nat} {env : Env P D} (hs : s.Cleared id)
    (hcalm : Calm id s (.call i env)) {c : Call P D} {next : Call.Res c → Program P D Unit}
    {note : Note} {seen : Nat} (hthread : s.conn.threads[i]? = some ⟨.call c next, note, seen⟩)
    {conn : Connection P D} (hworld : conn.world = (env.exec c s.conn.world).2)
    (hthreads : conn.threads =
      s.conn.threads.set i (Connection.proceed env s.conn c next note seen)) :
    Cleared id ⟨conn, (reconnects id s.conn (.call i env) || s.settled) &&
      !failed id conn (.call i env)⟩ := by
  have hmem := List.mem_of_getElem? hthread
  have hconnects := hs.connects _ hmem
  have hbefore (h : (reconnects id s.conn (.call i env) || s.settled) = true) :
      (∀ ds ∈ s.conn.world.store.dataSources id, ds.health ≠ "reconnect") ∧
        ∀ th ∈ s.conn.threads, recording id th.rest ≠ some "reconnect" := by
    rcases (Bool.or_eq_true _ _).mp h with hreconnects | hsettled
    · exact hcalm hreconnects
    · exact ⟨fun ds hds => (hs.columns hsettled ds hds).1, hs.quiet hsettled⟩
  refine ⟨?_, ?_, ?_⟩
  · rw [hthreads]
    exact forall_resumed hs.connects i (hconnects.2 _ trivial)
  · intro h ds hds
    obtain ⟨hdone, -⟩ := (Bool.and_eq_true _ _).mp h
    obtain ⟨hcolumn, hquiet⟩ := hbefore hdone
    rw [hworld] at hds
    refine ⟨health_of_exec hcolumn (hquiet _ hmem) hds, ?_⟩
    rcases (Bool.or_eq_true _ _).mp hdone with hreconnects | hsettled
    · simp only [reconnects, hthread, Bool.and_eq_true] at hreconnects
      exact status_of_stored hconnects (exec_oauthStatus hreconnects.1 hds)
    · obtain ⟨old, hold, -, hstatus⟩ := exec_dataSource hds
      rcases hstatus with hstatus | hwritten
      · rw [hstatus]
        exact (hs.columns hsettled old hold).2
      · exact status_of_stored hconnects hwritten
  · intro h
    obtain ⟨hdone, hfailed⟩ := (Bool.and_eq_true _ _).mp h
    rw [Bool.not_eq_true'] at hfailed
    rw [hthreads]
    apply forall_resumed (hbefore hdone).2
    apply recording_of_not_failed env s.conn hthread
    rw [← hfailed]
    simp only [failed, hthreads]

theorem Cleared.step {a : Connection.Act P D} (hs : s.Cleared id) (hcalm : Calm id s a)
    (h : (acts b id).step s a = some s') : s'.Cleared id := by
  obtain ⟨conn, hconn, rfl⟩ := Option.map_eq_some_iff.mp h
  cases a with
  | refreshWidget wgt =>
      cases hconn
      simp only [reconnects, failed, Bool.false_or, Bool.not_false, Bool.and_true]
      exact hs.thread (connecting_refreshWidget b wgt) (recording_refreshWidget b id wgt)
  | accessToken =>
      obtain ⟨ds, -, rfl⟩ := Option.map_eq_some_iff.mp hconn
      simp only [reconnects, failed, Bool.false_or, Bool.not_false, Bool.and_true]
      apply hs.thread _ (recording_accessToken b id ds)
      exact (connecting_freshAccessToken b id ds).bind fun _ => Prog.only_ret ()
  | callback tok =>
      cases hconn
      simp only [reconnects, failed, Bool.false_or, Bool.not_false, Bool.and_true]
      exact hs.thread (connecting_storeToken b id tok) (recording_storeToken b id tok)
  | call i env =>
      obtain ⟨c, next, note, seen, hthread, rfl⟩ := Connection.call_cases (b := b) hconn
      exact hs.call hcalm hthread rfl rfl

/-! ## The two classifiers -/

theorem kind_of_column {src : Source} {i : Issue} (hhealth : src.health ≠ "reconnect")
    (hstatus : src.oauthStatus = "connected") (h : src.issue = some i) : i.kind ≠ .reconnect := by
  unfold Source.issue at h
  simp only [hhealth, hstatus, ne_eq, not_true_eq_false, false_and, or_self, if_false] at h
  split at h
  · split at h
    · cases h
      simp
    · cases h
  · cases h

/-- The reconnect issues of a summary, up to their order, without those of a source that has
none. -/
theorem assess_perm_of_kind {src : Source} (h : ∀ i, src.issue = some i → i.kind ≠ .reconnect)
    (before after : List Source) (widgets : List Widget) (now : Int) (old : Duration) :
    ((assess (before ++ src :: after) widgets now old).issues.filter
        (·.kind = .reconnect)).Perm
      ((assess (before ++ after) widgets now old).issues.filter (·.kind = .reconnect)) := by
  simp only [assess]
  refine ((List.perm_insertionSort _ _).filter _).trans
    (List.Perm.trans ?_ ((List.perm_insertionSort _ _).filter _).symm)
  cases hsrc : src.issue with
  | none => simp [hsrc]
  | some i =>
      have hkind := h i hsrc
      simp [hsrc, hkind]

/--
In every run of refreshes and reconnects of a source, from the store of a reconnect's
token to the next refresh that fails, the source adds no reconnect issue to the badge and
its pill does not ask for a reconnect, if at each such store the source did not count
as one to reconnect and no refresh was about to record it as one.
-/
theorem quiet_after_reconnect {store : Store D} {es : List (Connection.Act P D)}
    (hrun : (acts b id).run (start b id store) es = some s)
    (hcalm : (acts b id).Along (Calm id) (start b id store) es) (hsettled : s.settled = true)
    {ds : DataSource} (hds : s.conn.world.store.dataSources id = some ds) :
    (∀ name before after widgets now,
      ((buildHealth (some (before ++ (name, ds) :: after)) widgets now).issues.filter
          (·.kind = .reconnect)).Perm
        ((buildHealth (some (before ++ after)) widgets now).issues.filter
          (·.kind = .reconnect))) ∧
      dsHealthDisplay ds ds.type.known ≠ ("error", "Opnieuw verbinden") := by
  have hs : s.Cleared id := by
    apply System.run_invariant_along (I := Cleared id) _ _ hcalm hrun
    · intro s a s' hs hc h
      exact hs.step hc h
    · exact ⟨by simp [start, Connection.connected], by simp [start], by simp [start]⟩
  obtain ⟨hhealth, hstatus⟩ := hs.columns hsettled ds hds
  constructor
  · intro name before after widgets now
    simp only [buildHealth, Option.getD_some, List.map_append, List.map_cons]
    apply assess_perm_of_kind
    intro i hi
    exact kind_of_column hhealth hstatus hi
  · unfold dsHealthDisplay
    simp only [hhealth, hstatus, ne_eq, not_true_eq_false, or_self, if_false]
    split
    · split
      · simp
      · simp
    · split
      · simp
      · split
        · simp
        · simp

/-! ## A token that was revoked -/

private def old : Token := ⟨"old", "", some 0⟩

private def granted : Token := ⟨"granted", "", some 3600⟩

private def vault : Broker Unit Unit where
  typ := fun _ => some fun _ _ => .ok ()
  marshalError := fun _ => none
  openSecret := fun cipher =>
    if cipher = "sealed-old" then some (.token old)
    else if cipher = "sealed-granted" then some (.token granted)
    else none
  sealSecret := fun secret => if secret = .token granted then some "sealed-granted" else none

private def tasks : Store Unit where
  widgetCache := fun _ => none
  dataSources := fun _ => some
    { type := .msTodo, config := {}, secretCiphertext := "sealed-old"
      oauthStatus := "connected", accessExpiry := none, lastSync := none
      lastError := "", health := "", refreshIntervalSecs := 0 }
  widgetSources := [⟨1, 1, "", "", ""⟩]
  settings := fun _ => none

private def provider : Env Unit Unit where
  now := 0
  dbNow := fun _ => 0
  fetch := fun _ => .ok (some (), 0)
  freshToken := fun _ _ tok =>
    if tok = old then .error ⟨some "invalid_grant", "invalid_grant"⟩ else .ok tok
  faults := {}

/-- A source that was never connected: both classifiers ask for it. -/
private def unconnected : Store Unit :=
  { tasks with
    dataSources := fun id => (tasks.dataSources id).map fun ds => { ds with oauthStatus := "" } }

theorem quiet_after_reconnect_vault :
    (∀ ds, unconnected.dataSources 1 = some ds →
      (buildHealth (some [("Tasks", ds)]) (some []) 0).issues =
        [⟨.error, .reconnect, "Tasks", "Tasks: opnieuw verbinden"⟩] ∧
      dsHealthDisplay ds ds.type.known = ("error", "Opnieuw verbinden")) ∧
    ∃ s ds, (acts vault 1).run (start vault 1 unconnected)
        [.callback granted, .call 0 provider] = some s ∧
      s.conn.world.store.dataSources 1 = some ds ∧
      (∀ name before after widgets now,
        ((buildHealth (some (before ++ (name, ds) :: after)) widgets now).issues.filter
            (·.kind = .reconnect)).Perm
          ((buildHealth (some (before ++ after)) widgets now).issues.filter
            (·.kind = .reconnect))) ∧
      dsHealthDisplay ds ds.type.known ≠ ("error", "Opnieuw verbinden") := by
  constructor
  · rintro ds ⟨⟩
    decide
  · obtain ⟨s, ds, hrun, hsettled, hds⟩ : ∃ s ds, (acts vault 1).run (start vault 1 unconnected)
          [.callback granted, .call 0 provider] = some s ∧ s.settled = true ∧
        s.conn.world.store.dataSources 1 = some ds := ⟨_, _, rfl, rfl, rfl⟩
    refine ⟨s, ds, hrun, hds, quiet_after_reconnect hrun ?_ hsettled hds⟩
    refine ⟨by decide, ?_⟩
    rintro _ ⟨⟩
    refine ⟨?_, fun _ _ => trivial⟩
    decide

/-- A refresh finds that the token was revoked; the reconnect stores a new one, and
both classifiers still ask for a reconnect. -/
theorem alarm_after_reconnect :
    ∃ s ds, (acts vault 1).run (start vault 1 tasks)
        [.refreshWidget ⟨1, "todolist", .object []⟩, .call 0 provider, .call 0 provider,
          .call 0 provider, .callback granted, .call 1 provider] = some s ∧
      s.settled = true ∧ s.conn.world.store.dataSources 1 = some ds ∧
      (∃ i ∈ (buildHealth (some [("Tasks", ds)]) (some []) 0).issues, i.kind = .reconnect) ∧
      dsHealthDisplay ds ds.type.known = ("error", "Opnieuw verbinden") := by
  refine ⟨_, _, rfl, rfl, rfl, ?_, by decide⟩
  exact ⟨⟨.error, .reconnect, "Tasks", "Tasks: opnieuw verbinden"⟩, by decide, rfl⟩

end Alarm

end FamilyPlanner.Health

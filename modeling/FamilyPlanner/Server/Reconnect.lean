import FamilyPlanner.Server.Tokens

/-!
# Refreshes and reconnects of one data source

Any number of threads work on a source, one call at a time.  A refresh whose
token is stored after another one has been stored brings back the lineage of a
token that was already replaced.
-/

namespace FamilyPlanner.Server

open FamilyPlanner.Foundation FamilyPlanner.Widget FamilyPlanner.Broker

/-- `note` and `seen` are history: `seen` is how many tokens had been stored when
the thread read the secret. -/
structure Thread (P D : Type) where
  rest : Program P D Unit
  note : Note := {}
  seen : Nat := 0

/-- `log` is history: the tokens that were stored for the source. -/
structure Connection (P D : Type) where
  world : World D
  threads : List (Thread P D) := []
  log : List (Entry Token) := []

namespace Connection

variable {P D : Type}

/--
`refreshWidget` is a refresh of any widget, `accessToken` a handler that has
read the row of the source, `callback` one whose exchange has returned.
-/
inductive Act (P D : Type) where
  | refreshWidget (wgt : WidgetRow)
  | accessToken
  | callback (tok : Token)
  | call (i : Nat) (env : Env P D)

def secret (s : Connection P D) (id : Int) : Option String :=
  (s.world.store.dataSources id).map DataSource.secretCiphertext

def token (b : Broker P D) (s : Connection P D) (id : Int) : Option Token :=
  (s.secret id).bind (tokenFromSecret b)

def replaces (env : Env P D) (id : Int) (w : World D) : Call P D → Bool
  | .updateDataSourceSecret _ _ id' =>
      id' = id && !env.faults.dataSources w.calls && (w.store.dataSources id).isSome
  | _ => false

def proceed (env : Env P D) (s : Connection P D) (c : Call P D)
    (next : Call.Res c → Program P D Unit) (note : Note) (seen : Nat) : Thread P D where
  rest := next (env.exec c s.world).1
  note := note.after c (env.exec c s.world).1
  seen := if readsSecret c then s.log.length else seen

def step (b : Broker P D) (id : Int) (s : Connection P D) :
    Act P D → Option (Connection P D)
  | .refreshWidget wgt =>
      some { s with threads := s.threads ++ [{ rest := b.refreshWidget wgt }] }
  | .accessToken =>
      (s.world.store.dataSources id).map fun ds =>
        { s with
          threads := s.threads ++
            [{ rest := freshAccessToken b id ds >>= fun _ => .ret ()
               note := { read := some [(id, ds.secretCiphertext)] }
               seen := s.log.length }] }
  | .callback tok =>
      some { s with
        threads := s.threads ++
          [{ rest := storeToken b id tok, note := { answer := some ⟨tok, none⟩ } }] }
  | .call i env =>
      match s.threads[i]? with
      | some ⟨.call c next, note, seen⟩ =>
          some
            { world := (env.exec c s.world).2
              log :=
                if replaces env id s.world c then s.log ++ note.answer.toList else s.log
              threads := s.threads.set i (proceed env s c next note seen) }
      | _ => none

def acts (b : Broker P D) (id : Int) : System (Connection P D) (Act P D) := ⟨step b id⟩

/-- The token there is at first has no parent. -/
def connected (b : Broker P D) (id : Int) (store : Store D) : Connection P D where
  world := ⟨store, 0⟩
  log := (token b (P := P) { world := ⟨store, 0⟩ } id).toList.map (⟨·, none⟩)

/--
A refresh that replaces the secret has read it after every token that was
stored for the source before.
-/
def Undisturbed (id : Int) (s : Connection P D) : Act P D → Prop
  | .call i env =>
      match s.threads[i]? with
      | some ⟨.call c _, note, seen⟩ =>
          replaces env id s.world c = true → note.presented = true → seen = s.log.length
      | _ => True
  | _ => True

/-- What is sealed opens again, and is no empty text. -/
structure Seals (b : Broker P D) : Prop where
  openSecret : ∀ {secret cipher}, b.sealSecret secret = some cipher →
    b.openSecret cipher = some secret
  nonempty : ∀ {secret cipher}, b.sealSecret secret = some cipher → cipher ≠ ""

variable {b : Broker P D} {id : Int} {s s' : Connection P D}

theorem call_cases {i : Nat} {env : Env P D}
    (h : (acts b id).step s (.call i env) = some s') :
    ∃ c next note seen, s.threads[i]? = some ⟨.call c next, note, seen⟩ ∧
      s' =
        { world := (env.exec c s.world).2
          log :=
            if replaces env id s.world c then s.log ++ note.answer.toList else s.log
          threads := s.threads.set i (proceed env s c next note seen) } := by
  simp only [acts, step] at h
  split at h
  · rename_i c next note seen hthread
    exact ⟨c, next, note, seen, hthread, (Option.some.inj h).symm⟩
  · contradiction

/-! ## The secret of the source -/

theorem exec_secret_of_replaces {env : Env P D} {c : Call P D} {w : World D}
    (hc : replaces env id w c = true) :
    ∃ cipher status, c = .updateDataSourceSecret cipher status id ∧
      ((env.exec c w).2.store.dataSources id).map DataSource.secretCiphertext =
        some cipher := by
  cases c with
  | updateDataSourceSecret cipher status id' =>
      simp only [replaces, Bool.and_eq_true, decide_eq_true_eq, Bool.not_eq_true'] at hc
      obtain ⟨⟨rfl, hfault⟩, hsome⟩ := hc
      obtain ⟨ds, hds⟩ := Option.isSome_iff_exists.mp hsome
      refine ⟨cipher, status, rfl, ?_⟩
      simp [Env.exec, World.write_store, hfault, Store.updateDataSource, hds]
  | _ => cases hc

theorem updateDataSource_secret (store : Store D) (id' : Int)
    {f : DataSource → DataSource}
    (hf : id' = id → ∀ ds, (f ds).secretCiphertext = ds.secretCiphertext) :
    ((store.updateDataSource id' f).dataSources id).map DataSource.secretCiphertext =
      (store.dataSources id).map DataSource.secretCiphertext := by
  by_cases hid : id' = id
  · cases hid
    cases hds : store.dataSources id with
    | none => simp [Store.updateDataSource, hds]
    | some ds => simp [Store.updateDataSource, hds, hf rfl ds]
  · simp [Store.updateDataSource, Ne.symm hid]

theorem exec_secret (env : Env P D) {c : Call P D} {w : World D}
    (hc : replaces env id w c = false) :
    ((env.exec c w).2.store.dataSources id).map DataSource.secretCiphertext =
      (w.store.dataSources id).map DataSource.secretCiphertext := by
  cases c with
  | updateDataSourceSecret cipher status id' =>
      simp only [Env.exec, World.write_store]
      cases hfault : env.faults.dataSources w.calls with
      | true => rfl
      | false =>
          cases hds : w.store.dataSources id with
          | none =>
              by_cases hid : id' = id
              · simp [Store.updateDataSource, hid, hds]
              · simp [Store.updateDataSource, Ne.symm hid, hds]
          | some ds =>
              have hid : id' ≠ id := by
                rintro rfl
                simp [replaces, hfault, hds] at hc
              simp [Store.updateDataSource, Ne.symm hid, hds]
  | updateDataSourceHealth | markDataSourceSynced =>
      simp only [Env.exec, World.write_store]
      split
      · rfl
      · exact updateDataSource_secret _ _ fun _ _ => rfl
  | markWidgetCacheStale | upsertWidgetCache =>
      simp only [Env.exec, World.write_store]
      split <;> rfl
  | _ => rfl

theorem secret_of_listed {env : Env P D} {w : World D} {widgetID : Int}
    {cipher : String}
    (h : (id, cipher) ∈
      Note.secrets ((env.exec (.listWidgetSources widgetID) w).1.getD [])) :
    (w.store.dataSources id).map DataSource.secretCiphertext = some cipher := by
  obtain ⟨r, hr, heq⟩ := List.mem_map.mp h
  simp only [Env.exec] at hr
  split at hr
  · cases hr
  · obtain ⟨ws, -, hws⟩ := List.mem_filterMap.mp hr
    obtain ⟨ds, hds, hrow⟩ := Option.map_eq_some_iff.mp hws
    cases hrow
    cases heq
    rw [hds]
    rfl

/-! ## The lineage of the token -/

theorem proceed_seen_le (env : Env P D) (c : Call P D)
    (next : Call.Res c → Program P D Unit) (note : Note) {seen : Nat}
    (hseen : seen ≤ s.log.length) : (proceed env s c next note seen).seen ≤ s.log.length := by
  unfold proceed
  cases readsSecret c with
  | true => exact Nat.le_refl _
  | false => exact hseen

/-- `read`: what a thread has read since the last token was stored is there still. -/
structure Sound (b : Broker P D) (id : Int) (s : Connection P D) : Prop where
  stores : ∀ th ∈ s.threads, Stores b th.note th.rest
  seen : ∀ th ∈ s.threads, th.seen ≤ s.log.length
  read : ∀ th ∈ s.threads, th.seen = s.log.length →
    ∀ cipher, (id, cipher) ∈ th.note.read.getD [] → s.secret id = some cipher
  held : s.token b id = s.log.getLast?.map Entry.value
  chain : s.log.IsChain Entry.Follows

theorem Sound.thread (hs : s.Sound b id) {th : Thread P D}
    (hstores : Stores b th.note th.rest) (hseen : th.seen ≤ s.log.length)
    (hread : th.seen = s.log.length →
      ∀ cipher, (id, cipher) ∈ th.note.read.getD [] → s.secret id = some cipher) :
    Sound b id { s with threads := s.threads ++ [th] } := by
  refine ⟨?_, ?_, ?_, hs.held, hs.chain⟩
  · exact forall_started hs.stores hstores
  · exact forall_started hs.seen hseen
  · exact forall_started hs.read hread

theorem Sound.other {i : Nat} {env : Env P D} (hs : s.Sound b id) {c : Call P D}
    {next : Call.Res c → Program P D Unit} {note : Note} {seen : Nat}
    (hthread : s.threads[i]? = some ⟨.call c next, note, seen⟩)
    (hc : replaces env id s.world c = false) :
    Sound b id
      { s with
        world := (env.exec c s.world).2
        threads := s.threads.set i (proceed env s c next note seen) } := by
  have hmem := List.mem_of_getElem? hthread
  have hsecret := exec_secret env hc
  refine ⟨?_, ?_, ?_, ?_, hs.chain⟩
  · exact forall_resumed hs.stores i ((hs.stores _ hmem).2 _)
  · exact forall_resumed hs.seen i (proceed_seen_le env c next note (hs.seen _ hmem))
  · apply forall_resumed
    · intro th hth hseen cipher hcipher
      exact hsecret.trans (hs.read th hth hseen cipher hcipher)
    · intro hseen cipher hcipher
      refine hsecret.trans ?_
      cases hreads : readsSecret c with
      | true =>
          cases c with
          | listWidgetSources widgetID => exact secret_of_listed hcipher
          | _ => cases hreads
      | false =>
          simp only [proceed, hreads] at hseen
          apply hs.read _ hmem hseen cipher
          rwa [← read_after note _ hreads]
  · exact (congrArg (·.bind (tokenFromSecret b)) hsecret).trans hs.held

theorem token_of_sealed (hb : Seals b) {tok : Token} {cipher : String}
    (h : b.sealSecret (.token tok) = some cipher) :
    tokenFromSecret b cipher = some tok := by
  unfold tokenFromSecret
  rw [if_neg (hb.nonempty h), hb.openSecret h]
  rfl

theorem Sound.replace (hb : Seals b) {i : Nat} {env : Env P D} (hs : s.Sound b id)
    {c : Call P D} {next : Call.Res c → Program P D Unit} {note : Note} {seen : Nat}
    (hthread : s.threads[i]? = some ⟨.call c next, note, seen⟩)
    (hc : replaces env id s.world c = true)
    (hseen : note.presented = true → seen = s.log.length) :
    Sound b id
      { world := (env.exec c s.world).2
        log := s.log ++ note.answer.toList
        threads := s.threads.set i (proceed env s c next note seen) } := by
  have hmem := List.mem_of_getElem? hthread
  obtain ⟨cipher, status, rfl, hsecret⟩ := exec_secret_of_replaces hc
  obtain ⟨⟨e, hanswer, hseal, hparent⟩, -⟩ := hs.stores _ hmem
  have hanswer : note.answer = some e := hanswer
  have hlog : s.log ++ note.answer.toList = s.log ++ [e] := by
    rw [hanswer]
    rfl
  rw [hlog]
  have hseen' : ∀ th ∈ s.threads.set i (proceed env s _ next note seen),
      th.seen ≤ s.log.length :=
    forall_resumed hs.seen i (proceed_seen_le env _ next note (hs.seen _ hmem))
  refine ⟨?_, ?_, ?_, ?_, ?_⟩
  · exact forall_resumed hs.stores i ((hs.stores _ hmem).2 _)
  · intro th hth
    have hle := hseen' th hth
    simp only [List.length_append, List.length_singleton]
    omega
  · intro th hth heq
    -- the secret has been replaced since
    have hle := hseen' th hth
    simp only [List.length_append, List.length_singleton] at heq
    omega
  · rw [List.getLast?_concat]
    refine (congrArg (·.bind (tokenFromSecret b)) hsecret).trans ?_
    exact token_of_sealed hb hseal
  · apply hs.chain.append (List.isChain_singleton e)
    intro last hlast e' he'
    cases he'
    intro tok htok
    have hpresented : note.presented = true := by
      simp [Note.presented, hanswer, Option.mem_def.mp htok]
    obtain ⟨old, hold, htoken⟩ := hparent tok htok
    have hread := hs.read _ hmem (hseen hpresented) old hold
    have hheld := hs.held
    rw [token, hread, Option.mem_def.mp hlast] at hheld
    exact Option.some.inj (htoken.symm.trans hheld)

theorem Sound.step (hb : Seals b) {a : Act P D} (hs : s.Sound b id)
    (hc : s.Undisturbed id a) (h : (acts b id).step s a = some s') :
    s'.Sound b id := by
  cases a with
  | refreshWidget wgt =>
      cases h
      apply hs.thread (stores_refreshWidget b wgt) (Nat.zero_le _)
      intro _ cipher hcipher
      cases hcipher
  | accessToken =>
      obtain ⟨ds, hds, rfl⟩ := Option.map_eq_some_iff.mp h
      apply hs.thread _ (Nat.le_refl _)
      · intro _ cipher hcipher
        cases List.mem_singleton.mp hcipher
        rw [secret, hds]
        rfl
      · exact (stores_freshAccessToken b id ds).bind fun _ _ => Prog.tracks_ret _ _
  | callback tok =>
      cases h
      apply hs.thread _ (Nat.zero_le _)
      · intro _ cipher hcipher
        cases hcipher
      · exact stores_storeToken (e := ⟨tok, none⟩) rfl (by simp)
  | call i env =>
      obtain ⟨c, next, note, seen, hthread, rfl⟩ := call_cases h
      simp only [Undisturbed, hthread] at hc
      cases hreplaces : replaces env id s.world c with
      | true =>
          have hsound := hs.replace hb hthread hreplaces (hc hreplaces)
          simpa using hsound
      | false =>
          have hsound := hs.other hthread hreplaces
          simpa using hsound

theorem sound_connected (b : Broker P D) (id : Int) (store : Store D) :
    (connected b id store).Sound b id := by
  refine ⟨by simp [connected], by simp [connected], by simp [connected], ?_, ?_⟩
  · simp only [connected]
    cases htoken : token b (P := P) { world := ⟨store, 0⟩ } id with
    | none => exact htoken
    | some tok => exact htoken
  · unfold connected
    cases token b (P := P) { world := ⟨store, 0⟩ } id <;> simp

/--
If every refresh that replaces the secret has read it after the last token was
stored, each stored token is from a reconnect or made from the one it replaces,
and the token that is stored descends from that of the last reconnect.
-/
theorem never_rolled_back (hb : Seals b) {store : Store D} {es : List (Act P D)}
    (hrun : (acts b id).run (connected b id store) es = some s)
    (hundisturbed : (acts b id).Along (Undisturbed id) (connected b id store) es) :
    s.token b id = s.log.getLast?.map Entry.value ∧
      s.log.IsChain Entry.Follows ∧
      ∀ before e after, s.log = before ++ e :: after →
        (∀ e' ∈ after, e'.parent ≠ none) →
        ∃ tok, s.token b id = some tok ∧ Entry.Descends s.log e.value tok := by
  have hs : s.Sound b id := by
    apply System.run_invariant_along (I := Sound b id) _ (sound_connected b id store)
      hundisturbed hrun
    intro _ _ _ hu hc h
    exact hu.step hb hc h
  refine ⟨hs.held, hs.chain, ?_⟩
  intro before e after hlog hmade
  obtain ⟨last, hlast⟩ : ∃ last, (e :: after).getLast? = some last :=
    Option.isSome_iff_exists.mp (by simp)
  have hchain := hs.chain
  rw [hlog] at hchain
  refine ⟨last.value, ?_, ?_⟩
  · rw [hs.held, hlog, List.getLast?_append, hlast]
    rfl
  · have hafter : after ⊆ s.log := by
      rw [hlog]
      intro e' he'
      exact List.mem_append_right before (List.mem_cons_of_mem e he')
    exact (Entry.descends_of_isChain hchain.right_of_append hmade hlast).mono hafter

/-! ## A reconnect during a refresh -/

private def old : Token := ⟨"old", "", some 0⟩

private def granted : Token := ⟨"granted", "", some 0⟩

private def fresh : Token := ⟨"fresh", "", some 3600⟩

private def vault : Broker Unit Unit where
  typ := fun _ => some fun _ _ => .ok ()
  marshalError := fun _ => none
  openSecret := fun cipher =>
    if cipher = "sealed-old" then some (.token old)
    else if cipher = "sealed-granted" then some (.token granted)
    else if cipher = "sealed-fresh" then some (.token fresh)
    else none
  sealSecret := fun secret =>
    if secret = .token old then some "sealed-old"
    else if secret = .token granted then some "sealed-granted"
    else if secret = .token fresh then some "sealed-fresh"
    else none

private theorem vault_seals : Seals vault := by
  constructor
  all_goals
    intro secret cipher h
    simp only [vault] at h ⊢
    split at h
    · cases h
      simp_all
    · split at h
      · cases h
        simp_all
      · split at h
        · cases h
          simp_all
        · contradiction

private def tasks : Store Unit where
  widgetCache := fun _ => none
  dataSources := fun _ => some
    { type := .msTodo, config := {}, secretCiphertext := "sealed-old"
      oauthStatus := "connected", accessExpiry := none, lastSync := none
      lastError := "", health := "", refreshIntervalSecs := 0 }
  widgetSources := [⟨1, 1, "", "", ""⟩]
  settings := fun _ => none

private def provider : Env Unit Unit where
  now := 0
  dbNow := fun _ => 0
  fetch := fun _ => .ok (some (), 0)
  freshToken := fun _ _ _ => .ok fresh
  faults := {}

private def reconnected : List (Act Unit Unit) :=
  [.callback granted, .call 0 provider, .accessToken, .call 1 provider, .call 1 provider]

theorem never_rolled_back_reconnected :
    ∃ s, (acts vault 1).run (connected vault 1 tasks) reconnected = some s ∧
      s.log = [⟨old, none⟩, ⟨granted, none⟩, ⟨fresh, some granted⟩] ∧
      s.token vault 1 = some fresh ∧ s.log.IsChain Entry.Follows ∧
      ∃ tok, s.token vault 1 = some tok ∧ Entry.Descends s.log granted tok := by
  obtain ⟨s, hrun⟩ : ∃ s,
      (acts vault 1).run (connected vault 1 tasks) reconnected = some s := ⟨_, rfl⟩
  have hlog : s.log = [⟨old, none⟩, ⟨granted, none⟩, ⟨fresh, some granted⟩] := by
    cases hrun
    rfl
  have hundisturbed : (acts vault 1).Along (Undisturbed 1) (connected vault 1 tasks)
      reconnected := by
    refine ⟨trivial, ?_⟩
    rintro _ ⟨⟩
    refine ⟨fun _ hpresented => absurd hpresented (by decide), ?_⟩
    rintro _ ⟨⟩
    refine ⟨trivial, ?_⟩
    rintro _ ⟨⟩
    refine ⟨fun hreplaces => absurd hreplaces (by decide), ?_⟩
    rintro _ ⟨⟩
    exact ⟨fun _ _ => rfl, fun _ _ => System.along_nil _ _⟩
  obtain ⟨htoken, hchain, hdescends⟩ :=
    never_rolled_back vault_seals hrun hundisturbed
  refine ⟨s, hrun, hlog, ?_, hchain, ?_⟩
  · rw [htoken, hlog]
    rfl
  · exact hdescends [⟨old, none⟩] ⟨granted, none⟩ [⟨fresh, some granted⟩] hlog
      (by simp)

private def undone : List (Entry Token) :=
  [⟨old, none⟩, ⟨granted, none⟩, ⟨fresh, some old⟩]

private theorem fresh_not_of_granted : ¬ Entry.Descends undone granted fresh := by
  intro hdescends
  -- the parent of the new token is the old one, which has none
  rcases hdescends.cases_tail with heq | ⟨tok, hbefore, hmem⟩
  · exact absurd heq (by decide)
  · have htok : tok = old := by simpa [undone, fresh, old, granted] using hmem
    rw [htok] at hbefore
    rcases hbefore.cases_tail with heq | ⟨tok', _, hmem'⟩
    · exact absurd heq (by decide)
    · simp [undone, fresh, old, granted] at hmem'

/-- The refresh has read the old token before the reconnect, and what it makes of
it replaces the token of the reconnect. -/
theorem refresh_undoes_reconnect :
    ∃ es s, (acts vault 1).run (connected vault 1 tasks) es = some s ∧
      s.log = [⟨old, none⟩, ⟨granted, none⟩, ⟨fresh, some old⟩] ∧
      s.token vault 1 = some fresh ∧ ¬ s.log.IsChain Entry.Follows ∧
      ¬ Entry.Descends s.log granted fresh := by
  refine ⟨[.refreshWidget ⟨1, "todolist", .object []⟩, .call 0 provider,
      .call 0 provider, .callback granted, .call 1 provider, .call 0 provider],
    _, rfl, rfl, rfl, ?_, fresh_not_of_granted⟩
  intro hchain
  exact absurd (hchain.tail.rel old rfl) (by decide)

end Connection

end FamilyPlanner.Server

import FamilyPlanner.Foundation.Interleaving
import FamilyPlanner.Foundation.Run
import FamilyPlanner.Server.OAuthSession

/-!
# Access to the admin

Any number of browsers send requests that overlap, and a page of someone else
may make a browser send one with its own cookie.  A session is loaded by the
token in the cookie, is renewed by a login and is stored again when the request
ends, also when it was logged out in the meantime.  A change needs the CSRF
token of the session, and the callback of a provider its state.
-/

namespace FamilyPlanner.Server.Access

open FamilyPlanner.Foundation FamilyPlanner.Widget FamilyPlanner.Server.OAuth

structure Record where
  values : Values
  expiry : Int

/-- `author` is the one who wrote the request, `browser` the one that sends it.
The token is empty for a session that is not stored yet. -/
structure Flight (B : Type) where
  browser : B
  author : B
  loadedAt : Int
  token : String
  deadline : Int
  progress : Progress

/-- A request that got through to its handler. -/
structure Effect (B : Type) where
  browser : B
  author : B
  mutating : Bool
  loadedAt : Int
  deriving DecidableEq, Repr

/--
All but `now`, `store` and `flights` is history: the tokens of sessions, and the
CSRF tokens and OAuth states, with the browser for whose request they were
generated, which alone gets them in a reply, the values that came in with
requests, the accepted logins and the effects.
-/
structure World (B : Type) where
  now : Int := 0
  store : String → Option Record := fun _ => none
  flights : List (Flight B) := []
  sessionsOf : List (String × B) := []
  tokensOf : List (String × B) := []
  presented : List String := []
  logins : List (B × Int) := []
  effects : List (Effect B) := []

/-- The CSRF token or the state that comes with a request. -/
def sent : Request → String
  | .logout sent | .other _ sent => sent
  | .oauthCallback state _ => state
  | _ => ""

/-- The callback is a `GET`, and stores a token. -/
def mutating : Request → Bool
  | .logout _ | .oauthCallback _ _ => true
  | .other mutating _ => mutating
  | _ => false

def took (out : Served) : Bool :=
  out.reply = .page || out.issued.isSome || out.stored.isSome || out.destroyed

/-- The value was generated for no one else. -/
def Held {B : Type} (generated : List (String × B)) (who : B) (value : String) : Prop :=
  ∀ p ∈ generated, p.1 = value → p.2 = who

instance {B : Type} [DecidableEq B] (generated : List (String × B)) (who : B) (value : String) :
    Decidable (Held generated who value) :=
  inferInstanceAs (Decidable (∀ p ∈ generated, p.1 = value → p.2 = who))

inductive Act (B : Type) where
  | tick (elapsed : Nat)
  | load (browser author : B) (cookie : String) (req : Request)
  | serve (i : Nat) (env : Answers) (renewed : Option String)
  | commit (i : Nat) (generated : String) (always : Bool)

namespace World

variable {B : Type} [DecidableEq B] (ttl : Nat) (oauthApp : SourceType → String × String)

/-- No one has come up with the value before. -/
def Fresh (s : World B) (value : String) : Prop :=
  value ≠ "" ∧ value ∉ s.sessionsOf.map Prod.fst ∧ value ∉ s.tokensOf.map Prod.fst ∧
    value ∉ s.presented

instance (s : World B) (value : String) : Decidable (s.Fresh value) :=
  inferInstanceAs (Decidable (_ ∧ _))

def find (s : World B) (token : String) : Option Record :=
  (s.store token).filter fun r => s.now < r.expiry

def load (s : World B) (browser author : B) (cookie : String) (req : Request) : Flight B :=
  match s.find cookie with
  | some r => ⟨browser, author, s.now, cookie, r.expiry, .loaded req ⟨r.values, false⟩⟩
  | none => ⟨browser, author, s.now, "", s.now + ttl, .loaded req ⟨{}, false⟩⟩

/-- An accepted login renews the token and the lifetime, unless that fails. -/
def renew (s : World B) (f : Flight B) (req : Request) (renewed : Option String) :
    World B × Flight B :=
  match req, renewed with
  | .loginPost true, some token =>
      ({ s with
          store := Function.update s.store f.token none
          sessionsOf := s.sessionsOf ++ [(token, f.browser)]
          logins := s.logins ++ [(f.browser, s.now)] },
        { f with token, deadline := s.now + ttl })
  | .loginPost true, none => ({ s with logins := s.logins ++ [(f.browser, s.now)] }, f)
  | _, _ => (s, f)

def finish (s : World B) (f : Flight B) (req : Request) (env : Answers) (out : Served) (i : Nat) :
    World B :=
  { s with
    store := if out.destroyed then Function.update s.store f.token none else s.store
    flights := s.flights.set i { f with
      token := if out.destroyed then "" else f.token
      progress := .served out.sessions }
    tokensOf := s.tokensOf ++ (Session.tokens env).map fun token => (token, f.browser)
    effects := s.effects ++
      if took out then [⟨f.browser, f.author, mutating req, f.loadedAt⟩] else [] }

/-- A session without a token gets the generated one when it is stored. -/
def commit (s : World B) (f : Flight B) (sessions : Sessions) (generated : String) : World B :=
  if f.token = "" then
    { s with
      store := Function.update s.store generated (some ⟨sessions.values, f.deadline⟩)
      sessionsOf := s.sessionsOf ++ [(generated, f.browser)] }
  else { s with store := Function.update s.store f.token (some ⟨sessions.values, f.deadline⟩) }

def step (s : World B) : Act B → Option (World B)
  | .tick elapsed => some { s with now := s.now + elapsed }
  | .load browser author cookie req =>
      if Held s.sessionsOf browser cookie ∧ Held s.tokensOf author (sent req) then
        some { s with
          flights := s.flights ++ [s.load ttl browser author cookie req]
          presented := s.presented ++ [cookie, sent req] }
      else none
  | .serve i env renewed =>
      match s.flights[i]? with
      | none => none
      | some f =>
          match f.progress with
          | .loaded req sessions =>
              if ∀ value ∈ Session.tokens env ++ renewed.toList, s.Fresh value then
                let (s', f') := s.renew ttl f req renewed
                some (s'.finish f' req env (OAuth.serve oauthApp env req sessions) i)
              else none
          | _ => none
  | .commit i generated always =>
      match s.flights[i]? with
      | none => none
      | some f =>
          match f.progress with
          | .served sessions =>
              if s.Fresh generated then
                let s' := { s with flights := s.flights.set i { f with progress := .done } }
                some (if sessions.modified || always then s'.commit f sessions generated else s')
              else none
          | _ => none

def acts : System (World B) (Act B) := ⟨step ttl oauthApp⟩

end World

/-! ## What a handler does with a session -/

variable {oauthApp : SourceType → String × String} {env : Answers} {s : Sessions}

/-- The value is as before, gone, or just generated. -/
def Renews (env : Answers) (old new : String) : Prop :=
  new = old ∨ new = "" ∨ new ∈ Session.tokens env

/-- No handler but the login makes a session one of the admin, and what changes more
than the session was asked for with a value of the session. -/
structure Honest (env : Answers) (login : Bool) (sent : String) (mutating : Bool) (s : Sessions)
    (out : Served) : Prop where
  authed : out.sessions.values.authed = true → s.values.authed = true ∨ login = true
  csrf : Renews env s.values.csrf out.sessions.values.csrf
  state : Renews env s.values.oauthState out.sessions.values.oauthState
  admitted : took out = true → s.values.authed = true
  checked : took out = true → mutating = true →
    sent ≠ "" ∧ (sent = s.values.csrf ∨ sent = s.values.oauthState ∨ sent ∈ Session.tokens env)

/-- The session is kept but for the values of the flow, or cleared. -/
def Quiet (env : Answers) (next : Handler) : Prop :=
  ∀ s, (next s).sessions.values.authed = s.values.authed ∧
      (next s).sessions.values.csrf = s.values.csrf ∧
      Renews env s.values.oauthState (next s).sessions.values.oauthState ∨
    (next s).sessions.values = {}

theorem quiet_of_kept {next : Handler} (h : ∀ s, (next s).sessions = s) : Quiet env next := by
  intro s
  rw [h]
  exact .inl ⟨rfl, rfl, .inl rfl⟩

theorem quiet_handleOAuthStart (id : String) : Quiet env (handleOAuthStart oauthApp env id) := by
  intro s
  unfold handleOAuthStart
  split
  · exact .inl ⟨rfl, rfl, .inl rfl⟩
  · split
    · exact .inl ⟨rfl, rfl, .inl rfl⟩
    · split
      · refine .inl ⟨rfl, rfl, .inr ?_⟩
        cases htoken : env.stateToken with
        | none => exact .inl rfl
        | some token => exact .inr (by simp [Session.tokens, Sessions.put, htoken])
      · exact .inl ⟨rfl, rfl, .inl rfl⟩

theorem sessions_handleOAuthCallback (state code : String) (s : Sessions) :
    (handleOAuthCallback oauthApp env state code s).sessions = s := by
  unfold handleOAuthCallback
  split
  · rfl
  · dsimp only
    split
    · rfl
    · split
      · split
        · rfl
        · split <;> rfl
      · rfl

theorem state_of_took {state code : String}
    (h : took (handleOAuthCallback oauthApp env state code s) = true) :
    state ≠ "" ∧ state = s.values.oauthState := by
  unfold handleOAuthCallback at h
  split at h
  · simp [took] at h
  · rename_i hstate
    exact ⟨fun hempty => hstate (.inl hempty), not_not.mp fun hne => hstate (.inr hne)⟩

/-- What the middleware hands on carries the token that it compares with. -/
theorem csrfMiddleware_eq (env : Answers) (mutating : Bool) (sent : String) (next : Handler)
    (s : Sessions) :
    ∃ s' : Sessions, s'.values.authed = s.values.authed ∧
      s'.values.oauthState = s.values.oauthState ∧
      Renews env s.values.csrf s'.values.csrf ∧
      csrfMiddleware env mutating sent next s =
        if mutating ∧ (sent = "" ∨ sent ≠ s'.values.csrf) then
          { sessions := s', reply := .error "bad csrf token" 403 }
        else next s' := by
  unfold csrfMiddleware
  dsimp only
  split
  · refine ⟨s.put fun v => { v with csrf := env.csrfToken.getD "" }, rfl, rfl, .inr ?_, rfl⟩
    cases htoken : env.csrfToken with
    | none => exact .inl rfl
    | some token => exact .inr (by simp [Session.tokens, Sessions.put, htoken])
  · exact ⟨s, rfl, rfl, .inl rfl, rfl⟩

theorem honest_csrfMiddleware {next : Handler} (hnext : Quiet env next) (mutating : Bool)
    (sent : String) (hauthed : s.values.authed = true) :
    Honest env false sent mutating s (csrfMiddleware env mutating sent next s) := by
  obtain ⟨s', hs', hstate, htok, hout⟩ := csrfMiddleware_eq env mutating sent next s
  rw [hout]
  split
  · exact ⟨fun h => .inl (hs' ▸ h), htok, .inl hstate, by simp [took], by simp [took]⟩
  · rename_i haccepted
    refine ⟨fun _ => .inl hauthed, ?_, ?_, fun _ => hauthed, ?_⟩
    · rcases hnext s' with ⟨-, hcsrf, -⟩ | hcleared
      · rw [hcsrf]
        exact htok
      · rw [hcleared]
        exact .inr (.inl rfl)
    · rcases hnext s' with ⟨-, -, hkept⟩ | hcleared
      · rwa [hstate] at hkept
      · rw [hcleared]
        exact .inr (.inl rfl)
    · intro _ hmutating
      have hsent : sent ≠ "" ∧ sent = s'.values.csrf := by
        simpa [hmutating] using haccepted
      refine ⟨hsent.1, ?_⟩
      rw [hsent.2]
      rcases htok with hsame | hempty | hdrawn
      · exact .inl hsame
      · exact absurd (hsent.2.trans hempty) hsent.1
      · exact .inr (.inr hdrawn)

theorem honest_guarded {next : Handler} (hnext : Quiet env next) (mutating : Bool)
    (sent : String) :
    Honest env false sent mutating s
      (requireLogin (csrfMiddleware env mutating sent next) s) := by
  unfold requireLogin
  split
  · rename_i hauthed
    exact honest_csrfMiddleware hnext mutating sent hauthed
  · exact ⟨.inl, .inl rfl, .inl rfl, by simp [took], by simp [took]⟩

/-- The state stands in for the CSRF token. -/
theorem honest_callback (state code : String) :
    Honest env false state true s
      (requireLogin (csrfMiddleware env false "" (handleOAuthCallback oauthApp env state code))
        s) := by
  have hquiet : Quiet env (handleOAuthCallback oauthApp env state code) :=
    quiet_of_kept (sessions_handleOAuthCallback state code)
  have h := honest_guarded (s := s) hquiet false ""
  refine ⟨h.authed, h.csrf, h.state, h.admitted, ?_⟩
  intro htook _
  have hlogged := h.admitted htook
  obtain ⟨s', -, hstate, -, hout⟩ := csrfMiddleware_eq env false ""
    (handleOAuthCallback oauthApp env state code) s
  rw [requireLogin, if_pos hlogged, hout, if_neg (by simp)] at htook
  obtain ⟨hne, hsame⟩ := state_of_took htook
  exact ⟨hne, .inr (.inl (hsame.trans hstate))⟩

theorem honest_serve (req : Request) :
    Honest env (req = .loginPost true) (sent req) (mutating req) s
      (OAuth.serve oauthApp env req s) := by
  cases req with
  | oauthStart id => exact honest_guarded (quiet_handleOAuthStart id) false ""
  | oauthCallback state code => exact honest_callback state code
  | loginPost accepted =>
      cases accepted with
      | true => exact ⟨fun _ => .inr rfl, .inl rfl, .inl rfl,
          by simp [took, OAuth.serve, handleLoginPost],
          by simp [took, OAuth.serve, handleLoginPost]⟩
      | false => exact ⟨.inl, .inl rfl, .inl rfl, by simp [took, OAuth.serve, handleLoginPost],
          by simp [took, OAuth.serve, handleLoginPost]⟩
  | logout token => exact honest_guarded (fun _ => .inr rfl) true token
  | other mutating token => exact honest_guarded (quiet_of_kept fun _ => rfl) mutating token

/-! ## Runs -/

namespace World

variable {B : Type} {ttl : Nat} {w w' : World B} {b : B} {f : Flight B}

structure Grows (w w' : World B) : Prop where
  now : w.now ≤ w'.now
  sessionsOf : w.sessionsOf ⊆ w'.sessionsOf
  tokensOf : w.tokensOf ⊆ w'.tokensOf
  presented : w.presented ⊆ w'.presented
  logins : w.logins ⊆ w'.logins

structure Good (ttl : Nat) (w : World B) (b : B) (v : Values) (deadline : Int) : Prop where
  authed : v.authed = true → ∃ t, (b, t) ∈ w.logins ∧ t ≤ w.now ∧ deadline ≤ t + ttl
  csrf : v.csrf ≠ "" → (v.csrf, b) ∈ w.tokensOf
  state : v.oauthState ≠ "" → (v.oauthState, b) ∈ w.tokensOf
  deadline : deadline ≤ w.now + ttl

theorem Good.mono {v : Values} {deadline : Int} (h : Good ttl w b v deadline) (hg : w.Grows w') :
    Good ttl w' b v deadline := by
  have hnow := hg.now
  refine ⟨?_, fun hcsrf => hg.tokensOf (h.csrf hcsrf), fun hstate => hg.tokensOf (h.state hstate),
    by have := h.deadline; omega⟩
  intro hauthed
  obtain ⟨t, ht, hle, hend⟩ := h.authed hauthed
  exact ⟨t, hg.logins ht, by omega, hend⟩

def LoggedIn (ttl : Nat) (w : World B) (b : B) (time : Int) : Prop :=
  ∃ t, (b, t) ∈ w.logins ∧ t ≤ time ∧ time < t + ttl

structure Pending (ttl : Nat) (w : World B) (f : Flight B) (req : Request) (s : Sessions) :
    Prop where
  live : s.values.authed = true → LoggedIn ttl w f.browser f.loadedAt
  held : Held w.tokensOf f.author (sent req)
  presented : sent req ∈ w.presented

structure Flight.Sound (ttl : Nat) (w : World B) (f : Flight B) : Prop where
  token : f.token ≠ "" → (f.token, f.browser) ∈ w.sessionsOf
  good : ∀ s, f.progress.sessions = some s → Good ttl w f.browser s.values f.deadline
  pending : ∀ req s, f.progress = .loaded req s → Pending ttl w f req s

structure Sound (ttl : Nat) (w : World B) : Prop where
  store : ∀ token r, w.store token = some r →
    ∃ b, (token, b) ∈ w.sessionsOf ∧ Good ttl w b r.values r.expiry
  flights : ∀ f ∈ w.flights, Flight.Sound ttl w f
  effects : ∀ e ∈ w.effects,
    LoggedIn ttl w e.browser e.loadedAt ∧ (e.mutating = true → e.author = e.browser)

theorem LoggedIn.mono {time : Int} (h : LoggedIn ttl w b time) (hg : w.Grows w') :
    LoggedIn ttl w' b time := by
  obtain ⟨t, ht, hrest⟩ := h
  exact ⟨t, hg.logins ht, hrest⟩

theorem Held.append {generated : List (String × B)} {who : B} {value : String}
    (h : Held generated who value) {tokens : List String} {b : B} (hnew : value ∉ tokens) :
    Held (generated ++ tokens.map fun token => (token, b)) who value := by
  intro p hp heq
  rcases List.mem_append.mp hp with hp | hp
  · exact h p hp heq
  · obtain ⟨token, htoken, rfl⟩ := List.mem_map.mp hp
    exact absurd (heq ▸ htoken) hnew

theorem Flight.Sound.mono (h : Flight.Sound ttl w f) (hg : w.Grows w') {tokens : List String}
    (htokens : w'.tokensOf = w.tokensOf ++ tokens.map fun token => (token, b))
    (hnew : ∀ token ∈ tokens, token ∉ w.presented) : Flight.Sound ttl w' f := by
  refine ⟨fun htoken => hg.sessionsOf (h.token htoken), fun s hs => (h.good s hs).mono hg, ?_⟩
  intro req s hs
  obtain ⟨hlive, hheld, hpresented⟩ := h.pending req s hs
  refine ⟨fun hauthed => (hlive hauthed).mono hg, ?_, hg.presented hpresented⟩
  rw [htokens]
  exact Held.append hheld fun hsent => hnew _ hsent hpresented

theorem Flight.Sound.grow (h : Flight.Sound ttl w f) (hg : w.Grows w')
    (htokens : w'.tokensOf = w.tokensOf) : Flight.Sound ttl w' f := by
  have hnone : w'.tokensOf = w.tokensOf ++ ([] : List String).map fun token => (token, f.browser) := by
    simpa using htokens
  exact h.mono hg hnone (by simp)

structure Renewed (ttl : Nat) (w : World B) (f : Flight B) (login : Bool) (out : World B × Flight B) :
    Prop where
  grows : w.Grows out.1
  now : out.1.now = w.now
  tokensOf : out.1.tokensOf = w.tokensOf
  flights : out.1.flights = w.flights
  effects : out.1.effects = w.effects
  store : ∀ token r, out.1.store token = some r → w.store token = some r
  browser : out.2.browser = f.browser
  author : out.2.author = f.author
  loadedAt : out.2.loadedAt = f.loadedAt
  token : out.2.token ≠ "" → (out.2.token, f.browser) ∈ out.1.sessionsOf
  deadline : out.2.deadline ≤ w.now + ttl
  accepted : login = true → (f.browser, w.now) ∈ out.1.logins
  kept : login = false → out.2.deadline = f.deadline

theorem eq_some_of_update {store : String → Option Record} {erased token : String} {r : Record}
    (h : Function.update store erased none token = some r) : store token = some r := by
  by_cases heq : token = erased
  · subst heq
    simp at h
  · rwa [Function.update_of_ne heq] at h

theorem renewed_renew (h : Flight.Sound ttl w f) (hdeadline : f.deadline ≤ w.now + ttl)
    (req : Request) (renewed : Option String) :
    Renewed ttl w f (req = .loginPost true) (w.renew ttl f req renewed) := by
  unfold renew
  split
  · constructor
    case store => exact fun _ _ => eq_some_of_update
    case grows => constructor <;> simp
    all_goals simp
  · constructor
    case grows => constructor <;> simp
    case token => exact h.token
    all_goals simp [hdeadline]
  · rename_i hsome hnone
    have hlogin : req ≠ .loginPost true := by
      rintro rfl
      cases renewed with
      | none => exact hnone rfl rfl
      | some token => exact hsome token rfl rfl
    constructor
    case grows => constructor <;> simp
    case token => exact h.token
    all_goals simp [hdeadline, hlogin]

theorem Good.served {out : World B × Flight B} {req : Request} {s : Sessions} {env : Answers}
    {served : Served} (hgood : Good ttl w f.browser s.values f.deadline)
    (hrenewed : Renewed ttl w f (req = .loginPost true) out)
    (hhonest : Honest env (req = .loginPost true) (sent req) (mutating req) s served)
    (hg : out.1.Grows w')
    (htokens : ∀ token ∈ Session.tokens env, (token, f.browser) ∈ w'.tokensOf) :
    Good ttl w' f.browser served.sessions.values out.2.deadline := by
  have hle := hg.now
  have hnow := hrenewed.now
  have hdeadline := hrenewed.deadline
  have hrenews : ∀ old new, (old ≠ "" → (old, f.browser) ∈ w.tokensOf) →
      Renews env old new → new ≠ "" → (new, f.browser) ∈ w'.tokensOf := by
    intro old new hold hnew hne
    rcases hnew with rfl | hempty | hdrawn
    · exact hg.tokensOf (hrenewed.grows.tokensOf (hold hne))
    · exact absurd hempty hne
    · exact htokens _ hdrawn
  constructor
  · intro hauthed
    cases hlogin : decide (req = .loginPost true) with
    | true => exact ⟨w.now, hg.logins (hrenewed.accepted hlogin), by omega, hdeadline⟩
    | false =>
        rcases hhonest.authed hauthed with hbefore | haccepted
        · obtain ⟨t, ht, hpast, hend⟩ := hgood.authed hbefore
          rw [hrenewed.kept hlogin]
          exact ⟨t, hg.logins (hrenewed.grows.logins ht), by omega, hend⟩
        · exact absurd (hlogin.symm.trans haccepted) (by decide)
  · exact hrenews _ _ hgood.csrf hhonest.csrf
  · exact hrenews _ _ hgood.state hhonest.state
  · omega

theorem Pending.effect {req : Request} {s : Sessions} {env : Answers} {served : Served}
    (hpending : Pending ttl w f req s) (hgood : Good ttl w f.browser s.values f.deadline)
    (hnew : ∀ token ∈ Session.tokens env, w.Fresh token)
    (hhonest : Honest env (req = .loginPost true) (sent req) (mutating req) s served)
    (htook : took served = true) :
    LoggedIn ttl w f.browser f.loadedAt ∧ (mutating req = true → f.author = f.browser) := by
  refine ⟨hpending.live (hhonest.admitted htook), ?_⟩
  intro hmutating
  obtain ⟨hsent, hsame | hsame | hdrawn⟩ := hhonest.checked htook hmutating
  · rw [hsame] at hsent
    exact (hpending.held _ (hgood.csrf hsent) hsame.symm).symm
  · rw [hsame] at hsent
    exact (hpending.held _ (hgood.state hsent) hsame.symm).symm
  · exact absurd hpending.presented (hnew _ hdrawn).2.2.2

theorem Renewed.grows_finish {out : World B × Flight B} {login : Bool} (req : Request)
    (env : Answers) (served : Served) (i : Nat) (h : Renewed ttl w f login out) :
    out.1.Grows (out.1.finish out.2 req env served i) ∧
      w.Grows (out.1.finish out.2 req env served i) := by
  obtain ⟨hnow, hsessions, htokens, hpresented, hlogins⟩ := h.grows
  have hadded : out.1.tokensOf ⊆ (out.1.finish out.2 req env served i).tokensOf :=
    List.subset_append_left _ _
  exact ⟨⟨Int.le_refl _, List.Subset.refl _, hadded, List.Subset.refl _, List.Subset.refl _⟩,
    ⟨hnow, hsessions, List.Subset.trans htokens hadded, hpresented, hlogins⟩⟩

theorem Sound.finish {out : World B × Flight B} {req : Request} {s : Sessions} {env : Answers}
    (hw : w.Sound ttl) (hpending : Pending ttl w f req s)
    (hgood : Good ttl w f.browser s.values f.deadline)
    (hnew : ∀ token ∈ Session.tokens env, w.Fresh token)
    (hrenewed : Renewed ttl w f (req = .loginPost true) out) {served : Served}
    (hhonest : Honest env (req = .loginPost true) (sent req) (mutating req) s served) (i : Nat) :
    Sound ttl (out.1.finish out.2 req env served i) := by
  obtain ⟨hgrows₁, hgrows⟩ := hrenewed.grows_finish req env served i
  have htokens : (out.1.finish out.2 req env served i).tokensOf =
      w.tokensOf ++ (Session.tokens env).map fun token => (token, f.browser) := by
    simp [World.finish, hrenewed.tokensOf, hrenewed.browser]
  constructor
  · intro token r hr
    have hr₁ : out.1.store token = some r := by
      simp only [World.finish] at hr
      split at hr
      · exact eq_some_of_update hr
      · exact hr
    obtain ⟨b, hb, hrecord⟩ := hw.store token r (hrenewed.store token r hr₁)
    exact ⟨b, hgrows.sessionsOf hb, hrecord.mono hgrows⟩
  · apply forall_resumed
    · intro g hg
      rw [hrenewed.flights] at hg
      refine (hw.flights g hg).mono hgrows htokens ?_
      exact fun token htoken => (hnew token htoken).2.2.2
    · refine ⟨?_, ?_, by simp⟩
      · intro htoken
        dsimp only at htoken ⊢
        split at htoken
        · contradiction
        · rename_i hkept
          rw [if_neg hkept, hrenewed.browser]
          exact hgrows₁.sessionsOf (hrenewed.token htoken)
      · intro s' hs'
        cases hs'
        rw [hrenewed.browser]
        refine hgood.served hrenewed hhonest hgrows₁ ?_
        intro token htoken
        rw [htokens]
        apply List.mem_append_right
        exact List.mem_map_of_mem htoken
  · intro e he
    rcases List.mem_append.mp he with hold | he
    · rw [hrenewed.effects] at hold
      obtain ⟨hlogged, hauthor⟩ := hw.effects e hold
      exact ⟨hlogged.mono hgrows, hauthor⟩
    · split at he
      · rename_i htook
        obtain ⟨hlogged, hauthor⟩ := hpending.effect hgood hnew hhonest htook
        rw [List.mem_singleton.mp he]
        dsimp only
        rw [hrenewed.browser, hrenewed.author, hrenewed.loadedAt]
        exact ⟨hlogged.mono hgrows, hauthor⟩
      · contradiction

theorem eq_some_of_find {token : String} {r : Record} (h : w.find token = some r) :
    w.store token = some r ∧ w.now < r.expiry := by
  simpa [find, Option.filter_eq_some_iff] using h

theorem Sound.loaded (hw : w.Sound ttl) {browser author : B} {cookie : String} {req : Request}
    (hcookie : Held w.sessionsOf browser cookie) (hsent : Held w.tokensOf author (sent req))
    (hg : w.Grows w') (htokens : w'.tokensOf = w.tokensOf) (hpresented : sent req ∈ w'.presented) :
    Flight.Sound ttl w' (w.load ttl browser author cookie req) := by
  have hnow := hg.now
  rw [← htokens] at hsent
  unfold World.load
  split
  · rename_i r hr
    obtain ⟨hstore, hlive⟩ := eq_some_of_find hr
    obtain ⟨b, hb, hgood⟩ := hw.store cookie r hstore
    have hbrowser : b = browser := hcookie _ hb rfl
    subst hbrowser
    refine ⟨fun _ => hg.sessionsOf hb, ?_, ?_⟩
    · intro s hs
      cases hs
      exact hgood.mono hg
    · intro req' s hs
      cases hs
      refine ⟨?_, hsent, hpresented⟩
      intro hauthed
      obtain ⟨t, ht, hpast, hend⟩ := hgood.authed hauthed
      refine ⟨t, hg.logins ht, hpast, ?_⟩
      dsimp only
      omega
  · refine ⟨by simp, ?_, ?_⟩
    · intro s hs
      cases hs
      refine ⟨by simp, by simp, by simp, ?_⟩
      dsimp only
      omega
    · intro req' s hs
      cases hs
      exact ⟨by simp, hsent, hpresented⟩

theorem Sound.withFlights (hw : w.Sound ttl) (hg : w.Grows w') (hstore : w'.store = w.store)
    (heffects : w'.effects = w.effects) (hflights : ∀ f ∈ w'.flights, Flight.Sound ttl w' f) :
    w'.Sound ttl := by
  refine ⟨?_, hflights, ?_⟩
  · intro token r hr
    rw [hstore] at hr
    obtain ⟨b, hb, hgood⟩ := hw.store token r hr
    exact ⟨b, hg.sessionsOf hb, hgood.mono hg⟩
  · intro e he
    rw [heffects] at he
    obtain ⟨hlogged, hauthor⟩ := hw.effects e he
    exact ⟨hlogged.mono hg, hauthor⟩

theorem Sound.load (hw : w.Sound ttl) {browser author : B} {cookie : String} {req : Request}
    (hcookie : Held w.sessionsOf browser cookie) (hsent : Held w.tokensOf author (sent req)) :
    Sound ttl { w with
      flights := w.flights ++ [w.load ttl browser author cookie req]
      presented := w.presented ++ [cookie, sent req] } := by
  have hgrows : w.Grows { w with
      flights := w.flights ++ [w.load ttl browser author cookie req]
      presented := w.presented ++ [cookie, sent req] } := by
    constructor <;> simp
  refine hw.withFlights hgrows rfl rfl ?_
  apply forall_started
  · intro f hf
    exact (hw.flights f hf).grow hgrows rfl
  · exact hw.loaded hcookie hsent hgrows rfl (by simp)

theorem Sound.tick (hw : w.Sound ttl) (elapsed : Nat) :
    Sound ttl { w with now := w.now + elapsed } := by
  have hgrows : w.Grows { w with now := w.now + elapsed } := by
    constructor
    case now => dsimp only; omega
    all_goals simp
  refine hw.withFlights hgrows rfl rfl ?_
  intro f hf
  exact (hw.flights f hf).grow hgrows rfl

theorem Sound.done (hw : w.Sound ttl) (hf : Flight.Sound ttl w f) (i : Nat) :
    Sound ttl { w with flights := w.flights.set i { f with progress := .done } } := by
  have hgrows : w.Grows { w with flights := w.flights.set i { f with progress := .done } } := by
    constructor <;> simp
  refine hw.withFlights hgrows rfl rfl ?_
  apply forall_resumed
  · intro g hg
    exact (hw.flights g hg).grow hgrows rfl
  · refine ⟨hf.token, ?_, ?_⟩
    · intro s hs
      cases hs
    · intro req s hs
      cases hs

theorem Sound.record (hw : w.Sound ttl) (hg : w.Grows w') {token : String} {r : Record}
    (hstore : w'.store = Function.update w.store token (some r)) (hflights : w'.flights = w.flights)
    (htokens : w'.tokensOf = w.tokensOf) (heffects : w'.effects = w.effects)
    (htoken : (token, b) ∈ w'.sessionsOf) (hgood : Good ttl w b r.values r.expiry) :
    w'.Sound ttl := by
  constructor
  · intro token' r' hr'
    rw [hstore] at hr'
    by_cases heq : token' = token
    · subst heq
      rw [Function.update_self] at hr'
      cases hr'
      exact ⟨b, htoken, hgood.mono hg⟩
    · rw [Function.update_of_ne heq] at hr'
      obtain ⟨b', hb', hgood'⟩ := hw.store token' r' hr'
      exact ⟨b', hg.sessionsOf hb', hgood'.mono hg⟩
  · intro f hf
    rw [hflights] at hf
    exact (hw.flights f hf).grow hg htokens
  · intro e he
    rw [heffects] at he
    obtain ⟨hlogged, hauthor⟩ := hw.effects e he
    exact ⟨hlogged.mono hg, hauthor⟩

theorem Sound.commit (hw : w.Sound ttl) (hf : Flight.Sound ttl w f) {s : Sessions}
    (hs : f.progress = .served s) (generated : String) : (w.commit f s generated).Sound ttl := by
  have hgood := hf.good s (by rw [hs]; rfl)
  unfold World.commit
  split
  · refine hw.record ?_ rfl rfl rfl rfl (List.mem_append_right _ (List.mem_singleton.mpr rfl)) hgood
    constructor <;> simp
  · rename_i htoken
    refine hw.record ?_ rfl rfl rfl rfl (hf.token htoken) hgood
    constructor <;> simp

theorem Sound.step [DecidableEq B] {oauthApp : SourceType → String × String} (hw : w.Sound ttl)
    {a : Act B} (h : w.step ttl oauthApp a = some w') : w'.Sound ttl := by
  cases a with
  | tick elapsed =>
      cases h
      exact hw.tick elapsed
  | load browser author cookie req =>
      simp only [World.step] at h
      split at h
      · rename_i hheld
        cases h
        exact hw.load hheld.1 hheld.2
      · contradiction
  | serve i env renewed =>
      simp only [World.step] at h
      split at h
      · contradiction
      · rename_i f hflight
        split at h
        · rename_i req s hloaded
          split at h
          · rename_i hfresh
            cases h
            have hf := hw.flights f (List.mem_of_getElem? hflight)
            have hgood := hf.good s (by rw [hloaded]; rfl)
            have hnew : ∀ token ∈ Session.tokens env, w.Fresh token := by
              intro token htoken
              exact hfresh token (List.mem_append_left _ htoken)
            exact hw.finish (hf.pending req s hloaded) hgood hnew
              (renewed_renew hf hgood.deadline req renewed) (honest_serve req) i
          · contradiction
        · contradiction
  | commit i generated always =>
      simp only [World.step] at h
      split at h
      · contradiction
      · rename_i f hflight
        split at h
        · rename_i s hserved
          split at h
          · cases h
            have hf := hw.flights f (List.mem_of_getElem? hflight)
            have hdone := hw.done hf i
            split
            · refine hdone.commit ?_ hserved generated
              exact hf.grow (by constructor <;> simp) rfl
            · exact hdone
          · contradiction
        · contradiction

private def registered : SourceType → String × String := fun _ => ("client", "secret")

private def answering (csrfToken stateToken : Option String) : Answers where
  csrfToken := csrfToken
  stateToken := stateToken
  getDataSource := fun _ => some
    { type := .msTodo, config := {}, secretCiphertext := "", oauthStatus := ""
      accessExpiry := none, lastSync := none, lastError := "", health := ""
      refreshIntervalSecs := 0 }
  exchange := fun _ _ => some ⟨"granted", "", none⟩
  storeToken := fun _ _ => true

/-- The page of browser 2 makes browser 1 send a change, and then a callback, with its
own cookie. -/
private def forged : List (Act Nat) :=
  [.load 1 1 "" (.loginPost true), .serve 0 (answering none none) (some "s1"),
    .commit 0 "-" false, .tick 60,
    .load 1 1 "s1" (.oauthStart "1"), .serve 1 (answering (some "c1") (some "o1")) none,
    .commit 1 "-" false,
    .load 1 2 "s1" (.other true "guess"), .serve 2 (answering none none) none,
    .commit 2 "-" false,
    .load 1 2 "s1" (.oauthCallback "guess" "code"), .serve 3 (answering none none) none,
    .commit 3 "-" false,
    .load 1 1 "s1" (.oauthCallback "o1" "code"), .serve 4 (answering none none) none]

end World

end FamilyPlanner.Server.Access

import FamilyPlanner.Broker.World
import FamilyPlanner.Foundation.Interleaving
import FamilyPlanner.Foundation.Run
import Mathlib.Data.List.Nodup

/-!
# OAuth requests of one admin session

A request works on a copy of the session's values that was loaded when it
started, and the whole copy is committed when it ends.  The state of an OAuth
request and the data source it is for are two of these values.
-/

namespace FamilyPlanner.Server.OAuth

open FamilyPlanner.Foundation FamilyPlanner.Widget FamilyPlanner.Broker

/-- An absent value reads as the empty text or as `false`. -/
structure Values where
  csrf : String := ""
  authed : Bool := false
  oauthState : String := ""
  oauthDs : String := ""
  deriving DecidableEq, Repr

structure Sessions where
  values : Values
  modified : Bool := false
  deriving DecidableEq, Repr

def Sessions.put (s : Sessions) (f : Values → Values) : Sessions := ⟨f s.values, true⟩

/-- `authCodeURL` redirects to the provider. -/
inductive Reply where
  | error (text : String) (code : Nat)
  | redirect (location : String)
  | authCodeURL (dsType : SourceType) (state : String)
  | page
  deriving DecidableEq, Repr

structure StoredToken where
  state : String
  dataSourceID : Int
  token : Token
  deriving DecidableEq, Repr

/--
What came of a request.  `issued` is the state generated for a data source,
`stored` the token stored for one, with the state that was presented.
-/
structure Served where
  sessions : Sessions
  reply : Reply
  issued : Option (String × Int) := none
  stored : Option StoredToken := none
  destroyed : Bool := false

/-- What a request meets outside of the session.  `csrfToken` and `stateToken`
are the answers of `NewToken`, `none` an error. -/
structure Answers where
  csrfToken : Option String
  stateToken : Option String
  getDataSource : Int → Option DataSource
  exchange : SourceType → String → Option Token
  storeToken : Int → Token → Bool

abbrev Handler := Sessions → Served

/-- `oauthApp` is the app's client id and secret for a type of sources. -/
def oauthConfig (oauthApp : SourceType → String × String) (dsType : SourceType) : Bool :=
  (oauthApp dsType).1 ≠ "" && dsType.known

variable (oauthApp : SourceType → String × String) (env : Answers)

def handleOAuthStart (param : String) : Handler := fun s =>
  match atoi param with
  | none => { sessions := s, reply := .error "bad id" 400 }
  | some id =>
      match env.getDataSource id with
      | none => { sessions := s, reply := .error "not found" 404 }
      | some ds =>
          if oauthConfig oauthApp ds.type then
            let state := env.stateToken.getD ""
            let s := s.put fun v => { v with oauthState := state }
            let s := s.put fun v => { v with oauthDs := id.repr }
            { sessions := s
              reply := .authCodeURL ds.type state
              issued := env.stateToken.map fun state => (state, id) }
          else
            { sessions := s
              reply := .error "OAuth app credentials not configured for this provider" 400 }

def handleOAuthCallback (state code : String) : Handler := fun s =>
  if state = "" ∨ state ≠ s.values.oauthState then
    { sessions := s, reply := .error "bad oauth state" 400 }
  else
    let id := atoiValue s.values.oauthDs
    match env.getDataSource id with
    | none => { sessions := s, reply := .error "not found" 404 }
    | some ds =>
        if oauthConfig oauthApp ds.type then
          match env.exchange ds.type code with
          | none => { sessions := s, reply := .error "token exchange failed" 502 }
          | some tok =>
              if env.storeToken id tok then
                { sessions := s
                  reply := .redirect "/admin/datasources"
                  stored := some ⟨state, id, tok⟩ }
              else { sessions := s, reply := .error "seal failed" 500 }
        else
          { sessions := s, reply := .error "OAuth app credentials not configured" 400 }

def requireLogin (next : Handler) : Handler := fun s =>
  if s.values.authed then next s else { sessions := s, reply := .redirect "/login" }

def csrfMiddleware (mutating : Bool) (sent : String) (next : Handler) : Handler :=
  fun s =>
    let fresh := s.values.csrf = ""
    let tok := if fresh then env.csrfToken.getD "" else s.values.csrf
    let s := if fresh then s.put fun v => { v with csrf := tok } else s
    if mutating ∧ (sent = "" ∨ sent ≠ tok) then
      { sessions := s, reply := .error "bad csrf token" 403 }
    else next s

/-- `RenewToken` keeps the values. -/
def handleLoginPost (accepted : Bool) : Handler := fun s =>
  if accepted then
    { sessions := s.put fun v => { v with authed := true }, reply := .redirect "/admin" }
  else { sessions := s, reply := .error "login.error" 401 }

def handleLogout : Handler := fun _ =>
  { sessions := ⟨{}, false⟩, reply := .redirect "/login", destroyed := true }

/-- `other` is any other page of the admin, which leaves the session alone. -/
inductive Request where
  | oauthStart (id : String)
  | oauthCallback (state code : String)
  | loginPost (accepted : Bool)
  | logout (sent : String)
  | other (mutating : Bool) (sent : String)
  deriving DecidableEq, Repr

def serve : Request → Handler
  | .oauthStart id =>
      requireLogin (csrfMiddleware env false "" (handleOAuthStart oauthApp env id))
  | .oauthCallback state code =>
      requireLogin
        (csrfMiddleware env false "" (handleOAuthCallback oauthApp env state code))
  | .loginPost accepted => handleLoginPost accepted
  | .logout sent => requireLogin (csrfMiddleware env true sent handleLogout)
  | .other mutating sent =>
      requireLogin (csrfMiddleware env mutating sent fun s =>
        { sessions := s, reply := .page })

/-! ## Overlapping requests -/

inductive Progress where
  | loaded (req : Request) (sessions : Sessions)
  | served (sessions : Sessions)
  | done
  deriving DecidableEq, Repr

/--
`issued`, `generated` and `stored` are history: the states with their data
sources, the values of `NewToken`, and the tokens.
-/
structure Session where
  committed : Values := {}
  requests : List Progress := []
  issued : List (String × Int) := []
  generated : List String := []
  stored : List StoredToken := []

namespace Session

/-- `commit` says whether a session is committed that was not modified. -/
inductive Act where
  | load (req : Request)
  | serve (i : Nat) (env : Answers)
  | commit (i : Nat) (always : Bool)

def tokens (env : Answers) : List String := env.csrfToken.toList ++ env.stateToken.toList

/-- `NewToken` never repeats a value. -/
def New (s : Session) (env : Answers) : Prop :=
  (tokens env).Nodup ∧ ∀ tok ∈ tokens env, tok ∉ s.generated

instance (s : Session) (env : Answers) : Decidable (s.New env) :=
  inferInstanceAs (Decidable (_ ∧ _))

def step (s : Session) : Act → Option Session
  | .load req =>
      some { s with requests := s.requests ++ [.loaded req ⟨s.committed, false⟩] }
  | .serve i env =>
      match s.requests[i]? with
      | some (.loaded req sessions) =>
          if s.New env then
            let out := OAuth.serve oauthApp env req sessions
            some
              { committed := if out.destroyed then {} else s.committed
                requests := s.requests.set i (.served out.sessions)
                issued := s.issued ++ out.issued.toList
                generated := s.generated ++ tokens env
                stored := s.stored ++ out.stored.toList }
          else none
      | _ => none
  | .commit i always =>
      match s.requests[i]? with
      | some (.served sessions) =>
          some { s with
            committed :=
              if sessions.modified || always then sessions.values else s.committed
            requests := s.requests.set i .done }
      | _ => none

def acts : System Session Act := ⟨step oauthApp⟩

end Session

/-! ## The state and its data source -/

/-- The state was generated for the data source that stands next to it. -/
def Values.Paired (issued : List (String × Int)) (v : Values) : Prop :=
  v.oauthState ≠ "" → (v.oauthState, atoiValue v.oauthDs) ∈ issued

variable {oauthApp env}

theorem Values.Paired.mono {issued more : List (String × Int)} {v : Values}
    (h : v.Paired issued) : v.Paired (issued ++ more) :=
  fun hstate => List.mem_append_left more (h hstate)

structure Keeps (env : Answers) (issued : List (String × Int)) (out : Served) : Prop where
  paired : out.sessions.values.Paired (issued ++ out.issued.toList)
  generated : ∀ e ∈ out.issued, env.stateToken = some e.1
  stored : ∀ tok ∈ out.stored, (tok.state, tok.dataSourceID) ∈ issued

variable {issued : List (String × Int)} {s : Sessions}

theorem keeps_unchanged (h : s.values.Paired issued) (reply : Reply) :
    Keeps env issued { sessions := s, reply := reply } :=
  ⟨h.mono, by simp, by simp⟩

theorem keeps_handleOAuthStart (h : s.values.Paired issued) (param : String) :
    Keeps env issued (handleOAuthStart oauthApp env param s) := by
  unfold handleOAuthStart
  split
  · exact keeps_unchanged h _
  · rename_i id hid
    split
    · exact keeps_unchanged h _
    · split
      · obtain ⟨hmin, hmax⟩ := atoi_bounds hid
        constructor
        · intro hstate
          cases htoken : env.stateToken with
          | none => simp [Sessions.put, htoken] at hstate
          | some state =>
              simp [Sessions.put, atoiValue_repr hmin hmax]
        · intro e he
          obtain ⟨state, hstate, rfl⟩ := Option.map_eq_some_iff.mp he
          exact hstate
        · simp
      · exact keeps_unchanged h _

theorem keeps_handleOAuthCallback (h : s.values.Paired issued) (state code : String) :
    Keeps env issued (handleOAuthCallback oauthApp env state code s) := by
  unfold handleOAuthCallback
  split
  · exact keeps_unchanged h _
  · rename_i hpresented
    obtain ⟨hstate, hsame⟩ := not_or.mp hpresented
    have hsame : state = s.values.oauthState := not_not.mp hsame
    dsimp only
    split
    · exact keeps_unchanged h _
    · split
      · split
        · exact keeps_unchanged h _
        · split
          · refine ⟨h.mono, by simp, ?_⟩
            intro tok htok
            cases htok
            rw [hsame] at hstate ⊢
            exact h hstate
          · exact keeps_unchanged h _
      · exact keeps_unchanged h _

theorem keeps_requireLogin {next : Handler} (h : s.values.Paired issued)
    (hnext : Keeps env issued (next s)) : Keeps env issued (requireLogin next s) := by
  unfold requireLogin
  split
  · exact hnext
  · exact keeps_unchanged h _

theorem keeps_csrfMiddleware {next : Handler} (mutating : Bool) (sent : String)
    (h : s.values.Paired issued)
    (hnext : ∀ s : Sessions, s.values.Paired issued → Keeps env issued (next s)) :
    Keeps env issued (csrfMiddleware env mutating sent next s) := by
  unfold csrfMiddleware
  dsimp only
  split
  · split
    · exact keeps_unchanged (s := s.put _) h _
    · exact hnext (s.put _) h
  · split
    · exact keeps_unchanged h _
    · exact hnext s h

theorem keeps_serve (req : Request) (h : s.values.Paired issued) :
    Keeps env issued (serve oauthApp env req s) := by
  cases req with
  | oauthStart id =>
      apply keeps_requireLogin h
      exact keeps_csrfMiddleware _ _ h fun _ hs => keeps_handleOAuthStart hs id
  | oauthCallback state code =>
      apply keeps_requireLogin h
      exact keeps_csrfMiddleware _ _ h fun _ hs => keeps_handleOAuthCallback hs state code
  | loginPost accepted =>
      simp only [serve, handleLoginPost]
      split
      · exact ⟨h.mono, by simp, by simp⟩
      · exact keeps_unchanged h _
  | logout sent =>
      apply keeps_requireLogin h
      apply keeps_csrfMiddleware _ _ h
      intro s _
      exact ⟨by simp [handleLogout, Values.Paired], by simp [handleLogout],
        by simp [handleLogout]⟩
  | other mutating sent =>
      apply keeps_requireLogin h
      exact keeps_csrfMiddleware _ _ h fun _ hs => keeps_unchanged hs _

def Progress.sessions : Progress → Option Sessions
  | .loaded _ sessions | .served sessions => some sessions
  | .done => none

namespace Session

structure Sound (s : Session) : Prop where
  committed : s.committed.Paired s.issued
  requests : ∀ p ∈ s.requests, ∀ sessions ∈ p.sessions, sessions.values.Paired s.issued
  generated : ∀ e ∈ s.issued, e.1 ∈ s.generated
  unique : (s.issued.map Prod.fst).Nodup
  stored : ∀ tok ∈ s.stored, (tok.state, tok.dataSourceID) ∈ s.issued

variable {s s' : Session}

theorem Sound.serve (hs : s.Sound) {i : Nat} {req : Request} {sessions : Sessions}
    (hrequest : s.requests[i]? = some (.loaded req sessions)) (hnew : s.New env) :
    let out := OAuth.serve oauthApp env req sessions
    Sound
      { committed := if out.destroyed then {} else s.committed
        requests := s.requests.set i (.served out.sessions)
        issued := s.issued ++ out.issued.toList
        generated := s.generated ++ tokens env
        stored := s.stored ++ out.stored.toList } := by
  intro out
  have hkeeps : Keeps env s.issued out :=
    keeps_serve req (hs.requests _ (List.mem_of_getElem? hrequest) sessions rfl)
  have hdrawn : ∀ e ∈ out.issued, e.1 ∈ tokens env := by
    intro e he
    apply List.mem_append_right
    exact Option.mem_toList.mpr (hkeeps.generated e he)
  constructor
  · dsimp only
    split
    · intro hstate
      exact absurd rfl hstate
    · exact hs.committed.mono
  · apply forall_resumed
    · intro p hp sessions' hsessions
      exact (hs.requests p hp sessions' hsessions).mono
    · intro sessions' hsessions
      cases hsessions
      exact hkeeps.paired
  · intro e he
    rcases List.mem_append.mp he with he | he
    · exact List.mem_append_left _ (hs.generated e he)
    · exact List.mem_append_right _ (hdrawn e (Option.mem_toList.mp he))
  · rw [List.map_append, List.nodup_append]
    refine ⟨hs.unique, ?_, ?_⟩
    · cases out.issued <;> simp
    · intro state hold state' hissued heq
      obtain ⟨e, he, rfl⟩ := List.mem_map.mp hold
      obtain ⟨e', he', rfl⟩ := List.mem_map.mp hissued
      have hmem := hs.generated e he
      rw [heq] at hmem
      exact hnew.2 _ (hdrawn e' (Option.mem_toList.mp he')) hmem
  · intro tok htok
    rcases List.mem_append.mp htok with htok | htok
    · exact List.mem_append_left _ (hs.stored tok htok)
    · exact List.mem_append_left _ (hkeeps.stored tok (Option.mem_toList.mp htok))

theorem Sound.step {a : Act} (hs : s.Sound) (h : (acts oauthApp).step s a = some s') :
    s'.Sound := by
  cases a with
  | load req =>
      cases h
      refine ⟨hs.committed, ?_, hs.generated, hs.unique, hs.stored⟩
      apply forall_started hs.requests
      intro sessions hsessions
      cases hsessions
      exact hs.committed
  | serve i env =>
      simp only [acts, Session.step] at h
      split at h
      · rename_i req sessions hrequest
        split at h
        · rename_i hnew
          cases h
          exact hs.serve hrequest hnew
        · contradiction
      · contradiction
  | commit i always =>
      simp only [acts, Session.step] at h
      split at h
      · rename_i sessions hrequest
        cases h
        refine ⟨?_, ?_, hs.generated, hs.unique, hs.stored⟩
        · dsimp only
          split
          · exact hs.requests _ (List.mem_of_getElem? hrequest) sessions rfl
          · exact hs.committed
        · apply forall_resumed hs.requests
          intro sessions' hsessions
          cases hsessions
      · contradiction

/-- A token is stored for the one data source that the presented state was
generated for. -/
theorem stored_for_requested {es : List Act}
    (hrun : (acts oauthApp).run {} es = some s) :
    ∀ tok ∈ s.stored, (tok.state, tok.dataSourceID) ∈ s.issued ∧
      ∀ id, (tok.state, id) ∈ s.issued → id = tok.dataSourceID := by
  have hs : s.Sound := by
    apply System.run_invariant (I := Sound) (fun _ _ _ hu h => hu.step h) _ hrun
    constructor <;> simp [Values.Paired]
  intro tok htok
  have hmem := hs.stored tok htok
  refine ⟨hmem, ?_⟩
  intro id hid
  have heq := List.inj_on_of_nodup_map hs.unique hid hmem rfl
  exact (Prod.mk.inj heq).2

private def app : SourceType → String × String := fun _ => ("client", "secret")

private def granted : Token := ⟨"granted", "", none⟩

private def answers (csrfToken stateToken : Option String) : Answers where
  csrfToken := csrfToken
  stateToken := stateToken
  getDataSource := fun _ => some
    { type := .msTodo, config := {}, secretCiphertext := "", oauthStatus := ""
      accessExpiry := none, lastSync := none, lastError := "", health := ""
      refreshIntervalSecs := 0 }
  exchange := fun _ _ => some granted
  storeToken := fun _ _ => true

private def overlapping : List Act :=
  [.load (.loginPost true), .serve 0 (answers none none), .commit 0 false,
    .load (.oauthStart "1"), .load (.oauthStart "2"),
    .serve 1 (answers (some "c1") (some "s1")), .serve 2 (answers (some "c2") (some "s2")),
    .commit 2 false, .commit 1 false,
    .load (.oauthCallback "s2" "code"), .serve 3 (answers none none),
    .load (.oauthCallback "s1" "code"), .serve 4 (answers none none)]

theorem stored_for_overlapping :
    ∃ s, (acts app).run {} overlapping = some s ∧
      s.issued = [("s1", 1), ("s2", 2)] ∧ s.stored = [⟨"s1", 1, granted⟩] ∧
      ∀ tok ∈ s.stored, (tok.state, tok.dataSourceID) ∈ s.issued ∧
        ∀ id, (tok.state, id) ∈ s.issued → id = tok.dataSourceID := by
  obtain ⟨s, hrun⟩ : ∃ s, (acts app).run {} overlapping = some s := ⟨_, rfl⟩
  refine ⟨s, hrun, ?_, ?_, stored_for_requested hrun⟩
  all_goals
    cases hrun
    rfl

end Session

end FamilyPlanner.Server.OAuth

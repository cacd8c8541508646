import Mathlib.Data.List.Infix
import FamilyPlanner.Foundation.Interleaving
import FamilyPlanner.Widget.Source

/-!
# The broker

`RefreshWidget` as a program of the calls it makes: to the store, to the OAuth
provider, to the widget's provider and to the clock.  Providers `P` and the
data `D` they return are parameters.
-/

namespace FamilyPlanner

open FamilyPlanner.Foundation FamilyPlanner.Widget

namespace Broker

inductive DataJson (D : Type) where
  | null
  | value (data : D)
  deriving DecidableEq, Repr

inductive Status where
  | ok
  | stale
  | error
  deriving DecidableEq, Repr

structure CacheRow (D : Type) where
  dataJson : DataJson D
  fetchedAt : Int
  expiresAt : Int
  status : Status
  errorMsg : String
  deriving DecidableEq, Repr

structure SourceRow where
  dataSourceID : Int
  filter : String
  resource : String
  color : String
  sourceType : SourceType
  sourceConfig : SourceConfig
  sourceSecret : String
  refreshIntervalSecs : Int
  deriving DecidableEq, Repr

structure WidgetRow where
  id : Int
  type : String
  configJson : ConfigJson
  deriving DecidableEq, Repr

/-- `errorCode` is that of an `oauth2.RetrieveError`, if it is one. -/
structure OAuthError where
  errorCode : Option String
  message : String
  deriving DecidableEq, Repr

inductive Call (P D : Type) where
  | listWidgetSources (widgetID : Int)
  | updateDataSourceSecret (cipher oauthStatus : String) (id : Int)
  | updateDataSourceHealth (accessExpiry : Option Int)
      (lastError health : String) (id : Int)
  | markDataSourceSynced (id : Int)
  | getSetting (key : String)
  | getWidgetCache (widgetID : Int)
  | markWidgetCacheStale (errorMsg : String) (widgetID : Int)
  | upsertWidgetCache (widgetID : Int) (dataJson : DataJson D) (expiresAt : Int)
      (status : Status) (errorMsg : String)
  | freshToken (dsType : SourceType) (tok : Token)
  | fetch (prov : P)
  | now

/-- The errors of store reads are not told apart, those of writes are ignored. -/
@[reducible] def Call.Res {P D : Type} : Call P D → Type
  | .listWidgetSources _ => Option (List SourceRow)
  | .getSetting _ => Option String
  | .getWidgetCache _ => Option (CacheRow D)
  | .freshToken _ _ => Except OAuthError Token
  | .fetch _ => Except String (Option D × Duration)
  | .now => Int
  | _ => Unit

abbrev Program (P D : Type) := Prog (Call P D) Call.Res

end Broker

/--
`typ` is `Registry.Get` followed by `NewProvider`, `marshalError` the error of
`json.Marshal`; `openSecret` and `sealSecret` are `crypto.Open` and
`crypto.Seal` under the key of the application, an empty text being no secret.
-/
structure Broker (P D : Type) where
  typ : String → Option (ConfigJson → List SourceInput → Except String P)
  marshalError : D → Option String
  openSecret : String → Option StoredSecret
  sealSecret : StoredSecret → Option String

namespace Broker

def interval : Int := 10

/-- A clock reading plus a duration, in the resolution of the store. -/
def stamp (now : Int) (ttl : Duration) : Int := (now + ttl) / 1000000000

/-- `unicode.ToLower` where the result is an ASCII letter. -/
def toLower (c : Char) : Char :=
  if c.toNat = 0x130 then 'i' else if c.toNat = 0x212a then 'k' else c.toLower

def classifyError (e : OAuthError) : String :=
  if e.errorCode = some "invalid_grant" then "reconnect"
  else if "invalid_grant".toList <:+: e.message.toList.map toLower then "reconnect"
  else "error"

variable {P D : Type}

def recordSourceHealth (id : Int) (expiry : Option Int) (health errMsg : String) :
    Program P D Unit :=
  .call (.updateDataSourceHealth expiry errMsg health id) fun _ =>
    if health = "ok" then .call (.markDataSourceSynced id) fun _ => .ret ()
    else .ret ()

/-- `none` is a nil secret: the refresh failed. -/
def refreshOAuth (b : Broker P D) (dsType : SourceType) (id : Int)
    (secret : StoredSecret) : Program P D (Option Secret) :=
  match secret.getToken with
  | none => recordSourceHealth id none "reconnect" "geen token" >>= fun _ =>
      .ret none
  | some tok =>
      .call (.freshToken dsType tok) fun (r : Except OAuthError Token) =>
        match r with
        | .error e =>
            recordSourceHealth id tok.expiry (classifyError e) e.message >>=
              fun _ => .ret none
        | .ok fresh =>
            let done : Program P D (Option Secret) :=
              recordSourceHealth id fresh.expiry "ok" "" >>= fun _ =>
                .ret (some (.accessToken fresh.accessToken))
            if fresh.accessToken ≠ tok.accessToken then
              match b.sealSecret (.token fresh) with
              | none => done
              | some cipher =>
                  .call (.updateDataSourceSecret cipher "connected" id) fun _ => done
            else done

/-- The secret handed to the provider: a fresh access token, or the stored
secret as it is when there is nothing to refresh or the refresh fails. -/
def resolveSecret (b : Broker P D) (r : SourceRow) : Program P D (Option Secret) :=
  let secret := if r.sourceSecret ≠ "" then b.openSecret r.sourceSecret else none
  match secret with
  | none => .ret none
  | some raw =>
      if r.sourceType.known then
        b.refreshOAuth r.sourceType r.dataSourceID raw >>= fun tok =>
          .ret (some (tok.getD (.stored raw)))
      else .ret (some (.stored raw))

def sourceInput (r : SourceRow) (secret : Option Secret) : SourceInput where
  type := r.sourceType
  config := r.sourceConfig
  secret := secret
  filter := r.filter
  resource := r.resource
  color := r.color
  refreshIntervalSecs := r.refreshIntervalSecs
  dataSourceID := r.dataSourceID

def sourceInputs (b : Broker P D) :
    List SourceRow → Program P D (List SourceInput)
  | [] => .ret []
  | r :: rows =>
      b.resolveSecret r >>= fun secret =>
        b.sourceInputs rows >>= fun out => .ret (sourceInput r secret :: out)

def sourcesFor (b : Broker P D) (widgetID : Int) :
    Program P D (List SourceInput) :=
  .call (.listWidgetSources widgetID) fun (rows : Option (List SourceRow)) =>
    match rows with
    | none => .ret []
    | some rows => b.sourceInputs rows

/-- OAuth sources are skipped: their health is set by the token refresh. -/
def recordSourcesHealth (fetchErr : Option String) :
    List SourceInput → Program P D Unit
  | [] => .ret ()
  | s :: sources =>
      if s.dataSourceID = 0 ∨ s.type.known then recordSourcesHealth fetchErr sources
      else
        (match fetchErr with
          | some e => recordSourceHealth s.dataSourceID none "error" e
          | none => recordSourceHealth s.dataSourceID none "ok" "") >>= fun _ =>
        recordSourcesHealth fetchErr sources

def defaultRefreshInterval : Int := 900

def globalRefreshInterval : Program P D Int :=
  .call (.getSetting "refresh_interval_secs") fun (v : Option String) =>
    let secs :=
      match v.bind atoi with
      | some n => if 0 < n then n else defaultRefreshInterval
      | none => defaultRefreshInterval
    .ret (if secs < 30 then 30 else secs)

def refreshCap (sources : List SourceInput) : Program P D Duration :=
  if sources = [] then .ret 0
  else globalRefreshInterval >>= fun global =>
    let best := sources.foldl (fun best s =>
      let iv := if s.refreshIntervalSecs ≤ 0 then global else s.refreshIntervalSecs
      if best = 0 ∨ iv < best then iv else best) 0
    .ret (seconds best)

def markErr (id : Int) (msg : String) : Program P D Unit :=
  .call (.getWidgetCache id) fun (row : Option (CacheRow D)) =>
    match row with
    | some _ => .call (.markWidgetCacheStale msg id) fun _ => .ret ()
    | none =>
        .call .now fun (now : Int) =>
          .call (.upsertWidgetCache id .null (stamp now (seconds interval)) .error msg)
            fun _ => .ret ()

/-- `RefreshWidget` up to the write of the cache: what is to be stored and for
how long, or the message for `markErr`. -/
def obtain (b : Broker P D) (wgt : WidgetRow) :
    Program P D (Except String (DataJson D × Duration)) :=
  match b.typ wgt.type with
  | none => .ret (.error "unknown widget type")
  | some newProvider =>
      b.sourcesFor wgt.id >>= fun sources =>
        match newProvider wgt.configJson sources with
        | .error err => .ret (.error err)
        | .ok prov =>
            .call (.fetch prov) fun (r : Except String (Option D × Duration)) =>
              match r with
              | .error err =>
                  recordSourcesHealth (some err) sources >>= fun _ =>
                    .ret (.error err)
              | .ok (data, ttl) =>
                  recordSourcesHealth none sources >>= fun _ =>
                    match data.bind b.marshalError with
                    | some err => .ret (.error err)
                    | none =>
                        let ttl := if ttl ≤ 0 then seconds 30 else ttl
                        refreshCap sources >>= fun cap =>
                          .ret (.ok (data.elim .null .value,
                            if 0 < cap then cap else ttl))

def refreshWidget (b : Broker P D) (wgt : WidgetRow) : Program P D Unit :=
  b.obtain wgt >>= fun r =>
    match r with
    | .error msg => markErr wgt.id msg
    | .ok (js, ttl) =>
        .call .now fun (now : Int) =>
          .call (.upsertWidgetCache wgt.id js (stamp now ttl) .ok "") fun _ =>
            .ret ()

end Broker

end FamilyPlanner

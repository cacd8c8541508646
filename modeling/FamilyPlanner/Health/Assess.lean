import FamilyPlanner.Broker.Rows
import Mathlib.Data.List.Sort

/-!
# The health summary

`health.Assess` classifies what the broker and the OAuth callback have recorded
about sources and widgets; `buildHealth` maps the rows of the store into its
inputs.  The pill of the admin page has a classifier of its own.
-/

namespace FamilyPlanner.Health

open FamilyPlanner.Widget FamilyPlanner.Broker

inductive Level where
  | ok
  | warn
  | error
  deriving DecidableEq, Repr

def Level.rank : Level → Nat
  | error => 2
  | warn => 1
  | ok => 0

structure Source where
  name : String
  isOAuth : Bool
  oauthStatus : String
  health : String
  deriving DecidableEq, Repr

/-- `status` and `fetchedAt` are `none` for a widget without a row in the cache. -/
structure Widget where
  name : String
  status : Option Status
  fetchedAt : Option Int
  deriving DecidableEq, Repr

inductive Kind where
  | reconnect
  | sync
  | stale
  deriving DecidableEq, Repr

structure Issue where
  level : Level
  kind : Kind
  subject : String
  message : String
  deriving DecidableEq, Repr

structure Summary where
  level : Level
  count : Nat
  issues : List Issue
  deriving DecidableEq, Repr

def Source.issue (s : Source) : Option Issue :=
  if s.isOAuth then
    if s.health = "reconnect" ∨ s.oauthStatus ≠ "connected" ∧ s.health ≠ "ok" then
      some ⟨.error, .reconnect, s.name, s.name ++ ": opnieuw verbinden"⟩
    else if s.health = "error" then
      some ⟨.warn, .sync, s.name, s.name ++ ": synchronisatie mislukt"⟩
    else none
  else none

/-- `now` is in nanoseconds, the rows of the cache are dated in seconds. -/
def Widget.issue (now : Int) (staleAfter : Duration) (w : Widget) : Option Issue :=
  if w.status = some .error ∨ w.status = some .stale then
    some ⟨.warn, .sync, w.name, w.name ++ ": synchronisatie mislukt"⟩
  else
    match w.fetchedAt with
    | none => none
    | some t =>
        if staleAfter < now - t * 1000000000 then
          some ⟨.warn, .stale, w.name, w.name ++ ": verouderd"⟩
        else none

def assess (sources : List Source) (widgets : List Widget) (now : Int)
    (staleAfter : Duration) : Summary :=
  let issues := sources.filterMap Source.issue ++
    widgets.filterMap (Widget.issue now staleAfter)
  let issues := issues.insertionSort fun i j => j.level.rank ≤ i.level.rank
  { level := issues.foldl (fun level i =>
      if level.rank < i.level.rank then i.level else level) .ok
    count := issues.length
    issues := issues }

theorem mem_assess {sources : List Source} {widgets : List Widget} {now : Int}
    {staleAfter : Duration} {i : Issue} :
    i ∈ (assess sources widgets now staleAfter).issues ↔
      (∃ s ∈ sources, s.issue = some i) ∨ ∃ w ∈ widgets, w.issue now staleAfter = some i := by
  simp [assess, List.mem_insertionSort]

theorem Source.kind_ne_stale {s : Source} {i : Issue} (h : s.issue = some i) :
    i.kind ≠ .stale := by
  unfold issue at h
  split at h
  · split at h
    · cases h
      simp
    · split at h
      · cases h
        simp
      · cases h
  · cases h

theorem Widget.old_of_stale {w : Widget} {now : Int} {staleAfter : Duration} {i : Issue}
    (h : w.issue now staleAfter = some i) (hkind : i.kind = .stale) :
    ∃ t, w.fetchedAt = some t ∧ t * 1000000000 + staleAfter < now := by
  unfold issue at h
  split at h
  · cases h
    cases hkind
  · cases ht : w.fetchedAt with
    | none => simp [ht] at h
    | some t =>
        rw [ht] at h
        by_cases hold : staleAfter < now - t * 1000000000
        · exact ⟨t, rfl, Int.add_lt_of_lt_sub_left hold⟩
        · simp [hold] at h

/-! ## The rows of the store -/

def staleAfter : Duration := minutes 60

def sourceOf (row : String × DataSource) : Source where
  name := row.1
  isOAuth := row.2.type.known
  oauthStatus := row.2.oauthStatus
  health := row.2.health

variable {D : Type}

/-- `name` is the column that the rest of the development leaves out. -/
def listWidgetHealth (name : Int → String) (widgets : Widgets)
    (cacheRow : Int → Option (CacheRow D)) : List Widget :=
  (widgets.rows.insertionSort fun a b => name a.id ≤ name b.id).map fun r =>
    ⟨name r.id, (cacheRow r.id).map CacheRow.status, (cacheRow r.id).map CacheRow.fetchedAt⟩

def buildHealth (dataSources : Option (List (String × DataSource)))
    (widgets : Option (List Widget)) (now : Int) : Summary :=
  assess ((dataSources.getD []).map sourceOf) (widgets.getD []) now staleAfter

def dsHealthDisplay (d : DataSource) (isOAuth : Bool) : String × String :=
  if isOAuth then
    if d.health = "reconnect" ∨ d.oauthStatus ≠ "connected" then
      ("error", "Opnieuw verbinden")
    else if d.health = "error" then ("warn", "Sync mislukt")
    else ("ok", "Verbonden")
  else if d.health = "ok" then ("ok", "Werkt")
  else if d.health = "error" then ("warn", "Ophalen mislukt")
  else ("", "")

end FamilyPlanner.Health

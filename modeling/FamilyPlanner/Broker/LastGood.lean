import FamilyPlanner.Foundation.Run
import FamilyPlanner.Broker.World

/-!
# Failed refreshes and the last good value

Any number of refreshes of one widget, each with its own answers and store
failures.  A failed refresh is to keep the last value that was stored.
-/

namespace FamilyPlanner.Broker

open FamilyPlanner.Foundation FamilyPlanner.Widget

variable {P D : Type}

structure Good (D : Type) where
  data : D
  fetchedAt : Int
  expiresAt : Int
  deriving DecidableEq, Repr

/-- What `status` and `error_msg` do not change. -/
def CacheRow.good (row : CacheRow D) : Option (Good D) :=
  match row.dataJson with
  | .null => none
  | .value data => some ⟨data, row.fetchedAt, row.expiresAt⟩

structure Refresh (P D : Type) where
  env : Env P D
  type : String
  configJson : ConfigJson

def Refresh.widget (r : Refresh P D) (id : Int) : WidgetRow :=
  ⟨id, r.type, r.configJson⟩

/-- The world, and what the last refresh that stored a value wrote. -/
structure Recorded (D : Type) where
  world : World D
  lastGood : Option (Good D)

namespace Recorded

def start (w : World D) : Recorded D := ⟨w, none⟩

def refresh (b : Broker P D) (id : Int) (s : Recorded D) (r : Refresh P D) :
    Recorded D :=
  let world := b.refreshed r.env s.world (r.widget id)
  match b.obtained r.env s.world (r.widget id) with
  | .error _ => ⟨world, s.lastGood⟩
  | .ok _ =>
      if r.env.faults.upsertWidgetCache then ⟨world, s.lastGood⟩
      else ⟨world, (world.cacheRow id).bind CacheRow.good⟩

def Kept (id : Int) (s : Recorded D) : Prop :=
  s.lastGood ≠ none → (s.world.cacheRow id).bind CacheRow.good = s.lastGood

def Fails (b : Broker P D) (id : Int) (s : Recorded D) (r : Refresh P D) : Prop :=
  Failed (b.obtained r.env s.world (r.widget id))

/-- If `markErr` cannot read the row then it cannot write it either. -/
def Spares (b : Broker P D) (id : Int) (s : Recorded D) (r : Refresh P D) : Prop :=
  s.lastGood ≠ none → s.Fails b id r →
    r.env.faults.getWidgetCache → r.env.faults.upsertWidgetCache

variable {b : Broker P D} {id : Int} {s : Recorded D} {r : Refresh P D}

theorem good_flagged (row : CacheRow D) (status : Status) (msg : String) :
    ({ row with status := status, errorMsg := msg } : CacheRow D).good = row.good :=
  rfl

theorem cacheRow_of_good {g : Good D} {row : Option (CacheRow D)}
    (h : row.bind CacheRow.good = some g) : ∃ r, row = some r ∧ r.good = some g :=
  Option.bind_eq_some_iff.mp h

theorem Kept.refresh_of_ok {fetched : DataJson D × Duration} (hs : s.Kept id)
    (h : b.obtained r.env s.world (r.widget id) = .ok fetched) :
    (s.refresh b id r).Kept id := by
  obtain ⟨at_, hrow⟩ := refreshed_of_ok h
  have hrow : (b.refreshed r.env s.world (r.widget id)).cacheRow id = _ := hrow
  simp only [refresh, h]
  split
  · rename_i hfault
    rw [if_pos hfault] at hrow
    intro hgood
    dsimp only at hgood ⊢
    rw [hrow]
    exact hs hgood
  · intro _
    rfl

theorem Kept.refresh_of_error {msg : String} (hs : s.Kept id)
    (h : b.obtained r.env s.world (r.widget id) = .error msg) :
    (s.refresh b id r).Kept id ↔ s.Spares b id r := by
  obtain ⟨at_, hrow⟩ := refreshed_of_error h
  have hrow : (b.refreshed r.env s.world (r.widget id)).cacheRow id = _ := hrow
  have hfails : s.Fails b id r := ⟨msg, h⟩
  simp only [refresh, h, Kept, Spares, hfails, forall_const]
  refine forall_congr' fun hgood => ?_
  obtain ⟨g, hg⟩ := Option.ne_none_iff_exists'.mp hgood
  obtain ⟨row, hcached, hrowgood⟩ := cacheRow_of_good ((hs hgood).trans hg)
  rw [hrow, hg]
  change s.world.cacheRow (r.widget id).id = _ at hcached
  rw [hcached]
  by_cases hget : r.env.faults.getWidgetCache
  · simp only [hget, if_true, forall_const]
    by_cases hupsert : r.env.faults.upsertWidgetCache
    · simpa [hupsert] using hrowgood
    · simp [hupsert, CacheRow.good]
  · simp only [hget]
    cases r.env.faults.markWidgetCacheStale with
    | false => simpa [good_flagged] using hrowgood
    | true => simpa using hrowgood

end Recorded

def refreshes (b : Broker P D) (id : Int) : System (Recorded D) (Refresh P D) where
  step s r := some (s.refresh b id r)

theorem Recorded.Kept.step {b : Broker P D} {id : Int} {s : Recorded D}
    {r : Refresh P D} (hs : s.Kept id) :
    (s.refresh b id r).Kept id ↔ s.Spares b id r := by
  cases h : b.obtained r.env s.world (r.widget id) with
  | error msg => exact hs.refresh_of_error h
  | ok fetched =>
      have hspares : s.Spares b id r := by
        rintro - ⟨msg, hfails⟩
        rw [h] at hfails
        contradiction
      exact iff_of_true (hs.refresh_of_ok h) hspares

/--
Over every run of refreshes the last value stored stays in the row exactly as
long as no failed refresh overwrites a row that it could not read.
-/
theorem kept_iff_spares (b : Broker P D) (id : Int) (w : World D)
    (rs : List (Refresh P D)) :
    (refreshes b id).Always (Recorded.Kept id) (.start w) rs ↔
      (refreshes b id).Along (Recorded.Spares b id) (.start w) rs := by
  obtain ⟨t, hrun⟩ :=
    System.exists_run (M := refreshes b id) (fun _ _ => ⟨_, rfl⟩) (.start w) rs
  refine System.always_iff_along ?_ (fun h => absurd rfl h)
    (System.Along.of_forall (C := fun _ _ => True) (fun _ _ => trivial) _ _) hrun
  intro s r s' hs _ hstep
  cases hstep
  exact hs.step

private def unlinked : Broker Unit Nat where
  typ _ := some fun _ _ => .ok ()
  marshalError _ := none
  openSecret _ := none
  sealSecret _ := none

private def nothingStored : World Nat where
  store := ⟨fun _ => none, fun _ => none, [], fun _ => none⟩
  calls := 0

private def attempt (fetched : Except String (Option Nat × Duration))
    (faults : Faults) : Refresh Unit Nat where
  env := ⟨0, fun _ => 0, fun _ => fetched, fun _ _ tok => .ok tok, faults⟩
  type := "weather"
  configJson := .object []

/-- A read that fails once lets a failed refresh replace the value by `null`. -/
theorem unread_row_is_overwritten :
    ∃ s t, (refreshes unlinked 1).run (.start nothingStored)
        [attempt (.ok (some 21, minutes 10)) {}] = some s ∧
      s.world.cacheRow 1 = some ⟨.value 21, 0, 600, .ok, ""⟩ ∧
      (refreshes unlinked 1).run s
        [attempt (.error "timeout") { getWidgetCache := true }] = some t ∧
      t.world.cacheRow 1 = some ⟨.null, 0, 10, .error, "timeout"⟩ ∧
      ¬ t.Kept 1 := by
  refine ⟨_, _, rfl, by decide, rfl, by decide, ?_⟩
  unfold Recorded.Kept
  decide

end FamilyPlanner.Broker

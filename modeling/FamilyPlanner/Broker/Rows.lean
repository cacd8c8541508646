import FamilyPlanner.Broker.World

/-!
# Rows of `widgets` and `widget_cache`

The table of the configured widgets under its primary key, and the row of the
cache that a refresh may write: its own.
-/

namespace FamilyPlanner.Broker

open FamilyPlanner.Foundation FamilyPlanner.Widget

structure Widgets where
  rows : List WidgetRow
  primaryKey : (rows.map WidgetRow.id).Nodup

namespace Widgets

def ids (t : Widgets) : List Int := t.rows.map WidgetRow.id

def get (t : Widgets) (id : Int) : Option WidgetRow := t.rows.find? (·.id = id)

theorem map_updated_id (rows : List WidgetRow) (id : Int) (configJson : ConfigJson) :
    (rows.map fun r => if r.id = id then { r with configJson } else r).map
      WidgetRow.id = rows.map WidgetRow.id := by
  induction rows with
  | nil => rfl
  | cons r rows ih =>
      simp only [List.map_cons, ih]
      split <;> rfl

/-- `UpdateWidget`; the name is left out. -/
def update (t : Widgets) (id : Int) (configJson : ConfigJson) : Widgets where
  rows := t.rows.map fun r => if r.id = id then { r with configJson } else r
  primaryKey := by
    rw [map_updated_id]
    exact t.primaryKey

theorem get_id {t : Widgets} {id : Int} {row : WidgetRow}
    (h : t.get id = some row) : row.id = id := by
  simpa using List.find?_some h

end Widgets

variable {P D : Type}

def Call.row : Call P D → Option Int
  | .markWidgetCacheStale _ id => some id
  | .upsertWidgetCache id _ _ _ _ => some id
  | _ => none

/-- No row of the cache but `id` is written. -/
abbrev Owns {α : Type} (id : Int) (p : Program P D α) : Prop :=
  p.Only (fun c => ∀ id', c.row = some id' → id' = id) fun _ _ => True

theorem Spare.owns {α : Type} {p : Program P D α} (hp : Spare p) (id : Int) :
    Owns id p := by
  apply Prog.Only.mono hp _ (fun _ _ h => h)
  intro c hc id' hrow
  cases c <;> first | contradiction | exact absurd trivial hc

theorem owns_markErr (id : Int) (msg : String) :
    Owns id (markErr id msg : Program P D Unit) := by
  apply only_markErr <;> simp [Call.row]

theorem owns_refreshWidget (b : Broker P D) (wgt : WidgetRow) :
    Owns wgt.id (b.refreshWidget wgt) := by
  apply ((spare_obtain b wgt).owns wgt.id).bind
  intro r
  cases r with
  | error msg => exact owns_markErr wgt.id msg
  | ok fetched =>
      refine ⟨by simp [Call.row], fun _ _ => ?_⟩
      exact ⟨by simp [Call.row], fun _ _ => Prog.only_ret ()⟩

theorem exec_cacheRow_of_ne (env : Env P D) {c : Call P D} (w : World D) {id : Int}
    (hc : ∀ id', c.row = some id' → id' ≠ id) :
    (env.exec c w).2.cacheRow id = w.cacheRow id := by
  by_cases hwrites : c.WritesCache
  · cases c with
    | markWidgetCacheStale errorMsg id' =>
        have hne : id ≠ id' := (hc id' rfl).symm
        simp only [Env.exec, World.cacheRow, World.write_store]
        split
        · rfl
        · simp [Store.markWidgetCacheStale, hne]
    | upsertWidgetCache id' dataJson expiresAt status errorMsg =>
        have hne : id ≠ id' := (hc id' rfl).symm
        simp only [Env.exec, World.cacheRow, World.write_store]
        split
        · rfl
        · simp [Store.upsertWidgetCache, hne]
    | _ => exact hwrites.elim
  · exact congrFun (exec_cache env c w hwrites) id

theorem refreshed_cacheRow_of_ne (b : Broker P D) (env : Env P D) (w : World D)
    {wgt : WidgetRow} {id : Int} (hid : wgt.id ≠ id) :
    (b.refreshed env w wgt).cacheRow id = w.cacheRow id := by
  apply (owns_refreshWidget b wgt).alone_frame (fun w : World D => w.cacheRow id)
  intro c w hc
  refine ⟨trivial, exec_cacheRow_of_ne env w ?_⟩
  intro id' hrow heq
  exact hid ((hc id' hrow).symm.trans heq)

end FamilyPlanner.Broker

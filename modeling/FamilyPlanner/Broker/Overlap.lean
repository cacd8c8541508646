import FamilyPlanner.Broker.Rows
import FamilyPlanner.Foundation.Run

/-!
# Overlapping refreshes

A refresh works from the row of `widgets` it was given, whoever starts it, and
ends in an unconditional write of the cache.  Refreshes run concurrently, one
call at a time; what comes from outside is different for every call.
-/

namespace FamilyPlanner.Broker

open FamilyPlanner.Foundation FamilyPlanner.Widget

/-- `version` is history: how often the widget had been saved. -/
structure Refreshing (P D : Type) where
  row : WidgetRow
  version : Nat
  rest : Program P D Unit

/--
`versions` and `origin` are history: how often each widget was saved, and the
version of the row that the content of its cache was obtained from.
-/
structure Overlap (P D : Type) where
  world : World D
  widgets : Widgets
  versions : Int → Nat := fun _ => 0
  origin : Int → Nat := fun _ => 0
  refreshing : List (Refreshing P D) := []

namespace Overlap

variable {P D : Type}

/--
`start` is any of the places that read a widget and refresh it: the scan of the
broker, `bgRefresh`, `cellForWidget`, and the handlers that save a widget or a
source.  `edit` changes the sources, their links and the settings.
-/
inductive Act (P D : Type) where
  | updateWidget (id : Int) (configJson : ConfigJson)
  | edit (dataSources : Int → Option DataSource) (widgetSources : List WidgetSource)
      (settings : String → Option String)
  | start (id : Int)
  | call (i : Nat) (env : Env P D)

def stored (env : Env P D) : Call P D → Option Int
  | .upsertWidgetCache id _ _ _ _ =>
      if env.faults.upsertWidgetCache then none else some id
  | _ => none

def credit (origin : Int → Nat) (version : Nat) : Option Int → Int → Nat
  | none => origin
  | some id => Function.update origin id version

def step (b : Broker P D) (s : Overlap P D) : Act P D → Option (Overlap P D)
  | .updateWidget id configJson =>
      some { s with
        widgets := s.widgets.update id configJson
        versions := Function.update s.versions id (s.versions id + 1) }
  | .edit dataSources widgetSources settings =>
      some { s with
        world := { s.world with
          store := ⟨s.world.store.widgetCache, dataSources, widgetSources, settings⟩ } }
  | .start id =>
      (s.widgets.get id).map fun row =>
        { s with
          refreshing := s.refreshing ++ [⟨row, s.versions id, b.refreshWidget row⟩] }
  | .call i env =>
      match s.refreshing[i]? with
      | some ⟨row, version, .call c next⟩ =>
          some { s with
            world := (env.exec c s.world).2
            origin := credit s.origin version (stored env c)
            refreshing :=
              s.refreshing.set i ⟨row, version, next (env.exec c s.world).1⟩ }
      | _ => none

def acts (b : Broker P D) : System (Overlap P D) (Act P D) := ⟨step b⟩

variable {b : Broker P D} {s s' : Overlap P D} {id : Int} {n : Nat}

theorem call_cases {i : Nat} {env : Env P D}
    (h : (acts b).step s (.call i env) = some s') :
    ∃ row version c next, s.refreshing[i]? = some ⟨row, version, .call c next⟩ ∧
      s' = { s with
        world := (env.exec c s.world).2
        origin := credit s.origin version (stored env c)
        refreshing :=
          s.refreshing.set i ⟨row, version, next (env.exec c s.world).1⟩ } := by
  simp only [acts, step] at h
  split at h
  · rename_i row version c next hthread
    exact ⟨row, version, c, next, hthread, by cases h; rfl⟩
  · contradiction

/-! ## Every refresh writes its own row -/

def Owned (s : Overlap P D) : Prop :=
  ∀ r ∈ s.refreshing, Owns r.row.id r.rest ∧ r.version ≤ s.versions r.row.id

theorem Owned.step {a : Act P D} (hs : s.Owned) (h : (acts b).step s a = some s') :
    s'.Owned := by
  cases a with
  | updateWidget id configJson =>
      cases h
      intro r hr
      obtain ⟨hown, hversion⟩ := hs r hr
      refine ⟨hown, ?_⟩
      show r.version ≤ Function.update s.versions id (s.versions id + 1) r.row.id
      by_cases hid : r.row.id = id
      · rw [hid] at hversion ⊢
        rw [Function.update_self]
        omega
      · rwa [Function.update_of_ne hid]
  | edit dataSources widgetSources settings =>
      cases h
      exact hs
  | start id =>
      obtain ⟨row, hget, rfl⟩ := Option.map_eq_some_iff.mp h
      have hsaved : s.versions id = s.versions row.id := by
        rw [Widgets.get_id hget]
      exact forall_started hs ⟨owns_refreshWidget b row, Nat.le_of_eq hsaved⟩
  | call i env =>
      obtain ⟨row, version, c, next, hthread, rfl⟩ := call_cases h
      obtain ⟨hown, hversion⟩ := hs _ (List.mem_of_getElem? hthread)
      exact forall_resumed hs i ⟨hown.2 _ trivial, hversion⟩

theorem row_of_stored {env : Env P D} {c : Call P D} {id : Int}
    (h : stored env c = some id) : c.row = some id := by
  cases c with
  | upsertWidgetCache id' dataJson expiresAt status errorMsg =>
      simp only [stored] at h
      split at h
      · contradiction
      · exact h
  | _ => cases h

/-! ## From a configuration on -/

def Call.Upserts : Call P D → Prop
  | .upsertWidgetCache _ _ _ _ _ => True
  | _ => False

def Spent (p : Program P D Unit) : Prop :=
  p.Only (fun c => ¬ Call.Upserts c) fun _ _ => True

theorem stored_eq_none {env : Env P D} {c : Call P D} (hc : ¬ Call.Upserts c) :
    stored env c = none := by
  cases c <;> first | rfl | exact absurd trivial hc

/-- No refresh that can still replace the cache was given an earlier row. -/
def Overtaken (id : Int) (n : Nat) (s : Overlap P D) : Prop :=
  ∀ r ∈ s.refreshing, r.row.id = id → n ≤ r.version ∨ Spent r.rest

/-- The cache holds what came of the `n`-th configuration or of a later one. -/
structure Current (id : Int) (n : Nat) (s : Overlap P D) : Prop where
  owned : s.Owned
  saved : n ≤ s.versions id
  content : n ≤ s.origin id
  overtaken : s.Overtaken id n

theorem Current.call {i : Nat} {env : Env P D} (hs : s.Current id n)
    (h : (acts b).step s (.call i env) = some s') : s'.Current id n := by
  have howned := hs.owned.step h
  obtain ⟨row, version, c, next, hthread, rfl⟩ := call_cases h
  have hmem := List.mem_of_getElem? hthread
  refine ⟨howned, hs.saved, ?_, ?_⟩
  · show n ≤ credit s.origin version (stored env c) id
    cases hstored : stored env c with
    | none => exact hs.content
    | some id' =>
        by_cases hid : id = id'
        · have hrow : row.id = id := by
            rw [hid]
            exact ((hs.owned _ hmem).1.1 id' (row_of_stored hstored)).symm
          rcases hs.overtaken _ hmem hrow with hversion | hspent
          · simpa [credit, hid] using hversion
          · rw [stored_eq_none hspent.1] at hstored
            contradiction
        · simpa [credit, hid] using hs.content
  · apply forall_resumed hs.overtaken
    intro hrow
    rcases hs.overtaken _ hmem hrow with hversion | hspent
    · exact .inl hversion
    · exact .inr (hspent.2 _ trivial)

theorem Current.step {a : Act P D} (hs : s.Current id n)
    (h : (acts b).step s a = some s') : s'.Current id n := by
  have howned := hs.owned.step h
  cases a with
  | updateWidget id' configJson =>
      cases h
      refine ⟨howned, ?_, hs.content, hs.overtaken⟩
      show n ≤ Function.update s.versions id' (s.versions id' + 1) id
      have hsaved := hs.saved
      by_cases hid : id = id'
      · subst hid
        simp only [Function.update_self]
        omega
      · simpa [hid] using hsaved
  | edit dataSources widgetSources settings =>
      cases h
      exact ⟨howned, hs.saved, hs.content, hs.overtaken⟩
  | start id' =>
      obtain ⟨row, hget, rfl⟩ := Option.map_eq_some_iff.mp h
      refine ⟨howned, hs.saved, hs.content, ?_⟩
      apply forall_started hs.overtaken
      intro hrow
      cases hrow.symm.trans (Widgets.get_id hget)
      exact .inl hs.saved
  | call i env => exact hs.call h

def idle (store : Store D) (widgets : Widgets) : Overlap P D where
  world := ⟨store, 0⟩
  widgets := widgets

/--
A refresh of the `n`-th configuration or a later one replaces the cache.  If no
refresh that can still replace it was given an earlier row, the cache never
goes back behind that configuration.
-/
theorem stays_current {store : Store D} {widgets : Widgets}
    {before after : List (Act P D)} {t : Overlap P D} {i version : Nat}
    {row : WidgetRow} {js : DataJson D} {expiresAt : Int} {msg : String}
    {next : Unit → Program P D Unit} {env : Env P D}
    (hreach : (acts b).run (idle store widgets) before = some s)
    (hthread : s.refreshing[i]? = some
      ⟨row, version, .call (.upsertWidgetCache row.id js expiresAt .ok msg) next⟩)
    (hversion : n ≤ version)
    (hstore : (acts b).step s (.call i env) = some s')
    (hstored : env.faults.upsertWidgetCache = false)
    (hovertaken : s'.Overtaken row.id n)
    (hrun : (acts b).run s' after = some t) : n ≤ t.origin row.id := by
  have howned : s.Owned := System.run_invariant (I := Owned)
    (fun _ _ _ hu h => hu.step h) (by simp [Owned, idle]) hreach
  have hcurrent : s'.Current row.id n := by
    refine ⟨howned.step hstore, ?_, ?_, hovertaken⟩
    all_goals
      obtain ⟨row', version', c, next', hthread', rfl⟩ := call_cases hstore
      cases hthread.symm.trans hthread'
    · exact Nat.le_trans hversion (howned _ (List.mem_of_getElem? hthread)).2
    · simpa [stored, hstored, credit] using hversion
  have ht : t.Current row.id n :=
    System.run_invariant (I := Current row.id n) (fun _ _ _ hu h => hu.step h)
      hcurrent hrun
  exact ht.content

/-! ## A refresh that is overtaken -/

private def echo : Broker ConfigJson ConfigJson where
  typ := fun _ => some fun config _ => .ok config
  marshalError := fun _ => none
  openSecret := fun _ => none
  sealSecret := fun _ => none

private def online : Env ConfigJson ConfigJson where
  now := 0
  dbNow := fun _ => 0
  fetch := fun config => .ok (some config, 0)
  freshToken := fun _ _ _ => .error ⟨none, ""⟩
  faults := {}

private def offline : Env ConfigJson ConfigJson := { online with fetch := fun _ => .error "offline" }

private def oldConfig : ConfigJson := .object [("url", "old")]

private def newConfig : ConfigJson := .object [("url", "new")]

private def clock : Widgets := ⟨[⟨1, "text", oldConfig⟩], by decide⟩

private def empty : Store ConfigJson := ⟨fun _ => none, fun _ => none, [], fun _ => none⟩

/-- The second refresh has failed and is about to flag the row when the widget is
saved; the third one is about to store. -/
private def saved : List (Act ConfigJson ConfigJson) :=
  [.start 1] ++ List.replicate 4 (.call 0 online) ++
    [.start 1, .call 1 online, .call 1 offline, .call 1 online, .updateWidget 1 newConfig,
      .start 1] ++ List.replicate 3 (.call 2 online)

theorem stays_current_without_overlap :
    ∃ s s' t, (acts echo).run (idle empty clock) saved = some s ∧
      (acts echo).step s (.call 2 online) = some s' ∧ s.origin 1 = 0 ∧
      (acts echo).run s' [.call 1 online, .start 1, .call 3 online] = some t ∧
      (t.world.cacheRow 1).map CacheRow.status = some .stale ∧ 1 ≤ t.origin 1 := by
  obtain ⟨s, hreach⟩ : ∃ s, (acts echo).run (idle empty clock) saved = some s :=
    ⟨_, rfl⟩
  obtain ⟨s', hstore⟩ : ∃ s', (acts echo).step s (.call 2 online) = some s' := by
    cases hreach
    exact ⟨_, rfl⟩
  obtain ⟨t, hrun⟩ : ∃ t,
      (acts echo).run s' [.call 1 online, .start 1, .call 3 online] = some t := by
    cases hreach
    cases hstore
    exact ⟨_, rfl⟩
  refine ⟨s, s', t, hreach, hstore, ?_, hrun, ?_, ?_⟩
  · cases hreach
    rfl
  · cases hreach
    cases hstore
    cases hrun
    rfl
  have hthread : s.refreshing[2]? = some ⟨⟨1, "text", newConfig⟩, 1,
      .call (.upsertWidgetCache 1 (.value newConfig) 30 .ok "")
        fun _ => .ret ()⟩ := by
    cases hreach
    rfl
  refine stays_current (n := 1) hreach hthread (Nat.le_refl 1) hstore rfl ?_ hrun
  cases hreach
  cases hstore
  intro r hr _
  rcases List.mem_cons.mp hr with rfl | hr
  · exact .inr trivial
  rcases List.mem_cons.mp hr with rfl | hr
  · exact .inr ⟨fun h => h, fun _ _ => trivial⟩
  · cases List.mem_singleton.mp hr
    exact .inl (Nat.le_refl 1)

/-- The fetch of the old configuration ends last, and its data stay. -/
theorem overtaken_fetch_overwrites :
    ∃ es s t, (acts echo).run (idle empty clock) es = some s ∧
      s.versions 1 = 1 ∧ s.origin 1 = 1 ∧
      s.refreshing[1]?.map Refreshing.version = some 1 ∧
      (acts echo).run s [.call 0 online, .call 0 online] = some t ∧
      t.origin 1 = 0 ∧
      (t.world.cacheRow 1).map CacheRow.dataJson = some (.value oldConfig) ∧
      (t.widgets.get 1).map WidgetRow.configJson = some newConfig :=
  ⟨[.start 1, .call 0 online, .call 0 online, .updateWidget 1 newConfig, .start 1,
      .call 1 online, .call 1 online, .call 1 online, .call 1 online],
    _, _, rfl, rfl, rfl, rfl, rfl, rfl, rfl, rfl⟩

end Overlap

end FamilyPlanner.Broker

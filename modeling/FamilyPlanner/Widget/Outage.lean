import FamilyPlanner.Widget.Providers

/-!
# Failing sources

What it means that a linked source fails, and when a provider all of whose
sources fail reports an error.  A source without a usable access token is
skipped, a list of tasks that cannot be read is left out: neither is an error.
-/

namespace FamilyPlanner.Widget

open FamilyPlanner.Foundation

namespace SourceInput

/-- The refresh of the token failed, or `call` fails with the fresh token. -/
def FailsWith (s : SourceInput) (call : String → Prop) : Prop :=
  match s.secret with
  | none => False
  | some (.stored _) => True
  | some (.accessToken value) => call value

def Refreshed (s : SourceInput) : Prop := Secret.getAccessToken s.secret ≠ ""

theorem FailsWith.call {s : SourceInput} {call : String → Prop}
    (h : s.FailsWith call) (hs : s.Refreshed) :
    call (Secret.getAccessToken s.secret) := by
  unfold FailsWith at h
  unfold Refreshed at hs
  cases hsecret : s.secret with
  | none => simp [hsecret] at h
  | some secret =>
      rw [hsecret] at h hs
      cases secret with
      | accessToken value => exact h
      | stored secret => exact absurd rfl hs

end SourceInput

namespace Remote

def TodoFails (r : Remote) (listID token : String) : Prop :=
  if listID = todoAllLists then
    match r.graphListTodoLists token with
    | .error _ => True
    | .ok lists => lists ≠ [] ∧ ∀ l ∈ lists, Failed (r.graphTodoTasks token l.id)
  else Failed (r.todoTasksFor token listID)

/-- The source fails: the call for it, or the refresh of its token.  The window
and the grouping are those the widget asks for. -/
def Fails (r : Remote) (w : Window) (group : Bool) (s : SourceInput) : Prop :=
  match s.type with
  | .ical => s.config.url ≠ "" ∧ Failed (r.fetchICS s.config.url s.filter w)
  | .rss => s.config.url ≠ "" ∧ Failed (r.fetchRSS s.config.url)
  | .msGraph => s.FailsWith fun token => Failed (r.graphCalendar token s.resource w)
  | .onedrive => s.FailsWith fun token => Failed (r.graphFolderPhotos token s.resource)
  | .msTodo => s.FailsWith (r.TodoFails s.resource)
  | .bring =>
      let cred := Secret.getCredentials s.secret
      cred.1 ≠ "" ∧ cred.2 ≠ "" ∧
        Failed (r.bringFetch cred.1 cred.2 s.resource group)
  | .text | .other _ => False

/-- The tasks of all lists are asked for and the lists can be listed: what
fails after that is not reported. -/
def Swallows (r : Remote) (s : SourceInput) : Prop :=
  s.resource = todoAllLists ∧
    ¬ Failed (r.graphListTodoLists (Secret.getAccessToken s.secret))

theorem failed_graphTodoTasksAllLists (r : Remote) (token : String) :
    Failed (r.graphTodoTasksAllLists token) ↔ Failed (r.graphListTodoLists token) := by
  unfold graphTodoTasksAllLists
  cases r.graphListTodoLists token <;> simp

theorem failed_todoTasksFor {r : Remote} {s : SourceInput}
    (h : r.TodoFails s.resource (Secret.getAccessToken s.secret)) :
    Failed (r.todoTasksFor (Secret.getAccessToken s.secret) s.resource) ↔
      ¬ r.Swallows s := by
  unfold Swallows
  by_cases hall : s.resource = todoAllLists
  · simp [hall, todoTasksFor, failed_graphTodoTasksAllLists]
  · rw [TodoFails, if_neg hall] at h
    simp [hall, h]

end Remote

/-! ## Providers whose sources fail -/

theorem exists_mem_sources {sources : List SourceInput} {p : SourceInput → Prop} :
    (∃ q ∈ sources.zipIdx, p q.1) ↔ ∃ s ∈ sources, p s := by
  conv_rhs => rw [← List.zipIdx_map_fst 0 sources]
  simp only [List.mem_map, exists_exists_and_eq_and]

section Collectors

variable {h : Helpers} {net : Net} {w : Window} {group : Bool}
  {sources : List SourceInput}

theorem failure_visits {α : Type} {visit : SourceInput × Nat → Visit α String} :
    (Tally.of (sources.zipIdx.map visit)).failure.isSome ↔
      (∀ p ∈ sources.zipIdx, ¬ (visit p).IsGot) ∧
        ∃ p ∈ sources.zipIdx, (visit p).IsFail := by
  rw [Tally.failure_isSome, List.forall_mem_map]
  simp only [List.mem_map, exists_exists_and_eq_and]

theorem failed_gathered {α : Type} {t : Tally α String}
    {d : Option Data × Duration} :
    Failed (match t.failure with
      | some err => .error err
      | none => .ok d : Fetched) ↔ t.failure.isSome := by
  cases t.failure <;> simp

/-! Photos and to-do lists skip a source without an access token. -/

theorem visitPhotos_of_fails {r : Remote} {s : SourceInput}
    (hs : s.type = .onedrive) (hfail : r.Fails w group s) :
    ¬ (visitPhotos r s).IsGot ∧ ((visitPhotos r s).IsFail ↔ s.Refreshed) := by
  simp only [Remote.Fails, hs] at hfail
  by_cases htoken : Secret.getAccessToken s.secret = ""
  · simp [visitPhotos, SourceInput.Refreshed, htoken]
  · simp [visitPhotos, SourceInput.Refreshed, htoken, hs, hfail.call htoken]

theorem failed_fetchPhotos {cfg : PhotosConfig}
    (hacc : ∀ s ∈ sources, s.type = .onedrive)
    (hfail : ∀ p ∈ sources.zipIdx, (net.source p.2).Fails w group p.1) :
    Failed (fetchPhotos h net cfg sources) ↔ ∃ s ∈ sources, s.Refreshed := by
  have hvisit (p) (hp : p ∈ sources.zipIdx) :=
    visitPhotos_of_fails (hacc p.1 (List.fst_mem_of_mem_zipIdx hp)) (hfail p hp)
  have hfailure : Failed (fetchPhotos h net cfg sources) ↔
      (Tally.of (sources.zipIdx.map fun p =>
        visitPhotos (net.source p.2) p.1)).failure.isSome :=
    failed_gathered
  rw [hfailure, failure_visits, ← exists_mem_sources]
  constructor
  · rintro ⟨-, p, hp, hpfail⟩
    exact ⟨p, hp, (hvisit p hp).2.mp hpfail⟩
  · rintro ⟨p, hp, hrefreshed⟩
    exact ⟨fun q hq => (hvisit q hq).1, p, hp, (hvisit p hp).2.mpr hrefreshed⟩

theorem visitTodo_of_fails (h : Helpers) (scope : String) (hideNoDue : Bool)
    {r : Remote} {s : SourceInput} (hs : s.type = .msTodo) (hfail : r.Fails w group s) :
    ((visitTodo h scope hideNoDue r s).IsGot ↔ s.Refreshed ∧ r.Swallows s) ∧
      ((visitTodo h scope hideNoDue r s).IsFail ↔ s.Refreshed ∧ ¬ r.Swallows s) := by
  simp only [Remote.Fails, hs] at hfail
  by_cases htoken : Secret.getAccessToken s.secret = ""
  · simp [visitTodo, SourceInput.Refreshed, htoken]
  · have hcall := Remote.failed_todoTasksFor (hfail.call htoken)
    simp [visitTodo, SourceInput.Refreshed, htoken, hs, hcall]

theorem failed_fetchTodo {scope : String} {hideNoDue : Bool}
    (hacc : ∀ s ∈ sources, s.type = .msTodo)
    (hfail : ∀ p ∈ sources.zipIdx, (net.source p.2).Fails w group p.1) :
    Failed (fetchTodo h net scope hideNoDue sources) ↔
      (∃ s ∈ sources, s.Refreshed) ∧
        ∀ p ∈ sources.zipIdx, p.1.Refreshed → ¬ (net.source p.2).Swallows p.1 := by
  have hvisit (p) (hp : p ∈ sources.zipIdx) :=
    visitTodo_of_fails h scope hideNoDue
      (hacc p.1 (List.fst_mem_of_mem_zipIdx hp)) (hfail p hp)
  have hfailure : Failed (fetchTodo h net scope hideNoDue sources) ↔
      (Tally.of (sources.zipIdx.map fun p =>
        visitTodo h scope hideNoDue (net.source p.2) p.1)).failure.isSome :=
    failed_gathered
  rw [hfailure, failure_visits, ← exists_mem_sources]
  constructor
  · rintro ⟨hgot, p, hp, hpfail⟩
    refine ⟨⟨p, hp, ((hvisit p hp).2.mp hpfail).1⟩, ?_⟩
    intro q hq hrefreshed hswallows
    exact hgot q hq ((hvisit q hq).1.mpr ⟨hrefreshed, hswallows⟩)
  · rintro ⟨⟨p, hp, hrefreshed⟩, hswallows⟩
    refine ⟨?_, p, hp, (hvisit p hp).2.mpr ⟨hrefreshed, hswallows p hp hrefreshed⟩⟩
    intro q hq hgot
    obtain ⟨hq', hqs⟩ := (hvisit q hq).1.mp hgot
    exact hswallows q hq hq' hqs

/-! A shopping list asks every source whose credentials it has. -/

theorem visitShopping_of_fails {r : Remote} {s : SourceInput}
    (hs : s.type = .bring) (hfail : r.Fails w group s) :
    (visitShopping group r s).IsFail ∧ ¬ (visitShopping group r s).IsGot := by
  simp only [Remote.Fails, hs] at hfail
  simp [visitShopping, hs, hfail]

theorem failed_fetchShopping (hne : sources ≠ [])
    (hacc : ∀ s ∈ sources, s.type = .bring)
    (hfail : ∀ p ∈ sources.zipIdx, (net.source p.2).Fails w group p.1) :
    Failed (fetchShopping net group sources) := by
  have hvisit (p) (hp : p ∈ sources.zipIdx) :=
    visitShopping_of_fails (hacc p.1 (List.fst_mem_of_mem_zipIdx hp)) (hfail p hp)
  have hfailure : Failed (fetchShopping net group sources) ↔
      (Tally.of (sources.zipIdx.map fun p =>
        visitShopping group (net.source p.2) p.1)).failure.isSome :=
    failed_gathered
  obtain ⟨p, hp⟩ : ∃ p, p ∈ sources.zipIdx :=
    List.exists_mem_of_ne_nil _ (by simpa using hne)
  rw [hfailure, failure_visits]
  exact ⟨fun q hq => (hvisit q hq).2, p, hp, (hvisit p hp).1⟩

/-! A calendar asks every source it can ask, and skips none of these. -/

def asked (s : SourceInput) : Bool := isFeed s || isGraph s || isTasks s

theorem forall_calendarVisits {cfg : CalendarConfig}
    {p : Visit CalEvent String → Prop} :
    (∀ v ∈ calendarVisits h net cfg sources, p v) ↔
      ∀ q ∈ sources.zipIdx,
        (isFeed q.1 → p (visitFeed (net.source q.2).fetchICS (h.window cfg)
          q.1.config.url q.1.filter q.1.color)) ∧
        (isGraph q.1 → p (visitGraph h (h.window cfg) (net.source q.2) q.1)) ∧
        (isTasks q.1 → p (visitTasks h (net.source q.2) q.1)) := by
  simp only [calendarVisits, List.forall_mem_append, List.forall_mem_map,
    List.mem_filter]
  grind

theorem calendarVisits_eq_nil {cfg : CalendarConfig} :
    calendarVisits h net cfg sources = [] ↔ ¬ ∃ s ∈ sources, asked s := by
  rw [← exists_mem_sources, List.eq_nil_iff_forall_not_mem]
  refine (forall_calendarVisits (p := fun _ => False)).trans ?_
  simp only [asked, Bool.or_eq_true]
  grind

theorem calendarVisits_asked {cfg : CalendarConfig} :
    ∀ v ∈ calendarVisits h net cfg sources, v.IsFail ∨ v.IsGot :=
  forall_calendarVisits.mpr fun _ _ =>
    ⟨fun _ => Visit.asked_ofExcept _, fun _ => Visit.asked_ofExcept _,
      fun _ => Visit.asked_ofExcept _⟩

theorem calendarVisits_not_isGot {cfg : CalendarConfig}
    (hfail : ∀ p ∈ sources.zipIdx,
      (net.source p.2).Fails (h.window cfg) group p.1) :
    (∀ v ∈ calendarVisits h net cfg sources, ¬ v.IsGot) ↔
      ∀ p ∈ sources.zipIdx, isTasks p.1 → ¬ (net.source p.2).Swallows p.1 := by
  rw [forall_calendarVisits]
  refine forall₂_congr fun p hp => ?_
  have hfail := hfail p hp
  have hfeed (hs : isFeed p.1) : ¬ (visitFeed (net.source p.2).fetchICS (h.window cfg)
      p.1.config.url p.1.filter p.1.color).IsGot := by
    simp only [isFeed, Bool.and_eq_true, decide_eq_true_eq] at hs
    simp only [Remote.Fails, hs.1] at hfail
    simp [visitFeed, hfail.2]
  have hgraph (hs : isGraph p.1) :
      ¬ (visitGraph h (h.window cfg) (net.source p.2) p.1).IsGot := by
    simp only [isGraph, Bool.and_eq_true, decide_eq_true_eq] at hs
    simp only [Remote.Fails, hs.1] at hfail
    simp [visitGraph, hfail.call hs.2]
  have htasks (hs : isTasks p.1) :
      (visitTasks h (net.source p.2) p.1).IsGot ↔ (net.source p.2).Swallows p.1 := by
    simp only [isTasks, Bool.and_eq_true, decide_eq_true_eq] at hs
    simp only [Remote.Fails, hs.1] at hfail
    simp [visitTasks, Remote.failed_todoTasksFor (hfail.call hs.2)]
  constructor
  · rintro ⟨-, -, hgot⟩ hs hswallows
    exact hgot hs ((htasks hs).mpr hswallows)
  · intro hswallows
    exact ⟨hfeed, hgraph, fun hs hgot => hswallows hs ((htasks hs).mp hgot)⟩

theorem failed_fetchCalendar_of_nil {cfg : CalendarConfig}
    (hnil : calendarVisits h net cfg sources = []) :
    Failed (fetchCalendar h net cfg sources) ↔
      cfg.url = "" ∨ Failed (net.fallbackFeed cfg.url cfg.filter (h.window cfg)) := by
  unfold fetchCalendar
  rw [hnil]
  by_cases hurl : cfg.url = ""
  · simp [hurl]
  · cases hfeed : net.fallbackFeed cfg.url cfg.filter (h.window cfg) with
    | error err =>
        simp [hurl, hfeed, visitFeed, Except.map, Visit.ofExcept, Tally.of, Tally.add]
    | ok evs =>
        simp [hurl, hfeed, visitFeed, Except.map, Visit.ofExcept, Tally.of, Tally.add]

theorem failed_fetchCalendar_of_ne_nil {cfg : CalendarConfig}
    (hne : calendarVisits h net cfg sources ≠ []) :
    Failed (fetchCalendar h net cfg sources) ↔
      ∀ v ∈ calendarVisits h net cfg sources, ¬ v.IsGot := by
  rw [← Tally.failure_isSome_of_asked hne calendarVisits_asked]
  unfold fetchCalendar Tally.failure
  cases hvisits : calendarVisits h net cfg sources with
  | nil => exact absurd hvisits hne
  | cons v visits =>
      simp only [reduceCtorEq, if_false]
      split
      · split <;> simp [*]
      · simp

theorem failed_fetchCalendar {cfg : CalendarConfig}
    (hfail : ∀ p ∈ sources.zipIdx,
      (net.source p.2).Fails (h.window cfg) group p.1) :
    Failed (fetchCalendar h net cfg sources) ↔
      if ∃ s ∈ sources, asked s then
        ∀ p ∈ sources.zipIdx, isTasks p.1 → ¬ (net.source p.2).Swallows p.1
      else cfg.url = "" ∨ Failed (net.fallbackFeed cfg.url cfg.filter (h.window cfg)) := by
  split
  · rename_i hasked
    have hne : calendarVisits h net cfg sources ≠ [] := by
      rw [ne_eq, calendarVisits_eq_nil, not_not]
      exact hasked
    rw [failed_fetchCalendar_of_ne_nil hne, calendarVisits_not_isGot hfail]
  · rename_i hasked
    exact failed_fetchCalendar_of_nil (calendarVisits_eq_nil.mpr hasked)

end Collectors

/-! ## Construction and fetch together -/

/-- Every linked source fails for a widget with this configuration. -/
def AllFail (h : Helpers) (net : Net) (raw : ConfigJson)
    (sources : List SourceInput) : Prop :=
  ∀ p ∈ sources.zipIdx,
    (net.source p.2).Fails (h.window (.read raw.get)) (raw.get "group" = "yes") p.1

def ConfigJson.Malformed (raw : ConfigJson) : Prop :=
  match raw with
  | malformed _ => True
  | object _ => False

def Kind.Reports (k : Kind) (h : Helpers) (net : Net) (raw : ConfigJson)
    (sources : List SourceInput) : Prop :=
  match k with
  | calendar => raw.Malformed ∨
      if ∃ s ∈ sources, asked s then
        ∀ p ∈ sources.zipIdx, isTasks p.1 → ¬ (net.source p.2).Swallows p.1
      else raw.get "url" = "" ∨ Failed
        (net.fallbackFeed (raw.get "url") (raw.get "filter") (h.window (.read raw.get)))
  | ticker => False
  | photos => raw.Malformed ∨ ∃ s ∈ sources, s.Refreshed
  | todolist => (∃ s ∈ sources, s.Refreshed) ∧
      ∀ p ∈ sources.zipIdx, p.1.Refreshed → ¬ (net.source p.2).Swallows p.1
  | shopping => True

variable {h : Helpers} {net : Net} {raw : ConfigJson} {sources : List SourceInput}

theorem Kind.failed_fetch (k : Kind) (hne : sources ≠ [])
    (hacc : ∀ s ∈ sources, s.type ∈ k.acceptsSources)
    (hfail : AllFail h net raw sources) :
    Failed (k.newProvider raw sources >>= Provider.fetch h net) ↔
      k.Reports h net raw sources := by
  cases k with
  | calendar =>
      cases raw with
      | malformed err => simp [newProvider, ConfigJson.checked, Reports,
          ConfigJson.Malformed, bind, Except.bind]
      | object members =>
          apply (failed_fetchCalendar hfail).trans
          simp only [Reports, ConfigJson.Malformed, false_or]
          rfl
  | ticker => simp [newProvider, Provider.fetch, fetchTicker, Reports, bind, Except.bind]
  | photos =>
      have hacc : ∀ s ∈ sources, s.type = .onedrive := by
        simpa [acceptsSources] using hacc
      cases raw with
      | malformed err => simp [newProvider, ConfigJson.checked, Reports,
          ConfigJson.Malformed, bind, Except.bind]
      | object members =>
          apply (failed_fetchPhotos hacc hfail).trans
          simp only [Reports, ConfigJson.Malformed, false_or]
  | todolist =>
      have hacc : ∀ s ∈ sources, s.type = .msTodo := by
        simpa [acceptsSources] using hacc
      exact failed_fetchTodo hacc hfail
  | shopping =>
      have hacc : ∀ s ∈ sources, s.type = .bring := by
        simpa [acceptsSources] using hacc
      exact iff_of_true (failed_fetchShopping hne hacc hfail) trivial

end FamilyPlanner.Widget

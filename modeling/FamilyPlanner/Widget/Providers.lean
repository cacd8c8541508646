import FamilyPlanner.Widget.Source

/-!
# The providers that consume data sources

The `Fetch` methods of the calendar, ticker, photos, todolist and shopping
providers.  Each visits the linked sources in order, skips those that lack
what the call needs, and merges what the calls return.  The data a provider
returns is `none` for a nil `Data`.
-/

namespace FamilyPlanner.Widget

open FamilyPlanner.Foundation

abbrev Fetched := Except String (Option Data × Duration)

def todoAllLists : String := "__all__"

namespace Remote

/-- `GraphTodoTasksAllLists`: a list whose tasks cannot be read is left out. -/
def graphTodoTasksAllLists (r : Remote) (token : String) :
    Except String (List TodoTask) :=
  match r.graphListTodoLists token with
  | .error e => .error e
  | .ok lists => .ok (lists.flatMap fun l =>
      match r.graphTodoTasks token l.id with
      | .error _ => []
      | .ok ts => ts)

def todoTasksFor (r : Remote) (token listID : String) :
    Except String (List TodoTask) :=
  if listID = todoAllLists then r.graphTodoTasksAllLists token
  else if listID = "" then
    match r.graphListTodoLists token with
    | .error e => .error e
    | .ok [] => .ok []
    | .ok (l :: _) => r.graphTodoTasks token l.id
  else r.graphTodoTasks token listID

def bringFetch (r : Remote) (email password listName : String) (group : Bool) :
    Except String (List String) :=
  match r.bringLogin email password with
  | .error e => .error e
  | .ok auth =>
      let listUUID :=
        if listName ≠ "" then
          let u := r.bringResolveList auth listName
          if u ≠ "" then u else auth.bringListUUID
        else auth.bringListUUID
      r.bringItems auth listUUID group

end Remote

/-! ## Texts -/

def isSpace (c : Char) : Bool :=
  c.toNat ∈ [0x09, 0x0a, 0x0b, 0x0c, 0x0d, 0x20, 0x85, 0xa0, 0x1680, 0x2000,
    0x2001, 0x2002, 0x2003, 0x2004, 0x2005, 0x2006, 0x2007, 0x2008, 0x2009,
    0x200a, 0x2028, 0x2029, 0x202f, 0x205f, 0x3000]

def trimSpace (s : String) : String :=
  String.ofList ((s.toList.dropWhile isSpace).reverse.dropWhile isSpace).reverse

/-- `strings.Map`, as `strings.ToLower` and `strings.ToUpper` use it. -/
def mapRunes (f : Char → Char) (s : String) : String :=
  String.ofList (s.toList.map f)

/-! ## Photos -/

def visitPhotos (r : Remote) (s : SourceInput) : Visit PhotoItem String :=
  if Secret.getAccessToken s.secret = "" ∨ s.type ≠ .onedrive then .skip
  else .ofExcept (r.graphFolderPhotos (Secret.getAccessToken s.secret) s.resource)

/-- The captions in order; a place is looked up once per cache key. -/
def captions (h : Helpers) (net : Net) (full : Bool) :
    List ((Int × Int) × String) → List PhotoItem → List String
  | _, [] => []
  | cache, it :: its =>
      let c := h.photoDate it.taken
      match it.geo, full with
      | some geo, true =>
          let key := h.geoKey geo
          let place := (cache.lookup key).getD (net.geocodeReverse geo)
          let c := if place = "" then c else if c = "" then place
            else c ++ " · " ++ place
          c :: captions h net full ((key, place) :: cache) its
      | _, _ => c :: captions h net full cache its

def fetchPhotos (h : Helpers) (net : Net) (cfg : PhotosConfig)
    (sources : List SourceInput) : Fetched :=
  let t := Tally.of (sources.zipIdx.map fun (s, i) => visitPhotos (net.source i) s)
  match t.failure with
  | some err => .error err
  | none =>
      let caps :=
        if cfg.caption = "date" ∨ cfg.caption = "full" then
          captions h net (cfg.caption = "full") [] t.items
        else []
      let secs :=
        match atoi cfg.interval with
        | some n => if 0 < n then n else 8
        | none => 8
      .ok (some (.photos (t.items.map PhotoItem.url) caps secs), minutes 45)

/-! ## Ticker -/

def tickerMaxItems : Nat := 50

def tickerLines (r : Remote) (s : SourceInput) : List String :=
  match s.type with
  | .text => ((s.config.lines.splitOn "\n").map trimSpace).filter (· ≠ "")
  | .rss =>
      if s.config.url ≠ "" then
        -- a failing feed is logged and contributes nothing
        match r.fetchRSS s.config.url with
        | .error _ => []
        | .ok titles => titles
      else []
  | _ => []

def fetchTicker (net : Net) (order : String) (sources : List SourceInput) :
    Fetched :=
  let items := sources.zipIdx.flatMap fun (s, i) => tickerLines (net.source i) s
  let items := if order = "random" then net.shuffle items else items
  .ok (some (.ticker (items.take tickerMaxItems)), minutes 5)

/-! ## To-do list -/

def todoItems (h : Helpers) (scope : String) (hideNoDue : Bool)
    (tasks : List TodoTask) : List String :=
  (tasks.filter fun t =>
      !(hideNoDue && t.due.isNone) &&
        (scope ≠ "today_overdue" || t.due.any h.dueByToday)).map fun t =>
    if h.todoDueLabel t.due = "" then t.title
    else t.title ++ " · " ++ h.todoDueLabel t.due

def visitTodo (h : Helpers) (scope : String) (hideNoDue : Bool) (r : Remote)
    (s : SourceInput) : Visit String String :=
  if s.type ≠ .msTodo then .skip
  else if Secret.getAccessToken s.secret = "" then .skip
  else .ofExcept
    ((r.todoTasksFor (Secret.getAccessToken s.secret) s.resource).map
      (todoItems h scope hideNoDue))

def fetchTodo (h : Helpers) (net : Net) (scope : String) (hideNoDue : Bool)
    (sources : List SourceInput) : Fetched :=
  let t := Tally.of (sources.zipIdx.map fun (s, i) =>
    visitTodo h scope hideNoDue (net.source i) s)
  match t.failure with
  | some err => .error err
  | none => .ok (some (.todolist t.items), minutes 10)

/-! ## Shopping -/

def visitShopping (group : Bool) (r : Remote) (s : SourceInput) :
    Visit String String :=
  if s.type ≠ .bring then .skip
  else
    let cred := Secret.getCredentials s.secret
    if cred.1 = "" ∨ cred.2 = "" then .skip
    else .ofExcept (r.bringFetch cred.1 cred.2 s.resource group)

def fetchShopping (net : Net) (group : Bool) (sources : List SourceInput) :
    Fetched :=
  let t := Tally.of (sources.zipIdx.map fun (s, i) =>
    visitShopping group (net.source i) s)
  match t.failure with
  | some err => .error err
  | none => .ok (some (.shopping t.items), minutes 5)

/-! ## Calendar -/

def visitFeed (fetch : String → String → Window → Except String (List CalEvent))
    (w : Window) (url filter color : String) : Visit CalEvent String :=
  .ofExcept ((fetch url filter w).map fun evs =>
    evs.map fun e => { e with color := color })

def visitGraph (h : Helpers) (w : Window) (r : Remote) (s : SourceInput) :
    Visit CalEvent String :=
  .ofExcept
    ((r.graphCalendar (Secret.getAccessToken s.secret) s.resource w).map fun evs =>
      (evs.filter fun e => h.matchTitle s.filter e.title).map fun e =>
        { e with color := s.color })

def visitTasks (h : Helpers) (r : Remote) (s : SourceInput) :
    Visit CalEvent String :=
  .ofExcept
    ((r.todoTasksFor (Secret.getAccessToken s.secret) s.resource).map fun tasks =>
      tasks.filterMap fun t =>
        match t.due with
        | none => none
        | some due =>
            if h.matchTitle s.filter t.title then
              some ⟨h.dueDay due, none, t.title, s.color, true⟩
            else none)

def isFeed (s : SourceInput) : Bool := s.type = .ical && s.config.url ≠ ""

def isGraph (s : SourceInput) : Bool :=
  s.type = .msGraph && Secret.getAccessToken s.secret ≠ ""

def isTasks (s : SourceInput) : Bool :=
  s.type = .msTodo && Secret.getAccessToken s.secret ≠ ""

def calendarVisits (h : Helpers) (net : Net) (cfg : CalendarConfig)
    (sources : List SourceInput) : List (Visit CalEvent String) :=
  let w := h.window cfg
  (sources.zipIdx.filter fun (s, _) => isFeed s).map (fun (s, i) =>
      visitFeed (net.source i).fetchICS w s.config.url s.filter s.color) ++
    (sources.zipIdx.filter fun (s, _) => isGraph s).map (fun (s, i) =>
      visitGraph h w (net.source i) s) ++
    (sources.zipIdx.filter fun (s, _) => isTasks s).map (fun (s, i) =>
      visitTasks h (net.source i) s)

def noDataSources : String := "calendar: no data sources configured"

def calendarMode (mode : String) : String :=
  if mode = "month" ∨ mode = "week" ∨ mode = "days" ∨ mode = "days_table" then mode
  else if mode = "weeks_abs" then "week"
  else "agenda"

def fetchCalendar (h : Helpers) (net : Net) (cfg : CalendarConfig)
    (sources : List SourceInput) : Fetched :=
  let visits :=
    match calendarVisits h net cfg sources with
    | [] =>
        if cfg.url ≠ "" then
          [visitFeed net.fallbackFeed (h.window cfg) cfg.url cfg.filter ""]
        else []
    | visits => visits
  if visits = [] then .error noDataSources
  else
    let t := Tally.of visits
    if t.ok = 0 then
      match t.firstErr with
      | some err => .error err
      | none => .ok (none, 0)
    else .ok (some (.calendar (calendarMode cfg.mode) cfg t.items), minutes 15)

/-! ## Construction -/

inductive Kind where
  | calendar
  | ticker
  | photos
  | todolist
  | shopping
  deriving DecidableEq, Repr

def Kind.acceptsSources : Kind → List SourceType
  | calendar => [.ical, .msGraph, .msTodo]
  | ticker => [.rss, .text]
  | photos => [.onedrive]
  | todolist => [.msTodo]
  | shopping => [.bring]

def Kind.id : Kind → String
  | calendar => "calendar"
  | ticker => "ticker"
  | photos => "photos"
  | todolist => "todolist"
  | shopping => "shopping"

inductive Provider where
  | calendar (cfg : CalendarConfig) (sources : List SourceInput)
  | ticker (order : String) (sources : List SourceInput)
  | photos (cfg : PhotosConfig) (sources : List SourceInput)
  | todolist (scope : String) (hideNoDue allLists : Bool)
      (sources : List SourceInput)
  | shopping (group : Bool) (sources : List SourceInput)
  deriving DecidableEq, Repr

/-- Only the calendar and the photos look at the outcome of decoding. -/
def Kind.newProvider (k : Kind) (raw : ConfigJson) (sources : List SourceInput) :
    Except String Provider :=
  match k with
  | calendar => raw.checked fun get => .calendar (.read get) sources
  | ticker => .ok (.ticker (raw.get "order") sources)
  | photos => raw.checked fun get =>
      .photos ⟨get "interval", get "caption"⟩ sources
  | todolist => .ok (.todolist (raw.get "scope") (raw.get "hide_no_due" = "yes")
      (raw.get "all_lists" = "yes") sources)
  | shopping => .ok (.shopping (raw.get "group" = "yes") sources)

def Provider.fetch (h : Helpers) (net : Net) : Provider → Fetched
  | calendar cfg sources => fetchCalendar h net cfg sources
  | ticker order sources => fetchTicker net order sources
  | photos cfg sources => fetchPhotos h net cfg sources
  | todolist scope hideNoDue _ sources => fetchTodo h net scope hideNoDue sources
  | shopping group sources => fetchShopping net group sources

end FamilyPlanner.Widget

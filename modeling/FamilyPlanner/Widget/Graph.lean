import FamilyPlanner.Calendar.AllDay
import FamilyPlanner.Calendar.Stamp

/-!
# Lists of Microsoft Graph

A list arrives in pages and only the first is asked for.  What is lost is what
the page leaves out, whatever becomes of the entries that are on it.
-/

namespace FamilyPlanner.Widget.Graph

open FamilyPlanner.Foundation FamilyPlanner.Foundation.Clock FamilyPlanner.Calendar

def graphBase : String := "https://graph.microsoft.com/v1.0"

/-- `body` is what decoding gives. -/
structure Response (α : Type) where
  status : Nat
  body : Except String α

def graphGet {α : Type} (answer : Except String (Response α)) : Except String α :=
  match answer with
  | .error err => .error err
  | .ok resp => if resp.status ≠ 200 then .error s!"graph: status {resp.status}" else resp.body

structure Page (α : Type) where
  value : List α
  nextLink : Option String

/-- `dueDateTime` is its `dateTime`, if there is one. -/
structure TodoEntry where
  title : String
  status : String
  dueDateTime : Option String
  deriving DecidableEq, Repr

structure Service where
  tasks : String → String → Except String (Response (Page TodoEntry))
  events : String → String → Except String (Response (Page GraphEvent))

/-! ## Due dates -/

/-- `2006-01-02T15:04:05.9999999`, `2006-01-02T15:04:05` and `time.RFC3339`; the
first two take the same texts. -/
def dueLayouts : List (String → Option Int) := [parseDateTime, parseDateTime, parseRFC3339]

def dueOf (e : TodoEntry) : Option Int :=
  match e.dueDateTime with
  | none => none
  | some s => if s = "" then none else (dueLayouts.findSome? fun parse => parse s).bind known

theorem dueOf_midnight {a b c d e f g h : Char} {date : Date}
    (hdate : civilDate [a, b, c, d] [e, f] [g, h] = some date) (title status : String) :
    dueOf ⟨title, status, some (String.ofList (a :: b :: c :: d :: '-' :: e :: f :: '-' ::
      g :: h :: "T00:00:00.0000000".toList))⟩ = known (date.number * day) := by
  have hsome : String.ofList (a :: b :: c :: d :: '-' :: e :: f :: '-' ::
      g :: h :: "T00:00:00.0000000".toList) ≠ "" := by
    intro hempty
    have hlength := congrArg (fun s => s.toList.length) hempty
    simp at hlength
  simp only [dueOf, if_neg hsome, dueLayouts, List.findSome?_cons, parseDateTime,
    String.toList_ofList, parseStamp_midnight hdate, Option.bind_some]

/-! ## Lists -/

/-- The tasks that `GraphTodoTasks` does not drop. -/
def isOpen (e : TodoEntry) : Bool := e.status ≠ "completed"

def taskOf (e : TodoEntry) : TodoTask := ⟨e.title, dueOf e⟩

def tasksURL (listID : String) : String :=
  graphBase ++ "/me/todo/lists/" ++ listID ++ "/tasks?$top=100"

def graphTodoTasks (g : Service) (token listID : String) : Except String (List TodoTask) :=
  match graphGet (g.tasks token (tasksURL listID)) with
  | .error err => .error err
  | .ok body => .ok ((body.value.filter isOpen).map taskOf)

def pad4 (n : Int) : String :=
  if n < 10 then s!"000{n}" else if n < 100 then s!"00{n}" else if n < 1000 then s!"0{n}"
  else s!"{n}"

def stamp (t : Int) : String :=
  let z : Zone := .fixed 0
  let d := dateAt z t
  s!"{pad4 d.year}-{pad2 d.monthOfYear}-{pad2 d.day}T{clockText z t}:{pad2 (z.secondOf t)}"

def eventsURL (calendarID : String) (w : Window) : String :=
  let path :=
    if calendarID ≠ "" then "/me/calendars/" ++ calendarID ++ "/calendarView"
    else "/me/calendarView"
  graphBase ++ path ++ "?startDateTime=" ++ stamp w.expandFrom ++ "&endDateTime=" ++
    stamp w.expandTo ++ "&$select=subject,start,end,isAllDay&$top=100&$orderby=start/dateTime"

def graphCalendar (g : Service) (token calendarID : String) (w : Window) :
    Except String (List CalEvent) :=
  match graphGet (g.events token (eventsURL calendarID w)) with
  | .error err => .error err
  | .ok body => .ok (graphEvents body.value)

/-! ## Pages -/

section Page

variable {α : Type} {page : Page α} {top : Nat} {list : List α}

/-- At most `top` entries of the list, in order, and a link while more remain. -/
structure Page.Of (page : Page α) (top : Nat) (list : List α) : Prop where
  first : page.value <+: list
  length : page.value.length ≤ top
  more : page.value ≠ list → page.nextLink.isSome

def Page.rest (page : Page α) (list : List α) : List α := list.drop page.value.length

theorem Page.Of.append (h : page.Of top list) : list = page.value ++ page.rest list :=
  List.prefix_iff_eq_append.mp h.first |>.symm

theorem perm_append_iff {l r : List α} : l.Perm (l ++ r) ↔ r = [] := by
  constructor
  · intro h
    have hlength := h.length_eq
    rw [List.length_append] at hlength
    exact List.eq_nil_of_length_eq_zero (by omega)
  · rintro rfl
    rw [List.append_nil]

end Page

/-- Each open task of the list is returned, as often as it is there. -/
def TasksReturned (r : Except String (List TodoTask)) (list : List TodoEntry) : Prop :=
  ∃ out, r = .ok out ∧ out.Perm ((list.filter isOpen).map taskOf)

def eventOf (e : GraphEvent) : Option CalEvent :=
  let t := parseGraphTime e.start
  if t = zeroTime then none
  else some ⟨t, known (parseGraphTime e.stop), e.subject, "", e.isAllDay⟩

def EventsReturned (r : Except String (List CalEvent)) (list : List GraphEvent) : Prop :=
  ∃ out, r = .ok out ∧ (out.map some).Perm (list.map eventOf)

theorem graphGet_ok {α : Type} (body : α) : graphGet (.ok ⟨200, .ok body⟩) = .ok body := rfl

section Lists

variable {g : Service} {token listID calendarID : String} {w : Window}

theorem tasksReturned_iff {page : Page TodoEntry} {top : Nat} {list : List TodoEntry}
    (hanswer : g.tasks token (tasksURL listID) = .ok ⟨200, .ok page⟩)
    (hpage : page.Of top list) :
    TasksReturned (graphTodoTasks g token listID) list ↔
      ∀ e ∈ page.rest list, e.status = "completed" := by
  have hout : graphTodoTasks g token listID = .ok ((page.value.filter isOpen).map taskOf) := by
    rw [graphTodoTasks, hanswer, graphGet_ok]
  have hlist : (list.filter isOpen).map taskOf = (page.value.filter isOpen).map taskOf ++
      ((page.rest list).filter isOpen).map taskOf := by
    conv_lhs => rw [hpage.append]
    rw [List.filter_append, List.map_append]
  have hperm : TasksReturned (graphTodoTasks g token listID) list ↔
      ((page.value.filter isOpen).map taskOf).Perm ((list.filter isOpen).map taskOf) := by
    simp [TasksReturned, hout]
  rw [hperm, hlist, perm_append_iff, List.map_eq_nil_iff, List.filter_eq_nil_iff]
  simp [isOpen]

theorem eventOf_isSome (e : GraphEvent) :
    (eventOf e).isSome ↔ parseGraphTime e.start ≠ zeroTime := by
  unfold eventOf
  by_cases h : parseGraphTime e.start = zeroTime <;> simp [h]

theorem map_some_graphEvents {value : List GraphEvent}
    (h : ∀ e ∈ value, parseGraphTime e.start ≠ zeroTime) :
    (graphEvents value).map some = value.map eventOf := by
  change (value.filterMap eventOf).map some = _
  induction value with
  | nil => rfl
  | cons e value ih =>
      have hsome := (eventOf_isSome e).mpr (h e (List.mem_cons_self ..))
      obtain ⟨ev, hev⟩ := Option.isSome_iff_exists.mp hsome
      rw [List.filterMap_cons_some hev, List.map_cons, List.map_cons, hev,
        ih fun e' he' => h e' (List.mem_cons_of_mem _ he')]

theorem eventsReturned_iff {page : Page GraphEvent} {top : Nat} {list : List GraphEvent}
    (hanswer : g.events token (eventsURL calendarID w) = .ok ⟨200, .ok page⟩)
    (hpage : page.Of top list) :
    EventsReturned (graphCalendar g token calendarID w) list ↔
      page.rest list = [] ∧ ∀ e ∈ list, parseGraphTime e.start ≠ zeroTime := by
  have hout : graphCalendar g token calendarID w = .ok (graphEvents page.value) := by
    rw [graphCalendar, hanswer, graphGet_ok]
  have hperm : EventsReturned (graphCalendar g token calendarID w) list ↔
      ((graphEvents page.value).map some).Perm (list.map eventOf) := by
    simp [EventsReturned, hout]
  rw [hperm]
  constructor
  · intro h
    constructor
    · have hlength := h.length_eq
      have hle := List.length_filterMap_le eventOf page.value
      have hsplit := congrArg List.length hpage.append
      rw [List.length_append] at hsplit
      simp only [List.length_map, graphEvents] at hlength
      change (page.value.filterMap eventOf).length = _ at hlength
      exact List.eq_nil_of_length_eq_zero (by omega)
    · intro e he
      have hmem := h.mem_iff.mpr (List.mem_map_of_mem he)
      obtain ⟨ev, -, hev⟩ := List.mem_map.mp hmem
      rw [← eventOf_isSome, ← hev]
      rfl
  · rintro ⟨hrest, hstarts⟩
    have hlist := hpage.append
    rw [hrest, List.append_nil] at hlist
    rw [hlist] at hstarts ⊢
    rw [map_some_graphEvents hstarts]

/-- Nothing is lost if and only if the tasks that the page leaves out are completed,
the page of the events leaves out none, and each of these starts at a time. -/
theorem returned_iff {tasks : List TodoEntry} {events : List GraphEvent}
    {page : Page TodoEntry} {page' : Page GraphEvent}
    (htasks : g.tasks token (tasksURL listID) = .ok ⟨200, .ok page⟩)
    (hpage : page.Of 100 tasks)
    (hevents : g.events token (eventsURL calendarID w) = .ok ⟨200, .ok page'⟩)
    (hpage' : page'.Of 100 events) :
    TasksReturned (graphTodoTasks g token listID) tasks ∧
        EventsReturned (graphCalendar g token calendarID w) events ↔
      (∀ e ∈ page.rest tasks, e.status = "completed") ∧
        page'.rest events = [] ∧ ∀ e ∈ events, parseGraphTime e.start ≠ zeroTime := by
  rw [tasksReturned_iff htasks hpage, eventsReturned_iff hevents hpage']

end Lists

/-! ## A hundred and one tasks -/

private def milk (status : String) : TodoEntry := ⟨"melk", status, none⟩

private def outing : GraphEvent :=
  ⟨"zoo", true, "2026-07-21T00:00:00.0000000", "2026-07-22T00:00:00.0000000"⟩

private def account (list : List TodoEntry) : Service where
  tasks _ _ := .ok ⟨200, .ok ⟨list.take 100, some "next"⟩⟩
  events _ _ := .ok ⟨200, .ok ⟨[outing], none⟩⟩

private theorem account_page (list : List TodoEntry) :
    (⟨list.take 100, some "next"⟩ : Page TodoEntry).Of 100 list :=
  ⟨List.take_prefix _ _, List.length_take_le _ _, fun _ => rfl⟩

theorem returned_iff_completed :
    let list := List.replicate 100 (milk "notStarted") ++ [milk "completed"]
    TasksReturned (graphTodoTasks (account list) "tok" "L") list ∧
      EventsReturned (graphCalendar (account list) "tok" "" ⟨0, day⟩) [outing] := by
  intro list
  have htasks : (account list).tasks "tok" (tasksURL "L") =
      .ok ⟨200, .ok ⟨list.take 100, some "next"⟩⟩ := rfl
  have hevents : (account list).events "tok" (eventsURL "" ⟨0, day⟩) =
      .ok ⟨200, .ok ⟨[outing], none⟩⟩ := rfl
  refine (returned_iff htasks (account_page list) hevents ⟨?_, by decide, ?_⟩).mpr ?_
  · exact List.prefix_rfl
  · intro h
    exact absurd rfl h
  · have hrest : (⟨list.take 100, some "next"⟩ : Page TodoEntry).rest list =
        [milk "completed"] := by decide
    rw [hrest]
    decide

/-- A hundred completed tasks hide the only open one. -/
theorem open_task_hidden :
    let list := List.replicate 100 (milk "completed") ++ [milk "notStarted"]
    (⟨list.take 100, some "next"⟩ : Page TodoEntry).Of 100 list ∧
      graphTodoTasks (account list) "tok" "L" = .ok [] ∧
      ¬ TasksReturned (graphTodoTasks (account list) "tok" "L") list := by
  intro list
  have hnone : graphTodoTasks (account list) "tok" "L" = .ok [] := by
    have hopen : (list.take 100).filter isOpen = [] := by decide
    change Except.ok (((list.take 100).filter isOpen).map taskOf) = _
    rw [hopen]
    rfl
  refine ⟨account_page list, hnone, ?_⟩
  rw [tasksReturned_iff rfl (account_page list)]
  intro h
  exact absurd (h (milk "notStarted") (by decide)) (by decide)

end FamilyPlanner.Widget.Graph

import FamilyPlanner.Broker.LastGood
import FamilyPlanner.Broker.Rows
import FamilyPlanner.Widget.Registry

/-!
# The cell of a widget

`cellForWidget` decodes the row of the cache and hands the result to the
formatter of the widget's type.  A widget that was never fetched is to stay
blank; the row that `markErr` writes for it decodes to a struct of zeros.
-/

namespace FamilyPlanner.Server

open FamilyPlanner.Foundation FamilyPlanner.Widget FamilyPlanner.Broker

variable {P D : Type}

/-! ## Decoding -/

/-- How `encoding/json` decodes a text other than `null`, for each type. -/
abbrev Values (D : Type) := (typ : WidgetType) → D → Except String typ.RenderData

/-- `json.Unmarshal` into a struct, which `null` leaves as it is. -/
def unmarshal {α : Type} (value : D → Except String α) (zero : α) :
    DataJson D → Except String α
  | .null => .ok zero
  | .value text => value text

section

variable (v : Values D)

def decodeCountdown : DataJson D → Except String CountdownData := unmarshal (v .countdown) {}

def decodeClock : DataJson D → Except String ClockData := unmarshal (v .clock) {}

def decodeClockface : DataJson D → Except String ClockFaceData := unmarshal (v .clockface) {}

def decodeCalendar : DataJson D → Except String CalendarData := unmarshal (v .calendar) {}

def decodeWeather : DataJson D → Except String WeatherData := unmarshal (v .weather) {}

def decodeVideo : DataJson D → Except String VideoData := unmarshal (v .video) {}

def decodeShopping : DataJson D → Except String ShoppingData := unmarshal (v .shopping) {}

def decodeTodo : DataJson D → Except String TodoData := unmarshal (v .todolist) {}

def decodeTicker : DataJson D → Except String TickerData := unmarshal (v .ticker) {}

def decodePhotos : DataJson D → Except String PhotosData := unmarshal (v .photos) {}

def decodePdf : DataJson D → Except String PdfData := unmarshal (v .pdf) {}

def decode : (typ : WidgetType) → DataJson D → Except String typ.RenderData
  | .countdown => decodeCountdown v
  | .clock => decodeClock v
  | .clockface => decodeClockface v
  | .calendar => decodeCalendar v
  | .weather => decodeWeather v
  | .video => decodeVideo v
  | .shopping => decodeShopping v
  | .todolist => decodeTodo v
  | .ticker => decodeTicker v
  | .photos => decodePhotos v
  | .pdf => decodePdf v

theorem decode_null (typ : WidgetType) : ∃ zero, decode v typ .null = .ok zero := by
  cases typ <;> exact ⟨_, rfl⟩

end

/-! ## Formatting -/

abbrev AnyData := (typ : WidgetType) × typ.RenderData

/-- The types for which a formatter is registered. -/
def formatters : List WidgetType :=
  [.countdown, .clock, .calendar, .weather, .video, .shopping, .todolist, .clockface, .pdf,
    .photos]

/-- `formatted` stands for what the formatter of the kind makes of its argument. -/
inductive CellContent where
  | missing
  | formatted (data : AnyData)
  | blank

structure CellVM where
  kind : String
  content : CellContent
  stale : Bool

def formatCell (kind : String) (data : Option AnyData) (stale : Bool) : CellVM where
  kind := kind
  content :=
    if kind = "missing" then .missing
    else
      match data with
      | some data => if kind ∈ formatters.map WidgetType.id then .formatted data else .missing
      | none => .blank
  stale := stale

def CellVM.handed (c : CellVM) : Option AnyData :=
  match c.content with
  | .formatted data => some data
  | _ => none

structure CellFaults where
  getWidget : Bool := false
  cached : Bool := false
  fetched : Bool := false
  deriving DecidableEq, Repr

def cachedCell (v : Values D) (kind : String) (typ : WidgetType) (cache : CacheRow D) : CellVM :=
  match decode v typ cache.dataJson with
  | .ok data => formatCell kind (some ⟨typ, data⟩) (cache.status ≠ .ok)
  | .error _ => formatCell kind none true

/-- `env` is for the refresh of a widget without a row; the one that is started
in the background is a later refresh. -/
def cellForWidget (b : Broker P D) (v : Values D) (widgets : Widgets) (faults : CellFaults)
    (env : Env P D) (w : World D) (widgetID : Int) : CellVM :=
  if widgetID = 0 then ⟨"empty", .blank, false⟩
  else
    match (if faults.getWidget then none else widgets.get widgetID) with
    | none => formatCell "missing" none true
    | some wgt =>
        match WidgetType.get wgt.type with
        | none => formatCell wgt.type none true
        | some typ =>
            match (if faults.cached then none else w.cacheRow widgetID) with
            | some cache => cachedCell v wgt.type typ cache
            | none =>
                match (if faults.fetched then none
                  else (b.refreshed env w wgt).cacheRow widgetID) with
                | some cache => cachedCell v wgt.type typ cache
                | none => formatCell wgt.type none false

/-! ## A widget that was never fetched -/

def ErrorOnly (row : Option (CacheRow D)) : Prop := ∀ cache ∈ row, cache.dataJson = .null

theorem ErrorOnly.refreshed {b : Broker P D} {env : Env P D} {w : World D} {wgt : WidgetRow}
    (hfailed : Failed (b.obtained env w wgt)) (h : ErrorOnly (w.cacheRow wgt.id)) :
    ErrorOnly ((b.refreshed env w wgt).cacheRow wgt.id) ∧
      ((b.refreshed env w wgt).cacheRow wgt.id = none ↔
        w.cacheRow wgt.id = none ∧ env.faults.upsertWidgetCache = true) := by
  obtain ⟨msg, hmsg⟩ := hfailed
  obtain ⟨at_, hrow⟩ := refreshed_of_error hmsg
  rw [hrow]
  cases hread : if env.faults.getWidgetCache then none else w.cacheRow wgt.id with
  | some cache =>
      have hcached : w.cacheRow wgt.id = some cache := by
        split at hread
        · cases hread
        · exact hread
      have hnull := h cache hcached
      cases env.faults.markWidgetCacheStale with
      | true => simpa [ErrorOnly, hcached] using hnull
      | false => simpa [ErrorOnly, hcached] using hnull
  | none =>
      cases hfault : env.faults.upsertWidgetCache with
      | true => simpa using h
      | false => simp [ErrorOnly]

def Unrecorded (rs : List (Refresh P D)) : Prop :=
  ∀ r ∈ rs, r.env.faults.upsertWidgetCache = true

theorem errorOnly_run {b : Broker P D} {id : Int} {rs : List (Refresh P D)}
    {s t : Recorded D} (hs : ErrorOnly (s.world.cacheRow id))
    (hfails : (refreshes b id).Along (Recorded.Fails b id) s rs)
    (hrun : (refreshes b id).run s rs = some t) :
    ErrorOnly (t.world.cacheRow id) ∧
      (t.world.cacheRow id = none ↔ s.world.cacheRow id = none ∧ Unrecorded rs) := by
  induction rs generalizing s with
  | nil =>
      cases hrun
      exact ⟨hs, by simp [Unrecorded]⟩
  | cons r rs ih =>
      obtain ⟨s', hstep, hrest⟩ := System.run_cons_eq_some.mp hrun
      obtain ⟨hfailed, halong⟩ := System.along_cons.mp hfails
      have hworld : s'.world = b.refreshed r.env s.world (r.widget id) := by
        cases hstep
        simp only [Recorded.refresh]
        split
        · rfl
        · split <;> rfl
      have hrow := ErrorOnly.refreshed hfailed hs
      rw [← hworld] at hrow
      obtain ⟨hnull, hnone⟩ := ih hrow.1 (halong s' hstep) hrest
      refine ⟨hnull, hnone.trans ?_⟩
      have hfirst : s'.world.cacheRow id = none ↔
          s.world.cacheRow id = none ∧ r.env.faults.upsertWidgetCache = true := hrow.2
      rw [hfirst, and_assoc]
      simp [Unrecorded]

theorem handed_formatCell_none (kind : String) (stale : Bool) :
    (formatCell kind none stale).handed = none := by
  by_cases hkind : kind = "missing" <;> simp [formatCell, CellVM.handed, hkind]

theorem handed_formatCell {typ : WidgetType} (data : Option AnyData) (stale : Bool) :
    (formatCell typ.id data stale).handed = none ↔ typ ∉ formatters ∨ data = none := by
  cases data with
  | none => cases typ <;> simp [formatCell, CellVM.handed, WidgetType.id]
  | some data => cases typ <;> simp [formatCell, CellVM.handed, WidgetType.id, formatters]

theorem handed_cachedCell {v : Values D} {typ : WidgetType} {cache : CacheRow D}
    (h : cache.dataJson = .null) :
    (cachedCell v typ.id typ cache).handed = none ↔ typ ∉ formatters := by
  obtain ⟨zero, hzero⟩ := decode_null v typ
  simp [cachedCell, h, hzero, handed_formatCell]

theorem type_of_get {id : String} {typ : WidgetType} (h : WidgetType.get id = some typ) :
    id = typ.id := by
  have hid := List.find?_some h
  exact (of_decide_eq_true hid).symm

theorem read_eq_some {α : Type} {failed : Bool} {row : Option α} {a : α} :
    (if failed then none else row) = some a ↔ failed = false ∧ row = some a := by
  cases failed <;> simp

theorem read_eq_none {α : Type} {failed : Bool} {row : Option α} :
    (if failed then none else row) = none ↔ failed = true ∨ row = none := by
  cases failed <;> simp

def NoRow (rs : List (Refresh P D)) (faults : CellFaults) (env : Env P D) : Prop :=
  (faults.cached = true ∨ Unrecorded rs) ∧
    (faults.fetched = true ∨ Unrecorded rs ∧ env.faults.upsertWidgetCache = true)

theorem noRow_iff {rs : List (Refresh P D)} {faults : CellFaults} {env : Env P D}
    {row row' : Option (CacheRow D)} (hrow : row = none ↔ Unrecorded rs)
    (hrow' : row' = none ↔ row = none ∧ env.faults.upsertWidgetCache = true) :
    NoRow rs faults env ↔ (if faults.cached then none else row) = none ∧
      (if faults.fetched then none else row') = none := by
  rw [read_eq_none, read_eq_none, hrow', hrow, NoRow]

def Formattable (widgets : Widgets) (faults : CellFaults) (id : Int) : Prop :=
  id ≠ 0 ∧ faults.getWidget = false ∧ ∃ wgt typ, widgets.get id = some wgt ∧
    WidgetType.get wgt.type = some typ ∧ typ ∈ formatters

theorem formattable_iff {widgets : Widgets} {faults : CellFaults} {id : Int} {wgt : WidgetRow}
    {typ : WidgetType} (hid : id ≠ 0) (hfault : faults.getWidget = false)
    (hwgt : widgets.get id = some wgt) (htyp : WidgetType.get wgt.type = some typ) :
    Formattable widgets faults id ↔ typ ∈ formatters := by
  simp [Formattable, hid, hfault, hwgt, htyp]

theorem handed_of_not_formattable (b : Broker P D) (v : Values D) {widgets : Widgets}
    {faults : CellFaults} (env : Env P D) (w : World D) {id : Int}
    (hcut : ∀ wgt typ, id ≠ 0 → faults.getWidget = false → widgets.get id = some wgt →
      WidgetType.get wgt.type ≠ some typ) :
    (cellForWidget b v widgets faults env w id).handed = none := by
  unfold cellForWidget
  by_cases hid : id = 0
  · simp [hid, CellVM.handed]
  rw [if_neg hid]
  cases hget : if faults.getWidget then none else widgets.get id with
  | none => exact handed_formatCell_none _ _
  | some wgt =>
      obtain ⟨hfault, hwgt⟩ := read_eq_some.mp hget
      cases htyp : WidgetType.get wgt.type with
      | none => simp only [htyp, handed_formatCell_none]
      | some typ => exact absurd htyp (hcut wgt typ hid hfault hwgt)

theorem handed_of_type (b : Broker P D) (v : Values D) {widgets : Widgets}
    {faults : CellFaults} {env : Env P D} {w : World D} {id : Int} {wgt : WidgetRow}
    {typ : WidgetType} (hid : id ≠ 0) (hfault : faults.getWidget = false)
    (hwgt : widgets.get id = some wgt) (htyp : WidgetType.get wgt.type = some typ)
    (hnull : ErrorOnly (w.cacheRow id))
    (hrefreshed : ErrorOnly ((b.refreshed env w wgt).cacheRow id)) :
    (cellForWidget b v widgets faults env w id).handed = none ↔
      (typ ∈ formatters → (if faults.cached then none else w.cacheRow id) = none ∧
        (if faults.fetched then none else (b.refreshed env w wgt).cacheRow id) = none) := by
  unfold cellForWidget
  rw [if_neg hid]
  simp only [hfault, Bool.false_eq_true, if_false, hwgt, htyp]
  rw [type_of_get htyp]
  cases hcached : if faults.cached then none else w.cacheRow id with
  | some cache =>
      have hrow := (read_eq_some.mp hcached).2
      simp [handed_cachedCell (hnull cache hrow)]
  | none =>
      cases hfetched : if faults.fetched then none
          else (b.refreshed env w wgt).cacheRow id with
      | some cache =>
          have hrow := (read_eq_some.mp hfetched).2
          simp [handed_cachedCell (hrefreshed cache hrow)]
      | none => simp [handed_formatCell_none]

/--
After any number of refreshes that have all failed, the formatter of a widget
is handed no data exactly if no row was found for the widget.
-/
theorem no_data_handed_iff (b : Broker P D) (v : Values D) {id : Int} {w : World D}
    {rs : List (Refresh P D)} {s : Recorded D} (hnone : w.cacheRow id = none)
    (hfails : (refreshes b id).Along (Recorded.Fails b id) (.start w) rs)
    (hrun : (refreshes b id).run (.start w) rs = some s) (widgets : Widgets)
    (faults : CellFaults) (env : Env P D)
    (hfailed : ∀ wgt ∈ widgets.get id, Failed (b.obtained env s.world wgt)) :
    (cellForWidget b v widgets faults env s.world id).handed = none ↔
      (Formattable widgets faults id → NoRow rs faults env) := by
  have hstart : ErrorOnly ((Recorded.start w).world.cacheRow id) := by
    simp [ErrorOnly, Recorded.start, hnone]
  obtain ⟨hnull, hrecorded⟩ := errorOnly_run hstart hfails hrun
  have hunrecorded : s.world.cacheRow id = none ↔ Unrecorded rs := by
    rw [hrecorded]
    exact and_iff_right hnone
  by_cases hknown : ∃ wgt typ, id ≠ 0 ∧ faults.getWidget = false ∧
      widgets.get id = some wgt ∧ WidgetType.get wgt.type = some typ
  · obtain ⟨wgt, typ, hid, hfault, hwgt, htyp⟩ := hknown
    have hwgtid := Widgets.get_id hwgt
    have hrefreshed := ErrorOnly.refreshed (hfailed wgt hwgt) (hwgtid ▸ hnull)
    rw [hwgtid] at hrefreshed
    rw [handed_of_type b v hid hfault hwgt htyp hnull hrefreshed.1]
    rw [formattable_iff hid hfault hwgt htyp, noRow_iff hunrecorded hrefreshed.2]
  · have hformattable : ¬ Formattable widgets faults id := by
      rintro ⟨hid, hfault, wgt, typ, hwgt, htyp, -⟩
      exact hknown ⟨wgt, typ, hid, hfault, hwgt, htyp⟩
    have hhanded : (cellForWidget b v widgets faults env s.world id).handed = none := by
      apply handed_of_not_formattable
      intro wgt typ hid hfault hwgt htyp
      exact hknown ⟨wgt, typ, hid, hfault, hwgt, htyp⟩
    simp only [hhanded, hformattable, false_implies]

private def station : Broker Unit Unit where
  typ _ := some fun _ _ => .ok ()
  marshalError _ := none
  openSecret _ := none
  sealSecret _ := none

private def unwritten : World Unit where
  store := ⟨fun _ => none, fun _ => none, [], fun _ => none⟩
  calls := 0

private def outside : Widgets := ⟨[⟨1, "weather", .object []⟩], by decide⟩

private def unanswered (faults : Faults) : Env Unit Unit where
  now := 0
  dbNow := fun _ => 0
  fetch := fun _ => .error "timeout"
  freshToken := fun _ _ tok => .ok tok
  faults := faults

private def unread : Values Unit := fun _ _ => .error "unexpected end of JSON input"

/-- Neither the refresh in the background nor that of the call can write. -/
theorem no_data_handed_unwritten :
    ∃ s, (refreshes station 1).run (.start unwritten)
        [⟨unanswered { upsertWidgetCache := true }, "weather", .object []⟩] = some s ∧
      (cellForWidget station unread outside {} (unanswered { upsertWidgetCache := true })
        s.world 1).handed = none := by
  obtain ⟨s, hrun, hfailed⟩ : ∃ s, (refreshes station 1).run (.start unwritten)
      [⟨unanswered { upsertWidgetCache := true }, "weather", .object []⟩] = some s ∧
      Failed (station.obtained (unanswered { upsertWidgetCache := true }) s.world
        ⟨1, "weather", .object []⟩) := ⟨_, rfl, ⟨_, rfl⟩⟩
  have halong : (refreshes station 1).Along (Recorded.Fails station 1) (.start unwritten)
      [⟨unanswered { upsertWidgetCache := true }, "weather", .object []⟩] :=
    ⟨⟨_, rfl⟩, fun _ _ => trivial⟩
  refine ⟨s, hrun, ?_⟩
  apply (no_data_handed_iff station unread rfl halong hrun outside {}
    (unanswered { upsertWidgetCache := true }) ?_).mpr
  · intro _
    exact ⟨.inr (by simp [Unrecorded, unanswered]), .inr ⟨by simp [Unrecorded, unanswered], rfl⟩⟩
  · intro wgt hwgt
    cases hwgt
    exact hfailed

/-- Zero degrees, after a refresh that failed. -/
theorem zero_degrees :
    ∃ s, (refreshes station 1).run (.start unwritten)
        [⟨unanswered {}, "weather", .object []⟩] = some s ∧
      (refreshes station 1).Along (Recorded.Fails station 1) (.start unwritten)
        [⟨unanswered {}, "weather", .object []⟩] ∧
      (cellForWidget station unread outside {} (unanswered {}) s.world 1).handed =
        some ⟨.weather, { tempC := 0 }⟩ :=
  ⟨_, rfl, ⟨⟨_, rfl⟩, fun _ _ => trivial⟩, rfl⟩

end FamilyPlanner.Server

import FamilyPlanner.Widget.Source

/-!
# The registered widget types

What `RegisterDefaults` registers: the settings on the form of a type, those
its provider reads from the stored configuration, and the data it returns.
-/

namespace FamilyPlanner.Widget

inductive WidgetType where
  | countdown
  | clock
  | clockface
  | calendar
  | weather
  | video
  | shopping
  | todolist
  | ticker
  | photos
  | pdf
  deriving DecidableEq, Repr

namespace WidgetType

def registerDefaults : List WidgetType :=
  [countdown, clock, clockface, calendar, weather, video, shopping, todolist, ticker,
    photos, pdf]

def id : WidgetType → String
  | countdown => "countdown"
  | clock => "clock"
  | clockface => "clockface"
  | calendar => "calendar"
  | weather => "weather"
  | video => "video"
  | shopping => "shopping"
  | todolist => "todolist"
  | ticker => "ticker"
  | photos => "photos"
  | pdf => "pdf"

def get (id : String) : Option WidgetType := registerDefaults.find? (·.id = id)

theorem get_id (typ : WidgetType) : get typ.id = some typ := by
  cases typ <;> rfl

def schema : WidgetType → List String
  | countdown => ["date", "time", "precision"]
  | clock => []
  | clockface => ["location", "lat", "lon", "facts", "announce_nav"]
  | calendar => ["mode", "weeks_before", "weeks_ahead", "start_date"]
  | weather => ["location", "lat", "lon", "days"]
  | video => ["url", "mute", "loop"]
  | shopping => ["group"]
  | todolist => ["scope", "hide_no_due"]
  | ticker => ["order"]
  | photos => ["interval", "caption"]
  | pdf => ["interval", "fit"]

end WidgetType

/-! ## Configurations -/

structure CountdownConfig where
  title : String
  date : String
  time : String
  precision : String
  deriving DecidableEq, Repr

structure ClockFaceConfig where
  location : String
  lat : String
  lon : String
  facts : String
  announce : String
  deriving DecidableEq, Repr

structure WeatherConfig where
  location : String
  lat : String
  lon : String
  days : String
  deriving DecidableEq, Repr

structure VideoConfig where
  url : String
  mute : String
  loop : String
  deriving DecidableEq, Repr

structure ShoppingConfig where
  group : String
  deriving DecidableEq, Repr

structure TodoConfig where
  scope : String
  hideNoDue : String
  allLists : String
  deriving DecidableEq, Repr

structure TickerConfig where
  order : String
  deriving DecidableEq, Repr

structure PdfConfig where
  file : String
  interval : String
  fit : String
  deriving DecidableEq, Repr

namespace WidgetType

abbrev Config : WidgetType → Type
  | countdown => CountdownConfig
  | clock => Unit
  | clockface => ClockFaceConfig
  | calendar => CalendarConfig
  | weather => WeatherConfig
  | video => VideoConfig
  | shopping => ShoppingConfig
  | todolist => TodoConfig
  | ticker => TickerConfig
  | photos => PhotosConfig
  | pdf => PdfConfig

def config (get : String → String) : (typ : WidgetType) → typ.Config
  | countdown => ⟨get "title", get "date", get "time", get "precision"⟩
  | clock => ()
  | clockface => ⟨get "location", get "lat", get "lon", get "facts", get "announce_nav"⟩
  | calendar => .read get
  | weather => ⟨get "location", get "lat", get "lon", get "days"⟩
  | video => ⟨get "url", get "mute", get "loop"⟩
  | shopping => ⟨get "group"⟩
  | todolist => ⟨get "scope", get "hide_no_due", get "all_lists"⟩
  | ticker => ⟨get "order"⟩
  | photos => ⟨get "interval", get "caption"⟩
  | pdf => ⟨get "file", get "interval", get "fit"⟩

def configKeys : WidgetType → List String
  | countdown => ["title", "date", "time", "precision"]
  | clock => []
  | clockface => ["location", "lat", "lon", "facts", "announce_nav"]
  | calendar => ["url", "mode", "weeks_before", "weeks_ahead", "start_date", "filter"]
  | weather => ["location", "lat", "lon", "days"]
  | video => ["url", "mute", "loop"]
  | shopping => ["group"]
  | todolist => ["scope", "hide_no_due", "all_lists"]
  | ticker => ["order"]
  | photos => ["interval", "caption"]
  | pdf => ["file", "interval", "fit"]

theorem config_eq_iff (typ : WidgetType) (get get' : String → String) :
    typ.config get = typ.config get' ↔ ∀ key ∈ typ.configKeys, get key = get' key := by
  cases typ <;> simp [config, configKeys, CalendarConfig.read]

end WidgetType

/-! ## Data

The defaults are the zero values of the source's structs. -/

structure CountdownData where
  title : String := ""
  daysLeft : Int := 0
  today : Bool := false
  precision : String := ""
  targetUnix : Int := 0
  deriving DecidableEq, Repr

structure ClockData where
  timeText : String := ""
  dateText : String := ""
  deriving DecidableEq, Repr

structure ClockFaceData where
  place : String := ""
  sunriseMin : Int := 0
  sunsetMin : Int := 0
  moonIcon : String := ""
  moonName : String := ""
  facts : List String := []
  deriving DecidableEq, Repr

structure CalItem where
  text : String := ""
  color : String := ""
  deriving DecidableEq, Repr

structure CalendarEvent where
  when : String := ""
  title : String := ""
  color : String := ""
  today : Bool := false
  deriving DecidableEq, Repr

structure DayCell where
  day : Int := 0
  inMonth : Bool := false
  today : Bool := false
  events : List CalItem := []
  deriving DecidableEq, Repr

structure MonthGrid where
  title : String := ""
  weeks : List (List DayCell) := []
  deriving DecidableEq, Repr

structure ScheduleDay where
  label : String := ""
  today : Bool := false
  events : List CalItem := []
  deriving DecidableEq, Repr

structure CalendarData where
  mode : String := ""
  events : List CalendarEvent := []
  month : Option MonthGrid := none
  days : List ScheduleDay := []
  deriving DecidableEq, Repr

structure WeatherDay where
  label : String := ""
  code : Int := 0
  max : Rat := 0
  min : Rat := 0
  deriving DecidableEq, Repr

structure WeatherData where
  tempC : Rat := 0
  code : Int := 0
  place : String := ""
  days : List WeatherDay := []
  deriving DecidableEq, Repr

structure VideoData where
  ids : List String := []
  mute : Bool := false
  loop : Bool := false
  deriving DecidableEq, Repr

structure ShoppingData where
  items : List String := []
  deriving DecidableEq, Repr

structure TodoData where
  items : List String := []
  deriving DecidableEq, Repr

structure TickerData where
  items : List String := []
  deriving DecidableEq, Repr

structure PhotosData where
  urls : List String := []
  captions : List String := []
  intervalSecs : Int := 0
  deriving DecidableEq, Repr

structure PdfData where
  file : String := ""
  intervalSecs : Int := 0
  fit : String := ""
  deriving DecidableEq, Repr

abbrev WidgetType.RenderData : WidgetType → Type
  | countdown => CountdownData
  | clock => ClockData
  | clockface => ClockFaceData
  | calendar => CalendarData
  | weather => WeatherData
  | video => VideoData
  | shopping => ShoppingData
  | todolist => TodoData
  | ticker => TickerData
  | photos => PhotosData
  | pdf => PdfData

end FamilyPlanner.Widget

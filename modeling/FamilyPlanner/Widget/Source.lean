import Mathlib.Algebra.Group.Int.Defs
import FamilyPlanner.Foundation.Tally

/-!
# What a widget is fed

The linked data sources as the broker hands them to a provider, the answers of
the services behind them, and the data a provider makes of these.  A JSON text
is represented by the members the code reads from it; an absent member reads
as the empty string.
-/

namespace FamilyPlanner.Widget

/-- Nanoseconds. -/
abbrev Duration := Int

def int64 (n : Int) : Int := (n + 2 ^ 63) % 2 ^ 64 - 2 ^ 63

def seconds (n : Int) : Duration := int64 (n * 1000000000)

def minutes (n : Int) : Duration := seconds (60 * n)

/-- `strconv.Atoi` and `strconv.ParseInt` in base 10, both of 64 bits. -/
def atoi (s : String) : Option Int :=
  let digits (cs : List Char) : Option Nat :=
    if cs = [] ∨ cs.any (!·.isDigit) then none
    else some (cs.foldl (fun n c => 10 * n + (c.toNat - '0'.toNat)) 0)
  let bounded (n : Int) : Option Int :=
    if -2 ^ 63 ≤ n ∧ n < 2 ^ 63 then some n else none
  match s.toList with
  | '-' :: cs => (digits cs).bind fun n => bounded (-n)
  | '+' :: cs => (digits cs).bind fun n => bounded n
  | cs => (digits cs).bind fun n => bounded n

/-- The number `strconv.Atoi` returns next to an error as well: the nearest
bound for a number out of range, 0 for any other text. -/
def atoiValue (s : String) : Int :=
  let digits (cs : List Char) : Option Nat :=
    if cs = [] ∨ cs.any (!·.isDigit) then none
    else some (cs.foldl (fun n c => 10 * n + (c.toNat - '0'.toNat)) 0)
  match s.toList with
  | '-' :: cs => ((digits cs).map fun n => max (-(n : Int)) (-2 ^ 63)).getD 0
  | '+' :: cs => ((digits cs).map fun n => min (n : Int) (2 ^ 63 - 1)).getD 0
  | cs => ((digits cs).map fun n => min (n : Int) (2 ^ 63 - 1)).getD 0

theorem value_toDigits (n : Nat) :
    (Nat.toDigits 10 n).foldl (fun n c => 10 * n + (c.toNat - '0'.toNat)) 0 = n := by
  induction n using Nat.strongRecOn with
  | ind n ih =>
      have hdigit : ∀ m, m < 10 → m.digitChar.toNat - '0'.toNat = m := by decide
      by_cases hn : n < 10
      · rw [Nat.toDigits_of_lt_base hn]
        simpa using hdigit n hn
      · have hlt : n / 10 < n := by omega
        rw [Nat.toDigits_of_base_le (by omega) (by omega), List.foldl_append, ih _ hlt]
        simp only [List.foldl_cons, List.foldl_nil, hdigit _ (Nat.mod_lt n (by omega))]
        omega

theorem toDigits_cons (n : Nat) :
    ∃ c cs, Nat.toDigits 10 n = c :: cs ∧ c ≠ '-' ∧ c ≠ '+' ∧
      (c :: cs).any (!·.isDigit) = false := by
  obtain ⟨c, cs, hcons⟩ := List.exists_cons_of_ne_nil (@Nat.toDigits_ne_nil n 10)
  have hall : ∀ c' ∈ c :: cs, c'.isDigit = true := by
    intro c' hc'
    rw [← hcons] at hc'
    exact Nat.isDigit_of_mem_toDigits (by decide) (by decide) hc'
  refine ⟨c, cs, hcons, ?_, ?_, ?_⟩
  · rintro rfl
    exact absurd (hall _ List.mem_cons_self) (by decide)
  · rintro rfl
    exact absurd (hall _ List.mem_cons_self) (by decide)
  · rw [List.any_eq_false]
    intro c' hc'
    simp [hall c' hc']

theorem atoiValue_repr {n : Int} (hmin : -2 ^ 63 ≤ n) (hmax : n < 2 ^ 63) :
    atoiValue n.repr = n := by
  rw [Int.repr_eq_if]
  split
  · rename_i hn
    obtain ⟨c, cs, hcons, hminus, hplus, hall⟩ := toDigits_cons n.toNat
    have hvalue := value_toDigits n.toNat
    rw [hcons] at hvalue
    unfold atoiValue
    rw [Nat.toList_repr, hcons]
    split
    · rename_i heq
      exact absurd (List.cons.inj heq).1 hminus
    · rename_i heq
      exact absurd (List.cons.inj heq).1 hplus
    · simp only [hall, hvalue, reduceCtorEq, Bool.false_eq_true, or_self, if_false,
        Option.bind_eq_bind, Option.bind_some, Option.pure_def, Option.map_some,
        Option.getD_some]
      omega
  · rename_i hn
    obtain ⟨c, cs, hcons, -, -, hall⟩ := toDigits_cons (-n).toNat
    have hvalue := value_toDigits (-n).toNat
    rw [hcons] at hvalue
    have hlist : ("-" ++ (-n).toNat.repr).toList = '-' :: c :: cs := by
      rw [String.toList_append, Nat.toList_repr, hcons]
      rfl
    unfold atoiValue
    rw [hlist]
    simp only [hall, hvalue, reduceCtorEq, Bool.false_eq_true, or_self, if_false,
      Option.bind_eq_bind, Option.bind_some, Option.pure_def, Option.map_some,
      Option.getD_some]
    omega

theorem atoi_repr {n : Nat} (h : (n : Int) < 2 ^ 63) : atoi n.repr = some (n : Int) := by
  obtain ⟨c, cs, hcons, hminus, hplus, hall⟩ := toDigits_cons n
  have hvalue := value_toDigits n
  rw [hcons] at hvalue
  unfold atoi
  rw [Nat.toList_repr, hcons]
  split
  · rename_i heq
    exact absurd (List.cons.inj heq).1 hminus
  · rename_i heq
    exact absurd (List.cons.inj heq).1 hplus
  · have hdigits : ¬ (c :: cs = [] ∨ (c :: cs).any (!·.isDigit)) := by
      simp [hall]
    have hmin : -2 ^ 63 ≤ (n : Int) := by omega
    dsimp only
    rw [if_neg hdigits, hvalue, Option.bind_some]
    exact if_pos ⟨hmin, h⟩

theorem atoi_bounds {s : String} {n : Int} (h : atoi s = some n) :
    -2 ^ 63 ≤ n ∧ n < 2 ^ 63 := by
  unfold atoi at h
  dsimp only at h
  split at h
  all_goals
    obtain ⟨m, -, hm⟩ := Option.bind_eq_some_iff.mp h
    split at hm
    · cases hm
      assumption
    · contradiction

inductive SourceType where
  | ical
  | msGraph
  | msTodo
  | rss
  | text
  | bring
  | onedrive
  | other (id : String)
  deriving DecidableEq, Repr

/-- `oauth.Known` -/
def SourceType.known : SourceType → Bool
  | .msGraph | .onedrive | .msTodo => true
  | _ => false

structure SourceConfig where
  url : String := ""
  lines : String := ""
  deriving DecidableEq, Repr

/-- `expiry` is `none` for the zero time. -/
structure Token where
  accessToken : String
  refreshToken : String
  expiry : Option Int
  deriving DecidableEq, Repr

/-- The secrets the program stores, or a text with none of the members it reads. -/
inductive StoredSecret where
  | token (tok : Token)
  | credentials (email password : String)
  | other
  deriving DecidableEq, Repr

def StoredSecret.getToken : StoredSecret → Option Token
  | token tok => some tok
  | _ => none

inductive Secret where
  | accessToken (value : String)
  | stored (secret : StoredSecret)
  deriving DecidableEq, Repr

namespace Secret

def getAccessToken : Option Secret → String
  | some (accessToken value) => value
  | _ => ""

def getCredentials : Option Secret → String × String
  | some (stored (.credentials email password)) => (email, password)
  | _ => ("", "")

end Secret

structure SourceInput where
  type : SourceType
  config : SourceConfig
  secret : Option Secret
  filter : String
  resource : String
  color : String
  refreshIntervalSecs : Int
  dataSourceID : Int
  deriving DecidableEq, Repr

/-- A widget's `config_json`; `malformed` does not decode into the provider's
struct. -/
inductive ConfigJson where
  | malformed (err : String)
  | object (members : List (String × String))
  deriving DecidableEq, Repr

namespace ConfigJson

def get : ConfigJson → String → String
  | malformed _, _ => ""
  | object members, key => (members.lookup key).getD ""

def checked {α : Type} (c : ConfigJson) (read : (String → String) → α) :
    Except String α :=
  match c with
  | malformed err => .error err
  | object _ => .ok (read c.get)

end ConfigJson

/-! ## Configurations -/

structure CalendarConfig where
  url : String
  mode : String
  weeksBefore : String
  weeksAhead : String
  startDate : String
  filter : String
  deriving DecidableEq, Repr

def CalendarConfig.read (get : String → String) : CalendarConfig where
  url := get "url"
  mode := get "mode"
  weeksBefore := get "weeks_before"
  weeksAhead := get "weeks_ahead"
  startDate := get "start_date"
  filter := get "filter"

structure PhotosConfig where
  interval : String
  caption : String
  deriving DecidableEq, Repr

/-! ## The services -/

structure CalEvent where
  start : Int
  stop : Option Int
  title : String
  color : String
  allDay : Bool
  deriving DecidableEq, Repr

structure TodoTask where
  title : String
  due : Option Int
  deriving DecidableEq, Repr

/-- `geo` is in the units of the geocoder's request, 1/10000 of a degree. -/
structure PhotoItem where
  url : String
  taken : String
  geo : Option (Int × Int)
  deriving DecidableEq, Repr

structure ResourceOption where
  id : String
  name : String
  deriving DecidableEq, Repr

structure BringAuth where
  accessToken : String
  uuid : String
  bringListUUID : String
  deriving DecidableEq, Repr

structure Window where
  expandFrom : Int
  expandTo : Int
  deriving DecidableEq, Repr

/-- The answers to the calls made for one linked source during a fetch. -/
structure Remote where
  fetchICS : String → String → Window → Except String (List CalEvent)
  fetchRSS : String → Except String (List String)
  graphCalendar : String → String → Window → Except String (List CalEvent)
  graphListTodoLists : String → Except String (List ResourceOption)
  graphTodoTasks : String → String → Except String (List TodoTask)
  graphFolderPhotos : String → String → Except String (List PhotoItem)
  bringLogin : String → String → Except String BringAuth
  bringResolveList : BringAuth → String → String
  bringItems : BringAuth → String → Bool → Except String (List String)

/--
The answers during one fetch: `source i` for the source at place `i` of the
list of linked sources, the others for calls that belong to no source.
-/
structure Net where
  source : Nat → Remote
  fallbackFeed : String → String → Window → Except String (List CalEvent)
  geocodeReverse : Int × Int → String
  shuffle : List String → List String

/--
The pure functions of the package that a fetch applies to what it received,
at the moment of the fetch: `photoDate`, the rounding of the geocoder's cache
key, `todoDueLabel`, the test against the end of today, the window of
`calendarProvider.Fetch`, `parseFilter(...).match` on a title, and
`dateOf(t.Due.In(loc))`.
-/
structure Helpers where
  photoDate : String → String
  geoKey : Int × Int → Int × Int
  todoDueLabel : Option Int → String
  dueByToday : Int → Bool
  window : CalendarConfig → Window
  matchTitle : String → String → Bool
  dueDay : Int → Int

/-! ## Data -/

/--
What the providers return.  Calendar data are kept as the arguments of the
grid builder that `mode` selects.
-/
inductive Data where
  | calendar (mode : String) (cfg : CalendarConfig) (all : List CalEvent)
  | ticker (items : List String)
  | photos (urls captions : List String) (intervalSecs : Int)
  | todolist (items : List String)
  | shopping (items : List String)
  deriving DecidableEq, Repr

end FamilyPlanner.Widget

import FamilyPlanner.VoiceClock.Boundary

/-!
# What is chimed at a quarter-hour

The configuration decides whether a beat is announced and with which payload,
and the payload how long before the beat it has to be sent.
-/

namespace FamilyPlanner.VoiceClock

open FamilyPlanner.Foundation FamilyPlanner.Foundation.Clock

inductive Sound where
  | none
  | bing
  | bong
  | bingbong
  | gong
  | pips
  | timesignal
  | westminster
  deriving DecidableEq, Repr

def Sound.name : Sound → String
  | none => "none"
  | bing => "bing"
  | bong => "bong"
  | bingbong => "bingbong"
  | gong => "gong"
  | pips => "pips"
  | timesignal => "timesignal"
  | westminster => "westminster"

def allSounds : List Sound :=
  [.none, .bing, .bong, .bingbong, .gong, .pips, .timesignal, .westminster]

def validSound (s : String) (default : Sound) : Sound :=
  (allSounds.find? (·.name = s)).getD default

def ValidQuarterSound (s : String) : Sound := validSound s .bingbong

def ValidHalfSound (s : String) : Sound := validSound s .bong

def ValidHourSound (s : String) : Sound := validSound s .timesignal

structure Config where
  enabled : Bool
  quietStart : String
  quietEnd : String
  quarterSound : String
  halfSound : String
  hourSound : String
  announce : Bool
  attention : Bool
  announceRate : String
  deriving DecidableEq, Repr

/-- Speech rates are in hundredths. -/
def rateValue (name : String) : Int :=
  if name = "fast" then 100 else if name = "normal" then 85 else 70

def Default : Config where
  enabled := true
  quietStart := "22:00"
  quietEnd := "07:00"
  quarterSound := Sound.bingbong.name
  halfSound := Sound.bong.name
  hourSound := Sound.timesignal.name
  announce := true
  attention := true
  announceRate := "slow"

structure Chime where
  sound : Sound
  quarter : Int
  hour : Int
  announce : Bool := false
  text : String := ""
  atUnixMs : Int := 0
  attention : Bool := false
  rate : Int := 0
  deriving DecidableEq, Repr

def dutchHours : List String :=
  ["twaalf", "één", "twee", "drie", "vier", "vijf", "zes", "zeven", "acht",
    "negen", "tien", "elf"]

def DutchHour (h : Int) : String :=
  dutchHours.getD ((h % 12).toNat) "" ++ " uur"

/-- `len(strings.Fields(s))`, inside a word or between two. -/
def fieldCount : List Char → Bool → Int
  | [], _ => 0
  | c :: cs, inside =>
      if c.isWhitespace then fieldCount cs false
      else (if inside then 0 else 1) + fieldCount cs true

namespace Chime

/-- The seconds of speech are a float in the code; its rounding is left out. -/
def Lead (c : Chime) : Int :=
  if c.sound ≠ .timesignal then 0
  else
    let lead := 2 * second
    if ! c.announce then lead
    else
      let lead := if c.attention then lead + 3 * second else lead
      let rate := if c.rate ≤ 0 then 85 else c.rate
      let words := 8 + fieldCount c.text.toList false
      lead + words * 60 * second / rate

end Chime

/-! ## Quiet hours -/

def digit (c : Char) : Option Int :=
  if c.isDigit then some (c.toNat - '0'.toNat) else none

/-- The hours and minutes of the layout `15:04`, as minutes of the day. -/
def hoursMinutes (h : Int) : List Char → Option Int
  | [':', m, m'] =>
      match digit m, digit m' with
      | some a, some b =>
          if h < 24 ∧ a * 10 + b < 60 then some (h * 60 + (a * 10 + b)) else none
      | _, _ => none
  | _ => none

/-- The hour may have one digit, the minute has two. -/
def parseHM (s : String) : Option Int :=
  match s.toList with
  | c :: c' :: rest =>
      match digit c, digit c' with
      | some a, some b => hoursMinutes (a * 10 + b) rest
      | some a, none => hoursMinutes a (c' :: rest)
      | none, _ => none
  | _ => none

namespace Config

def soundForQuarter (c : Config) (q : Int) : Sound :=
  if q = 0 then ValidHourSound c.hourSound
  else if q = 2 then ValidHalfSound c.halfSound
  else ValidQuarterSound c.quarterSound

def InQuiet (c : Config) (z : Zone) (t : Int) : Bool :=
  match parseHM c.quietStart, parseHM c.quietEnd with
  | some start, some stop =>
      let cur := z.hourOf t * 60 + z.minuteOf t
      if start = stop then false
      else if start < stop then decide (start ≤ cur ∧ cur < stop)
      else decide (start ≤ cur ∨ cur < stop)
  | _, _ => false

def Decide (c : Config) (z : Zone) (t : Int) : Option Chime :=
  if ! c.enabled ∨ c.InQuiet z t then none
  else
    let q := z.minuteOf t / 15 % 4
    let sound := c.soundForQuarter q
    if q ≠ 0 then
      if sound = .none then none
      else some { sound, quarter := q, hour := z.hourOf t }
    else if sound = .none ∧ ! c.announce then none
    else
      let ch : Chime :=
        { sound, quarter := 0, hour := z.hourOf t, announce := c.announce }
      if c.announce then
        some
          { ch with
            text := DutchHour (z.hourOf t)
            attention := c.attention
            rate := rateValue c.announceRate }
      else some ch

end Config

example : (Default.Decide (.fixed 0) (15 * hour)).map (·.text) = some "drie uur" := by
  decide +kernel

/-! ## The lead -/

theorem fieldCount_dutchHour (h : Int) : fieldCount (DutchHour h).toList false = 2 := by
  have hall : ∀ n < 12, fieldCount (dutchHours.getD n "" ++ " uur").toList false = 2 := by
    decide +kernel
  exact hall (h % 12).toNat (by omega)

theorem rateValue_cases (name : String) :
    rateValue name = 70 ∨ rateValue name = 85 ∨ rateValue name = 100 := by
  unfold rateValue
  split
  · exact .inr (.inr rfl)
  · split
    · exact .inr (.inl rfl)
    · exact .inl rfl

theorem announced_of_decide {c : Config} {z : Zone} {t : Int} {ch : Chime}
    (h : c.Decide z t = some ch) :
    ch.announce = false ∨ ch.text = DutchHour (z.hourOf t) ∧ ch.rate = rateValue c.announceRate := by
  unfold Config.Decide at h
  split at h
  · contradiction
  · dsimp only at h
    split at h
    · split at h
      · contradiction
      · cases h
        exact .inl rfl
    · split at h
      · contradiction
      · split at h
        · cases h
          exact .inr ⟨rfl, rfl⟩
        · rename_i hannounce
          cases h
          exact .inl (by simpa using hannounce)

theorem lead_bounds {c : Config} {z : Zone} {t : Int} {ch : Chime} (h : c.Decide z t = some ch) :
    0 ≤ ch.Lead ∧ ch.Lead < quarter := by
  unfold Chime.Lead
  rcases announced_of_decide h with hsilent | ⟨htext, hrate⟩
  · rw [hsilent]
    simp only [Bool.not_false, if_true, quarter, minute, second]
    split <;> omega
  · have hwords : fieldCount ch.text.toList false = 2 := by
      rw [htext]
      exact fieldCount_dutchHour _
    have hspeed : ch.rate = 70 ∨ ch.rate = 85 ∨ ch.rate = 100 := by
      rw [hrate]
      exact rateValue_cases c.announceRate
    have hpos : ¬ ch.rate ≤ 0 := by omega
    simp only [hwords, hpos, if_false, quarter, minute, second]
    rcases hspeed with hspeed | hspeed | hspeed
    all_goals
      rw [hspeed]
      split
      · omega
      · split
        · omega
        · split <;> omega

theorem lead_unspoken {ch : Chime} (hsignal : ch.sound = .timesignal)
    (hsilent : ch.announce = false) : ch.Lead = 2 * second := by
  simp [Chime.Lead, hsignal, hsilent]

theorem dutchHour_ne_empty (h : Int) : DutchHour h ≠ "" := by
  intro hempty
  have hcount := fieldCount_dutchHour h
  rw [hempty] at hcount
  exact absurd hcount (by decide)

end FamilyPlanner.VoiceClock

import FamilyPlanner.Foundation.Run
import FamilyPlanner.Server.Chimes
import FamilyPlanner.Server.KioskScale
import FamilyPlanner.Widget.Source
import Mathlib.Data.List.Sort

/-!
# The settings page

Each setting is a text under a key, read with a default of its own and written
by the settings form.  The writes of a request may fail one by one, and those
of several requests mix.
-/

namespace FamilyPlanner.Server.SettingsPage

open FamilyPlanner.Foundation FamilyPlanner.Widget FamilyPlanner.VoiceClock KioskScale

/-- The texts by key; the text of the voice clock is the configuration it
decodes to, `none` where it is missing, empty or does not decode. -/
structure Settings where
  voiceclock : Option Config := none
  kioskScale : Option String := none
  tickerWidgetID : Option String := none
  defaultTheme : Option String := none
  tickerSpeed : Option String := none
  bannerDate : Option String := none
  refreshIntervalSecs : Option String := none
  kioskTransition : Option String := none
  deriving DecidableEq, Repr

inductive SetSetting where
  | voiceclock (cfg : Config)
  | kioskScale (value : String)
  | tickerWidgetID (value : String)
  | defaultTheme (value : String)
  | tickerSpeed (value : String)
  | bannerDate (value : String)
  | refreshIntervalSecs (value : String)
  | kioskTransition (value : String)
  deriving DecidableEq, Repr

def Settings.set (s : Settings) : SetSetting → Settings
  | .voiceclock cfg => { s with voiceclock := some cfg }
  | .kioskScale value => { s with kioskScale := some value }
  | .tickerWidgetID value => { s with tickerWidgetID := some value }
  | .defaultTheme value => { s with defaultTheme := some value }
  | .tickerSpeed value => { s with tickerSpeed := some value }
  | .bannerDate value => { s with bannerDate := some value }
  | .refreshIntervalSecs value => { s with refreshIntervalSecs := some value }
  | .kioskTransition value => { s with kioskTransition := some value }

/-! ## Reading -/

namespace Settings

def readTickerSpeed (s : Settings) : Int :=
  match s.tickerSpeed.bind atoi with
  | none => 60
  | some n =>
      let n := if n < 20 then 20 else n
      if 240 < n then 240 else n

def readBannerDate (s : Settings) : String :=
  let v := s.bannerDate.getD ""
  if v ∈ ["none", "short", "long"] then v else "long"

def readKioskTransition (s : Settings) : Bool :=
  match s.kioskTransition with
  | none => true
  | some v => v ≠ "0"

def readKioskScale (s : Settings) : ℚ :=
  match s.kioskScale with
  | none => 1
  | some raw =>
      if raw = "" then 1
      else
        match ParseFloat raw with
        | none => 1
        | some v => clampScale v

def refreshMinutes (s : Settings) : Int :=
  match s.refreshIntervalSecs.bind atoi with
  | none => 15
  | some secs =>
      if secs ≤ 0 then 15
      else
        let m := secs / 60
        if m < 1 then 1 else m

def globalRefreshInterval (s : Settings) : Int :=
  let secs :=
    match s.refreshIntervalSecs.bind atoi with
    | some n => if 0 < n then n else 900
    | none => 900
  if secs < 30 then 30 else secs

end Settings

def DefaultID : String := "licht"

def presets : List (String × String) :=
  [("licht", "Licht"), ("donker", "Donker"), ("pastel", "Pastel"),
    ("hoogcontrast", "Hoog contrast")]

def Resolve (viewThemeID globalDefaultID : String) : String :=
  if viewThemeID ∈ presets.map Prod.fst then viewThemeID
  else if globalDefaultID ∈ presets.map Prod.fst then globalDefaultID
  else DefaultID

def Settings.readDefaultTheme (s : Settings) : String :=
  match s.defaultTheme with
  | none => DefaultID
  | some v => if v = "" then DefaultID else v

def themeOpts : List String :=
  (presets.insertionSort fun a b => a.2 ≤ b.2).map Prod.fst

/-! ## The form -/

structure Form where
  voiceEnabled : String
  quietStart : String
  quietEnd : String
  quarterSound : String
  halfSound : String
  hourSound : String
  announce : String
  attention : String
  announceRate : String
  kioskScale : String
  tickerWidgetID : String
  theme : String
  tickerSpeed : String
  bannerDate : String
  refreshMinutes : String
  transition : String
  deriving DecidableEq, Repr

def Form.config (f : Form) : Config where
  enabled := f.voiceEnabled ≠ ""
  quietStart := f.quietStart
  quietEnd := f.quietEnd
  quarterSound := (ValidQuarterSound f.quarterSound).name
  halfSound := (ValidHalfSound f.halfSound).name
  hourSound := (ValidHourSound f.hourSound).name
  announce := f.announce ≠ ""
  attention := f.attention ≠ ""
  announceRate := f.announceRate

def ifGiven (v : String) (write : String → SetSetting) : List SetSetting :=
  if v ≠ "" then [write v] else []

def Form.scaleWrite (f : Form) : List SetSetting :=
  match ParseFloat f.kioskScale with
  | none => []
  | some v => [.kioskScale (FormatFloat (clampScale v))]

def Form.refreshWrite (f : Form) : List SetSetting :=
  match atoi f.refreshMinutes with
  | none => []
  | some v =>
      if 0 < v then
        let v := if 1440 < v then 1440 else v
        [.refreshIntervalSecs (v * 60).repr]
      else []

/-- The writes of `handleSettingsSave`, in order. -/
def handleSettingsSave (f : Form) : List SetSetting :=
  [.voiceclock f.config] ++ f.scaleWrite ++ ifGiven f.tickerWidgetID .tickerWidgetID ++
    ifGiven f.theme .defaultTheme ++ ifGiven f.tickerSpeed .tickerSpeed ++
    ifGiven f.bannerDate .bannerDate ++ f.refreshWrite ++
    [.kioskTransition (if f.transition ≠ "" then "1" else "0")]

/-! ## The page -/

/-- The widgets with whether they are tickers; ids are never given out again. -/
structure Site where
  settings : Settings := {}
  widgets : List (Int × Bool) := []
  widgetSeq : Int := 0
  deriving DecidableEq, Repr

namespace Site

def tickerWidgets (s : Site) : List Int := (s.widgets.filter (·.2)).map Prod.fst

def tickerWidget (s : Site) : Option Int :=
  match s.settings.tickerWidgetID.bind atoi with
  | none => none
  | some id => if id ≠ 0 ∧ id ∈ s.widgets.map Prod.fst then some id else none

end Site

structure SettingsVM where
  voiceEnabled : Bool
  quietStart : String
  quietEnd : String
  quarterSound : String
  halfSound : String
  hourSound : String
  announce : Bool
  attention : Bool
  announceRate : String
  kioskScale : String
  tickerWidgets : List Int
  tickerWidgetID : Int
  tickerSpeed : String
  bannerDate : String
  transition : Bool
  themes : List String
  theme : String
  refreshMinutes : String
  deriving DecidableEq, Repr

def settingsVM (s : Site) : SettingsVM :=
  let cfg := Chimes.voiceClockConfig s.settings.voiceclock
  { voiceEnabled := cfg.enabled
    quietStart := cfg.quietStart
    quietEnd := cfg.quietEnd
    quarterSound := (ValidQuarterSound cfg.quarterSound).name
    halfSound := (ValidHalfSound cfg.halfSound).name
    hourSound := (ValidHourSound cfg.hourSound).name
    announce := cfg.announce
    attention := cfg.attention
    announceRate := cfg.announceRate
    kioskScale := FormatFloat s.settings.readKioskScale
    tickerWidgets := s.tickerWidgets
    tickerWidgetID := (s.settings.tickerWidgetID.map atoiValue).getD 0
    tickerSpeed := s.settings.readTickerSpeed.repr
    bannerDate := s.settings.readBannerDate
    transition := s.settings.readKioskTransition
    themes := themeOpts
    theme := s.settings.readDefaultTheme
    refreshMinutes := s.settings.refreshMinutes.repr }

/-! ## What a browser submits -/

def checkbox (checked : Bool) : String := if checked then "on" else ""

/-- The option that is selected, or the first one. -/
def select (options : List String) (selected : String) : String :=
  if selected ∈ options then selected else options.headD ""

def digits2 (bound : Nat) (a b : Char) : Bool :=
  a.isDigit && b.isDigit && (a.toNat - '0'.toNat) * 10 + (b.toNat - '0'.toNat) < bound

def validSeconds : List Char → Bool
  | [] => true
  | [':', a, b] => digits2 60 a b
  | ':' :: a :: b :: '.' :: fraction =>
      digits2 60 a b && fraction.all Char.isDigit && 1 ≤ fraction.length && fraction.length ≤ 3
  | _ => false

def validTime : List Char → Bool
  | a :: b :: ':' :: c :: d :: rest => digits2 24 a b && digits2 60 c d && validSeconds rest
  | _ => false

/-- A time input holds a valid time or nothing. -/
def timeInput (value : String) : String := if validTime value.toList then value else ""

def SettingsVM.shown (vm : SettingsVM) : Form where
  voiceEnabled := checkbox vm.voiceEnabled
  quietStart := timeInput vm.quietStart
  quietEnd := timeInput vm.quietEnd
  quarterSound := select (allSounds.map Sound.name) vm.quarterSound
  halfSound := select (allSounds.map Sound.name) vm.halfSound
  hourSound := select (allSounds.map Sound.name) vm.hourSound
  announce := checkbox vm.announce
  attention := checkbox vm.attention
  announceRate := select ["slow", "normal", "fast"] vm.announceRate
  kioskScale := rangeInput vm.kioskScale
  tickerWidgetID := select ("0" :: vm.tickerWidgets.map Int.repr) vm.tickerWidgetID.repr
  theme := select vm.themes vm.theme
  tickerSpeed := vm.tickerSpeed
  bannerDate := select ["long", "short", "none"] vm.bannerDate
  refreshMinutes := vm.refreshMinutes
  transition := checkbox vm.transition

/-! ## Runs -/

inductive Act where
  | save (f : Form) (w : SetSetting)
  | createWidget (ticker : Bool)
  | deleteWidget (id : Int)
  deriving DecidableEq, Repr

namespace Site

def set (s : Site) (w : SetSetting) : Site := { s with settings := s.settings.set w }

def step (s : Site) : Act → Option Site
  | .save f w => if w ∈ handleSettingsSave f then some (s.set w) else none
  | .createWidget ticker =>
      some { s with
        widgets := s.widgets ++ [(s.widgetSeq + 1, ticker)]
        widgetSeq := s.widgetSeq + 1 }
  | .deleteWidget id => some { s with widgets := s.widgets.filter (·.1 ≠ id) }

def acts : System Site Act := ⟨step⟩

/-- A page of any time has offered it: no widget, or a ticker that may have
been deleted since. -/
def Offered (s : Site) (v : String) : Prop :=
  match atoi v with
  | none => v = ""
  | some id => v = id.repr ∧ 0 ≤ id ∧ id ≤ s.widgetSeq ∧ (id, false) ∉ s.widgets

instance (s : Site) (v : String) : Decidable (s.Offered v) := by
  unfold Offered
  split <;> infer_instance

/-- The form holds what its inputs and menus can hold. -/
def Entered (s : Site) : Act → Prop
  | .save f _ =>
      timeInput f.quietStart = f.quietStart ∧ timeInput f.quietEnd = f.quietEnd ∧
        rangeInput f.kioskScale = f.kioskScale ∧ f.theme ∈ "" :: themeOpts ∧
        s.Offered f.tickerWidgetID
  | _ => True

instance (s : Site) : ∀ a, Decidable (s.Entered a)
  | .save f _ => inferInstanceAs (Decidable
      (timeInput f.quietStart = f.quietStart ∧ timeInput f.quietEnd = f.quietEnd ∧
        rangeInput f.kioskScale = f.kioskScale ∧ f.theme ∈ "" :: themeOpts ∧
        s.Offered f.tickerWidgetID))
  | .createWidget _ | .deleteWidget _ => .isTrue trivial

/-- What requests have stored, whichever of their writes failed. -/
structure Kept (s : Site) : Prop where
  quiet : ∀ cfg ∈ s.settings.voiceclock,
    timeInput cfg.quietStart = cfg.quietStart ∧ timeInput cfg.quietEnd = cfg.quietEnd
  scale : ∀ v ∈ s.settings.kioskScale, ∃ k ≤ 30, v = FormatFloat (scaleStep k)
  ticker : ∀ v ∈ s.settings.tickerWidgetID, ∃ id, atoi v = some id ∧ v = id.repr ∧ 0 ≤ id ∧
    id ≤ s.widgetSeq ∧ (id, false) ∉ s.widgets
  theme : ∀ v ∈ s.settings.defaultTheme, v ∈ themeOpts
  refresh : ∀ v ∈ s.settings.refreshIntervalSecs,
    ∃ m : Nat, 1 ≤ m ∧ m ≤ 1440 ∧ v = (60 * m).repr
  keyed : ∀ w ∈ s.widgets, 0 < w.1 ∧ w.1 ≤ s.widgetSeq
  counted : 0 ≤ s.widgetSeq

variable {s s' : Site}

theorem mem_handleSettingsSave {f : Form} {w : SetSetting} (h : w ∈ handleSettingsSave f) :
    w = .voiceclock f.config ∨
      (∃ v, ParseFloat f.kioskScale = some v ∧ w = .kioskScale (FormatFloat (clampScale v))) ∨
      (f.tickerWidgetID ≠ "" ∧ w = .tickerWidgetID f.tickerWidgetID) ∨
      (f.theme ≠ "" ∧ w = .defaultTheme f.theme) ∨ (∃ v, w = .tickerSpeed v) ∨
      (∃ v, w = .bannerDate v) ∨
      (∃ m : Nat, 1 ≤ m ∧ m ≤ 1440 ∧ w = .refreshIntervalSecs (60 * m).repr) ∨
      ∃ v, w = .kioskTransition v := by
  have hgiven : ∀ {v : String} {write : String → SetSetting}, w ∈ ifGiven v write →
      v ≠ "" ∧ w = write v := by
    intro v write hw
    unfold ifGiven at hw
    split at hw
    · exact ⟨‹_›, List.mem_singleton.mp hw⟩
    · cases hw
  simp only [handleSettingsSave, List.mem_append, List.mem_singleton] at h
  rcases h with ((((((hw | hw) | hw) | hw) | hw) | hw) | hw) | hw
  · exact .inl hw
  · refine .inr (.inl ?_)
    unfold Form.scaleWrite at hw
    split at hw
    · cases hw
    · exact ⟨_, ‹_›, List.mem_singleton.mp hw⟩
  · exact .inr (.inr (.inl (hgiven hw)))
  · exact .inr (.inr (.inr (.inl (hgiven hw))))
  · exact .inr (.inr (.inr (.inr (.inl ⟨_, (hgiven hw).2⟩))))
  · exact .inr (.inr (.inr (.inr (.inr (.inl ⟨_, (hgiven hw).2⟩)))))
  · refine .inr (.inr (.inr (.inr (.inr (.inr (.inl ?_))))))
    unfold Form.refreshWrite at hw
    split at hw
    · cases hw
    · rename_i v _
      split at hw
      · rename_i hpos
        refine ⟨(if 1440 < v then 1440 else v).toNat, ?_, ?_, ?_⟩
        · split <;> omega
        · split <;> omega
        · rw [List.mem_singleton.mp hw]
          congr 1
          have hnat : ((60 * (if 1440 < v then 1440 else v).toNat : Nat) : Int) =
              (if 1440 < v then 1440 else v) * 60 := by
            split <;> omega
          rw [← hnat]
          rfl
      · cases hw
  · exact .inr (.inr (.inr (.inr (.inr (.inr (.inr ⟨_, hw⟩))))))

theorem Kept.save (hs : s.Kept) {f : Form} {w : SetSetting} (hf : s.Entered (.save f w))
    (hw : w ∈ handleSettingsSave f) : (s.set w).Kept := by
  obtain ⟨hstart, hstop, hscale, htheme, hticker⟩ := hf
  obtain rfl | ⟨v, hread, rfl⟩ | ⟨hne, rfl⟩ | ⟨hne, rfl⟩ | ⟨v, rfl⟩ | ⟨v, rfl⟩ |
    ⟨m, hm, hmax, rfl⟩ | ⟨v, rfl⟩ := mem_handleSettingsSave hw
  · refine { hs with quiet := ?_ }
    intro cfg hcfg
    cases hcfg
    exact ⟨hstart, hstop⟩
  · refine { hs with scale := ?_ }
    intro text htext
    cases htext
    obtain ⟨k, hk, hstep⟩ := exists_step_of_rangeInput hscale
    rw [hread] at hstep
    cases hstep
    exact ⟨k, hk, by rw [clampScale_scaleStep hk]⟩
  · refine { hs with ticker := ?_ }
    intro v hv
    cases hv
    unfold Offered at hticker
    split at hticker
    · exact absurd hticker hne
    · rename_i id hid
      exact ⟨id, hid, hticker⟩
  · refine { hs with theme := ?_ }
    intro v hv
    cases hv
    exact List.mem_of_ne_of_mem hne htheme
  · exact { hs with }
  · exact { hs with }
  · refine { hs with refresh := ?_ }
    intro v hv
    cases hv
    exact ⟨m, hm, hmax, rfl⟩
  · exact { hs with }

theorem Kept.step (hs : s.Kept) {a : Act} (ha : s.Entered a) (h : s.step a = some s') :
    s'.Kept := by
  cases a with
  | save f w =>
      simp only [Site.step] at h
      split at h
      · cases h
        exact hs.save ha ‹_›
      · contradiction
  | createWidget ticker =>
      cases h
      have hcounted := hs.counted
      refine { hs with ticker := ?_, keyed := ?_, counted := ?_ }
      · intro v hv
        obtain ⟨id, hid, hrepr, hpos, hle, hother⟩ := hs.ticker v hv
        refine ⟨id, hid, hrepr, hpos, by dsimp only; omega, ?_⟩
        intro hmem
        rcases List.mem_append.mp hmem with hmem | hmem
        · exact hother hmem
        · have := congrArg Prod.fst (List.mem_singleton.mp hmem)
          dsimp only at this
          omega
      · intro w hw
        rcases List.mem_append.mp hw with hw | hw
        · have := hs.keyed w hw
          dsimp only
          omega
        · rw [List.mem_singleton.mp hw]
          dsimp only
          omega
      · dsimp only
        omega
  | deleteWidget id =>
      cases h
      refine { hs with ticker := ?_, keyed := ?_ }
      · intro v hv
        obtain ⟨id', hid, hrepr, hpos, hle, hother⟩ := hs.ticker v hv
        exact ⟨id', hid, hrepr, hpos, hle, fun hmem => hother (List.mem_filter.mp hmem).1⟩
      · intro w hw
        exact hs.keyed w (List.mem_filter.mp hw).1

end Site

/-! ## Saving what is shown -/

/-- What the settings amount to. -/
structure Effective where
  chime : Zone → Int → Option Chime
  scale : ℚ
  ticker : Option Int
  tickerSpeed : Int
  bannerDate : String
  transition : Bool
  theme : String
  refresh : Int

def effective (s : Site) : Effective where
  chime := (Chimes.voiceClockConfig s.settings.voiceclock).Decide
  scale := s.settings.readKioskScale
  ticker := s.tickerWidget
  tickerSpeed := s.settings.readTickerSpeed
  bannerDate := s.settings.readBannerDate
  transition := s.settings.readKioskTransition
  theme := Resolve s.settings.readDefaultTheme DefaultID
  refresh := s.settings.globalRefreshInterval

def saveAll (s : Site) (f : Form) : Site := (handleSettingsSave f).foldl Site.set s

theorem atoi_intRepr {n : Int} (hpos : 0 ≤ n) (hlt : n < 2 ^ 63) : atoi n.repr = some n := by
  obtain ⟨m, rfl⟩ := Int.eq_ofNat_of_zero_le hpos
  exact atoi_repr hlt

theorem intRepr_inj {m n : Int} (hm : 0 ≤ m) (hn : 0 ≤ n) (h : m.repr = n.repr) : m = n := by
  obtain ⟨m, rfl⟩ := Int.eq_ofNat_of_zero_le hm
  obtain ⟨n, rfl⟩ := Int.eq_ofNat_of_zero_le hn
  have hdigits : Nat.toDigits 10 m = Nat.toDigits 10 n := by
    rw [← Nat.toList_repr, ← Nat.toList_repr]
    exact congrArg String.toList h
  rw [← value_toDigits m, hdigits, value_toDigits n]

theorem ne_empty_of_atoi {v : String} {n : Int} (h : atoi v = some n) : v ≠ "" := by
  rintro rfl
  have hnone : atoi "" = none := by decide +kernel
  rw [hnone] at h
  cases h

theorem select_mem {options : List String} (v : String) (h : options ≠ []) :
    select options v ∈ options := by
  unfold select
  split
  · assumption
  · cases options with
    | nil => exact absurd rfl h
    | cons o rest => exact List.mem_cons_self

theorem select_of_mem {options : List String} {v : String} (h : v ∈ options) :
    select options v = v := if_pos h

theorem checkbox_ne (b : Bool) : (checkbox b ≠ "") = (b = true) := by
  cases b <;> simp [checkbox]

theorem timeInput_idem (v : String) : timeInput (timeInput v) = timeInput v := by
  by_cases h : validTime v.toList
  · simp only [timeInput, if_pos h]
  · simp only [timeInput, if_neg h]
    rfl

theorem validSound_name (x d : VoiceClock.Sound) : validSound x.name d = x := by
  cases x <;> rfl

theorem name_mem (x : VoiceClock.Sound) : x.name ∈ allSounds.map VoiceClock.Sound.name := by
  cases x <;> decide

theorem rateValue_select (rate : String) :
    rateValue (select ["slow", "normal", "fast"] rate) = rateValue rate := by
  unfold select
  split
  · rfl
  · rename_i hother
    have hfast : rate ≠ "fast" := by
      rintro rfl
      exact hother (by decide)
    have hnormal : rate ≠ "normal" := by
      rintro rfl
      exact hother (by decide)
    simp [rateValue, hfast, hnormal]

theorem Decide_congr {c d : Config} (henabled : c.enabled = d.enabled)
    (hstart : c.quietStart = d.quietStart) (hend : c.quietEnd = d.quietEnd)
    (hsound : ∀ q, c.soundForQuarter q = d.soundForQuarter q) (hannounce : c.announce = d.announce)
    (hattention : c.attention = d.attention)
    (hrate : rateValue c.announceRate = rateValue d.announceRate) : c.Decide = d.Decide := by
  funext z t
  simp only [Config.Decide, Config.InQuiet, henabled, hstart, hend, hsound, hannounce,
    hattention, hrate]

namespace Site

variable {s s' : Site}

theorem Kept.chime (hs : s.Kept) :
    ((settingsVM s).shown.config).Decide =
      (Chimes.voiceClockConfig s.settings.voiceclock).Decide := by
  have hquiet : ∀ cfg, cfg = Chimes.voiceClockConfig s.settings.voiceclock →
      timeInput cfg.quietStart = cfg.quietStart ∧ timeInput cfg.quietEnd = cfg.quietEnd := by
    rintro cfg rfl
    cases hraw : s.settings.voiceclock with
    | none => decide
    | some cfg => exact hs.quiet cfg hraw
  obtain ⟨hstart, hstop⟩ := hquiet _ rfl
  apply Decide_congr
  · simp [Form.config, SettingsVM.shown, settingsVM, checkbox_ne]
  · exact hstart
  · exact hstop
  · intro q
    simp only [Config.soundForQuarter, Form.config, SettingsVM.shown, settingsVM,
      select_of_mem (name_mem _), ValidHourSound, ValidHalfSound, ValidQuarterSound,
      validSound_name]
  · simp [Form.config, SettingsVM.shown, settingsVM, checkbox_ne]
  · simp [Form.config, SettingsVM.shown, settingsVM, checkbox_ne]
  · exact rateValue_select _

theorem atoi_tickerSpeed (s : Settings) : atoi s.readTickerSpeed.repr = some s.readTickerSpeed ∧
    20 ≤ s.readTickerSpeed ∧ s.readTickerSpeed ≤ 240 := by
  have hbounds : 20 ≤ s.readTickerSpeed ∧ s.readTickerSpeed ≤ 240 := by
    unfold Settings.readTickerSpeed
    split
    · decide
    · dsimp only
      split <;> split <;> omega
  exact ⟨atoi_intRepr (by omega) (by omega), hbounds⟩

theorem readBannerDate_mem (s : Settings) : s.readBannerDate ∈ ["long", "short", "none"] := by
  unfold Settings.readBannerDate
  dsimp only
  split
  · rename_i h
    simp only [List.mem_cons, List.not_mem_nil, or_false] at h ⊢
    rcases h with h | h | h <;> simp [h]
  · decide

theorem Kept.refresh_eq (hs : s.Kept) :
    1 ≤ s.settings.refreshMinutes ∧ s.settings.refreshMinutes ≤ 1440 ∧
      s.settings.globalRefreshInterval = s.settings.refreshMinutes * 60 := by
  unfold Settings.refreshMinutes Settings.globalRefreshInterval
  cases hraw : s.settings.refreshIntervalSecs with
  | none => decide
  | some v =>
      obtain ⟨m, hm, hmax, rfl⟩ := hs.refresh v hraw
      obtain ⟨secs, hread, hwhole, hmin, hmax⟩ : ∃ secs : Int,
          atoi (60 * m).repr = some secs ∧ secs % 60 = 0 ∧ 60 ≤ secs ∧ secs ≤ 86400 :=
        ⟨((60 * m : Nat) : Int), atoi_repr (by omega), by omega, by omega, by omega⟩
      simp only [Option.bind_some, hread]
      split
      · omega
      · split <;> split <;> split <;> omega

theorem readKioskScale_step {t : Settings} {k : Nat} (hk : k ≤ 30)
    (h : t.kioskScale = some (FormatFloat (scaleStep k))) : t.readKioskScale = scaleStep k := by
  rw [Settings.readKioskScale.eq_def t, h]
  simp only [format_ne_empty hk, if_false, (format_scaleStep hk).1, clampScale_scaleStep hk]

theorem Kept.scale_step (hs : s.Kept) : ∃ k ≤ 30, s.settings.readKioskScale = scaleStep k := by
  cases hraw : s.settings.kioskScale with
  | none =>
      refine ⟨10, by decide, ?_⟩
      rw [Settings.readKioskScale.eq_def, hraw]
      decide +kernel
  | some v =>
      obtain ⟨k, hk, rfl⟩ := hs.scale v hraw
      exact ⟨k, hk, readKioskScale_step hk hraw⟩

theorem Kept.theme_mem (hs : s.Kept) : s.settings.readDefaultTheme ∈ themeOpts := by
  unfold Settings.readDefaultTheme
  cases hraw : s.settings.defaultTheme with
  | none => decide
  | some v =>
      dsimp only
      split
      · decide
      · exact hs.theme v hraw

theorem mem_tickerWidgets {id : Int} : id ∈ s.tickerWidgets ↔ (id, true) ∈ s.widgets := by
  simp [tickerWidgets]

theorem Kept.ticker_pos (hs : s.Kept) {id : Int} (h : id ∈ s.tickerWidgets) : 0 < id :=
  (hs.keyed _ (mem_tickerWidgets.mp h)).1

theorem Kept.ticker_shown (hs : s.Kept) :
    ∃ id : Int, (settingsVM s).shown.tickerWidgetID = id.repr ∧ atoi id.repr = some id ∧
      atoiValue id.repr = id ∧ (id = 0 ∨ id ∈ s.tickerWidgets) ∧
      s.tickerWidget = if id ≠ 0 ∧ id ∈ s.widgets.map Prod.fst then some id else none := by
  have hzero : atoi (0 : Int).repr = some 0 ∧ atoiValue (0 : Int).repr = 0 := by decide +kernel
  cases hraw : s.settings.tickerWidgetID with
  | none =>
      refine ⟨0, ?_, hzero.1, hzero.2, .inl rfl, ?_⟩
      · simp only [SettingsVM.shown, settingsVM, hraw, Option.map_none, Option.getD_none]
        exact select_of_mem List.mem_cons_self
      · simp [tickerWidget, hraw]
  | some v =>
      obtain ⟨id, hid, rfl, hpos, hle, hother⟩ := hs.ticker v hraw
      obtain ⟨hmin, hmax⟩ := atoi_bounds hid
      have hvalue : atoiValue id.repr = id := atoiValue_repr hmin hmax
      have hwidget : s.tickerWidget =
          if id ≠ 0 ∧ id ∈ s.widgets.map Prod.fst then some id else none := by
        simp [tickerWidget, hraw, hid]
      have hselect : (settingsVM s).shown.tickerWidgetID =
          select ("0" :: s.tickerWidgets.map Int.repr) id.repr := by
        simp only [SettingsVM.shown, settingsVM, hraw, Option.map_some, Option.getD_some, hvalue]
      by_cases hmem : id.repr ∈ "0" :: s.tickerWidgets.map Int.repr
      · refine ⟨id, ?_, hid, hvalue, ?_, hwidget⟩
        · rw [hselect]
          exact select_of_mem hmem
        · rcases List.mem_cons.mp hmem with h | h
          · left
            have hread := hid
            rw [h, show atoi "0" = some 0 by decide +kernel] at hread
            exact (Option.some.inj hread).symm
          · right
            obtain ⟨id', hid', heq⟩ := List.mem_map.mp h
            have hpos' := hs.ticker_pos hid'
            rwa [← intRepr_inj (Int.le_of_lt hpos') hpos heq]
      · refine ⟨0, ?_, hzero.1, hzero.2, .inl rfl, ?_⟩
        · rw [hselect]
          exact if_neg hmem
        · rw [hwidget, if_neg, if_neg]
          · simp
          · rintro ⟨-, hthere⟩
            obtain ⟨⟨id', ticker⟩, hw, rfl⟩ := List.mem_map.mp hthere
            cases ticker with
            | false => exact hother hw
            | true =>
                apply hmem
                apply List.mem_cons_of_mem
                apply List.mem_map_of_mem
                exact mem_tickerWidgets.mpr hw

theorem Kept.shown_theme (hs : s.Kept) :
    (settingsVM s).shown.theme = s.settings.readDefaultTheme ∧
      s.settings.readDefaultTheme ≠ "" := by
  refine ⟨select_of_mem hs.theme_mem, ?_⟩
  intro hempty
  have hmem := hs.theme_mem
  rw [hempty] at hmem
  exact absurd hmem (by decide)

theorem shown_bannerDate (s : Site) :
    (settingsVM s).shown.bannerDate = s.settings.readBannerDate ∧
      s.settings.readBannerDate ≠ "" := by
  have hmem := readBannerDate_mem s.settings
  refine ⟨select_of_mem hmem, ?_⟩
  intro hempty
  rw [hempty] at hmem
  exact absurd hmem (by decide)

theorem Kept.refreshWrite (hs : s.Kept) : (settingsVM s).shown.refreshWrite =
    [.refreshIntervalSecs (s.settings.refreshMinutes * 60).repr] := by
  obtain ⟨hmin, hmax, -⟩ := hs.refresh_eq
  have hread : atoi (settingsVM s).shown.refreshMinutes = some s.settings.refreshMinutes :=
    atoi_intRepr (by omega) (by omega)
  have hpos : 0 < s.settings.refreshMinutes := by omega
  have hcap : ¬ 1440 < s.settings.refreshMinutes := by omega
  simp only [Form.refreshWrite, hread, hpos, if_true, hcap, if_false]

theorem Kept.scaleWrite (hs : s.Kept) : (settingsVM s).shown.scaleWrite =
    [.kioskScale (FormatFloat s.settings.readKioskScale)] := by
  obtain ⟨k, hk, hstep⟩ := hs.scale_step
  obtain ⟨hread, hshown⟩ := format_scaleStep hk
  simp only [Form.scaleWrite, SettingsVM.shown, settingsVM, hstep, hshown, hread,
    clampScale_scaleStep hk]

theorem Kept.saveAll_settings (hs : s.Kept) :
    (saveAll s (settingsVM s).shown).settings =
      { voiceclock := some (settingsVM s).shown.config
        kioskScale := some (FormatFloat s.settings.readKioskScale)
        tickerWidgetID := some (settingsVM s).shown.tickerWidgetID
        defaultTheme := some s.settings.readDefaultTheme
        tickerSpeed := some s.settings.readTickerSpeed.repr
        bannerDate := some s.settings.readBannerDate
        refreshIntervalSecs := some (s.settings.refreshMinutes * 60).repr
        kioskTransition := some (if s.settings.readKioskTransition then "1" else "0") } ∧
      (saveAll s (settingsVM s).shown).widgets = s.widgets := by
  obtain ⟨id, hid, hread, -⟩ := hs.ticker_shown
  have hticker : (settingsVM s).shown.tickerWidgetID ≠ "" := by
    rw [hid]
    exact ne_empty_of_atoi hread
  obtain ⟨htheme, htheme'⟩ := hs.shown_theme
  obtain ⟨hbanner, hbanner'⟩ := shown_bannerDate s
  have hspeed : (settingsVM s).shown.tickerSpeed ≠ "" :=
    ne_empty_of_atoi (atoi_tickerSpeed s.settings).1
  have htransition : ((settingsVM s).shown.transition ≠ "") =
      (s.settings.readKioskTransition = true) := checkbox_ne _
  simp only [saveAll, handleSettingsSave, ifGiven, hticker, htheme', hspeed, hbanner',
    htransition, hs.scaleWrite, hs.refreshWrite, ne_eq, not_false_eq_true, if_true,
    List.cons_append, List.nil_append, List.foldl_cons, List.foldl_nil, set, Settings.set, htheme, hbanner]
  exact ⟨rfl, trivial⟩

/-! ## What is written is read again -/

section ReadAgain

variable {t : Settings}

theorem readTickerSpeed_again {s : Settings} (h : t.tickerSpeed = some s.readTickerSpeed.repr) :
    t.readTickerSpeed = s.readTickerSpeed := by
  obtain ⟨hread, hmin, hmax⟩ := atoi_tickerSpeed s
  have htext : t.tickerSpeed.bind atoi = some s.readTickerSpeed := by
    rw [h]
    exact hread
  rw [Settings.readTickerSpeed.eq_def t, htext]
  dsimp only
  rw [if_neg (by omega), if_neg (by omega)]

theorem readBannerDate_again {s : Settings} (h : t.bannerDate = some s.readBannerDate) :
    t.readBannerDate = s.readBannerDate := by
  have hmem := readBannerDate_mem s
  rw [Settings.readBannerDate.eq_def t, h]
  apply if_pos
  simp only [List.mem_cons, List.not_mem_nil, or_false, Option.getD_some] at hmem ⊢
  rcases hmem with h | h | h <;> simp [h]

theorem readKioskTransition_again {s : Settings}
    (h : t.kioskTransition = some (if s.readKioskTransition then "1" else "0")) :
    t.readKioskTransition = s.readKioskTransition := by
  rw [Settings.readKioskTransition.eq_def t, h]
  cases s.readKioskTransition <;> rfl

theorem Kept.scale_again (hs : s.Kept)
    (h : t.kioskScale = some (FormatFloat s.settings.readKioskScale)) :
    t.readKioskScale = s.settings.readKioskScale := by
  obtain ⟨k, hk, hstep⟩ := hs.scale_step
  rw [hstep] at h ⊢
  exact readKioskScale_step hk h

theorem Kept.theme_again (hs : s.Kept) (h : t.defaultTheme = some s.settings.readDefaultTheme) :
    t.readDefaultTheme = s.settings.readDefaultTheme := by
  rw [Settings.readDefaultTheme.eq_def t, h]
  exact if_neg hs.shown_theme.2

theorem Kept.refresh_again (hs : s.Kept)
    (h : t.refreshIntervalSecs = some (s.settings.refreshMinutes * 60).repr) :
    t.refreshMinutes = s.settings.refreshMinutes ∧
      t.globalRefreshInterval = s.settings.globalRefreshInterval := by
  obtain ⟨hmin, hmax, hrefresh⟩ := hs.refresh_eq
  have htext : t.refreshIntervalSecs.bind atoi = some (s.settings.refreshMinutes * 60) := by
    rw [h]
    exact atoi_intRepr (by omega) (by omega)
  constructor
  · rw [Settings.refreshMinutes.eq_def t, htext]
    dsimp only
    rw [if_neg (by omega), Int.mul_ediv_cancel _ (by decide), if_neg (by omega)]
  · have hpos : 0 < s.settings.refreshMinutes * 60 := by omega
    have hfloor : ¬ s.settings.refreshMinutes * 60 < 30 := by omega
    rw [Settings.globalRefreshInterval.eq_def t, htext, hrefresh]
    simp only [hpos, hfloor, if_true, if_false]

end ReadAgain

theorem Kept.shown_again (hs : s.Kept)
    (hvoice : Chimes.voiceClockConfig s'.settings.voiceclock = (settingsVM s).shown.config)
    (hscale : s'.settings.readKioskScale = s.settings.readKioskScale)
    (hticker : s'.settings.tickerWidgetID = some (settingsVM s).shown.tickerWidgetID)
    (hwidgets : s'.widgets = s.widgets)
    (hspeed : s'.settings.readTickerSpeed = s.settings.readTickerSpeed)
    (hbanner : s'.settings.readBannerDate = s.settings.readBannerDate)
    (htransition : s'.settings.readKioskTransition = s.settings.readKioskTransition)
    (htheme : s'.settings.readDefaultTheme = s.settings.readDefaultTheme)
    (hminutes : s'.settings.refreshMinutes = s.settings.refreshMinutes) :
    (settingsVM s').shown = (settingsVM s).shown := by
  obtain ⟨id, hid, -, hvalue, hmenu, -⟩ := hs.ticker_shown
  have htickers : s'.tickerWidgets = s.tickerWidgets := by
    rw [tickerWidgets, hwidgets]
    rfl
  have hselect : select ("0" :: s.tickerWidgets.map Int.repr) id.repr = id.repr := by
    apply select_of_mem
    rcases hmenu with rfl | hmenu
    · exact List.mem_cons_self
    · exact List.mem_cons_of_mem _ (List.mem_map_of_mem hmenu)
  have hid' : ((s'.settings.tickerWidgetID.map atoiValue).getD 0).repr = id.repr := by
    simp only [hticker, hid, Option.map_some, Option.getD_some, hvalue]
  simp only [SettingsVM.shown, settingsVM, hvoice, hscale, htickers, hid', hselect, hspeed, hbanner,
    htransition, htheme, hminutes, Form.config]
  simp only [SettingsVM.shown, settingsVM] at hid
  simp only [hid, checkbox_ne, Bool.decide_eq_true, timeInput_idem, select_of_mem (name_mem _),
    select_of_mem (select_mem _ (List.cons_ne_nil _ _)), ValidHourSound, ValidHalfSound,
    ValidQuarterSound, validSound_name]

/--
After any run of saves, writes failing or mixing in any way, and of widgets
created and deleted: to save the page as it is shown changes nothing that is in
force, and the page shows the same again.
-/
theorem saved_again {as : List Act} (hentered : acts.Along Entered {} as)
    (hrun : acts.run {} as = some s) :
    effective (saveAll s (settingsVM s).shown) = effective s ∧
      (settingsVM (saveAll s (settingsVM s).shown)).shown = (settingsVM s).shown := by
  have hs : s.Kept := by
    apply System.run_invariant_along (I := Kept) _ _ hentered hrun
    · exact fun _ _ _ hu he hstep => hu.step he hstep
    · constructor <;> simp
  obtain ⟨hsettings, hwidgets⟩ := hs.saveAll_settings
  obtain ⟨id, hid, hread, -, -, hforce⟩ := hs.ticker_shown
  generalize saveAll s (settingsVM s).shown = s' at hsettings hwidgets ⊢
  have hscale : s'.settings.readKioskScale = s.settings.readKioskScale :=
    hs.scale_again (by rw [hsettings])
  have hspeed : s'.settings.readTickerSpeed = s.settings.readTickerSpeed :=
    readTickerSpeed_again (by rw [hsettings])
  have hbanner : s'.settings.readBannerDate = s.settings.readBannerDate :=
    readBannerDate_again (by rw [hsettings])
  have htransition : s'.settings.readKioskTransition = s.settings.readKioskTransition :=
    readKioskTransition_again (by rw [hsettings])
  have htheme : s'.settings.readDefaultTheme = s.settings.readDefaultTheme :=
    hs.theme_again (by rw [hsettings])
  obtain ⟨hminutes, hrefresh⟩ := hs.refresh_again (t := s'.settings) (by rw [hsettings])
  constructor
  · have hticker : s'.tickerWidget = s.tickerWidget := by
      rw [hforce, tickerWidget, hsettings]
      simp only [hid, Option.bind_some, hread, hwidgets]
    have hchime : (Chimes.voiceClockConfig s'.settings.voiceclock).Decide =
        (Chimes.voiceClockConfig s.settings.voiceclock).Decide := by
      rw [hsettings]
      exact hs.chime
    simp only [effective, hchime, hscale, hticker, hspeed, hbanner, htransition, htheme, hrefresh]
  · have hvoice : Chimes.voiceClockConfig s'.settings.voiceclock =
        (settingsVM s).shown.config := by
      rw [hsettings]
      rfl
    exact hs.shown_again hvoice hscale (by rw [hsettings]) hwidgets hspeed hbanner htransition
      htheme hminutes

private def night : Form :=
  { voiceEnabled := "on", quietStart := "21:30", quietEnd := "06:45", quarterSound := "gong"
    halfSound := "none", hourSound := "klok", announce := "on", attention := ""
    announceRate := "snel", kioskScale := "0.6", tickerWidgetID := "1", theme := "pastel"
    tickerSpeed := "7", bannerDate := "kort", refreshMinutes := "5000", transition := "" }

private def nightly : List Act :=
  [.createWidget true, .save night (.voiceclock night.config), .save night (.kioskScale "0.60"),
    .save night (.tickerWidgetID "1"), .save night (.tickerSpeed "7"),
    .save night (.bannerDate "kort"), .save night (.refreshIntervalSecs "86400"),
    .save night (.kioskTransition "0"), .deleteWidget 1]

theorem saved_again_nightly :
    ∃ s, acts.run {} nightly = some s ∧ (settingsVM s).shown.tickerSpeed = "20" ∧
      (settingsVM s).shown.kioskScale = "0.60" ∧
      effective (saveAll s (settingsVM s).shown) = effective s ∧
      (settingsVM (saveAll s (settingsVM s).shown)).shown = (settingsVM s).shown := by
  obtain ⟨s, hrun⟩ : ∃ s, acts.run {} nightly = some s := by
    apply Option.isSome_iff_exists.mp
    decide +kernel
  have hread : (acts.run {} nightly).map (fun s =>
      ((settingsVM s).shown.tickerSpeed, (settingsVM s).shown.kioskScale)) =
        some ("20", "0.60") := by
    decide +kernel
  rw [hrun] at hread
  obtain ⟨hspeed, hscale⟩ := Prod.mk.inj (Option.some.inj hread)
  exact ⟨s, hrun, hspeed, hscale, saved_again (by decide +kernel) hrun⟩

end Site

end FamilyPlanner.Server.SettingsPage

import FamilyPlanner.Foundation.Run
import FamilyPlanner.VoiceClock.Chime
import Mathlib.Data.List.Perm.Basic

/-!
# The voice clock in the browser

Each chime of the stream is played as tones; a spoken time signal first speaks
and then waits for the beat.  Times are in milliseconds of the browser's clock,
frequencies in hundredths of a hertz.
-/

namespace FamilyPlanner.Kiosk.TimeSignal

open FamilyPlanner.Foundation FamilyPlanner.VoiceClock

/-! ## The sounds -/

structure Tone where
  freq : Int
  start : Int
  dur : Int
  deriving DecidableEq, Repr

def singleBell (freq now : Int) : List Tone × Int := ([⟨freq, now, 1900⟩], 1900)

def bbGap (quarter : Int) : Int :=
  if quarter = 1 then 300
  else if quarter = 2 then 550
  else if quarter = 3 then 850
  else 450

def bingbong (quarter now : Int) : List Tone × Int :=
  let gap := bbGap quarter
  ([⟨65925, now, 1400⟩, ⟨52325, now + gap, 1900⟩], gap + 1900)

def gong (now : Int) : List Tone × Int :=
  ([⟨88000, now, 1600⟩, ⟨58733, now + 300, 1600⟩], 1900)

def pips (now : Int) : List Tone × Int :=
  ([⟨100000, now, 90⟩, ⟨100000, now + 200, 90⟩, ⟨100000, now + 400, 90⟩,
    ⟨150000, now + 600, 500⟩], 1100)

/-- The third pip is the one that marks the beat. -/
def timePips (now : Int) : List Tone :=
  [⟨100000, now, 100⟩, ⟨100000, now + 1000, 100⟩, ⟨100000, now + 2000, 500⟩]

/-- The five changes, of E4, F sharp 4, G sharp 4 and B3. -/
def changes : List (List Int) :=
  [[41530, 36999, 32963, 24694], [32963, 41530, 36999, 24694], [32963, 36999, 41530, 32963],
    [41530, 32963, 36999, 24694], [24694, 36999, 41530, 32963]]

def quarterSequence (quarter : Int) : List Nat :=
  if quarter = 0 then [1, 2, 3, 4]
  else if quarter = 1 then [0]
  else if quarter = 2 then [1, 2]
  else if quarter = 3 then [3, 4, 0]
  else [0]

def ring (dur step start : Int) (notes : List Int) : List Tone × Int :=
  notes.foldl (fun p freq => (p.1 ++ [⟨freq, p.2, dur⟩], p.2 + step)) ([], start)

def ringChanges (start : Int) (sequence : List Nat) : List Tone × Int :=
  sequence.foldl (fun p i =>
    let q := ring 2000 620 p.2 (changes.getD i [])
    (p.1 ++ q.1, q.2 + 450)) ([], start)

def strikes (hour : Int) : Nat := if hour % 12 = 0 then 12 else (hour % 12).toNat

def westminster (quarter hour now : Int) : List Tone × Int :=
  let p := ringChanges now (quarterSequence quarter)
  if quarter = 0 then
    let q := ring 2600 1200 (p.2 + 500) (List.replicate (strikes hour) 16481)
    (p.1 ++ q.1, q.2 - now)
  else (p.1, p.2 - now)

/-- The tones and how long they take. -/
def playSound (sound : Sound) (quarter hour now : Int) : List Tone × Int :=
  match sound with
  | .bing => singleBell 65925 now
  | .bong => singleBell 52325 now
  | .bingbong => bingbong quarter now
  | .gong => gong now
  | .pips => pips now
  | .timesignal => (timePips now, 3000)
  | .westminster => westminster quarter hour now
  | .none => ([], 0)

/-- Without an audio context some sounds are left out, and `none` is an error. -/
def sounded (audio : Bool) (sound : Sound) (quarter hour now : Int) : Option (List Tone × Int) :=
  if audio then some (playSound sound quarter hour now)
  else
    match sound with
    | .bing | .bong | .bingbong | .none => some ([], 0)
    | .timesignal => some ([], 3000)
    | .gong | .pips | .westminster => none

/-! ### How long they take -/

theorem le_ring (dur step start : Int) (hstep : 0 ≤ step) (notes : List Int) :
    start ≤ (ring dur step start notes).2 := by
  have hfold : ∀ p : List Tone × Int, start ≤ p.2 → start ≤
      (notes.foldl (fun p freq => (p.1 ++ [(⟨freq, p.2, dur⟩ : Tone)], p.2 + step)) p).2 := by
    induction notes with
    | nil => exact fun p hp => hp
    | cons freq notes ih =>
        intro p hp
        apply ih
        dsimp only
        omega
  exact hfold ([], start) (le_refl start)

theorem le_ringChanges (start : Int) (sequence : List Nat) :
    start ≤ (ringChanges start sequence).2 := by
  unfold ringChanges
  generalize hp : (([], start) : List Tone × Int) = p
  have hle : start ≤ p.2 := by
    rw [← hp]
  clear hp
  induction sequence generalizing p with
  | nil => exact hle
  | cons i sequence ih =>
      apply ih
      have := le_ring 2000 620 p.2 (by decide) (changes.getD i [])
      dsimp only
      omega

theorem playSound_dur (sound : Sound) (quarter hour now : Int) :
    0 ≤ (playSound sound quarter hour now).2 := by
  cases sound with
  | bingbong =>
      simp only [playSound, bingbong, bbGap]
      split <;> (try split) <;> (try split) <;> omega
  | westminster =>
      have hchanges := le_ringChanges now (quarterSequence quarter)
      simp only [playSound, westminster]
      split
      · have := le_ring 2600 1200 ((ringChanges now (quarterSequence quarter)).2 + 500) (by decide)
          (List.replicate (strikes hour) 16481)
        dsimp only
        omega
      · dsimp only
        omega
  | none | bing | bong | gong | pips | timesignal =>
      simp [playSound, singleBell, gong, pips]

theorem sounded_dur {audio : Bool} {sound : Sound} {quarter hour now : Int}
    {played : List Tone × Int} (h : sounded audio sound quarter hour now = some played) :
    0 ≤ played.2 ∧ (audio = false → played.1 = []) := by
  unfold sounded at h
  split at h
  · rename_i haudio
    cases h
    exact ⟨playSound_dur sound quarter hour now, by simp [haudio]⟩
  · cases sound with
    | none | bing | bong | bingbong | timesignal =>
        cases h
        exact ⟨by decide, fun _ => rfl⟩
    | gong | pips | westminster => cases h

/-! ## The page -/

/-- A time signal for a beat; no beat is the time 0. -/
structure Signal where
  beat : Int
  received : Int
  deriving DecidableEq, Repr

inductive Task where
  | speakThenPips (sentence : String) (signal : Signal) (rate : Int)
  | timePips (signal : Signal) (spoken : Int)
  | speak (sentence : String)
  deriving DecidableEq, Repr

structure Timer where
  due : Int
  task : Task
  deriving DecidableEq, Repr

/-- When it ends, the pips of a signal may start. -/
structure Utterance where
  sentence : String
  rate : Int
  onend : Option Signal
  deriving DecidableEq, Repr

/-- The third pip of a signal; `spoken` is when its speech was over. -/
structure Mark where
  signal : Signal
  spoken : Int
  time : Int
  deriving DecidableEq, Repr

/-- The first of `speaking` is being spoken.  `accepted` and `marks` are history. -/
structure Page where
  now : Int
  snoozed : Bool := false
  timers : List Timer := []
  speaking : List Utterance := []
  tones : List Tone := []
  accepted : List Signal := []
  marks : List Mark := []
  deriving DecidableEq, Repr

namespace Page

variable (p : Page)

def setTimeout (task : Task) (delay : Int) : Page :=
  { p with timers := p.timers ++ [⟨p.now + delay, task⟩] }

def mark (audio : Bool) (signal : Signal) (spoken : Int) : Page :=
  if audio then
    { p with
      tones := p.tones ++ TimeSignal.timePips p.now
      marks := p.marks ++ [⟨signal, spoken, p.now + 2000⟩] }
  else p

def startPips (signal : Signal) : Page :=
  let delay := if signal.beat ≠ 0 then signal.beat - 2000 - p.now else 0
  let delay := if delay < 0 then 0 else delay
  p.setTimeout (.timePips signal p.now) delay

def speakThenPips (speech : Bool) (sentence : String) (signal : Signal) (rate : Int) : Page :=
  if speech then
    { p with
      speaking := p.speaking ++
        [⟨sentence, if rate = 0 then 70 else rate, some signal⟩] }
  else p.startPips signal

def speak (speech : Bool) (sentence : String) : Page :=
  if speech ∧ sentence ≠ "" then
    { p with speaking := p.speaking ++ [⟨sentence, 70, none⟩] }
  else p

def runTask (audio speech : Bool) : Task → Page
  | .speakThenPips sentence signal rate => p.speakThenPips speech sentence signal rate
  | .timePips signal spoken => p.mark audio signal spoken
  | .speak sentence => p.speak speech sentence

/-- Without an audio context the call for attention is an error. -/
def runSignal (audio : Bool) (d : Chime) (signal : Signal) : Page :=
  if d.announce ∧ d.text ≠ "" then
    if d.attention ∧ ¬ audio then p
    else
      let delay := if d.attention then 2200 else 0
      let bells : List Tone :=
        if d.attention then [⟨65925, p.now, 1400⟩, ⟨52325, p.now + 500, 1900⟩] else []
      setTimeout { p with tones := p.tones ++ bells }
        (.speakThenPips ("Opgelet. Bij de derde toon is het " ++ d.text) signal d.rate) delay
  else p.mark audio signal p.now

def runChime (audio : Bool) (d : Chime) (preview : Bool) : Page :=
  if p.snoozed ∧ ¬ preview then p
  else if d.sound = .timesignal then
    let signal : Signal := ⟨d.atUnixMs, p.now⟩
    runSignal { p with accepted := p.accepted ++ [signal] } audio d signal
  else
    match sounded audio d.sound d.quarter d.hour p.now with
    | none => p
    | some played =>
        let p := { p with tones := p.tones ++ played.1 }
        if d.announce ∧ d.text ≠ "" then
          p.setTimeout (.speak ("Het is " ++ d.text)) (played.2 + 400)
        else p

def ended (u : Utterance) : Page :=
  match u.onend with
  | some signal => p.startPips signal
  | none => p

/-- Muting cancels all speech, which ends it. -/
def fpSnooze : Page :=
  if p.snoozed then { p with snoozed := false }
  else p.speaking.foldl ended { p with snoozed := true, speaking := [] }

inductive Event where
  | wait (elapsed : Nat)
  | chime (d : Chime) (preview : Bool)
  | timer (i : Nat)
  | speechEnd
  | snooze
  deriving Repr

/-- `audio` is whether the browser has an audio context, `speech` whether it can
speak. -/
def step (audio speech : Bool) : Event → Option Page
  | .wait elapsed => some { p with now := p.now + elapsed }
  | .chime d preview => some (p.runChime audio d preview)
  | .timer i =>
      match p.timers[i]? with
      | some t =>
          if t.due ≤ p.now then
            some (runTask { p with timers := p.timers.eraseIdx i } audio speech t.task)
          else none
      | none => none
  | .speechEnd =>
      match p.speaking with
      | u :: rest => some (ended { p with speaking := rest } u)
      | [] => none
  | .snooze => some p.fpSnooze

def events (audio speech : Bool) : System Page Event := ⟨fun p e => p.step audio speech e⟩

end Page

/-! ## The third pip -/

def Task.signal : Task → Option Signal
  | .speakThenPips _ signal _ | .timePips signal _ => some signal
  | .speak _ => none

/--
A live chime is one that the configuration decides on, and comes no earlier
than its lead before the beat; a preview is for no beat.  A `prompt` browser
runs each timer when it is due.
-/
def Delivered (prompt : Bool) (p : Page) : Page.Event → Prop
  | .chime d preview =>
      if preview then d.atUnixMs = 0
      else ∃ (cfg : Config) (z : Zone) (beat : Int) (ch : Chime),
        cfg.Decide z beat = some ch ∧ d = { ch with atUnixMs := beat / 1000000 } ∧
          beat - ch.Lead ≤ p.now * 1000000
  | .wait elapsed => prompt = true → ∀ t ∈ p.timers, p.now + elapsed ≤ t.due
  | _ => True

/-- The earliest time for the third pip. -/
def Signal.goal (s : Signal) (spoken : Int) : Int :=
  if s.beat = 0 then spoken + 2000 else max (spoken + 2000) s.beat

def Page.pending (p : Page) : List Signal :=
  p.timers.filterMap (·.task.signal) ++ p.speaking.filterMap (·.onend)

/-- `owed` are the signals that are on their way and neither waited for nor
spoken yet. -/
structure Sound (audio prompt : Bool) (owed : List Signal) (p : Page) : Prop where
  kept : audio = true → p.accepted.Perm (owed ++ (p.pending ++ p.marks.map (·.signal)))
  silent : audio = false → p.tones = []
  due : ∀ t ∈ p.timers, ∀ s spoken, t.task = .timePips s spoken → s.goal spoken = t.due + 2000
  waiting : prompt = true → ∀ t ∈ p.timers, p.now ≤ t.due
  marks : ∀ m ∈ p.marks, m.signal.goal m.spoken ≤ m.time ∧
    (prompt = true → m.time = m.signal.goal m.spoken)

variable {audio prompt speech : Bool} {p q : Page} {owed : List Signal} {s : Signal}

theorem forall_mem_concat {α : Type*} {P : α → Prop} {as : List α} {a : α} (h : ∀ b ∈ as, P b)
    (ha : P a) : ∀ b ∈ as ++ [a], P b := by
  intro b hb
  rcases List.mem_append.mp hb with hb | hb
  · exact h b hb
  · rwa [List.mem_singleton.mp hb]

theorem Sound.setTimeout {task : Task} {delay : Int}
    (h : Sound audio prompt (task.signal.toList ++ owed) p) (hdelay : 0 ≤ delay)
    (hdue : ∀ s spoken, task = .timePips s spoken → s.goal spoken = p.now + delay + 2000) :
    Sound audio prompt owed (p.setTimeout task delay) := by
  obtain ⟨hkept, hsilent, hdues, hwaiting, hmarks⟩ := h
  refine ⟨?_, hsilent, forall_mem_concat hdues hdue, ?_, hmarks⟩
  · intro haudio
    refine (hkept haudio).trans ?_
    apply List.perm_iff_count.mpr
    intro signal
    have hone : [Timer.mk (p.now + delay) task].filterMap (·.task.signal) = task.signal.toList := by
      cases hsignal : task.signal <;> simp [hsignal]
    simp only [Page.pending, Page.setTimeout, List.filterMap_append, hone, List.count_append]
    omega
  · intro hprompt
    refine forall_mem_concat (hwaiting hprompt) ?_
    dsimp only [Page.setTimeout]
    omega

theorem Sound.startPips (h : Sound audio prompt (s :: owed) p) : Sound audio prompt owed (p.startPips s) := by
  unfold Page.startPips
  apply Sound.setTimeout h
  · split <;> omega
  · intro s' spoken heq
    cases heq
    by_cases hbeat : s.beat = 0
    · simp [Signal.goal, hbeat]
    · simp only [Signal.goal, hbeat, if_false, ne_eq, not_false_eq_true, if_true]
      split <;> omega

theorem Sound.mark {spoken : Int} (h : Sound audio prompt (s :: owed) p)
    (hgoal : s.goal spoken ≤ p.now + 2000)
    (hprompt : prompt = true → p.now + 2000 = s.goal spoken) :
    Sound audio prompt owed (p.mark audio s spoken) := by
  obtain ⟨hkept, hsilent, hdues, hwaiting, hmarks⟩ := h
  cases audio with
  | false => exact ⟨by simp, hsilent, hdues, hwaiting, hmarks⟩
  | true =>
      refine ⟨?_, by simp, hdues, hwaiting, forall_mem_concat hmarks ⟨hgoal, hprompt⟩⟩
      intro _
      refine (hkept rfl).trans ?_
      apply List.perm_iff_count.mpr
      intro signal
      simp only [Page.mark, Page.pending, if_true, List.map_append, List.map_cons, List.map_nil,
        List.count_append, List.count_cons, List.count_nil]
      omega

theorem Sound.utter {u : Utterance} (h : Sound audio prompt (u.onend.toList ++ owed) p) :
    Sound audio prompt owed { p with speaking := p.speaking ++ [u] } := by
  obtain ⟨hkept, hsilent, hdues, hwaiting, hmarks⟩ := h
  refine ⟨?_, hsilent, hdues, hwaiting, hmarks⟩
  intro haudio
  refine (hkept haudio).trans ?_
  apply List.perm_iff_count.mpr
  intro signal
  have hone : [u].filterMap (·.onend) = u.onend.toList := by
    cases honend : u.onend <;> simp [honend]
  simp only [Page.pending, List.filterMap_append, hone, List.count_append]
  omega

theorem Sound.withTones (h : Sound audio prompt owed p) {tones : List Tone}
    (htones : audio = false → tones = []) :
    Sound audio prompt owed { p with tones := p.tones ++ tones } := by
  refine { h with silent := ?_ }
  intro haudio
  rw [h.silent haudio, htones haudio]
  rfl

theorem Sound.speakThenPips {sentence : String} {rate : Int} (h : Sound audio prompt (s :: owed) p) :
    Sound audio prompt owed (p.speakThenPips speech sentence s rate) := by
  unfold Page.speakThenPips
  split
  · exact Sound.utter h
  · exact h.startPips

theorem Sound.speak {sentence : String} (h : Sound audio prompt owed p) :
    Sound audio prompt owed (p.speak speech sentence) := by
  unfold Page.speak
  split
  · exact Sound.utter h
  · exact h

theorem Sound.ended {u : Utterance} (h : Sound audio prompt (u.onend.toList ++ owed) p) :
    Sound audio prompt owed (p.ended u) := by
  unfold Page.ended
  cases honend : u.onend with
  | none =>
      rw [honend] at h
      exact h
  | some s =>
      rw [honend] at h
      exact h.startPips

theorem Sound.endedAll {us : List Utterance}
    (h : Sound audio prompt (us.filterMap (·.onend) ++ owed) p) :
    Sound audio prompt owed (us.foldl Page.ended p) := by
  induction us generalizing p with
  | nil => exact h
  | cons u us ih =>
      rw [List.foldl_cons]
      apply ih
      apply Sound.ended
      cases honend : u.onend with
      | none =>
          simp only [List.filterMap_cons, honend] at h
          exact h
      | some s =>
          simp only [List.filterMap_cons, honend] at h
          exact h

theorem Sound.fpSnooze (h : Sound audio prompt [] p) : Sound audio prompt [] p.fpSnooze := by
  unfold Page.fpSnooze
  split
  · exact { h with }
  · apply Sound.endedAll
    refine { h with kept := fun haudio => (h.kept haudio).trans ?_ }
    apply List.perm_iff_count.mpr
    intro signal
    simp only [Page.pending, List.filterMap_nil, List.count_append, List.count_nil]
    omega

theorem Sound.runTask {t : Timer} {i : Nat} (h : Sound audio prompt [] p) (ht : p.timers[i]? = some t)
    (hdue : t.due ≤ p.now) :
    Sound audio prompt []
      (Page.runTask { p with timers := p.timers.eraseIdx i } audio speech t.task) := by
  have hmem := List.mem_of_getElem? ht
  have hrest : Sound audio prompt (t.task.signal.toList) { p with timers := p.timers.eraseIdx i } := by
    refine ⟨fun haudio => (h.kept haudio).trans ?_, h.silent, ?_, ?_, h.marks⟩
    · have hperm : (p.timers.filterMap (·.task.signal)).Perm
          (t.task.signal.toList ++ (p.timers.eraseIdx i).filterMap (·.task.signal)) := by
        have herase : p.timers.Perm (t :: p.timers.eraseIdx i) := by
          obtain ⟨hlt, rfl⟩ := List.getElem?_eq_some_iff.mp ht
          exact (List.getElem_cons_eraseIdx_perm hlt).symm
        refine (herase.filterMap _).trans ?_
        cases hsignal : t.task.signal <;> simp [hsignal]
      apply List.perm_iff_count.mpr
      intro signal
      have hcount := List.perm_iff_count.mp hperm signal
      simp only [Page.pending, List.count_append, List.count_nil] at hcount ⊢
      omega
    · intro t' ht'
      exact h.due t' (List.mem_of_mem_eraseIdx ht')
    · intro hprompt t' ht'
      exact h.waiting hprompt t' (List.mem_of_mem_eraseIdx ht')
  cases htask : t.task with
  | speakThenPips sentence signal rate =>
      rw [htask] at hrest
      exact hrest.speakThenPips
  | timePips signal spoken =>
      rw [htask] at hrest
      have hgoal := h.due t hmem signal spoken htask
      refine Sound.mark hrest ?_ ?_
      · dsimp only
        omega
      · intro hprompt
        have := h.waiting hprompt t hmem
        dsimp only
        omega
  | speak sentence =>
      rw [htask] at hrest
      exact hrest.speak

theorem goal_of_delivered {d : Chime} {preview : Bool}
    (h : Delivered prompt p (.chime d preview)) (hsignal : d.sound = .timesignal)
    (hsilent : ¬ (d.announce = true ∧ d.text ≠ "")) :
    Signal.goal ⟨d.atUnixMs, p.now⟩ p.now = p.now + 2000 := by
  unfold Signal.goal
  dsimp only
  split
  · rfl
  · rename_i hbeat
    cases preview with
    | true => exact absurd h hbeat
    | false =>
        obtain ⟨cfg, z, beat, ch, hdecide, rfl, hlead⟩ := h
        have hunspoken : ch.announce = false := by
          rcases announced_of_decide hdecide with hannounce | ⟨htext, -⟩
          · exact hannounce
          · by_contra hannounce
            refine hsilent ⟨by simpa using hannounce, ?_⟩
            rw [htext]
            exact dutchHour_ne_empty _
        have htwo : ch.Lead = 2 * Clock.second := lead_unspoken hsignal hunspoken
        rw [htwo, Clock.second] at hlead
        dsimp only
        omega

theorem Sound.runSignal {d : Chime}
    (h : Sound audio prompt [⟨d.atUnixMs, p.now⟩] p)
    (hgoal : ¬ (d.announce = true ∧ d.text ≠ "") →
      Signal.goal ⟨d.atUnixMs, p.now⟩ p.now = p.now + 2000) :
    Sound audio prompt [] (p.runSignal audio d ⟨d.atUnixMs, p.now⟩) := by
  unfold Page.runSignal
  split
  · split
    · rename_i hdeaf
      exact { h with kept := fun haudio => absurd haudio hdeaf.2 }
    · rename_i hheard
      apply Sound.setTimeout
      · apply h.withTones
        intro haudio
        rw [if_neg]
        exact fun hattention => hheard ⟨hattention, by simp [haudio]⟩
      · split <;> decide
      · intro s spoken heq
        cases heq
  · rename_i hsilent
    apply h.mark
    · exact le_of_eq (hgoal hsilent)
    · intro _
      exact (hgoal hsilent).symm

theorem Sound.runChime {d : Chime} {preview : Bool} (h : Sound audio prompt [] p)
    (hdelivered : Delivered prompt p (.chime d preview)) :
    Sound audio prompt [] (p.runChime audio d preview) := by
  unfold Page.runChime
  split
  · exact h
  · split
    · rename_i hsignal
      have hgoal := goal_of_delivered hdelivered hsignal
      apply Sound.runSignal
      · refine { h with kept := ?_ }
        intro haudio
        refine ((h.kept haudio).append_right _).trans ?_
        simp only [List.nil_append]
        exact List.perm_append_comm
      · exact hgoal
    · split
      · exact h
      · rename_i played hplayed
        obtain ⟨hdur, hdeaf⟩ := sounded_dur hplayed
        dsimp only
        split
        · apply Sound.setTimeout
          · exact h.withTones hdeaf
          · omega
          · intro s spoken heq
            cases heq
        · exact h.withTones hdeaf

theorem Sound.step {e : Page.Event} (h : Sound audio prompt [] p) (he : Delivered prompt p e)
    (hstep : p.step audio speech e = some q) : Sound audio prompt [] q := by
  cases e with
  | wait elapsed =>
      cases hstep
      exact { h with waiting := he }
  | chime d preview =>
      cases hstep
      exact h.runChime he
  | timer i =>
      simp only [Page.step] at hstep
      split at hstep
      · rename_i t ht
        split at hstep
        · rename_i hdue
          cases hstep
          exact h.runTask ht hdue
        · contradiction
      · contradiction
  | speechEnd =>
      simp only [Page.step] at hstep
      split at hstep
      · rename_i u rest hspeaking
        cases hstep
        apply Sound.ended
        refine { h with kept := fun haudio => (h.kept haudio).trans ?_ }
        apply List.perm_iff_count.mpr
        intro signal
        cases honend : u.onend with
        | none => simp [Page.pending, hspeaking, honend, List.count_append]
        | some s =>
            simp only [Page.pending, hspeaking, honend, List.filterMap_cons, List.count_append,
              List.count_cons, List.count_nil, Option.toList]
            omega
      · contradiction
  | snooze =>
      cases hstep
      exact h.fpSnooze

/--
However chimes, speech and the snooze button overlap: each time signal that was
taken up is waiting, spoken, or has had its third pip, once; and that pip comes
two seconds after the speech at the earliest and never before the beat, and at
the first moment that is both if the browser is prompt.  A browser without an
audio context sounds nothing.
-/
theorem third_pip {events : List Page.Event} {now : Int}
    (hdelivered : (Page.events audio speech).Along (Delivered prompt) { now } events)
    (hrun : (Page.events audio speech).run { now } events = some p) :
    (audio = true → p.accepted.Perm (p.pending ++ p.marks.map (·.signal))) ∧
      (∀ m ∈ p.marks, m.spoken + 2000 ≤ m.time ∧
        (m.signal.beat ≠ 0 → m.signal.beat ≤ m.time) ∧
        (prompt = true → m.time = m.signal.goal m.spoken)) ∧
      (audio = false → p.tones = []) := by
  have hsound : Sound audio prompt [] p := by
    apply System.run_invariant_along (I := Sound audio prompt []) _ _ hdelivered hrun
    · intro p e q h he hstep
      exact h.step he hstep
    · constructor <;> simp [Page.pending]
  refine ⟨hsound.kept, ?_, hsound.silent⟩
  intro m hm
  obtain ⟨hgoal, hexact⟩ := hsound.marks m hm
  unfold Signal.goal at hgoal
  split at hgoal
  · rename_i hbeat
    exact ⟨hgoal, fun hne => absurd hbeat hne, hexact⟩
  · exact ⟨by omega, fun _ => by omega, hexact⟩

private def elfUur : Chime where
  sound := .timesignal
  quarter := 0
  hour := 11
  announce := true
  text := "elf uur"
  attention := true
  rate := 70

private def spokenAtEleven : List Page.Event :=
  [.chime { elfUur with atUnixMs := 39600000 } false, .wait 2200, .timer 0, .wait 6000, .speechEnd,
    .wait 3371, .timer 0]

/-- Spoken for six seconds, the signal waits for eleven o'clock. -/
theorem third_pip_at_eleven :
    ∃ p, (Page.events true true).run { now := 39586429 } spokenAtEleven = some p ∧
      p.marks.map (·.time) = [39600000] ∧
      p.accepted.Perm (p.pending ++ p.marks.map (·.signal)) ∧
      ∀ m ∈ p.marks, m.spoken + 2000 ≤ m.time ∧
        (m.signal.beat ≠ 0 → m.signal.beat ≤ m.time) ∧
        m.time = m.signal.goal m.spoken := by
  obtain ⟨p, hrun⟩ : ∃ p, (Page.events true true).run { now := 39586429 } spokenAtEleven = some p :=
    ⟨_, rfl⟩
  have hdelivered : (Page.events true true).Along (Delivered true) { now := 39586429 }
      spokenAtEleven := by
    refine ⟨⟨Default, .fixed 0, 11 * Clock.hour, elfUur, by decide +kernel, rfl,
      by decide +kernel⟩, ?_⟩
    rintro _ ⟨⟩
    refine ⟨fun _ => by decide, ?_⟩
    rintro _ ⟨⟩
    refine ⟨trivial, ?_⟩
    rintro _ ⟨⟩
    refine ⟨fun _ => by decide, ?_⟩
    rintro _ ⟨⟩
    refine ⟨trivial, ?_⟩
    rintro _ ⟨⟩
    refine ⟨fun _ => by decide, ?_⟩
    rintro _ ⟨⟩
    exact ⟨trivial, fun _ _ => trivial⟩
  obtain ⟨hkept, hmarks, -⟩ := third_pip hdelivered hrun
  refine ⟨p, hrun, ?_, hkept rfl, ?_⟩
  · cases hrun
    rfl
  · intro m hm
    obtain ⟨hspoken, hbeat, hexact⟩ := hmarks m hm
    exact ⟨hspoken, hbeat, hexact rfl⟩

end FamilyPlanner.Kiosk.TimeSignal

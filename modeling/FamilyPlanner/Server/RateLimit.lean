import Mathlib.Data.Rat.Cast.Order
import FamilyPlanner.Foundation.Bucket
import FamilyPlanner.Rotation.State

/-!
# The passphrase rate limiter

A token bucket for each caller, pruned when a caller has been away for ten
minutes.  Times are seconds of the Unix clock.
-/

namespace FamilyPlanner.Server

open FamilyPlanner.Foundation FamilyPlanner.Foundation.Supply
open FamilyPlanner.Rotation

abbrev TokenBucket := Bucket ℚ

structure RateLimiter where
  buckets : Buckets String ℚ
  burst : ℚ
  refill : ℚ
  lastPrune : ℚ

namespace RateLimiter

def Seconds (d : Duration) : ℚ := d / second

/-- The zero `time.Time` is the first second of the year 1. -/
def zeroTime : ℚ := -62135596800

def new (burst : Int) (per : Duration) : RateLimiter where
  buckets := fun _ => none
  burst := burst
  refill := burst / Seconds per
  lastPrune := zeroTime

def prune (l : RateLimiter) (now : ℚ) : RateLimiter :=
  if now - l.lastPrune < 60 then l
  else
    { l with
      lastPrune := now
      buckets := forget l.buckets fun b => now - b.seen > 600 }

/-- `allow` behind its call of `prune`: the same bucket, never pruned. -/
def allowUnpruned (l : RateLimiter) (key : String) (now : ℚ) :
    Bool × RateLimiter :=
  let b : TokenBucket := (l.buckets key).getD { tokens := l.burst, seen := now }
  let tokens := b.tokens + l.refill * (now - b.seen)
  let tokens := if tokens > l.burst then l.burst else tokens
  if tokens < 1 then
    (false, { l with buckets := put l.buckets key ⟨tokens, now⟩ })
  else
    (true, { l with buckets := put l.buckets key ⟨tokens - 1, now⟩ })

def allow (l : RateLimiter) (key : String) (now : ℚ) : Bool × RateLimiter :=
  (l.prune now).allowUnpruned key now

def serve (method : RateLimiter → String → ℚ → Bool × RateLimiter) :
    RateLimiter → List (String × ℚ) → List Bool
  | _, [] => []
  | l, c :: cs => (method l c.1 c.2).1 :: serve method (method l c.1 c.2).2 cs

def supply (l : RateLimiter) : Supply ℚ := ⟨l.burst, l.refill⟩

theorem allowUnpruned_eq_ask (l : RateLimiter) (key : String) (now : ℚ) :
    l.allowUnpruned key now =
      ((l.supply.ask l.buckets key now).1,
        { l with buckets := (l.supply.ask l.buckets key now).2 }) := by
  have hclamp : ∀ x : ℚ, (if x > l.burst then l.burst else x) = min l.burst x := by
    intro x
    rw [min_def]
    split <;> split <;> linarith
  have hlevel : l.supply.levelOf l.buckets key now =
      min l.burst (((l.buckets key).getD ⟨l.burst, now⟩).tokens +
        l.refill * (now - ((l.buckets key).getD ⟨l.burst, now⟩).seen)) := by
    unfold levelOf
    cases l.buckets key with
    | none => simp [supply]
    | some b => rfl
  unfold allowUnpruned ask
  simp only [hclamp, ← hlevel]
  by_cases h : 1 ≤ l.supply.levelOf l.buckets key now
  · rw [if_pos h, if_neg (not_lt.mpr h)]
  · rw [if_neg h, if_pos (not_le.mp h)]

theorem serve_unpruned (l : RateLimiter) (calls : List (String × ℚ)) :
    serve allowUnpruned l calls = l.supply.answers l.buckets calls := by
  induction calls generalizing l with
  | nil => rfl
  | cons c cs ih =>
      rw [serve, answers, ih, allowUnpruned_eq_ask]
      rfl

/-- A bucket that is idle for ten minutes has regained its burst. -/
def Refills (l : RateLimiter) : Prop :=
  0 ≤ l.burst ∧ 0 ≤ l.refill ∧ l.burst ≤ l.refill * 600

theorem new_refills {burst : Int} {per : Duration} (hburst : 1 ≤ burst)
    (hper : 0 < per) (hten : per ≤ 600 * second) : (new burst per).Refills := by
  have hb : (1 : ℚ) ≤ burst := by exact_mod_cast hburst
  have hnanos : (0 : ℚ) < per := by exact_mod_cast hper
  have hs : 0 < Seconds per := by
    unfold Seconds second
    positivity
  have hle : Seconds per ≤ 600 := by
    unfold Seconds
    rw [div_le_iff₀ (by norm_num [second])]
    exact_mod_cast hten
  refine ⟨by change (0 : ℚ) ≤ burst; linarith, ?_, ?_⟩
  · change 0 ≤ (burst : ℚ) / Seconds per
    positivity
  · change (burst : ℚ) ≤ burst / Seconds per * 600
    rw [div_mul_eq_mul_div, le_div_iff₀ hs]
    exact mul_le_mul_of_nonneg_left hle (by linarith)

/-- The limiter that prunes beside the one that does not. -/
structure Tracks (now : ℚ) (l u : RateLimiter) : Prop where
  supply : l.supply = u.supply
  refills : l.Refills
  sound : Sound l.buckets now
  agree : l.supply.Agree now l.buckets u.buckets

theorem Tracks.later {now t : ℚ} {l u : RateLimiter} (h : Tracks now l u)
    (hle : now ≤ t) : Tracks t l u :=
  ⟨h.supply, h.refills, h.sound.later hle, h.agree.later hle⟩

theorem prune_tracks {now : ℚ} {l u : RateLimiter} (h : Tracks now l u) :
    Tracks now (l.prune now) u := by
  obtain ⟨hburst, hrefill, hten⟩ := h.refills
  unfold prune
  split
  · exact h
  · refine ⟨h.supply, h.refills, h.sound.forget _, ?_⟩
    apply Agree.trans _ h.agree
    apply agree_forget hrefill h.sound
    intro b hb
    have hidle : 600 < now - b.seen := of_decide_eq_true hb
    have hgain : l.refill * 600 ≤ l.refill * (now - b.seen) :=
      mul_le_mul_of_nonneg_left hidle.le hrefill
    exact le_trans hten hgain

theorem allow_tracks {now : ℚ} {l u : RateLimiter} (h : Tracks now l u)
    (key : String) :
    (l.allow key now).1 = (u.allowUnpruned key now).1 ∧
      Tracks now (l.allow key now).2 (u.allowUnpruned key now).2 := by
  have hp := prune_tracks h
  obtain ⟨hburst, hrefill, -⟩ := hp.refills
  have hask := ask_agree hp.agree key
  rw [allow, allowUnpruned_eq_ask, allowUnpruned_eq_ask, ← hp.supply]
  exact ⟨hask.1, hp.supply, hp.refills, ask_sound hburst hrefill hp.sound key, hask.2⟩

theorem serve_allow {now : ℚ} {l u : RateLimiter} (h : Tracks now l u)
    {calls : List (String × ℚ)} (hmono : calls.Pairwise fun c c' => c.2 ≤ c'.2)
    (hfrom : ∀ c ∈ calls, now ≤ c.2) :
    serve allow l calls = serve allowUnpruned u calls := by
  induction calls generalizing l u now with
  | nil => rfl
  | cons c cs ih =>
      obtain ⟨hcs, hmono⟩ := List.pairwise_cons.mp hmono
      obtain ⟨hok, hnext⟩ :=
        allow_tracks (h.later (hfrom c (List.mem_cons_self ..))) c.1
      rw [serve, serve, hok, ih hnext hmono hcs]

theorem new_tracks {burst : Int} {per : Duration} (hburst : 1 ≤ burst)
    (hper : 0 < per) (hten : per ≤ 600 * second) (now : ℚ) :
    Tracks now (new burst per) (new burst per) := by
  refine ⟨rfl, new_refills hburst hper hten, ⟨?_, ?_⟩, Agree.refl _ _ _⟩
  · intro key b hb
    cases hb
  · intro key b hb
    cases hb

theorem exists_start {calls : List (String × ℚ)}
    (hmono : calls.Pairwise fun c c' => c.2 ≤ c'.2) :
    ∃ now, ∀ c ∈ calls, now ≤ c.2 := by
  cases calls with
  | nil => exact ⟨0, fun c hc => absurd hc List.not_mem_nil⟩
  | cons c cs =>
      refine ⟨c.2, fun c' hc' => ?_⟩
      cases hc' with
      | head => exact le_rfl
      | tail _ h => exact (List.pairwise_cons.mp hmono).1 c' h

/-- Pruning changes no answer, and nobody gets more than the budget. -/
theorem allow_within_budget {burst : Int} {per : Duration} (hburst : 1 ≤ burst)
    (hper : 0 < per) (hten : per ≤ 600 * second) {calls : List (String × ℚ)}
    (hmono : calls.Pairwise fun c c' => c.2 ≤ c'.2) :
    serve allow (new burst per) calls =
        serve allowUnpruned (new burst per) calls ∧
      ∀ key since upto, since ≤ upto →
        (admitted calls (serve allow (new burst per) calls) key since upto : ℚ) ≤
          burst + burst / Seconds per * (upto - since) := by
  obtain ⟨now, hfrom⟩ := exists_start hmono
  have htracks := new_tracks hburst hper hten now
  have hsame := serve_allow htracks hmono hfrom
  obtain ⟨hb, hr, -⟩ := htracks.refills
  refine ⟨hsame, fun key since upto hle => ?_⟩
  rw [hsame, serve_unpruned]
  exact admitted_interval hb hr key hle hmono htracks.sound hfrom

theorem allow_within_budget_login :
    serve allow (new 2 (60 * second))
        [("ip", 0), ("ip", 0), ("ip", 0), ("ip", 30), ("ip", 700)] =
      serve allowUnpruned (new 2 (60 * second))
        [("ip", 0), ("ip", 0), ("ip", 0), ("ip", 30), ("ip", 700)] ∧
    ∀ key since upto, since ≤ upto →
      (admitted [("ip", 0), ("ip", 0), ("ip", 0), ("ip", 30), ("ip", 700)]
        (serve allow (new 2 (60 * second))
          [("ip", 0), ("ip", 0), ("ip", 0), ("ip", 30), ("ip", 700)])
        key since upto : ℚ) ≤
      (2 : Int) + (2 : Int) / Seconds (60 * second) * (upto - since) :=
  allow_within_budget (by decide) (by decide) (by decide) (by decide)

example : serve allow (new 2 (60 * second))
    [("ip", 0), ("ip", 0), ("ip", 0), ("ip", 30), ("ip", 700)] =
      [true, true, false, true, true] := by
  decide +kernel

end RateLimiter

end FamilyPlanner.Server

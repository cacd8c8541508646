import Mathlib.Algebra.Order.Field.Basic
import Mathlib.Data.List.Basic
import Mathlib.Tactic.Linarith
import Mathlib.Tactic.Ring

/-!
# Token buckets

A bucket holds at most `burst` tokens and regains `refill` of them per unit of
time.  A store keeps a bucket for some keys; a key without one stands for a full
bucket.  An answer depends only on the level of its key, so stores that agree on
the levels from now on answer alike, and a store may forget every full bucket.
-/

namespace FamilyPlanner.Foundation

structure Bucket (α : Type*) where
  tokens : α
  seen : α
  deriving Repr, DecidableEq

structure Supply (α : Type*) where
  burst : α
  refill : α
  deriving Repr, DecidableEq

abbrev Buckets (κ α : Type*) := κ → Option (Bucket α)

namespace Supply

variable {κ α : Type*}

def forget (s : Buckets κ α) (drop : Bucket α → Bool) : Buckets κ α :=
  fun key => (s key).filter fun b => ! drop b

section Storing

variable [DecidableEq κ]

def put (s : Buckets κ α) (key : κ) (b : Bucket α) : Buckets κ α :=
  fun k => if k = key then some b else s k

@[simp] theorem put_self (s : Buckets κ α) (key : κ) (b : Bucket α) :
    put s key b key = some b := if_pos rfl

@[simp] theorem put_of_ne {s : Buckets κ α} {key k : κ} (b : Bucket α)
    (h : k ≠ key) : put s key b k = s k := if_neg h

end Storing

variable [Field α] [LinearOrder α]

def level (p : Supply α) (b : Bucket α) (now : α) : α :=
  min p.burst (b.tokens + p.refill * (now - b.seen))

def levelOf (p : Supply α) (s : Buckets κ α) (key : κ) (now : α) : α :=
  match s key with
  | none => p.burst
  | some b => p.level b now

structure Sound (s : Buckets κ α) (now : α) : Prop where
  nonneg : ∀ key b, s key = some b → 0 ≤ b.tokens
  seen_le : ∀ key b, s key = some b → b.seen ≤ now

/-- The same levels at every time from now on. -/
def Agree (p : Supply α) (now : α) (s s' : Buckets κ α) : Prop :=
  ∀ key t, now ≤ t → p.levelOf s key t = p.levelOf s' key t

theorem levelOf_le_burst (p : Supply α) (s : Buckets κ α) (key : κ) (now : α) :
    p.levelOf s key now ≤ p.burst := by
  unfold levelOf
  split
  · exact le_rfl
  · exact min_le_left _ _

theorem Agree.refl (p : Supply α) (now : α) (s : Buckets κ α) :
    p.Agree now s s := fun _ _ _ => rfl

theorem Agree.trans {p : Supply α} {now : α} {s t u : Buckets κ α}
    (h : p.Agree now s t) (h' : p.Agree now t u) : p.Agree now s u := by
  intro key time hle
  rw [h key time hle, h' key time hle]

theorem Agree.later {p : Supply α} {now later : α} {s s' : Buckets κ α}
    (h : p.Agree now s s') (hle : now ≤ later) : p.Agree later s s' := by
  intro key t ht
  exact h key t (le_trans hle ht)

theorem Sound.later {s : Buckets κ α} {now later : α} (hs : Sound s now)
    (hle : now ≤ later) : Sound s later :=
  ⟨hs.nonneg, fun key b hb => le_trans (hs.seen_le key b hb) hle⟩

theorem Sound.forget {s : Buckets κ α} {now : α} (hs : Sound s now)
    (drop : Bucket α → Bool) : Sound (forget s drop) now := by
  constructor
  · intro key b hb
    exact hs.nonneg key b (Option.filter_eq_some_iff.mp hb).1
  · intro key b hb
    exact hs.seen_le key b (Option.filter_eq_some_iff.mp hb).1

section Asking

variable [DecidableEq κ]

/-- Spend a token of the key if its level reaches one. -/
def ask (p : Supply α) (s : Buckets κ α) (key : κ) (now : α) :
    Bool × Buckets κ α :=
  if 1 ≤ p.levelOf s key now then
    (true, put s key ⟨p.levelOf s key now - 1, now⟩)
  else
    (false, put s key ⟨p.levelOf s key now, now⟩)

def answers (p : Supply α) : Buckets κ α → List (κ × α) → List Bool
  | _, [] => []
  | s, c :: cs =>
      (p.ask s c.1 c.2).1 :: p.answers (p.ask s c.1 c.2).2 cs

@[simp] theorem levelOf_put_self (p : Supply α) (s : Buckets κ α) (key : κ)
    (b : Bucket α) (t : α) : p.levelOf (put s key b) key t = p.level b t := by
  simp [levelOf]

theorem levelOf_put_of_ne (p : Supply α) (s : Buckets κ α) {key k : κ}
    (b : Bucket α) (t : α) (h : k ≠ key) :
    p.levelOf (put s key b) k t = p.levelOf s k t := by
  simp [levelOf, h]

theorem ask_agree {p : Supply α} {now : α} {s s' : Buckets κ α}
    (h : p.Agree now s s') (key : κ) :
    (p.ask s key now).1 = (p.ask s' key now).1 ∧
      p.Agree now (p.ask s key now).2 (p.ask s' key now).2 := by
  have hlevel := h key now le_rfl
  unfold ask
  rw [hlevel]
  split <;> refine ⟨rfl, ?_⟩ <;> intro k t ht <;> by_cases hk : k = key
  · subst hk
    simp
  · simp only [levelOf_put_of_ne _ _ _ _ hk]
    exact h k t ht
  · subst hk
    simp
  · simp only [levelOf_put_of_ne _ _ _ _ hk]
    exact h k t ht

end Asking

section Levels

variable [IsStrictOrderedRing α] {p : Supply α}

theorem levelOf_nonneg (hburst : 0 ≤ p.burst) (hrefill : 0 ≤ p.refill)
    {s : Buckets κ α} {now : α} (hs : Sound s now) (key : κ) :
    0 ≤ p.levelOf s key now := by
  unfold levelOf
  split
  · exact hburst
  case h_2 b hb =>
    apply le_min hburst
    have hgain : 0 ≤ p.refill * (now - b.seen) :=
      mul_nonneg hrefill (sub_nonneg.mpr (hs.seen_le key b hb))
    linarith only [hgain, hs.nonneg key b hb]

theorem levelOf_le_add (hrefill : 0 ≤ p.refill) (s : Buckets κ α) (key : κ)
    {now t : α} (hle : now ≤ t) :
    p.levelOf s key t ≤ p.levelOf s key now + p.refill * (t - now) := by
  have hgain : 0 ≤ p.refill * (t - now) :=
    mul_nonneg hrefill (sub_nonneg.mpr hle)
  unfold levelOf
  split
  · linarith only [hgain]
  case h_2 b _ =>
    unfold level
    rw [← min_add_add_right]
    apply min_le_min
    · linarith only [hgain]
    · apply le_of_eq
      ring

theorem level_of_idle (hrefill : 0 ≤ p.refill) {b : Bucket α} {now t : α}
    (hb : 0 ≤ b.tokens) (hidle : p.burst ≤ p.refill * (now - b.seen))
    (hle : now ≤ t) : p.level b t = p.burst := by
  apply min_eq_left
  have hgain : p.refill * (now - b.seen) ≤ p.refill * (t - b.seen) :=
    mul_le_mul_of_nonneg_left (by linarith only [hle]) hrefill
  linarith only [hgain, hidle, hb]

theorem agree_forget (hrefill : 0 ≤ p.refill) {s : Buckets κ α} {now : α}
    (hs : Sound s now) {drop : Bucket α → Bool}
    (hdrop : ∀ b, drop b → p.burst ≤ p.refill * (now - b.seen)) :
    p.Agree now (forget s drop) s := by
  intro key t hle
  unfold levelOf forget
  cases hb : s key with
  | none => rfl
  | some b =>
      cases hd : drop b with
      | false => simp [Option.filter, hd]
      | true =>
          simp only [Option.filter, hd]
          exact (level_of_idle hrefill (hs.nonneg key b hb) (hdrop b hd) hle).symm

end Levels

section Admissions

variable [DecidableEq κ]

def admitted (calls : List (κ × α)) (oks : List Bool) (key : κ)
    (since upto : α) : Nat :=
  (calls.zip oks).countP fun c =>
    c.2 ∧ c.1.1 = key ∧ since ≤ c.1.2 ∧ c.1.2 ≤ upto

omit [Field α] in
theorem admitted_cons (c : κ × α) (cs : List (κ × α)) (ok : Bool)
    (oks : List Bool) (key : κ) (since upto : α) :
    admitted (c :: cs) (ok :: oks) key since upto =
      admitted cs oks key since upto +
        if ok ∧ c.1 = key ∧ since ≤ c.2 ∧ c.2 ≤ upto then 1 else 0 := by
  simp [admitted, List.countP_cons]

omit [Field α] in
theorem admitted_eq_zero {calls : List (κ × α)} (oks : List Bool) (key : κ)
    (since : α) {upto : α} (hlate : ∀ c ∈ calls, upto < c.2) :
    admitted calls oks key since upto = 0 := by
  unfold admitted
  rw [List.countP_eq_zero]
  intro c hc
  have hc' := hlate c.1 (List.of_mem_zip hc).1
  simp only [decide_eq_true_eq]
  intro h
  exact absurd h.2.2.2 (not_le.mpr hc')

variable [IsStrictOrderedRing α] {p : Supply α}

theorem ask_sound (hburst : 0 ≤ p.burst) (hrefill : 0 ≤ p.refill)
    {s : Buckets κ α} {now : α} (hs : Sound s now) (key : κ) :
    Sound (p.ask s key now).2 now := by
  have hlevel := levelOf_nonneg hburst hrefill hs key
  have hput : ∀ tokens, 0 ≤ tokens → Sound (put s key ⟨tokens, now⟩) now := by
    intro tokens htokens
    constructor
    all_goals
      intro k b hb
      by_cases hk : k = key
    · subst hk
      rw [put_self] at hb
      cases hb
      exact htokens
    · rw [put_of_ne _ hk] at hb
      exact hs.nonneg k b hb
    · subst hk
      rw [put_self] at hb
      cases hb
      exact le_rfl
    · rw [put_of_ne _ hk] at hb
      exact hs.seen_le k b hb
  unfold ask
  split
  case isTrue h => exact hput _ (by linarith only [h])
  case isFalse => exact hput _ hlevel

theorem levelOf_ask (p : Supply α) (s : Buckets κ α) (key k : κ) (now : α) :
    p.levelOf (p.ask s key now).2 k now +
        (if (p.ask s key now).1 ∧ key = k then 1 else 0) =
      p.levelOf s k now := by
  have hclamp : ∀ tokens, tokens ≤ p.levelOf s key now →
      p.level ⟨tokens, now⟩ now = tokens := by
    intro tokens hle
    have hburst := levelOf_le_burst p s key now
    simp only [level, sub_self, mul_zero, add_zero]
    exact min_eq_right (le_trans hle hburst)
  unfold ask
  by_cases hk : k = key
  · subst hk
    split
    · rw [levelOf_put_self, hclamp _ (by linarith)]
      simp
    · rw [levelOf_put_self, hclamp _ le_rfl]
      simp
  · have hk' : key ≠ k := fun h => hk h.symm
    split <;> simp [levelOf_put_of_ne p s _ now hk, hk']

theorem admitted_le (hburst : 0 ≤ p.burst) (hrefill : 0 ≤ p.refill) (key : κ)
    (since : α) {upto : α} {calls : List (κ × α)}
    (hmono : calls.Pairwise fun c c' => c.2 ≤ c'.2) {s : Buckets κ α} {now : α}
    (hs : Sound s now) (hfrom : ∀ c ∈ calls, now ≤ c.2) (hle : now ≤ upto) :
    (admitted calls (p.answers s calls) key since upto : α) ≤
      p.levelOf s key now + p.refill * (upto - now) := by
  induction calls generalizing s now with
  | nil =>
      have hlevel := levelOf_nonneg hburst hrefill hs key
      have hgain : 0 ≤ p.refill * (upto - now) :=
        mul_nonneg hrefill (sub_nonneg.mpr hle)
      simp only [admitted, List.zip_nil_left, List.countP_nil, Nat.cast_zero]
      linarith only [hlevel, hgain]
  | cons c cs ih =>
      have hc : now ≤ c.2 := hfrom c (List.mem_cons_self ..)
      have hgrow := levelOf_le_add hrefill s key hc
      obtain ⟨hcs, hmono⟩ := List.pairwise_cons.mp hmono
      by_cases hup : c.2 ≤ upto
      · have hrest := ih hmono (ask_sound hburst hrefill (hs.later hc) c.1) hcs hup
        have hcost := levelOf_ask p s c.1 key c.2
        rw [answers, admitted_cons, Nat.cast_add]
        have hcount : ((if (p.ask s c.1 c.2).1 ∧ c.1 = key ∧ since ≤ c.2 ∧
            c.2 ≤ upto then 1 else 0 : Nat) : α) ≤
            if (p.ask s c.1 c.2).1 ∧ c.1 = key then 1 else 0 := by
          by_cases hok : (p.ask s c.1 c.2).1 ∧ c.1 = key
          · rw [if_pos hok]
            split <;> simp
          · rw [if_neg hok, if_neg (fun h => hok ⟨h.1, h.2.1⟩)]
            simp
        have hsplit : p.refill * (upto - now) =
            p.refill * (c.2 - now) + p.refill * (upto - c.2) := by ring
        linarith only [hrest, hcost, hcount, hgrow, hsplit]
      · -- Time has passed the interval: nothing is counted any more.
        rw [not_le] at hup
        have hlate : ∀ c' ∈ c :: cs, upto < c'.2 := by
          intro c' hc'
          cases hc' with
          | head => exact hup
          | tail _ h => exact lt_of_lt_of_le hup (hcs c' h)
        have hlevel := levelOf_nonneg hburst hrefill hs key
        have hgain : 0 ≤ p.refill * (upto - now) :=
          mul_nonneg hrefill (sub_nonneg.mpr hle)
        rw [admitted_eq_zero _ key since hlate, Nat.cast_zero]
        linarith only [hlevel, hgain]

/-- In any interval a key is admitted a burst and what flows in. -/
theorem admitted_interval (hburst : 0 ≤ p.burst) (hrefill : 0 ≤ p.refill)
    (key : κ) {since upto : α} (hle : since ≤ upto) {calls : List (κ × α)}
    (hmono : calls.Pairwise fun c c' => c.2 ≤ c'.2) {s : Buckets κ α} {now : α}
    (hs : Sound s now) (hfrom : ∀ c ∈ calls, now ≤ c.2) :
    (admitted calls (p.answers s calls) key since upto : α) ≤
      p.burst + p.refill * (upto - since) := by
  have hgain : 0 ≤ p.refill * (upto - since) :=
    mul_nonneg hrefill (sub_nonneg.mpr hle)
  induction calls generalizing s now with
  | nil =>
      simp only [admitted, List.zip_nil_left, List.countP_nil, Nat.cast_zero]
      linarith only [hburst, hgain]
  | cons c cs ih =>
      have hc : now ≤ c.2 := hfrom c (List.mem_cons_self ..)
      have hcs := List.pairwise_cons.mp hmono
      by_cases hin : since ≤ c.2 ∧ c.2 ≤ upto
      · have hself : ∀ c' ∈ c :: cs, c.2 ≤ c'.2 := by
          intro c' hc'
          cases hc' with
          | head => exact le_rfl
          | tail _ h => exact hcs.1 c' h
        have hall := admitted_le hburst hrefill key since hmono (hs.later hc)
          hself hin.2
        have hfull := levelOf_le_burst p s key c.2
        have hless : p.refill * (upto - c.2) ≤ p.refill * (upto - since) :=
          mul_le_mul_of_nonneg_left (by linarith only [hin.1]) hrefill
        linarith only [hall, hfull, hless]
      · have hskip : ¬ ((p.ask s c.1 c.2).1 ∧ c.1 = key ∧ since ≤ c.2 ∧
            c.2 ≤ upto) := fun h => hin h.2.2
        rw [answers, admitted_cons, if_neg hskip, Nat.add_zero]
        exact ih hcs.2 (ask_sound hburst hrefill (hs.later hc) c.1) hcs.1

end Admissions

end Supply

end FamilyPlanner.Foundation

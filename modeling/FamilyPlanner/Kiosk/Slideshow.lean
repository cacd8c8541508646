import FamilyPlanner.Foundation.Shuffle
import FamilyPlanner.Widget.Source
import Mathlib.Data.List.Nodup
import Mathlib.Data.Nat.ModEq
import Mathlib.Tactic.Ring

/-!
# The photo slideshow

The formatter hands the whole album to the page, which paints photo 0 at once
and then cycles a shuffled order of the indices.  The seed of the shuffle is
shared by every slideshow on the page: between two steps of one slideshow the
others may draw from it any number of times.
-/

namespace FamilyPlanner.Kiosk

open FamilyPlanner.Foundation

structure PhotoCell where
  imageURL : String
  photoURLs : List String
  photoCaptions : List String
  photoSecs : Int
  deriving DecidableEq, Repr

/-- The formatter "photos"; `none` is the cell with the text for no photos. -/
def photosFormatter (data : Option Widget.Data) : Option PhotoCell :=
  match data with
  | some (.photos (url :: urls) captions intervalSecs) => some {
      imageURL := url
      photoURLs := url :: urls
      photoCaptions := captions
      photoSecs := if intervalSecs ≤ 0 then 8 else intervalSecs }
  | _ => none

def fpShuffleFrom {α : Type} : Nat → Array α → Nat → Array α × Nat
  | 0, a, seed => (a, seed)
  | i + 1, a, seed =>
      let j := ((i + 1) * 2654435761 + seed) % (i + 2)
      fpShuffleFrom i (a.swapIfInBounds (i + 1) j) (seed + 1)

def fpShuffle {α : Type} (a : Array α) (seed : Nat) : Array α × Nat :=
  fpShuffleFrom (a.size - 1) a seed

/-- What stands on the screen; a cell without captions has no caption element. -/
structure Painted where
  src : String
  caption : Option String
  deriving DecidableEq, Repr

def widgetCell (c : PhotoCell) : Painted :=
  { src := c.imageURL
    caption := c.photoCaptions.head? }

structure Slideshow where
  urls : List String
  caps : List String
  order : Array Nat
  pos : Nat
  painted : Painted
  fpShuffleSeed : Nat
  deriving DecidableEq, Repr

def idxs (urls : List String) : Array Nat := Array.range urls.length

def startSlideshow (c : PhotoCell) (seed : Nat) : Slideshow :=
  let shuffled :=
    if c.photoURLs.length < 2 then (#[], seed)
    else fpShuffle (idxs c.photoURLs) seed
  { urls := c.photoURLs
    caps := c.photoCaptions
    order := shuffled.1
    pos := 0
    painted := widgetCell c
    fpShuffleSeed := shuffled.2 }

namespace Slideshow

def paint (s : Slideshow) (pos : Nat) : Slideshow :=
  let i := s.order.getD pos 0
  { s with
    pos := pos
    painted :=
      { src := s.urls.getD i ""
        caption := s.painted.caption.map fun _ => s.caps.getD i "" } }

/-- `__fpStep`: +1 next, -1 previous. -/
def fpStep (dir : Int) (s : Slideshow) : Slideshow :=
  if s.urls.length < 2 then s
  else
    let pos : Int := s.pos + (if dir < 0 then -1 else 1)
    if s.order.size ≤ pos then
      let shuffled := fpShuffle (idxs s.urls) s.fpShuffleSeed
      paint { s with
        order := shuffled.1
        fpShuffleSeed := shuffled.2 } 0
    else if pos < 0 then s.paint (s.order.size - 1)
    else s.paint pos.toNat

inductive Input where
  | step (dir : Int)
  | others (draws : Nat)
  deriving DecidableEq, Repr

def next (s : Slideshow) : Input → Slideshow
  | .step dir => s.fpStep dir
  | .others draws => { s with
      fpShuffleSeed := s.fpShuffleSeed + draws }

/-- The slideshow after `k` automatic steps, `others m` draws by others before
the `m`-th of them. -/
def auto (others : Nat → Nat) (s : Slideshow) : Nat → Slideshow
  | 0 => s
  | k + 1 => ((auto others s k).next (.others (others k))).next (.step 1)

def seen (others : Nat → Nat) (s : Slideshow) (m count : Nat) : List String :=
  (List.range count).map fun k => (s.auto others (m + k)).painted.src

def Captioned (s : Slideshow) : Prop :=
  ∃ i, s.urls[i]? = some s.painted.src ∧
    s.painted.caption = if s.caps = [] then none else some (s.caps.getD i "")

/-- The first photos do not repeat, every later pass shows each photo once. -/
structure NoRepeat (s : Slideshow) : Prop where
  first : ∀ others, (s.seen others 0 s.urls.length).Nodup
  later : ∀ others pass, 0 < pass →
    (s.seen others (pass * s.urls.length) s.urls.length).Perm s.urls
  captioned : ∀ inputs : List Input, (inputs.foldl next s).Captioned

end Slideshow

/-- The index picked for `m` by the loop that starts at the index `top`. -/
def picked (top seed m : Nat) : Nat :=
  (m * 2654435761 + (seed + (top - m))) % (m + 1)

theorem picked_le (top seed m : Nat) : picked top seed m ≤ m := by
  have h := Nat.mod_lt (m * 2654435761 + (seed + (top - m))) (Nat.succ_pos m)
  exact Nat.le_of_lt_succ h

theorem fpShuffleFrom_eq {α : Type} (i : Nat) (a : Array α) (seed : Nat) :
    fpShuffleFrom i a seed = (swapDown (picked i seed) i a, seed + i) := by
  induction i generalizing a seed with
  | zero => rfl
  | succ i ih =>
      have hnow : picked (i + 1) seed (i + 1) =
          ((i + 1) * 2654435761 + seed) % (i + 2) := by
        rw [picked, Nat.sub_self, Nat.add_zero seed]
      have hrest : ∀ m, m ≤ i → picked i (seed + 1) m = picked (i + 1) seed m := by
        intro m hm
        have hdraws : seed + 1 + (i - m) = seed + (i + 1 - m) := by omega
        rw [picked, picked, hdraws]
      rw [fpShuffleFrom, ih, swapDown, hnow, swapDown_congr hrest]
      congr 1
      omega

theorem mod_eq_zero_iff_of_add {a b c k : Nat} (h : a + (k + c) = b + c * k) :
    a % c = 0 ↔ b % c = k % c := by
  have hmod : (a + k) % c = b % c := by
    have hc : (a + k + c) % c = (b + c * k) % c := by rw [Nat.add_assoc, h]
    rwa [Nat.add_mod_right, Nat.add_mul_mod_self_left] at hc
  constructor
  · intro ha
    rw [← hmod, Nat.add_mod, ha, Nat.zero_add, Nat.mod_mod]
  · intro hb
    have hak : a + k ≡ 0 + k [MOD c] := by
      rw [Nat.ModEq, hmod, hb, Nat.zero_add]
    exact Nat.ModEq.add_right_cancel' k hak

/-- Index 0 is picked for `m` exactly when `m + 1` divides the difference of
the seed advanced by the number of photos and the multiplier. -/
theorem picked_eq_zero_iff {top seed m : Nat} (hm : m ≤ top) :
    picked top seed m = 0 ↔
      (seed + (top + 1)) % (m + 1) = 2654435761 % (m + 1) := by
  apply mod_eq_zero_iff_of_add
  have hdraws : top - m + m = top := Nat.sub_add_cancel hm
  calc m * 2654435761 + (seed + (top - m)) + (2654435761 + (m + 1))
      = seed + (top - m + m + 1) + (m + 1) * 2654435761 := by ring
    _ = seed + (top + 1) + (m + 1) * 2654435761 := by rw [hdraws]

theorem fpShuffle_perm {α : Type} (a : Array α) (seed : Nat) :
    (fpShuffle a seed).1.Perm a := by
  rw [fpShuffle, fpShuffleFrom_eq]
  exact swapDown_perm _ _ a

@[simp] theorem idxs_size (urls : List String) : (idxs urls).size = urls.length :=
  Array.size_range

def Shuffled (urls : List String) (order : Array Nat) : Prop :=
  order.Perm (idxs urls)

theorem shuffled_fpShuffle (urls : List String) (seed : Nat) :
    Shuffled urls (fpShuffle (idxs urls) seed).1 :=
  fpShuffle_perm (idxs urls) seed

namespace Shuffled

variable {urls : List String} {order : Array Nat}

theorem size (h : Shuffled urls order) : order.size = urls.length := by
  rw [Array.Perm.size_eq h, idxs_size]

theorem perm (h : Shuffled urls order) :
    order.toList.Perm (List.range urls.length) := by
  have hlist := Array.perm_iff_toList_perm.mp h
  rwa [idxs, Array.toList_range] at hlist

theorem nodup (h : Shuffled urls order) : order.toList.Nodup :=
  h.perm.nodup_iff.mpr List.nodup_range

theorem lt (h : Shuffled urls order) {k : Nat} (hk : k < urls.length) :
    order.getD k 0 < urls.length := by
  have hsize : k < order.size := by
    rw [h.size]
    exact hk
  have hmem : order[k] ∈ order.toList := by simp
  rw [← Array.getElem_eq_getD]
  · exact List.mem_range.mp (h.perm.mem_iff.mp hmem)
  · exact hsize

theorem eq_zero_of_head {i k : Nat} (h : Shuffled urls order)
    (hhead : order.getD 0 0 = i) (hk : order[k]? = some i) : k = 0 := by
  obtain ⟨hlt, hki⟩ := Array.getElem?_eq_some_iff.mp hk
  have hpos : 0 < order.size := by omega
  rw [← Array.getElem_eq_getD (h := hpos)] at hhead
  have hsame : order.toList[k] = order.toList[0] := by
    rw [Array.getElem_toList, Array.getElem_toList, hki, hhead]
  exact (h.nodup.getElem_inj_iff).mp hsame

theorem map_perm (h : Shuffled urls order) :
    (order.toList.map fun i => urls.getD i "").Perm urls := by
  have hall : (List.range urls.length).map (fun i => urls.getD i "") = urls := by
    apply List.ext_getElem
    · simp
    · intro k hk hk'
      simp [List.getD_eq_getElem?_getD, List.getElem?_eq_getElem hk']
  have hperm := h.perm.map fun i => urls.getD i ""
  rwa [hall] at hperm

end Shuffled

/-- The shuffle leaves photo 0 first exactly when no number up to the length of
the album divides the difference of the advanced seed and the multiplier. -/
theorem fpShuffle_head_iff {urls : List String} {seed : Nat} (hn : 2 ≤ urls.length) :
    (fpShuffle (idxs urls) seed).1.getD 0 0 = 0 ↔
      ∀ m, 2 ≤ m → m ≤ urls.length →
        (seed + urls.length) % m ≠ 2654435761 % m := by
  have hsize : (idxs urls).size - 1 + 1 = urls.length := by
    rw [idxs_size]
    omega
  have hpick : ∀ m, m ≤ (idxs urls).size - 1 →
      picked ((idxs urls).size - 1) seed m ≤ m := fun m _ => picked_le _ _ m
  have hfirst : (idxs urls)[0]? = some 0 := by
    rw [idxs, Array.getElem?_range, if_pos (by omega)]
  constructor
  · intro hhead m hm hmn hdvd
    obtain ⟨k, hk, hki, hat⟩ := swapDown_head_leaves
      (a := idxs urls) (by omega) hpick
      ⟨m - 1, by omega, by omega, by
        rw [picked_eq_zero_iff (by omega), hsize, Nat.sub_add_cancel (by omega)]
        exact hdvd⟩
    have hshuffled := shuffled_fpShuffle urls seed
    rw [fpShuffle, fpShuffleFrom_eq] at hhead hshuffled
    rw [hfirst] at hat
    have := hshuffled.eq_zero_of_head hhead hat
    omega
  · intro hnone
    rw [fpShuffle, fpShuffleFrom_eq, Array.getD_eq_getD_getElem?, swapDown_head, hfirst]
    · rfl
    · intro m hm hle
      apply Nat.pos_of_ne_zero
      intro hzero
      apply hnone (m + 1) (by omega) (by omega)
      rwa [picked_eq_zero_iff hle, hsize] at hzero

namespace Slideshow

structure Ready (s : Slideshow) : Prop where
  two : 2 ≤ s.urls.length
  order : Shuffled s.urls s.order
  pos : s.pos < s.urls.length
  captioned : s.Captioned

def AtPos (s : Slideshow) : Prop :=
  s.painted.src = s.urls.getD (s.order.getD s.pos 0) ""

section Paint

variable (s : Slideshow) (pos : Nat)

@[simp] theorem paint_pos : (s.paint pos).pos = pos := rfl

theorem atPos_paint : (s.paint pos).AtPos := rfl

end Paint

theorem captioned_paint {s : Slideshow} {pos : Nat} (horder : Shuffled s.urls s.order)
    (hpos : pos < s.urls.length) (h : s.Captioned) : (s.paint pos).Captioned := by
  obtain ⟨i, -, hcaption⟩ := h
  have hlt := horder.lt hpos
  refine ⟨s.order.getD pos 0, ?_, ?_⟩
  · simp only [paint]
    rw [List.getD_eq_getElem?_getD, List.getElem?_eq_getElem hlt]
    rfl
  · simp only [paint, hcaption]
    split <;> rfl

theorem Ready.paint {s : Slideshow} {pos : Nat} (h : s.Ready)
    (hpos : pos < s.urls.length) : (s.paint pos).Ready where
  two := h.two
  order := h.order
  pos := hpos
  captioned := captioned_paint h.order hpos h.captioned

def reshuffled (s : Slideshow) : Slideshow :=
  { s with
    order := (fpShuffle (idxs s.urls) s.fpShuffleSeed).1
    fpShuffleSeed := (fpShuffle (idxs s.urls) s.fpShuffleSeed).2 }

theorem Ready.reshuffled {s : Slideshow} (h : s.Ready) : s.reshuffled.Ready where
  two := h.two
  order := shuffled_fpShuffle s.urls s.fpShuffleSeed
  pos := h.pos
  captioned := h.captioned

theorem Ready.others {s : Slideshow} (h : s.Ready) (draws : Nat) :
    (s.next (.others draws)).Ready where
  two := h.two
  order := h.order
  pos := h.pos
  captioned := h.captioned

/-- A step paints a position of the same order, or wraps around to the start
of a new one. -/
theorem fpStep_cases {s : Slideshow} (h : s.Ready) (dir : Int) :
    (∃ pos, pos < s.urls.length ∧ s.fpStep dir = s.paint pos) ∨
      (0 ≤ dir ∧ s.pos + 1 = s.urls.length ∧
        s.fpStep dir = s.reshuffled.paint 0) := by
  have hsize := h.order.size
  have htwo := h.two
  have hpos := h.pos
  rw [fpStep, if_neg (by omega)]
  by_cases hdir : dir < 0
  · left
    simp only [if_pos hdir]
    rw [if_neg (by omega)]
    split
    · exact ⟨s.order.size - 1, by omega, rfl⟩
    · exact ⟨_, by omega, rfl⟩
  · simp only [if_neg hdir]
    by_cases hwrap : s.pos + 1 = s.urls.length
    · right
      rw [if_pos (by omega)]
      exact ⟨by omega, hwrap, rfl⟩
    · left
      rw [if_neg (by omega), if_neg (by omega)]
      exact ⟨_, by omega, rfl⟩

theorem Ready.next {s : Slideshow} (h : s.Ready) (e : Input) : (s.next e).Ready := by
  cases e with
  | others draws => exact h.others draws
  | step dir =>
      rcases fpStep_cases h dir with ⟨pos, hpos, hstep⟩ | ⟨-, -, hstep⟩
      · rw [Slideshow.next, hstep]
        exact h.paint hpos
      · rw [Slideshow.next, hstep]
        have := h.two
        exact h.reshuffled.paint (by change 0 < s.urls.length; omega)

theorem Ready.run {s : Slideshow} (h : s.Ready) (inputs : List Input) :
    (inputs.foldl Slideshow.next s).Ready := by
  induction inputs generalizing s with
  | nil => exact h
  | cons e rest ih => exact ih (h.next e)

theorem Ready.auto {s : Slideshow} (h : s.Ready) (others : Nat → Nat) (k : Nat) :
    (s.auto others k).Ready := by
  induction k with
  | zero => exact h
  | succ k ih => exact (ih.next _).next _

@[simp] theorem fpStep_urls (s : Slideshow) (dir : Int) :
    (s.fpStep dir).urls = s.urls := by
  simp only [fpStep]
  split_ifs <;> rfl

@[simp] theorem auto_urls (others : Nat → Nat) (s : Slideshow) (k : Nat) :
    (s.auto others k).urls = s.urls := by
  induction k with
  | zero => rfl
  | succ k ih => rw [auto, next, fpStep_urls, next, ih]

theorem auto_add (others : Nat → Nat) (s : Slideshow) (m k : Nat) :
    s.auto others (m + k) =
      (s.auto others m).auto (fun i => others (m + i)) k := by
  induction k with
  | zero => rfl
  | succ k ih => rw [← Nat.add_assoc, auto, auto, ih]

theorem seen_add (others : Nat → Nat) (s : Slideshow) (m count : Nat) :
    s.seen others m count =
      (s.auto others m).seen (fun i => others (m + i)) 0 count := by
  simp only [seen, auto_add others s m, Nat.zero_add]

theorem step_inside {s : Slideshow} (h : s.Ready) (hpos : s.pos + 1 < s.urls.length) :
    s.fpStep 1 = s.paint (s.pos + 1) := by
  have hsize := h.order.size
  rw [fpStep, if_neg (by omega)]
  simp only
  rw [if_neg (by omega), if_neg (by omega)]
  rfl

theorem step_wrap {s : Slideshow} (h : s.Ready) (hpos : s.pos + 1 = s.urls.length) :
    s.fpStep 1 = s.reshuffled.paint 0 := by
  have hsize := h.order.size
  have htwo := h.two
  rw [fpStep, if_neg (by omega)]
  simp only
  rw [if_pos (by omega)]
  rfl

theorem auto_inside {s : Slideshow} (h : s.Ready) (hpos : s.pos = 0)
    (others : Nat → Nat) {k : Nat} (hk : k < s.urls.length) :
    (s.auto others k).pos = k ∧ (s.auto others k).order = s.order ∧
      (0 < k → (s.auto others k).AtPos) := by
  induction k with
  | zero => exact ⟨hpos, rfl, fun h0 => absurd h0 (Nat.lt_irrefl 0)⟩
  | succ k ih =>
      obtain ⟨ihpos, ihorder, -⟩ := ih (by omega)
      have hready := (h.auto others k).others (others k)
      have hlt : ((s.auto others k).next (.others (others k))).pos + 1 <
          ((s.auto others k).next (.others (others k))).urls.length := by
        simp only [next, auto_urls, ihpos]
        exact hk
      rw [auto, next, step_inside hready hlt]
      refine ⟨?_, ihorder, fun _ => atPos_paint _ _⟩
      rw [paint_pos, next, ihpos]

theorem auto_wrap {s : Slideshow} (h : s.Ready) (hpos : s.pos = 0)
    (others : Nat → Nat) :
    (s.auto others s.urls.length).pos = 0 ∧ (s.auto others s.urls.length).AtPos := by
  have htwo := h.two
  obtain ⟨k, hk⟩ : ∃ k, s.urls.length = k + 1 := ⟨s.urls.length - 1, by omega⟩
  obtain ⟨hlast, -, -⟩ := auto_inside h hpos others (k := k) (by omega)
  have hready := (h.auto others k).others (others k)
  have hend : ((s.auto others k).next (.others (others k))).pos + 1 =
      ((s.auto others k).next (.others (others k))).urls.length := by
    simp only [next, auto_urls, hlast, hk]
  rw [hk, auto, next, step_wrap hready hend]
  exact ⟨rfl, atPos_paint _ _⟩

/-- Every reshuffle of an automatic run falls on a multiple of the length. -/
theorem auto_pass {s : Slideshow} (h : s.Ready) (hpos : s.pos = 0)
    (others : Nat → Nat) (pass : Nat) :
    (s.auto others (pass * s.urls.length)).pos = 0 ∧
      (0 < pass → (s.auto others (pass * s.urls.length)).AtPos) := by
  induction pass with
  | zero =>
      rw [Nat.zero_mul]
      exact ⟨hpos, fun h0 => absurd h0 (Nat.lt_irrefl 0)⟩
  | succ pass ih =>
      have hwrap := auto_wrap (h.auto others (pass * s.urls.length)) ih.1
        (fun i => others (pass * s.urls.length + i))
      rw [auto_urls, ← auto_add] at hwrap
      rw [Nat.succ_mul]
      exact ⟨hwrap.1, fun _ => hwrap.2⟩

/-- A pass shows what is painted, then the order from its second index on. -/
theorem seen_pass {s : Slideshow} (h : s.Ready) (hpos : s.pos = 0)
    (others : Nat → Nat) :
    s.seen others 0 s.urls.length =
      s.painted.src :: s.order.toList.tail.map fun i => s.urls.getD i "" := by
  have hsize := h.order.size
  have htwo := h.two
  apply List.ext_getElem
  · simp [seen, hsize]
    omega
  · intro k hk hk'
    simp only [seen, List.length_map, List.length_range] at hk
    simp only [seen, List.getElem_map, List.getElem_range, Nat.zero_add]
    cases k with
    | zero => rfl
    | succ k =>
        obtain ⟨hat, horder, hpainted⟩ := auto_inside h hpos others hk
        rw [hpainted (Nat.succ_pos k), hat, horder, auto_urls]
        have hlt : k + 1 < s.order.size := by omega
        simp [← Array.getElem_eq_getD (h := hlt)]

theorem seen_perm {s : Slideshow} (h : s.Ready) (hpos : s.pos = 0) (hat : s.AtPos)
    (others : Nat → Nat) : (s.seen others 0 s.urls.length).Perm s.urls := by
  have htwo := h.two
  have hsize := h.order.size
  have hlt : 0 < s.order.size := by omega
  have horder : s.order.toList = s.order.getD 0 0 :: s.order.toList.tail := by
    rw [← Array.getElem_eq_getD (h := hlt)]
    apply List.ext_getElem
    · simp
      omega
    · intro k hk hk'
      cases k <;> simp
  rw [seen_pass h hpos, hat, hpos, ← List.map_cons (f := fun i => s.urls.getD i ""),
    ← horder]
  exact h.order.map_perm

theorem seen_later {s : Slideshow} (h : s.Ready) (hpos : s.pos = 0)
    (others : Nat → Nat) {pass : Nat} (hpass : 0 < pass) :
    (s.seen others (pass * s.urls.length) s.urls.length).Perm s.urls := by
  obtain ⟨hstart, hat⟩ := auto_pass h hpos others pass
  have hperm := seen_perm (h.auto others (pass * s.urls.length)) hstart (hat hpass)
    (fun i => others (pass * s.urls.length + i))
  rw [auto_urls] at hperm
  rwa [seen_add]

theorem head?_eq_getD (caps : List String) :
    caps.head? = if caps = [] then none else some (caps.getD 0 "") := by
  cases caps <;> simp

theorem ready_start {c : PhotoCell} (hn : 2 ≤ c.photoURLs.length)
    (hfirst : c.photoURLs[0]? = some c.imageURL) (seed : Nat) :
    (startSlideshow c seed).Ready where
  two := hn
  order := by
    simp only [startSlideshow, if_neg (Nat.not_lt.mpr hn)]
    exact shuffled_fpShuffle _ seed
  pos := Nat.lt_of_lt_of_le Nat.zero_lt_two hn
  captioned := ⟨0, hfirst, head?_eq_getD c.photoCaptions⟩

theorem first_nodup_iff {s : Slideshow} (h : s.Ready) (hpos : s.pos = 0)
    (hurl : s.urls[0]? = some s.painted.src) (hdistinct : s.urls.Nodup)
    (others : Nat → Nat) :
    (s.seen others 0 s.urls.length).Nodup ↔ s.order.getD 0 0 = 0 := by
  have htwo := h.two
  have hsrc : s.painted.src = s.urls.getD 0 "" := by
    rw [List.getD_eq_getElem?_getD, hurl]
    rfl
  constructor
  · intro hnodup
    apply Classical.byContradiction
    intro hhead
    rw [seen_pass h hpos, hsrc, List.nodup_cons] at hnodup
    apply hnodup.1
    -- photo 0 is not first in the order, so it comes later in it
    have hmem : 0 ∈ s.order.toList := h.order.perm.mem_iff.mpr
      (List.mem_range.mpr (by omega))
    obtain ⟨k, hk, hk0⟩ := List.mem_iff_getElem.mp hmem
    have hkpos : k ≠ 0 := by
      rintro rfl
      apply hhead
      rw [← Array.getElem_eq_getD (h := by simpa using hk)]
      simpa using hk0
    apply List.mem_map_of_mem (f := fun i => s.urls.getD i "") (a := 0)
    rw [List.mem_iff_getElem]
    refine ⟨k - 1, by rw [List.length_tail]; omega, ?_⟩
    rw [List.getElem_tail]
    simp only [Nat.sub_add_cancel (Nat.pos_of_ne_zero hkpos), hk0]
  · intro hhead
    have hat : s.AtPos := by rw [AtPos, hpos, hhead, hsrc]
    exact (seen_perm h hpos hat others).nodup_iff.mpr hdistinct

theorem photosFormatter_eq {urls captions : List String} {secs : Int} {c : PhotoCell}
    (hc : photosFormatter (some (.photos urls captions secs)) = some c) :
    c.photoURLs = urls ∧ urls[0]? = some c.imageURL := by
  cases urls with
  | nil => cases hc
  | cons url rest =>
      cases hc
      exact ⟨rfl, rfl⟩

/-- The slideshow of an album shows no photo twice before all were shown exactly
when the first shuffle leaves photo 0 in front. -/
theorem noRepeat_iff (urls captions : List String) (secs : Int) (c : PhotoCell)
    (hc : photosFormatter (some (.photos urls captions secs)) = some c)
    (hn : 2 ≤ urls.length) (hdistinct : urls.Nodup) (seed : Nat) :
    (startSlideshow c seed).NoRepeat ↔
      ∀ m, 2 ≤ m → m ≤ urls.length →
        (seed + urls.length) % m ≠ 2654435761 % m := by
  obtain ⟨rfl, hfirst⟩ := photosFormatter_eq hc
  have hready := ready_start hn hfirst seed
  have horder : (startSlideshow c seed).order =
      (fpShuffle (idxs c.photoURLs) seed).1 := by
    simp only [startSlideshow, if_neg (Nat.not_lt.mpr hn)]
  have hnodup := first_nodup_iff hready rfl hfirst hdistinct
  rw [← fpShuffle_head_iff hn, ← horder]
  constructor
  · intro h
    exact (hnodup fun _ => 0).mp (h.first fun _ => 0)
  · intro hhead
    exact {
      first := fun others => (hnodup others).mpr hhead
      later := fun others _ hpass => seen_later hready rfl others hpass
      captioned := fun inputs => (hready.run inputs).captioned }

/-- With seed 4 an album of two photos is shuffled into its own order. -/
theorem noRepeat_iff_two :
    (startSlideshow ⟨"/p/a", ["/p/a", "/p/b"], ["1 mei", "2 mei"], 8⟩ 4).NoRepeat :=
  (noRepeat_iff ["/p/a", "/p/b"] ["1 mei", "2 mei"] 8 _ rfl (by decide) (by decide)
    4).mpr (by decide)

/-- With the seed of a fresh page it is not: the first step shows photo 0 again. -/
theorem fresh_page_repeats :
    ¬ ∀ (urls captions : List String) (secs : Int) (c : PhotoCell),
      photosFormatter (some (.photos urls captions secs)) = some c →
        2 ≤ urls.length → urls.Nodup → ∀ seed, (startSlideshow c seed).NoRepeat := by
  intro h
  have hfirst := (h ["/p/a", "/p/b"] ["1 mei", "2 mei"] 8 _ rfl (by decide)
    (by decide) 1).first fun _ => 0
  revert hfirst
  decide

end Slideshow

end FamilyPlanner.Kiosk

import Mathlib.Data.List.Infix

/-!
# Regular expressions with priorities

Of all the ways in which an expression matches, the leftmost counts, and there
the first one: an earlier alternative goes before a later one, and a repetition
takes as much, or as little, as it can.
-/

namespace FamilyPlanner.Foundation

/-- Only classes of characters are repeated; the groups are in the order in
which they close. -/
inductive Regex where
  | lit (w : List Char)
  | rep (p : Char → Bool) (lo : Nat) (hi : Option Nat) (greedy : Bool)
  | seq (r s : Regex)
  | alt (r s : Regex)
  | bol
  | eol
  | group (r : Regex)

namespace Regex

/-- The groups of a match, where it ends and what is left. -/
structure Match where
  groups : List (List Char)
  pos : Nat
  rest : List Char
  deriving DecidableEq, Repr

/-- The numbers of characters that a repetition tries, in order. -/
def counts (lo top : Nat) (greedy : Bool) : List Nat :=
  let ns := List.range' lo (top + 1 - lo)
  if greedy then ns.reverse else ns

/-- The matches that start at `pos`, by priority; `l` is the text from there on. -/
def run : Regex → Nat → List Char → List Match
  | lit w, pos, l =>
      if w.isPrefixOf l then [⟨[], pos + w.length, l.drop w.length⟩] else []
  | rep p lo hi greedy, pos, l =>
      let k := (l.takeWhile p).length
      (counts lo (hi.elim k (min k)) greedy).map fun n => ⟨[], pos + n, l.drop n⟩
  | seq r s, pos, l =>
      (r.run pos l).flatMap fun m =>
        (s.run m.pos m.rest).map fun m' => { m' with groups := m.groups ++ m'.groups }
  | alt r s, pos, l => r.run pos l ++ s.run pos l
  | bol, pos, l => if pos = 0 then [⟨[], pos, l⟩] else []
  | eol, pos, l => if l = [] then [⟨[], pos, l⟩] else []
  | group r, pos, l =>
      (r.run pos l).map fun m => { m with groups := m.groups ++ [l.take (m.pos - pos)] }

/-- The leftmost match, with the position where it starts. -/
def find (r : Regex) : Nat → List Char → Option (Nat × Match)
  | pos, [] => (r.run pos []).head?.map (Prod.mk pos)
  | pos, c :: l =>
      match (r.run pos (c :: l)).head? with
      | some m => some (pos, m)
      | none => r.find (pos + 1) l

/-- The fuel is at least the length of the text; an empty match replaces nothing. -/
def replaceLoop (r : Regex) (f : List (List Char) → List Char) :
    Nat → Nat → List Char → List Char
  | 0, _, l => l
  | _ + 1, _, [] => []
  | fuel + 1, pos, c :: l =>
      match (r.run pos (c :: l)).head? with
      | some m =>
          if m.rest.length ≤ l.length then f m.groups ++ r.replaceLoop f fuel m.pos m.rest
          else c :: r.replaceLoop f fuel (pos + 1) l
      | none => c :: r.replaceLoop f fuel (pos + 1) l

def replaceFrom (r : Regex) (f : List (List Char) → List Char) (pos : Nat) (l : List Char) :
    List Char :=
  r.replaceLoop f l.length pos l

/-- `ReplaceAllString`, with the replacement as a function of the groups. -/
def replaceAll (r : Regex) (f : List (List Char) → List Char) (l : List Char) : List Char :=
  r.replaceFrom f 0 l

/-! ## What matches -/

/-- `r.Matches pos w gs rest`: `w`, which starts at `pos` and is followed by
`rest`, is matched with the groups `gs`. -/
inductive Matches : Regex → Nat → List Char → List (List Char) → List Char → Prop
  | lit {w pos rest} : Matches (lit w) pos w [] rest
  | rep {p lo hi greedy pos w rest} :
      (∀ c ∈ w, p c = true) → lo ≤ w.length → (∀ h ∈ hi, w.length ≤ h) →
        Matches (rep p lo hi greedy) pos w [] rest
  | seq {r s pos w w' gs gs' rest} :
      Matches r pos w gs (w' ++ rest) → Matches s (pos + w.length) w' gs' rest →
        Matches (seq r s) pos (w ++ w') (gs ++ gs') rest
  | altLeft {r s pos w gs rest} : Matches r pos w gs rest → Matches (alt r s) pos w gs rest
  | altRight {r s pos w gs rest} : Matches s pos w gs rest → Matches (alt r s) pos w gs rest
  | bol {rest} : Matches bol 0 [] [] rest
  | eol {pos} : Matches eol pos [] [] []
  | group {r pos w gs rest} : Matches r pos w gs rest → Matches (group r) pos w (gs ++ [w]) rest

-- `o` is where a match starts; `q` and `t` bound a repetition, which is greedy if `b`.
variable {r s : Regex} {p : Char → Bool} {q t o : Nat} {b : Bool}
variable {w l x y : List Char} {m : Match}

variable {u : List (List Char)} {rest : List Char}

theorem matches_lit_iff {v : List Char} :
    (lit v).Matches o w u rest ↔ w = v ∧ u = [] := by
  constructor
  · rintro (_ | _)
    exact ⟨rfl, rfl⟩
  · rintro ⟨rfl, rfl⟩
    exact .lit

theorem matches_rep_iff {t : Option Nat} :
    (rep p q t b).Matches o w u rest ↔
      u = [] ∧ (∀ c ∈ w, p c = true) ∧ q ≤ w.length ∧ ∀ h ∈ t, w.length ≤ h := by
  constructor
  · intro h
    cases h with
    | rep hall hlo hhi => exact ⟨rfl, hall, hlo, hhi⟩
  · rintro ⟨rfl, hall, hlo, hhi⟩
    exact .rep hall hlo hhi

theorem matches_seq_iff :
    (seq r s).Matches o w u rest ↔
      ∃ w₁ w₂ us us', w = w₁ ++ w₂ ∧ u = us ++ us' ∧ r.Matches o w₁ us (w₂ ++ rest) ∧
        s.Matches (o + w₁.length) w₂ us' rest := by
  constructor
  · intro h
    cases h with
    | seq h h' => exact ⟨_, _, _, _, rfl, rfl, h, h'⟩
  · rintro ⟨w₁, w₂, us, us', rfl, rfl, h, h'⟩
    exact .seq h h'

theorem matches_alt_iff :
    (alt r s).Matches o w u rest ↔ r.Matches o w u rest ∨ s.Matches o w u rest := by
  constructor
  · intro h
    cases h with
    | altLeft h => exact .inl h
    | altRight h => exact .inr h
  · rintro (h | h)
    · exact .altLeft h
    · exact .altRight h

theorem matches_bol_iff : bol.Matches o w u rest ↔ o = 0 ∧ w = [] ∧ u = [] := by
  constructor
  · rintro (_ | _)
    exact ⟨rfl, rfl, rfl⟩
  · rintro ⟨rfl, rfl, rfl⟩
    exact .bol

theorem matches_eol_iff : eol.Matches o w u rest ↔ rest = [] ∧ w = [] ∧ u = [] := by
  constructor
  · rintro (_ | _)
    exact ⟨rfl, rfl, rfl⟩
  · rintro ⟨rfl, rfl, rfl⟩
    exact .eol

theorem matches_group_iff :
    (group r).Matches o w u rest ↔ ∃ us, u = us ++ [w] ∧ r.Matches o w us rest := by
  constructor
  · intro h
    cases h with
    | group h => exact ⟨_, rfl, h⟩
  · rintro ⟨us, rfl, h⟩
    exact .group h

theorem mem_counts {top n : Nat} : n ∈ counts q top b ↔ q ≤ n ∧ n ≤ top := by
  unfold counts
  cases b
  · simp only [Bool.false_eq_true, if_false, List.mem_range'_1]
    omega
  · simp only [if_true, List.mem_reverse, List.mem_range'_1]
    omega

theorem mem_run_rep {t : Option Nat} :
    m ∈ (rep p q t b).run o l ↔
      ∃ w, l = w ++ m.rest ∧ m.pos = o + w.length ∧
        Matches (rep p q t b) o w m.groups m.rest := by
  obtain ⟨groups, mpos, rest⟩ := m
  simp only [run, List.mem_map, mem_counts, Match.mk.injEq, matches_rep_iff]
  constructor
  · rintro ⟨n, ⟨hlo, htop⟩, rfl, rfl, rfl⟩
    have hn : n ≤ (l.takeWhile p).length := by
      cases t with
      | none => exact htop
      | some h => exact le_trans htop (Nat.min_le_left _ _)
    have hlen : n ≤ l.length := le_trans hn (List.takeWhile_prefix p).length_le
    have hmem : ∀ c ∈ l.take n, p c = true := by
      intro c hc
      have hsub : l.take n <+: l.takeWhile p := by
        apply List.prefix_of_prefix_length_le (List.take_prefix n l) (List.takeWhile_prefix p)
        simp only [List.length_take]
        omega
      exact List.all_eq_true.mp List.all_takeWhile c (hsub.subset hc)
    refine ⟨l.take n, (List.take_append_drop n l).symm, by simp [hlen], rfl, hmem, ?_, ?_⟩
    · simp [hlen, hlo]
    · rintro h ⟨⟩
      have : n ≤ h := le_trans htop (Nat.min_le_right _ _)
      simp only [List.length_take]
      omega
  · rintro ⟨w, rfl, rfl, rfl, hall, hlo, hhi⟩
    have htake : w.length ≤ ((w ++ rest).takeWhile p).length := by
      rw [List.takeWhile_append_of_pos hall]
      simp
    refine ⟨w.length, ⟨hlo, ?_⟩, rfl, rfl, by simp⟩
    cases t with
    | none => exact htake
    | some h => exact Nat.le_min.mpr ⟨htake, hhi h rfl⟩

/-- The matcher finds the matches and no others. -/
theorem mem_run_iff :
    m ∈ r.run o l ↔
      ∃ w, l = w ++ m.rest ∧ m.pos = o + w.length ∧ Matches r o w m.groups m.rest := by
  induction r generalizing o l m with
  | lit w =>
      obtain ⟨groups, mpos, rest⟩ := m
      simp only [run, matches_lit_iff]
      split
      · rename_i hw
        obtain ⟨tail, rfl⟩ := List.isPrefixOf_iff_prefix.mp hw
        rw [List.mem_singleton, Match.mk.injEq]
        constructor
        · rintro ⟨rfl, rfl, rfl⟩
          exact ⟨w, by simp, rfl, rfl, rfl⟩
        · rintro ⟨_, hl, hpos, rfl, hgroups⟩
          obtain rfl := List.append_cancel_left hl
          exact ⟨hgroups, hpos, by simp⟩
      · rename_i hw
        refine iff_of_false List.not_mem_nil ?_
        rintro ⟨_, hl, hpos, rfl, -⟩
        exact hw (List.isPrefixOf_iff_prefix.mpr ⟨_, hl.symm⟩)
  | rep p q t b => exact mem_run_rep
  | seq r s ihr ihs =>
      obtain ⟨groups, mpos, rest⟩ := m
      simp only [run, List.mem_flatMap, List.mem_map, matches_seq_iff]
      constructor
      · rintro ⟨m₁, hm₁, m₂, hm₂, heq⟩
        cases heq
        obtain ⟨w, hl, hpos, hw⟩ := ihr.mp hm₁
        obtain ⟨w', hl', hpos', hw'⟩ := ihs.mp hm₂
        refine ⟨w ++ w', by rw [hl, hl', List.append_assoc], ?_, w, w', _, _, rfl, rfl, hl' ▸ hw,
          hpos ▸ hw'⟩
        rw [hpos', hpos, List.length_append, Nat.add_assoc]
      · rintro ⟨_, hl, hpos, w, w', u, gs', rfl, rfl, hw, hw'⟩
        refine ⟨⟨u, o + w.length, w' ++ rest⟩, ihr.mpr ⟨w, ?_, rfl, hw⟩,
          ⟨gs', mpos, rest⟩, ihs.mpr ⟨w', rfl, ?_, hw'⟩, rfl⟩
        · rw [hl, List.append_assoc]
        · rw [hpos, List.length_append, Nat.add_assoc]
  | alt r s ihr ihs =>
      simp only [run, List.mem_append, ihr, ihs, matches_alt_iff]
      grind
  | bol =>
      obtain ⟨groups, mpos, rest⟩ := m
      simp only [run, matches_bol_iff]
      split
      · rename_i hpos
        subst hpos
        simp only [List.mem_singleton, Match.mk.injEq]
        grind
      · rename_i hpos
        simp [hpos]
  | eol =>
      obtain ⟨groups, mpos, rest⟩ := m
      simp only [run, matches_eol_iff]
      split
      · rename_i hl
        subst hl
        simp only [List.mem_singleton, Match.mk.injEq]
        grind
      · rename_i hl
        simp only [List.not_mem_nil, false_iff]
        rintro ⟨_, rfl, -, rfl, rfl, -⟩
        exact hl rfl
  | group r ih =>
      obtain ⟨groups, mpos, rest⟩ := m
      simp only [run, List.mem_map, matches_group_iff]
      constructor
      · rintro ⟨⟨u, mpos', rest'⟩, hm, heq⟩
        cases heq
        obtain ⟨w, hl, hpos, hw⟩ := ih.mp hm
        dsimp only at hl hpos hw ⊢
        refine ⟨w, hl, hpos, u, ?_, hw⟩
        rw [hpos, hl]
        simp
      · rintro ⟨w, hl, hpos, u, rfl, hw⟩
        refine ⟨⟨u, mpos, rest⟩, ih.mpr ⟨w, hl, hpos, hw⟩, ?_⟩
        rw [hpos, hl]
        simp

/-! ## The first match -/

theorem takeWhile_append (hx : ∀ a ∈ x, p a = true) (hy : ∀ c ∈ y.head?, p c = false) :
    (x ++ y).takeWhile p = x := by
  rw [List.takeWhile_append_of_pos hx]
  cases y with
  | nil => simp
  | cons c y => rw [List.takeWhile_cons_of_neg (by simp [hy c rfl]), List.append_nil]

theorem flatMap_counts {β : Type*} {F : Nat → List β} {k : Nat} (hlo : q ≤ k)
    (h : ∀ n, q ≤ n → n < k → F n = []) : (counts q k b).flatMap F = F k := by
  have hsplit : List.range' q (k + 1 - q) = List.range' q (k - q) ++ [k] := by
    have hlen : k + 1 - q = k - q + 1 := by omega
    rw [hlen, List.range'_concat]
    congr 2
    omega
  have hnil : (List.range' q (k - q)).flatMap F = [] := by
    rw [List.flatMap_eq_nil_iff]
    intro n hn
    rw [List.mem_range'_1] at hn
    exact h n hn.1 (by omega)
  have hnil' : (List.range' q (k - q)).reverse.flatMap F = [] := by
    rw [List.flatMap_eq_nil_iff] at hnil ⊢
    exact fun n hn => hnil n (List.mem_reverse.mp hn)
  unfold counts
  cases b
  · simp [hsplit, List.flatMap_append, hnil]
  · simp [hsplit, hnil']

theorem run_rep_seq {t : Option Nat} (hx : ∀ a ∈ x, p a = true)
    (hy : ∀ c ∈ y.head?, p c = false) (hlo : q ≤ x.length) (hhi : ∀ h ∈ t, x.length ≤ h)
    (hs : ∀ n < x.length, s.run (o + n) (x.drop n ++ y) = []) :
    (seq (rep p q t b) s).run o (x ++ y) = s.run (o + x.length) y ∧
      (seq (group (rep p q t b)) s).run o (x ++ y) =
        (s.run (o + x.length) y).map fun m => { m with groups := x :: m.groups } := by
  have htake := takeWhile_append hx hy
  have htop : t.elim x.length (min x.length) = x.length := by
    cases t with
    | none => rfl
    | some h => exact Nat.min_eq_left (hhi h rfl)
  have hdrop : ∀ n < x.length, s.run (o + n) ((x ++ y).drop n) = [] := by
    intro n hn
    rw [List.drop_append_of_le_length (Nat.le_of_lt hn)]
    exact hs n hn
  constructor
  · simp only [run, htake, htop, List.flatMap_map]
    rw [flatMap_counts hlo (fun n _ hn => by simp [hdrop n hn])]
    simp
  · simp only [run, htake, htop, List.flatMap_map, List.map_map]
    rw [flatMap_counts hlo (fun n _ hn => by simp [hdrop n hn])]
    simp

theorem run_seq_lit : (seq (lit w) s).run o (w ++ l) = s.run (o + w.length) l := by
  simp [run]

theorem prefix_of_prefix_append {c : Char} (h : w <+: x ++ c :: y) (hc : c ∉ w) : w <+: x := by
  rcases Nat.lt_or_ge x.length w.length with hlt | hle
  · have hsub : x ++ [c] <+: w := by
      apply List.prefix_of_prefix_length_le _ h
      · simp only [List.length_append, List.length_cons, List.length_nil]
        omega
      · exact ⟨y, by simp⟩
    exact absurd (hsub.subset (by simp)) hc
  · exact List.prefix_of_prefix_length_le h (List.prefix_append x _) hle

theorem not_prefix_early (h : ¬ w <:+: x ++ w.dropLast) {n : Nat} (hn : n < x.length) :
    ¬ w <+: x.drop n ++ (w ++ y) := by
  intro hprefix
  apply h
  have hshort : w <+: x.drop n ++ w.dropLast := by
    apply List.prefix_of_prefix_length_le hprefix
    · apply (List.prefix_append_right_inj _).mpr
      exact (List.dropLast_prefix w).trans (List.prefix_append w y)
    · simp only [List.length_append, List.length_drop, List.length_dropLast]
      omega
  apply hshort.isInfix.trans
  rw [← List.drop_append_of_le_length (Nat.le_of_lt hn)]
  exact (List.drop_suffix n _).isInfix

theorem run_seq_lit_of_not (h : ¬ w <+: l) : (seq (lit w) s).run o l = [] := by
  have hnot : w.isPrefixOf l = false := by
    rw [← Bool.not_eq_true, List.isPrefixOf_iff_prefix]
    exact h
  simp [run, hnot]

theorem run_seq_lit_of_ne {c d : Char} (h : d ≠ c) :
    (seq (lit (c :: w)) s).run o (d :: l) = [] := by
  apply run_seq_lit_of_not
  intro hprefix
  exact h (List.cons_prefix_cons.mp hprefix).1.symm

theorem run_lit_of_not (h : ¬ w <+: l) : (lit w).run o l = [] := by
  have hnot : w.isPrefixOf l = false := by
    rw [← Bool.not_eq_true, List.isPrefixOf_iff_prefix]
    exact h
  simp [run, hnot]

theorem run_lit : (lit w).run o (w ++ l) = [⟨[], o + w.length, l⟩] := by
  simp [run]

theorem head?_run_rep (hx : ∀ a ∈ x, p a = true) (hy : ∀ c ∈ y.head?, p c = false)
    (hlo : q ≤ x.length) :
    ((rep p q none true).run o (x ++ y)).head? = some ⟨[], o + x.length, y⟩ := by
  have htake := takeWhile_append hx hy
  have hlen : x.length + 1 - q = x.length - q + 1 := by omega
  simp only [run, counts, htake, Option.elim, if_true, List.head?_map, List.head?_reverse, hlen,
    List.range'_concat, List.getLast?_concat, Option.map_some]
  have htop : q + 1 * (x.length - q) = x.length := by omega
  rw [htop]
  simp

theorem run_rep_eq_nil {t : Option Nat} (h : (l.takeWhile p).length < q) :
    (rep p q t b).run o l = [] := by
  have hcounts : counts q (t.elim (l.takeWhile p).length (min (l.takeWhile p).length)) b =
      [] := by
    apply List.eq_nil_iff_forall_not_mem.mpr
    intro n hn
    have htop : t.elim (l.takeWhile p).length (min (l.takeWhile p).length) ≤
        (l.takeWhile p).length := by
      cases t with
      | none => exact Nat.le_refl _
      | some h => exact Nat.min_le_left _ _
    have := mem_counts.mp hn
    omega
  simp [run, hcounts]

theorem run_lit_of_ne {c d : Char} (h : d ≠ c) : (lit (c :: w)).run o (d :: l) = [] := by
  apply run_lit_of_not
  intro hprefix
  exact h (List.cons_prefix_cons.mp hprefix).1.symm

theorem run_drop_append (h : ∀ d ∈ x, ∀ o l, s.run o (d :: l) = []) {n : Nat}
    (hn : n < x.length) : s.run o (x.drop n ++ y) = [] := by
  rw [← List.cons_getElem_drop_succ (h := hn), List.cons_append]
  exact h _ (List.getElem_mem hn) _ _

theorem run_seq_of_nil (h : r.run o l = []) : (seq r s).run o l = [] := by
  simp [run, h]

theorem run_seq_bol : (seq bol s).run 0 l = s.run 0 l := by
  simp [run]

theorem run_seq_one {c : Char} (h : p c = true) :
    (seq (rep p 1 (some 1) b) s).run o (c :: l) = s.run (o + 1) l := by
  have hone : min ((c :: l).takeWhile p).length 1 = 1 := by
    rw [List.takeWhile_cons_of_pos h, List.length_cons]
    omega
  have hcounts : counts 1 1 b = [1] := by
    cases b <;> rfl
  simp [run, hone, hcounts]

/-- A b repetition gives back what follows it needs. -/
theorem head?_run_greedy {z : List Char} (hx : ∀ a ∈ x ++ z, p a = true)
    (hy : ∀ c ∈ y.head?, p c = false) (hlo : q ≤ x.length)
    (hs : ∀ n, x.length < n → n ≤ (x ++ z).length →
      s.run (o + n) ((x ++ z ++ y).drop n) = [])
    (hm : (s.run (o + x.length) (z ++ y)).head? = some m) :
    ((seq (rep p q none true) s).run o (x ++ z ++ y)).head? = some m := by
  have htake := takeWhile_append hx hy
  have hlen : (x ++ z).length + 1 - q = (x.length - q) + (z.length + 1) := by
    rw [List.length_append]
    omega
  have hsplit : List.range' q ((x ++ z).length + 1 - q) =
      List.range' q (x.length - q) ++ x.length :: List.range' (x.length + 1) z.length := by
    rw [hlen, ← List.range'_append_1, List.range'_succ]
    congr 3
    · omega
    · congr 1
      omega
  have hafter : (List.range' (x.length + 1) z.length).reverse.flatMap (fun n =>
      (s.run (o + n) ((x ++ z ++ y).drop n)).map fun m' =>
        { m' with groups := [] ++ m'.groups }) = [] := by
    rw [List.flatMap_eq_nil_iff]
    intro n hn
    rw [List.mem_reverse, List.mem_range'_1] at hn
    rw [hs n (by omega) (by rw [List.length_append]; omega), List.map_nil]
  simp only [run, counts, Option.elim, List.flatMap_map, htake, if_true, hsplit]
  rw [List.reverse_append, List.reverse_cons, List.flatMap_append, List.flatMap_append, hafter,
    List.nil_append, List.flatMap_singleton, List.append_assoc x z y, List.drop_left,
    List.head?_append, List.head?_map, hm]
  rfl

/-- A lazy repetition stops where what follows it matches first. -/
theorem head?_run_lazy (hx : ∀ a ∈ x, p a = true)
    (hs : ∀ n < x.length, s.run (o + n) (x.drop n ++ y) = [])
    (hm : (s.run (o + x.length) y).head? = some m) :
    ((seq (rep p 0 none false) s).run o (x ++ y)).head? = some m := by
  have hk : ∃ d, ((x ++ y).takeWhile p).length + 1 = x.length + (d + 1) := by
    refine ⟨(y.takeWhile p).length, ?_⟩
    rw [List.takeWhile_append_of_pos hx, List.length_append]
    omega
  obtain ⟨d, hd⟩ := hk
  simp only [run, counts, Option.elim, List.flatMap_map, Nat.sub_zero, Bool.false_eq_true,
    if_false, hd]
  have hbefore : (List.range' 0 x.length).flatMap (fun n =>
      (s.run (o + n) ((x ++ y).drop n)).map fun m' => { m' with groups := [] ++ m'.groups }) =
      [] := by
    rw [List.flatMap_eq_nil_iff]
    intro n hn
    rw [List.mem_range'_1] at hn
    rw [List.drop_append_of_le_length (by omega), hs n (by omega), List.map_nil]
  have hsplit : List.range' 0 (x.length + (d + 1)) =
      List.range' 0 x.length ++ x.length :: List.range' (x.length + 1) d := by
    rw [← List.range'_append_1, Nat.zero_add, List.range'_succ]
  rw [hsplit, List.flatMap_append, hbefore, List.nil_append, List.flatMap_cons,
    List.drop_left, List.head?_append, List.head?_map, hm]
  rfl

theorem head?_run_alt_left (hr : (r.run o l).head? = some m) :
    ((alt r s).run o l).head? = some m := by
  rw [run, List.head?_append, hr]
  rfl

theorem run_alt_right (hr : r.run o l = []) : (alt r s).run o l = s.run o l := by
  rw [run, hr, List.nil_append]

/-! ## Searching -/

theorem find_of_head? (hx : ∀ n < x.length, r.run (o + n) (x.drop n ++ y) = [])
    (hm : (r.run (o + x.length) y).head? = some m) :
    r.find o (x ++ y) = some (o + x.length, m) := by
  induction x generalizing o with
  | nil =>
      have hm : (r.run o y).head? = some m := hm
      cases y with
      | nil =>
          rw [List.nil_append, find, hm]
          rfl
      | cons c y =>
          rw [List.nil_append, find, hm]
          rfl
  | cons c x ih =>
      have hnil : r.run o (c :: (x ++ y)) = [] := hx 0 (by simp)
      rw [List.cons_append, find, hnil]
      dsimp only [List.head?_nil]
      have hlen : o + (c :: x).length = o + 1 + x.length := by
        rw [List.length_cons]
        omega
      rw [hlen] at hm ⊢
      apply ih _ hm
      intro n hn
      have := hx (n + 1) (by simpa using hn)
      rwa [List.drop_succ_cons, Nat.add_comm n 1, ← Nat.add_assoc] at this

theorem find_eq_some {i : Nat} (h : r.find o l = some (i, m)) :
    ∃ x y, l = x ++ y ∧ i = o + x.length ∧ (r.run i y).head? = some m ∧
      ∀ n < x.length, r.run (o + n) (x.drop n ++ y) = [] := by
  induction l generalizing o with
  | nil =>
      obtain ⟨m', hm', heq⟩ := Option.map_eq_some_iff.mp h
      cases heq
      exact ⟨[], [], rfl, rfl, hm', by simp⟩
  | cons c l ih =>
      unfold find at h
      split at h
      · rename_i m' hm'
        cases h
        exact ⟨[], c :: l, rfl, rfl, hm', by simp⟩
      · rename_i hnone
        obtain ⟨x, y, rfl, rfl, hm, hx⟩ := ih h
        refine ⟨c :: x, y, rfl, by simp; omega, hm, ?_⟩
        intro n hn
        cases n with
        | zero => exact List.head?_eq_none_iff.mp hnone
        | succ n =>
            have := hx n (by simpa using hn)
            rwa [Nat.add_assoc, Nat.add_comm 1 n] at this

theorem find_eq_none (h : r.find o l = none) {n : Nat} (hn : n ≤ l.length) :
    r.run (o + n) (l.drop n) = [] := by
  induction l generalizing o n with
  | nil =>
      obtain rfl : n = 0 := by simpa using hn
      exact List.head?_eq_none_iff.mp (Option.map_eq_none_iff.mp h)
  | cons c l ih =>
      unfold find at h
      split at h
      · contradiction
      · rename_i hnone
        cases n with
        | zero => exact List.head?_eq_none_iff.mp hnone
        | succ n =>
            have := ih h (n := n) (by simpa using hn)
            rwa [Nat.add_assoc, Nat.add_comm 1 n] at this

/-! ## Replacing -/

variable {f : List (List Char) → List Char}

theorem replaceLoop_fuel {n k : Nat} (hn : l.length ≤ n) (hk : l.length ≤ k) :
    r.replaceLoop f n o l = r.replaceLoop f k o l := by
  induction n generalizing k o l with
  | zero =>
      obtain rfl : l = [] := List.length_eq_zero_iff.mp (by omega)
      cases k <;> rfl
  | succ n ih =>
      cases l with
      | nil => cases k <;> rfl
      | cons c l =>
          cases k with
          | zero => simp at hk
          | succ k =>
              simp only [List.length_cons] at hn hk
              unfold replaceLoop
              split
              · split
                · rw [ih (k := k) (by omega) (by omega)]
                · rw [ih (k := k) (by omega) (by omega)]
              · rw [ih (k := k) (by omega) (by omega)]

theorem replaceFrom_skip {c : Char} (h : r.run o (c :: l) = []) :
    r.replaceFrom f o (c :: l) = c :: r.replaceFrom f (o + 1) l := by
  rw [replaceFrom, List.length_cons, replaceLoop, h]
  rfl

theorem replaceFrom_match (h : (r.run o l).head? = some m) (hlt : m.rest.length < l.length) :
    r.replaceFrom f o l = f m.groups ++ r.replaceFrom f m.pos m.rest := by
  cases l with
  | nil => simp at hlt
  | cons c l =>
      rw [List.length_cons] at hlt
      rw [replaceFrom, List.length_cons, replaceLoop, h]
      dsimp only
      rw [if_pos (by omega), replaceFrom, replaceLoop_fuel (by omega) (Nat.le_refl _)]

/-- `x` becomes `y`, whatever comes before and after it. -/
def Turns (r : Regex) (f : List (List Char) → List Char) (x y : List Char) : Prop :=
  ∀ o rest, r.replaceFrom f o (x ++ rest) = y ++ r.replaceFrom f (o + x.length) rest

theorem Turns.nil : r.Turns f [] [] := fun _ _ => rfl

theorem Turns.append {z y' : List Char} (h : r.Turns f x y) (h' : r.Turns f z y') :
    r.Turns f (x ++ z) (y ++ y') := by
  intro o rest
  rw [List.append_assoc, h, h', List.append_assoc, List.length_append, Nat.add_assoc]

theorem Turns.flatMap {α : Type*} {as : List α} {g g' : α → List Char}
    (h : ∀ a ∈ as, r.Turns f (g a) (g' a)) : r.Turns f (as.flatMap g) (as.flatMap g') := by
  induction as with
  | nil => exact Turns.nil
  | cons a as ih =>
      rw [List.flatMap_cons, List.flatMap_cons]
      exact (h a List.mem_cons_self).append (ih fun a' ha' => h a' (List.mem_cons_of_mem a ha'))

theorem Turns.replaceAll (h : r.Turns f x y) : r.replaceAll f x = y := by
  have hend : r.replaceFrom f x.length [] = [] := rfl
  have hturn := h 0 []
  rwa [List.append_nil, Nat.zero_add, hend, List.append_nil] at hturn

theorem Turns.skip (h : ∀ o rest, ∀ n < x.length, r.run o (x.drop n ++ rest) = []) :
    r.Turns f x x := by
  intro o rest
  induction x generalizing o with
  | nil => rfl
  | cons c x ih =>
      have hc : r.run o (c :: (x ++ rest)) = [] := h o rest 0 (by simp)
      rw [List.cons_append, replaceFrom_skip hc, ih, List.length_cons, Nat.add_assoc,
        Nat.add_comm 1, List.cons_append]
      intro o rest n hn
      exact h o rest (n + 1) (by simpa using hn)

theorem Turns.skipChars (h : ∀ c ∈ x, ∀ o l, r.run o (c :: l) = []) : r.Turns f x x :=
  Turns.skip fun _ _ _ hn => run_drop_append h hn

theorem Turns.without {c : Char} (hr : ∀ o d l, d ≠ c → r.run o (d :: l) = [])
    (hx : ∀ d ∈ x, d ≠ c) : r.Turns f x x :=
  Turns.skipChars fun d hd o l => hr o d l (hx d hd)

theorem Turns.skipCons {c : Char} (h : ∀ o rest, r.run o (c :: (x ++ rest)) = [])
    (hx : r.Turns f x x) : r.Turns f (c :: x) (c :: x) := by
  intro o rest
  rw [List.cons_append, replaceFrom_skip (h o rest), hx, List.length_cons, Nat.add_assoc,
    Nat.add_comm 1]
  rfl

theorem Turns.hit {u : List (List Char)} (hx : x ≠ [])
    (h : ∀ o rest, (r.run o (x ++ rest)).head? = some ⟨u, o + x.length, rest⟩) :
    r.Turns f x (f u) := by
  intro o rest
  apply replaceFrom_match (h o rest)
  rw [List.length_append]
  have := List.length_pos_of_ne_nil hx
  dsimp only
  omega

end Regex

end FamilyPlanner.Foundation

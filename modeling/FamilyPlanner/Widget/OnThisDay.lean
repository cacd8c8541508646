import FamilyPlanner.Widget.Wikitext

/-!
# What happened on this day

The clock face shows events from the page of the day in an encyclopedia.  They
are the lines of one section of it that begin with a year.
-/

namespace FamilyPlanner.Widget.OnThisDay

open FamilyPlanner.Foundation Regex Wikitext

/-! ## Parsing -/

/-- `strings.Index`. -/
def index (sub : List Char) : List Char → Option Nat
  | [] => if sub = [] then some 0 else none
  | c :: l => if sub.isPrefixOf (c :: l) then some 0 else (index sub l).map (· + 1)

def dash (c : Char) : Bool := c = '-' || c = '–' || c = '—'

def reEventText : Regex :=
  .seq (.rep space 0 none true) (.seq (.group (.rep (· ≠ '\n') 1 none true)) .eol)

def reEventLine : Regex :=
  .seq .bol (.seq (.group (.rep Char.isDigit 1 (some 4) true)) (.seq (.rep space 0 none true)
    (.seq (.rep dash 1 (some 1) true) reEventText)))

def eventText (groups : List (List Char)) : List Char :=
  groups.getD 0 [] ++ (' ' :: '–' :: ' ' :: trim (groups.getD 1 []))

/-- The body of the loop. -/
def eventOf (line : List Char) : Option (List Char) :=
  let line := trim (line.dropWhile (· = '*'))
  if line = [] ∨ ['\x7b', '\x7b'].isPrefixOf line then none
  else (reEventLine.find 0 (cleanWiki line)).map fun m => eventText m.2.groups

def collect : List (List Char) → List (List Char) → List (List Char)
  | [], out => out
  | line :: lines, out =>
      match eventOf line with
      | none => collect lines out
      | some e => if (out ++ [e]).length ≥ 25 then out ++ [e] else collect lines (out ++ [e])

def heading : List Char := "== Gebeurtenissen ==".toList

def nextHeading : List Char := ['\n', '=', '=', ' ']

/-- What is parsed, from the heading up to the next one of level 2. -/
def excerpt (wikitext : List Char) : Option (List Char) :=
  (index heading wikitext).map fun start =>
    let part := wikitext.drop start
    match index nextHeading (part.drop heading.length) with
    | some stop => part.take (heading.length + stop)
    | none => part

def parseEvents (wikitext : List Char) : List (List Char) :=
  match excerpt wikitext with
  | some part => collect (part.splitOn '\n') []
  | none => []

example : (parseEvents ("Vandaag\n== Gebeurtenissen ==\n=== Europa ===\n" ++
    "* [[1789]] - In [[Parijs (stad)|Parijs]] valt de ''Bastille''.<ref>x</ref>\n" ++
    "** 1953 — Drie  doden<br/> in foto's\n\n== Geboren ==\n* 1900 - Iemand").toList).map
      String.ofList =
    ["1789 – In Parijs valt de Bastille.", "1953 – Drie doden in foto's"] := by
  decide +kernel

/-! ## Lines -/

/-- A year of at most four digits, a dash and the text. -/
def Says (c year text : List Char) : Prop :=
  ∃ gap d gap', c = year ++ (gap ++ d :: (gap' ++ text)) ∧
    (∀ e ∈ year, e.isDigit = true) ∧ 1 ≤ year.length ∧ year.length ≤ 4 ∧
    (∀ e ∈ gap, space e = true) ∧ dash d = true ∧ (∀ e ∈ gap', space e = true) ∧
    text ≠ [] ∧ ∀ e ∈ text.head?, space e = false

def Blank (l : List Char) : Prop := ∀ c ∈ l, isSpace c = true

/-- White space is that of `\s`. -/
def Ordinary (l : List Char) : Prop := ∀ c ∈ l, isSpace c = true → space c = true

instance (l : List Char) : Decidable (Blank l) := List.decidableBAll (isSpace · = true) l

instance (l : List Char) : Decidable (Ordinary l) :=
  List.decidableBAll (fun c => isSpace c = true → space c = true) l

structure Line where
  stars : Nat
  pad : List Char
  pieces : List Inline
  pad' : List Char

namespace Line

def body (l : Line) : List Char := l.pieces.flatMap Inline.written

def written (l : Line) : List Char :=
  List.replicate l.stars '*' ++ (l.pad ++ (l.body ++ l.pad'))

def shown (l : Line) : List Char := squeeze (l.pieces.flatMap Inline.plain)

structure Proper (l : Line) : Prop where
  pieces : ∀ i ∈ l.pieces, i.Proper
  spaced : Spaced l.pieces
  spaces : Ordinary (l.pieces.flatMap Inline.plain)
  pad : Blank l.pad
  pad' : Blank l.pad'
  trimmed : Trimmed l.body
  star : l.pad = [] → l.body.head? ≠ some '*'

/-- A line tells of an event unless a template comes first. -/
def Tells (l : Line) : Option (List Char × List Char) → Prop
  | some e => ¬ ['\x7b', '\x7b'] <+: l.body ∧ Says l.shown e.1 e.2
  | none => ['\x7b', '\x7b'] <+: l.body ∨ ∀ year text, ¬ Says l.shown year text

end Line

variable {c year text : List Char}

theorem run_event_text (htext : text ≠ []) (hline : '\n' ∉ text) (pos : Nat) :
    ((Regex.seq (.group (.rep (· ≠ '\n') 1 none true)) .eol).run pos text).head? =
      some ⟨[text], pos + text.length, []⟩ := by
  have hclass : ∀ e ∈ text, decide (e ≠ '\n') = true := by
    intro e he
    simp only [decide_eq_true_eq]
    rintro rfl
    exact hline he
  have hrun := (run_rep_seq (p := (· ≠ '\n')) (x := text) (y := []) (s := .eol) (q := 1)
    (o := pos) (b := true) hclass (by simp) (List.length_pos_of_ne_nil htext)
    (t := none) (by simp) ?_).2
  · rw [List.append_nil] at hrun
    rw [hrun]
    simp [run]
  · intro n hn
    simp [run, hn]

theorem space_of_isDigit {d : Char} (h : d.isDigit = true) : space d = false := by
  by_contra hd
  simp only [space, Bool.not_eq_false, Bool.or_eq_true, decide_eq_true_eq] at hd
  rcases hd with (((rfl | rfl) | rfl) | rfl) | rfl <;> exact absurd h (by decide)

theorem dash_of_isDigit {d : Char} (h : d.isDigit = true) : dash d = false := by
  by_contra hd
  simp only [dash, Bool.not_eq_false, Bool.or_eq_true, decide_eq_true_eq] at hd
  rcases hd with (rfl | rfl) | rfl <;> exact absurd h (by decide)

theorem space_of_dash {d : Char} (h : dash d = true) : space d = false := by
  simp only [dash, Bool.or_eq_true, decide_eq_true_eq] at h
  rcases h with (rfl | rfl) | rfl <;> rfl

theorem dash_of_space {d : Char} (h : space d = true) : dash d = false := by
  by_contra hd
  rw [space_of_dash (by simpa using hd)] at h
  contradiction

theorem isDigit_of_space {d : Char} (h : space d = true) : d.isDigit = false := by
  by_contra hd
  rw [space_of_isDigit (by simpa using hd)] at h
  contradiction

theorem isDigit_of_dash {d : Char} (h : dash d = true) : d.isDigit = false := by
  by_contra hd
  rw [dash_of_isDigit (by simpa using hd)] at h
  contradiction

theorem run_dash_of_not {s : Regex} {d : Char} (h : dash d = false) (pos : Nat)
    (l : List Char) : (Regex.seq (.rep dash 1 (some 1) true) s).run pos (d :: l) = [] := by
  apply run_seq_of_nil
  apply run_rep_eq_nil
  rw [List.takeWhile_cons_of_neg (by simp [h])]
  simp

theorem run_separator_of_isDigit {s : Regex} {d : Char} (h : d.isDigit = true) (pos : Nat)
    (l : List Char) :
    (Regex.seq (.rep space 0 none true) (.seq (.rep dash 1 (some 1) true) s)).run pos (d :: l) =
      [] := by
  have hskip := (run_rep_seq (p := space) (x := []) (y := d :: l) (q := 0) (t := none)
    (b := true) (o := pos) (s := .seq (.rep dash 1 (some 1) true) s) (by simp)
    (by simp [space_of_isDigit h]) (Nat.le_refl _) (by simp) (by simp)).1
  exact hskip.trans (run_dash_of_not (dash_of_isDigit h) _ l)

theorem run_eventLine (h : Says c year text) (hline : '\n' ∉ c) :
    (reEventLine.run 0 c).head? = some ⟨[year, text], c.length, []⟩ := by
  obtain ⟨gap, d, gap', rfl, hyear, hlo, hhi, hgap, hd, hgap', htext, hhead⟩ := h
  have hend := run_event_text htext (fun hmem => hline (by simp [hmem]))
    (0 + year.length + gap.length + 1 + gap'.length)
  have htail := head?_run_greedy (p := space) (x := gap') (z := []) (y := text) (q := 0)
    (by simpa using hgap') hhead (Nat.zero_le _) (fun n hlt hle => by simp at hle; omega) hend
  rw [List.append_nil] at htail
  have hdash := run_seq_one (p := dash) (b := true) hd (s := reEventText)
    (o := 0 + year.length + gap.length) (l := gap' ++ text)
  have hskip := (run_rep_seq (p := space) (x := gap) (y := d :: (gap' ++ text)) (q := 0)
    (t := none) (b := true) (o := 0 + year.length)
    (s := .seq (.rep dash 1 (some 1) true) reEventText) hgap (by simp [space_of_dash hd])
    (Nat.zero_le _) (by simp) fun n hn => run_drop_append
      (fun e he pos l => run_dash_of_not (dash_of_space (hgap e he)) pos l) hn).1
  have hdigit : ∀ e ∈ (gap ++ d :: (gap' ++ text)).head?, e.isDigit = false := by
    intro e he
    cases gap with
    | nil =>
        obtain rfl : d = e := by simpa using he
        exact isDigit_of_dash hd
    | cons g gap =>
        obtain rfl : g = e := by simpa using he
        exact isDigit_of_space (hgap g List.mem_cons_self)
  have hfour : ∀ k ∈ some 4, year.length ≤ k := by
    rintro k ⟨⟩
    exact hhi
  have hdigits := (run_rep_seq (p := Char.isDigit) (x := year)
    (y := gap ++ d :: (gap' ++ text)) (q := 1) (t := some 4) (b := true) (o := 0)
    (s := .seq (.rep space 0 none true) (.seq (.rep dash 1 (some 1) true) reEventText))
    hyear hdigit hlo hfour fun n hn => run_drop_append
      (fun e he pos l => run_separator_of_isDigit (hyear e he) pos l) hn).2
  have htail : (reEventText.run (0 + year.length + gap.length + 1) (gap' ++ text)).head? = _ :=
    htail
  rw [reEventLine, run_seq_bol, hdigits, List.head?_map, hskip, hdash, htail]
  simp only [Option.map_some, List.length_append, List.length_cons]
  congr 2
  omega

theorem matches_eventLine {pos : Nat} {w rest : List Char} {gs : List (List Char)}
    (h : reEventLine.Matches pos w gs rest) :
    pos = 0 ∧ rest = [] ∧ ∃ year gap d gap' text, w = year ++ (gap ++ d :: (gap' ++ text)) ∧
      (∀ e ∈ year, e.isDigit = true) ∧ 1 ≤ year.length ∧ year.length ≤ 4 ∧
      (∀ e ∈ gap, space e = true) ∧ dash d = true ∧ (∀ e ∈ gap', space e = true) ∧
      text ≠ [] := by
  obtain ⟨_, w, _, us, rfl, -, hbol, hw⟩ := matches_seq_iff.mp h
  obtain ⟨hpos, rfl, -⟩ := matches_bol_iff.mp hbol
  obtain ⟨year, w, _, us, rfl, -, hyear, hw⟩ := matches_seq_iff.mp hw
  obtain ⟨_, -, hyear⟩ := matches_group_iff.mp hyear
  obtain ⟨-, hdigits, hlo, hhi⟩ := matches_rep_iff.mp hyear
  obtain ⟨gap, w, _, us, rfl, -, hgap, hw⟩ := matches_seq_iff.mp hw
  obtain ⟨dashes, w, _, us, rfl, -, hdash, hw⟩ := matches_seq_iff.mp hw
  obtain ⟨-, hdashes, hone, hone'⟩ := matches_rep_iff.mp hdash
  obtain ⟨d, rfl⟩ : ∃ d, dashes = [d] :=
    List.length_eq_one_iff.mp (le_antisymm (hone' 1 rfl) hone)
  obtain ⟨gap', w, _, us, rfl, -, hgap', hw⟩ := matches_seq_iff.mp hw
  obtain ⟨text, w, _, us, rfl, -, htext, hend⟩ := matches_seq_iff.mp hw
  obtain ⟨_, -, htext⟩ := matches_group_iff.mp htext
  obtain ⟨-, -, hne, -⟩ := matches_rep_iff.mp htext
  obtain ⟨hrest, rfl, -⟩ := matches_eol_iff.mp hend
  refine ⟨hpos, hrest, year, gap, d, gap', text, by simp, hdigits, hlo, hhi 4 rfl,
    (matches_rep_iff.mp hgap).2.1, hdashes d (by simp), (matches_rep_iff.mp hgap').2.1, ?_⟩
  exact List.ne_nil_of_length_pos hne

theorem says_of_find {m : Nat × Match} (h : reEventLine.find 0 c = some m)
    (hlast : ∀ e ∈ c.getLast?, isSpace e = false) : ∃ year text, Says c year text := by
  obtain ⟨i, m⟩ := m
  obtain ⟨x, y, rfl, rfl, hm, -⟩ := find_eq_some h
  obtain ⟨w, rfl, -, hw⟩ := mem_run_iff.mp (List.mem_of_head? hm)
  obtain ⟨hpos, hrest, year, gap, d, gap', text, rfl, hyear, hlo, hhi, hgap, hd, hgap', hne⟩ :=
    matches_eventLine hw
  obtain rfl : x = [] := List.length_eq_zero_iff.mp (by simpa using hpos)
  obtain ⟨g, t, rfl, hg, ht⟩ := exists_span space text
  have htext : t ≠ [] := by
    rintro rfl
    rw [List.append_nil] at hne hlast
    rw [hrest] at hlast
    have hsplit : [] ++ (year ++ (gap ++ d :: (gap' ++ g)) ++ []) =
        (year ++ (gap ++ d :: gap')) ++ g := by simp
    rw [hsplit, List.getLast?_append_of_ne_nil _ hne] at hlast
    have hend := hlast (g.getLast hne) (List.getLast?_eq_some_getLast hne)
    rw [isSpace_of_space (hg _ (List.getLast_mem hne))] at hend
    simp at hend
  refine ⟨year, t, gap, d, gap' ++ g, by simp [hrest], hyear, hlo, hhi, hgap, hd, ?_, htext, ht⟩
  intro e he
  rcases List.mem_append.mp he with he | he
  · exact hgap' e he
  · exact hg e he

theorem trimmed_text {l : List Char} (h : Says (squeeze l) year text) : Trimmed text := by
  have htrimmed := trimmed_squeeze l
  obtain ⟨gap, d, gap', hl, -, -, -, -, -, -, hne, hhead⟩ := h
  have hsplit : squeeze l = (year ++ (gap ++ d :: gap')) ++ text := by simp [hl]
  constructor
  · intro e he
    by_contra hspace
    have hmem : e ∈ squeeze l := by
      rw [hsplit]
      exact List.mem_append_right _ (List.mem_of_mem_head? he)
    obtain rfl := eq_blank_of_mem_squeeze hmem (by simpa using hspace)
    exact absurd (hhead ' ' he) (by decide)
  · rw [hsplit, Trimmed, List.getLast?_append_of_ne_nil _ hne] at htrimmed
    exact htrimmed.2

namespace Line

def event (e : List Char × List Char) : List Char := e.1 ++ (' ' :: '–' :: ' ' :: e.2)

variable {l : Line}

theorem trim_written (hl : l.Proper) : trim (l.written.dropWhile (· = '*')) = l.body := by
  have hhead : ∀ d ∈ (l.pad ++ (l.body ++ l.pad')).head?, d ≠ '*' := by
    intro d hd
    cases hpad : l.pad with
    | cons e pad =>
        rw [hpad] at hd
        obtain rfl : e = d := by simpa using hd
        rintro rfl
        have := hl.pad '*' (by simp [hpad])
        contradiction
    | nil =>
        rw [hpad, List.nil_append] at hd
        cases hbody : l.body with
        | cons e body =>
            rw [hbody] at hd
            obtain rfl : e = d := by simpa using hd
            simpa [hbody] using hl.star hpad
        | nil =>
            rw [hbody, List.nil_append] at hd
            rintro rfl
            have := hl.pad' '*' (List.mem_of_mem_head? hd)
            contradiction
  have hdrop : l.written.dropWhile (· = '*') = l.pad ++ (l.body ++ l.pad') := by
    unfold written
    induction l.stars with
    | zero =>
        cases hrest : l.pad ++ (l.body ++ l.pad') with
        | nil => rfl
        | cons d rest =>
            have hd := hhead d (by rw [hrest]; rfl)
            exact List.dropWhile_cons_of_neg (by simpa using hd)
    | succ n ih =>
        rw [List.replicate_succ, List.cons_append, List.dropWhile_cons_of_pos (by simp)]
        exact ih
  rw [hdrop, trim_spaces hl.pad hl.pad' hl.trimmed]

theorem eventOf_written (hl : l.Proper) {k : Option (List Char × List Char)}
    (hk : l.Tells k) : eventOf l.written = k.map event := by
  have hclean : cleanWiki l.body = l.shown := cleanWiki_eq hl.pieces hl.spaced hl.spaces
  have hshown : Trimmed l.shown := trimmed_squeeze _
  have hline : '\n' ∉ l.shown := by
    intro hmem
    exact absurd (eq_blank_of_mem_squeeze hmem rfl) (by decide)
  unfold eventOf
  rw [trim_written hl]
  dsimp only
  cases k with
  | none =>
      split
      · rfl
      · rename_i hbody
        rw [hclean, Option.map_none, Option.map_eq_none_iff]
        rcases hk with htemplate | hnone
        · exact absurd (.inr (List.isPrefixOf_iff_prefix.mpr htemplate)) hbody
        · by_contra hfind
          obtain ⟨m, hm⟩ := Option.ne_none_iff_exists'.mp hfind
          obtain ⟨year, text, hsays⟩ := says_of_find hm hshown.2
          exact hnone year text hsays
  | some e =>
      obtain ⟨htemplate, hsays⟩ := hk
      rw [if_neg]
      · have hfind := find_of_head? (r := reEventLine) (x := []) (o := 0) (by simp)
          (run_eventLine hsays hline)
        rw [List.nil_append] at hfind
        rw [hclean, hfind]
        simp only [Option.map_some, eventText, List.getD_cons_zero, List.getD_cons_succ, event]
        rw [trim_trimmed (trimmed_text hsays)]
      · rintro (hbody | hprefix)
        · have hempty : l.shown = [] := by rw [← hclean, hbody]; rfl
          rw [hempty] at hsays
          obtain ⟨gap, d, gap', hnil, -⟩ := hsays
          simp at hnil
        · exact htemplate (List.isPrefixOf_iff_prefix.mp hprefix)

end Line

/-! ## The whole page -/

theorem collect_eq {lines out : List (List Char)} (hout : out.length < 25) :
    collect lines out = out ++ (lines.filterMap eventOf).take (25 - out.length) := by
  induction lines generalizing out with
  | nil => simp [collect]
  | cons line lines ih =>
      unfold collect
      cases hline : eventOf line with
      | none =>
          rw [List.filterMap_cons_none hline]
          exact ih hout
      | some e =>
          rw [List.filterMap_cons_some hline]
          dsimp only
          have hlen : (out ++ [e]).length = out.length + 1 := List.length_append
          have hroom : 25 - out.length = 25 - (out.length + 1) + 1 := by omega
          rw [hroom, List.take_succ_cons]
          split
          · have hfull : 25 - (out.length + 1) = 0 := by omega
            rw [hfull, List.take_zero]
          · rw [ih (by omega), hlen, List.append_assoc]
            rfl

theorem index_append {sub x y : List Char} (h : ∀ n < x.length, ¬ sub <+: x.drop n ++ y) :
    index sub (x ++ y) = (index sub y).map (· + x.length) := by
  induction x with
  | nil => simp
  | cons c x ih =>
      have hc : ¬ sub <+: c :: (x ++ y) := h 0 (by simp)
      rw [List.cons_append, index, if_neg (by rwa [List.isPrefixOf_iff_prefix]), ih]
      · cases index sub y with
        | none => rfl
        | some i => simp [Nat.add_assoc]
      · intro n hn
        exact h (n + 1) (by simpa using hn)

theorem index_self {sub : List Char} (y : List Char) : index sub (sub ++ y) = some 0 := by
  have hprefix : sub.isPrefixOf (sub ++ y) = true :=
    List.isPrefixOf_iff_prefix.mpr (List.prefix_append sub y)
  cases hl : sub ++ y with
  | nil =>
      obtain ⟨rfl, -⟩ := List.append_eq_nil_iff.mp hl
      rfl
  | cons c l =>
      rw [hl] at hprefix
      rw [index, if_pos hprefix]

theorem splitOn_lines {x : List Char} {ls : List (List Char)} (hx : '\n' ∉ x)
    (hls : ∀ l ∈ ls, '\n' ∉ l) :
    (x ++ ls.flatMap fun l => '\n' :: l).splitOn '\n' = x :: ls := by
  induction ls generalizing x with
  | nil => simpa using List.splitOn_eq_singleton hx
  | cons l ls ih =>
      rw [List.flatMap_cons, List.cons_append, List.splitOn_append_cons_self_of_not_mem hx,
        ih (hls l List.mem_cons_self) fun l' hl' => hls l' (List.mem_cons_of_mem l hl')]

theorem index_nextHeading {ls : List (List Char)} {tail : List Char}
    (hls : ∀ l ∈ ls, '\n' ∉ l ∧ ¬ ['=', '=', ' '] <+: l)
    (htail : tail = [] ∨ ∃ post, tail = nextHeading ++ post) :
    index nextHeading ((ls.flatMap fun l => '\n' :: l) ++ tail) =
      (index nextHeading tail).map (· + (ls.flatMap fun l => '\n' :: l).length) := by
  induction ls with
  | nil => simp
  | cons l ls ih =>
      obtain ⟨hnl, hhead⟩ := hls l List.mem_cons_self
      have hls' : ∀ l' ∈ ls, '\n' ∉ l' ∧ ¬ ['=', '=', ' '] <+: l' :=
        fun l' hl' => hls l' (List.mem_cons_of_mem l hl')
      have hrest : (ls.flatMap fun l => '\n' :: l) ++ tail = [] ∨
          ∃ rest, (ls.flatMap fun l => '\n' :: l) ++ tail = '\n' :: rest := by
        cases ls with
        | nil =>
            rcases htail with rfl | ⟨post, rfl⟩
            · exact .inl rfl
            · exact .inr ⟨_, rfl⟩
        | cons l' ls => exact .inr ⟨_, rfl⟩
      rw [List.flatMap_cons, List.append_assoc, index_append, ih hls', Option.map_map]
      · congr 1
        funext i
        simp only [Function.comp_apply, List.length_append]
        omega
      · intro n hn hprefix
        cases n with
        | zero =>
            have hprefix : ['=', '=', ' '] <+: l ++ ((ls.flatMap fun l => '\n' :: l) ++ tail) :=
              (List.cons_prefix_cons.mp hprefix).2
            rcases hrest with hrest | ⟨rest, hrest⟩
            · rw [hrest, List.append_nil] at hprefix
              exact hhead hprefix
            · rw [hrest] at hprefix
              exact hhead (prefix_of_prefix_append hprefix (by decide))
        | succ n =>
            have hn : n < l.length := by simpa using hn
            rw [List.drop_succ_cons, ← List.cons_getElem_drop_succ (h := hn),
              List.cons_append] at hprefix
            have heq := (List.cons_prefix_cons.mp hprefix).1
            exact hnl (heq ▸ List.getElem_mem hn)

structure Page where
  intro : List Char
  lines : List Line
  tail : List Char

namespace Page

def written (p : Page) : List Char :=
  p.intro ++ (heading ++ ((p.lines.map Line.written).flatMap fun l => '\n' :: l) ++ p.tail)

structure Proper (p : Page) : Prop where
  first : ¬ heading <:+: p.intro ++ heading.dropLast
  lines : ∀ l ∈ p.lines, l.Proper
  inside : ∀ l ∈ p.lines, '\n' ∉ l.written ∧ ¬ ['=', '=', ' '] <+: l.written
  tail : p.tail = [] ∨ ∃ post, p.tail = nextHeading ++ post

variable {p : Page}

theorem excerpt_written (hp : p.Proper) :
    excerpt p.written =
      some (heading ++ (p.lines.map Line.written).flatMap fun l => '\n' :: l) := by
  have hlines : ∀ l ∈ p.lines.map Line.written, '\n' ∉ l ∧ ¬ ['=', '=', ' '] <+: l := by
    intro l hl
    obtain ⟨line, hline, rfl⟩ := List.mem_map.mp hl
    exact hp.inside line hline
  have hstart : index heading p.written = some p.intro.length := by
    rw [written, List.append_assoc heading, index_append, index_self, Option.map_some,
      Nat.zero_add]
    exact fun n hn => not_prefix_early hp.first hn
  have hstop := index_nextHeading hlines hp.tail
  rw [excerpt, hstart, Option.map_some, written, List.drop_left, List.append_assoc heading]
  dsimp only
  rw [List.drop_left, hstop]
  rcases hp.tail with htail | ⟨post, htail⟩
  · rw [htail, List.append_nil]
    rfl
  · rw [htail, index_self, Option.map_some]
    dsimp only
    rw [Nat.zero_add, ← List.length_append, ← List.append_assoc, List.take_left]

theorem filterMap_written {ls : List Line} {es : List (Option (List Char × List Char))}
    (hls : ∀ l ∈ ls, l.Proper) (hes : List.Forall₂ Line.Tells ls es) :
    (ls.map Line.written).filterMap eventOf = es.reduceOption.map Line.event := by
  induction hes with
  | nil => rfl
  | @cons l k ls es hk hes ih =>
      have ih := ih fun l' hl' => hls l' (List.mem_cons_of_mem l hl')
      have hline := Line.eventOf_written (hls l List.mem_cons_self) hk
      cases k with
      | none =>
          rw [List.map_cons, List.filterMap_cons_none hline, ih]
          rfl
      | some e =>
          rw [List.map_cons, List.filterMap_cons_some hline, ih]
          rfl

def bastille : Page where
  intro := "Vandaag\n".toList
  lines :=
    [⟨0, [], [.text "=== Europa ===".toList], []⟩,
      ⟨1, [' '], [.page "1789".toList, .text " - In ".toList,
        .link "Parijs (stad)".toList "Parijs".toList, .text "' straten  valt de ".toList, .bold 2,
        .text "Bastille".toList, .bold 2, .ref [] "Bron".toList], ['\x0d']⟩]
  tail := "\n== Geboren ==".toList

end Page

end FamilyPlanner.Widget.OnThisDay

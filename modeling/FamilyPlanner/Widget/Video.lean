import FamilyPlanner.Foundation.Regex
import FamilyPlanner.Widget.Registry

/-!
# The video of a link

A video widget plays the clip whose id is the first eleven characters behind a
marker of a YouTube link, or of a text that is an id itself.
-/

namespace FamilyPlanner.Widget.Video

open FamilyPlanner.Foundation

/-- `[A-Za-z0-9_-]`. -/
def idChar (c : Char) : Bool := c.isAlphanum || c == '_' || c == '-'

def ytIDRe : Regex :=
  .seq (.alt (.lit ['v', '=']) (.alt (.lit "/embed/".toList) (.alt (.lit "youtu.be/".toList)
    (.alt (.lit "/shorts/".toList) .bol)))) (.group (.rep idChar 11 (some 11) true))

def youtubeID (s : String) : String :=
  match ytIDRe.find 0 s.toList with
  | some (_, m) => String.ofList (m.groups.headD [])
  | none => ""

def fetch (cfg : VideoConfig) : VideoData × Duration :=
  let ids := if youtubeID cfg.url ≠ "" then [youtubeID cfg.url] else []
  (⟨ids, cfg.mute = "yes", cfg.loop ≠ "no"⟩, minutes 60)

example : youtubeID "https://www.youtube.com/watch?v=dQw4w9WgXcQ&t=4" = "dQw4w9WgXcQ" := by
  decide +kernel

example : youtubeID "dQw4w9WgXcQ" = "dQw4w9WgXcQ" := by decide +kernel

def markers : List (List Char) :=
  [['v', '='], "/embed/".toList, "youtu.be/".toList, "/shorts/".toList]

/-- The eleven characters `id` stand behind a marker at position `i`, or at the
start of the text. -/
def IdAt (s : List Char) (i : Nat) (id : List Char) : Prop :=
  id.length = 11 ∧ (∀ c ∈ id, idChar c = true) ∧
    ∃ x w post, s = x ++ (w ++ (id ++ post)) ∧ x.length = i ∧ (w ∈ markers ∨ w = [] ∧ i = 0)

variable {s id w x y rest : List Char} {i pos : Nat} {gs : List (List Char)}

theorem matches_ytIDRe_iff :
    ytIDRe.Matches pos w gs rest ↔
      ∃ v id, w = v ++ id ∧ gs = [id] ∧ id.length = 11 ∧ (∀ c ∈ id, idChar c = true) ∧
        (v ∈ markers ∨ v = [] ∧ pos = 0) := by
  simp only [ytIDRe, Regex.matches_seq_iff, Regex.matches_alt_iff, Regex.matches_lit_iff,
    Regex.matches_bol_iff, Regex.matches_group_iff, Regex.matches_rep_iff, markers,
    List.mem_cons, List.not_mem_nil, or_false]
  constructor
  · rintro ⟨v, id, us, _, rfl, rfl, hv, _, rfl, rfl, hall, hlo, hhi⟩
    have hlen : id.length = 11 := Nat.le_antisymm (hhi 11 rfl) hlo
    refine ⟨v, id, rfl, ?_, hlen, hall, ?_⟩
    · rcases hv with hv | hv | hv | hv | hv <;> simp [hv]
    · rcases hv with ⟨hv, -⟩ | ⟨hv, -⟩ | ⟨hv, -⟩ | ⟨hv, -⟩ | ⟨hpos, hv, -⟩
      · exact .inl (.inl hv)
      · exact .inl (.inr (.inl hv))
      · exact .inl (.inr (.inr (.inl hv)))
      · exact .inl (.inr (.inr (.inr hv)))
      · exact .inr ⟨hv, hpos⟩
  · rintro ⟨v, id, rfl, rfl, hlen, hall, hv⟩
    refine ⟨v, id, [], [id], rfl, rfl, ?_, [], rfl, rfl, hall, by omega, ?_⟩
    · rcases hv with (hv | hv | hv | hv) | ⟨hv, hpos⟩
      · exact .inl ⟨hv, rfl⟩
      · exact .inr (.inl ⟨hv, rfl⟩)
      · exact .inr (.inr (.inl ⟨hv, rfl⟩))
      · exact .inr (.inr (.inr (.inl ⟨hv, rfl⟩)))
      · exact .inr (.inr (.inr (.inr ⟨hpos, hv, rfl⟩)))
    · rintro h ⟨⟩
      omega

theorem idAt_iff :
    IdAt s i id ↔ ∃ x y m, s = x ++ y ∧ x.length = i ∧ m ∈ ytIDRe.run i y ∧ m.groups = [id] := by
  constructor
  · rintro ⟨hlen, hall, x, v, post, rfl, hi, hv⟩
    refine ⟨x, v ++ (id ++ post), ⟨[id], i + (v ++ id).length, post⟩, rfl, hi, ?_, rfl⟩
    refine Regex.mem_run_iff.mpr ⟨v ++ id, by simp, rfl, ?_⟩
    exact matches_ytIDRe_iff.mpr ⟨v, id, rfl, rfl, hlen, hall, hv⟩
  · rintro ⟨x, y, m, rfl, hi, hm, hgroups⟩
    obtain ⟨w, hy, -, hw⟩ := Regex.mem_run_iff.mp hm
    obtain ⟨v, id', rfl, hgroups', hlen, hall, hv⟩ := matches_ytIDRe_iff.mp hw
    obtain rfl : id = id' := by
      rw [hgroups] at hgroups'
      exact (List.cons.inj hgroups').1
    refine ⟨hlen, hall, x, v, m.rest, ?_, hi, hv⟩
    rw [hy, List.append_assoc]

theorem exists_not_idChar {v : List Char} (hv : v ∈ markers) :
    v.length ≤ 11 ∧ ∃ c ∈ v, idChar c = false := by
  have hall : ∀ v ∈ markers, v.length ≤ 11 ∧ v.any (!idChar ·) = true := by decide
  obtain ⟨hle, hany⟩ := hall v hv
  obtain ⟨c, hc, hbad⟩ := List.any_eq_true.mp hany
  exact ⟨hle, c, hc, by simpa using hbad⟩

theorem markers_prefix {v v' : List Char} (hv : v ∈ markers) (hv' : v' ∈ markers)
    (h : v <+: y) (h' : v' <+: y) : v = v' := by
  have hapart : ∀ u ∈ markers, ∀ u' ∈ markers, u <+: u' → u = u' := by decide
  rcases Nat.le_total v.length v'.length with hle | hle
  · exact hapart v hv v' hv' (List.prefix_of_prefix_length_le h h' hle)
  · exact (hapart v' hv' v hv (List.prefix_of_prefix_length_le h' h hle)).symm

theorem not_begins_marker {v post : List Char} (hlen : id.length = 11)
    (hall : ∀ c ∈ id, idChar c = true) (hv : v ∈ markers) : ¬ v <+: id ++ post := by
  intro hprefix
  obtain ⟨hle, c, hc, hbad⟩ := exists_not_idChar hv
  have hsub := List.prefix_of_prefix_length_le hprefix (List.prefix_append id post) (by omega)
  rw [hall c (hsub.subset hc)] at hbad
  contradiction

theorem IdAt.unique {id' : List Char} (h : IdAt s i id) (h' : IdAt s i id') : id = id' := by
  obtain ⟨hlen, hall, x, v, post, rfl, hi, hv⟩ := h
  obtain ⟨hlen', hall', x', v', post', heq, hi', hv'⟩ := h'
  have hrest := (List.append_inj heq (hi.trans hi'.symm)).2
  have hprefix : v <+: v ++ (id ++ post) := List.prefix_append _ _
  have hprefix' : v' <+: v ++ (id ++ post) := hrest ▸ List.prefix_append _ _
  have hsame : v = v' := by
    rcases hv with hv | ⟨rfl, -⟩
    · rcases hv' with hv' | ⟨rfl, -⟩
      · exact markers_prefix hv hv' hprefix hprefix'
      · exact absurd (hrest ▸ hprefix) (not_begins_marker hlen' hall' hv)
    · rcases hv' with hv' | ⟨rfl, -⟩
      · have hprefix' : v' <+: id ++ post := hprefix'
        exact absurd hprefix' (not_begins_marker hlen hall hv')
      · rfl
  subst hsame
  exact (List.append_inj (List.append_cancel_left hrest) (hlen.trans hlen'.symm)).1

theorem youtubeID_leftmost (s : String) :
    (youtubeID s = "" ∧ ∀ i id, ¬ IdAt s.toList i id) ∨
      ∃ i, IdAt s.toList i (youtubeID s).toList ∧
        ∀ j id, IdAt s.toList j id → i < j ∨ i = j ∧ id = (youtubeID s).toList := by
  unfold youtubeID
  cases hfind : ytIDRe.find 0 s.toList with
  | none =>
      refine .inl ⟨rfl, ?_⟩
      intro i id hid
      obtain ⟨x, y, m, hs, hi, hm, -⟩ := idAt_iff.mp hid
      have hnil := Regex.find_eq_none hfind (n := i) (by rw [hs, List.length_append]; omega)
      rw [hs, ← hi, List.drop_left, Nat.zero_add, hi] at hnil
      rw [hnil] at hm
      exact List.not_mem_nil hm
  | some found =>
      obtain ⟨i, m⟩ := found
      obtain ⟨x, y, hs, hi, hm, hbefore⟩ := Regex.find_eq_some hfind
      rw [Nat.zero_add] at hi
      have hmem := List.mem_of_mem_head? hm
      obtain ⟨w, -, -, hw⟩ := Regex.mem_run_iff.mp hmem
      obtain ⟨v, id, -, hgroups, -⟩ := matches_ytIDRe_iff.mp hw
      have hfound : IdAt s.toList i id := idAt_iff.mpr ⟨x, y, m, hs, hi.symm, hmem, hgroups⟩
      right
      simp only [hgroups, List.headD_cons, String.toList_ofList]
      refine ⟨i, hfound, ?_⟩
      intro j id' hid'
      rcases Nat.lt_trichotomy i j with hlt | rfl | hgt
      · exact .inl hlt
      · exact .inr ⟨rfl, hid'.unique hfound⟩
      · obtain ⟨x', y', m', hs', hj, hm', -⟩ := idAt_iff.mp hid'
        have hnil := hbefore j (by omega)
        rw [← List.drop_append_of_le_length (by omega), ← hs, hs', ← hj, List.drop_left,
          Nat.zero_add, hj] at hnil
        rw [hnil] at hm'
        exact absurd hm' List.not_mem_nil

/--
A widget plays the one id that stands leftmost in its URL, and nothing if no
id stands there.
-/
theorem plays_leftmost_id (cfg : VideoConfig) :
    ((fetch cfg).1.ids = [] ∧ ∀ i id, ¬ IdAt cfg.url.toList i id) ∨
      ∃ i id, (fetch cfg).1.ids = [String.ofList id] ∧ IdAt cfg.url.toList i id ∧
        ∀ j id', IdAt cfg.url.toList j id' → i < j ∨ i = j ∧ id' = id := by
  rcases youtubeID_leftmost cfg.url with ⟨hnone, hall⟩ | ⟨i, hid, hleft⟩
  · exact .inl ⟨by simp [fetch, hnone], hall⟩
  · have hne : youtubeID cfg.url ≠ "" := by
      intro hnone
      rw [hnone] at hid
      exact absurd hid.1 (by decide)
    exact .inr ⟨i, _, by simp [fetch, hne], hid, hleft⟩

end FamilyPlanner.Widget.Video

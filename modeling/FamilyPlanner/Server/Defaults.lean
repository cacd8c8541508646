import FamilyPlanner.Foundation.Service
import FamilyPlanner.Server.Playlists

/-!
# The default playlist

A new default is made in two statements, one that clears the mark of every
playlist and one that sets it.  Requests overlap, and any statement may fail.
-/

namespace FamilyPlanner.Server

open FamilyPlanner.Foundation FamilyPlanner.Widget

/-! ## The handlers -/

def parseIntDefault (s : String) (fallback : Int) : Int :=
  match atoi s with
  | none => fallback
  | some v => if 0 < v then v else fallback

/-- Statements that succeed or fail as a whole. -/
abbrev Statements := Prog Write (fun _ => Bool) Answer

def concluding (w : Write) (err : String) : Statements :=
  .call w fun ok => .ret (if ok then .ok 200 else .error (err, 500))

/-- The error of the first statement is ignored. -/
def handlePlaylistCreate (name isDefault interval : String) : Statements :=
  let create (isDefault : Int) : Statements :=
    concluding (.createPlaylist name isDefault (parseIntDefault interval 30)) "create failed"
  if name = "" then .ret (.error ("name required", 400))
  else if isDefault = "1" then .call .clearDefaultPlaylists fun _ => create 1
  else create 0

def handlePlaylistSetDefault (id : String) : Statements :=
  match atoi id with
  | none => .ret (.error ("bad id", 400))
  | some id =>
      .call .clearDefaultPlaylists fun _ => concluding (.setDefaultPlaylist id) "failed"

inductive DefaultRequest where
  | create (name isDefault interval : String)
  | setDefault (id : String)
  deriving DecidableEq, Repr

def DefaultRequest.handle : DefaultRequest → Statements
  | create name isDefault interval => handlePlaylistCreate name isDefault interval
  | setDefault id => handlePlaylistSetDefault id

/-! ## The marks -/

namespace Tables

variable {ω : Type}

def defaults (t : Tables ω) : List Int :=
  (t.playlists.filter (·.isDefault = 1)).map Playlist.id

structure Keyed (t : Tables ω) : Prop where
  nodup : (t.playlists.map Playlist.id).Nodup
  bound : ∀ pl ∈ t.playlists, pl.id ≤ t.playlistSeq

theorem defaults_clear (t : Tables ω) : (t.write .clearDefaultPlaylists).defaults = [] := by
  simp [defaults, write, updatePlaylists, List.filter_map, Function.comp_def]

theorem defaults_create (t : Tables ω) (name : String) (isDefault interval : Int) :
    (t.write (.createPlaylist name isDefault interval)).defaults =
      t.defaults ++ if isDefault = 1 then [t.playlistSeq + 1] else [] := by
  by_cases h : isDefault = 1 <;> simp [defaults, write, h]

theorem Keyed.clear {t : Tables ω} (ht : t.Keyed) :
    (t.write .clearDefaultPlaylists).Keyed := by
  constructor
  · simpa [write, updatePlaylists, Function.comp_def] using ht.nodup
  · simpa [write, updatePlaylists] using ht.bound

theorem Keyed.create {t : Tables ω} (ht : t.Keyed) (name : String)
    (isDefault interval : Int) : (t.write (.createPlaylist name isDefault interval)).Keyed := by
  constructor
  · simp only [write, List.map_append, List.map_cons, List.map_nil]
    apply List.nodup_append.mpr
    refine ⟨ht.nodup, by simp, ?_⟩
    intro id hid id' hid'
    obtain ⟨pl, hpl, rfl⟩ := List.mem_map.mp hid
    have hle := ht.bound pl hpl
    rw [List.mem_singleton] at hid'
    omega
  · intro pl hpl
    rcases List.mem_append.mp hpl with hpl | hpl
    · have hle := ht.bound pl hpl
      simp only [write]
      omega
    · rw [List.mem_singleton] at hpl
      subst hpl
      exact le_rfl

theorem Keyed.setDefault {t : Tables ω} (ht : t.Keyed) (id : Int) :
    (t.write (.setDefaultPlaylist id)).Keyed := by
  have hid (pl : Playlist) :
      (if pl.id = id then { pl with isDefault := 1 } else pl).id = pl.id := by
    split <;> rfl
  constructor
  · simpa [write, updatePlaylists, Function.comp_def, hid] using ht.nodup
  · simpa [write, updatePlaylists, hid] using ht.bound

theorem defaults_eq_nil {t : Tables ω} :
    t.defaults = [] ↔ ∀ pl ∈ t.playlists, pl.isDefault ≠ 1 := by
  simp [defaults, List.filter_eq_nil_iff]

/-- A target that has the mark, or does not exist, changes nothing. -/
theorem defaults_setDefault_of_default {t : Tables ω} {id : Int}
    (h : ∀ pl ∈ t.playlists, pl.id = id → pl.isDefault = 1) :
    (t.write (.setDefaultPlaylist id)).defaults = t.defaults := by
  have hsame : t.playlists.map (fun pl =>
      if pl.id = id then { pl with isDefault := 1 } else pl) = t.playlists.map fun pl => pl := by
    apply List.map_congr_left
    intro pl hpl
    by_cases hid : pl.id = id
    · rw [if_pos hid, ← h pl hpl hid]
    · rw [if_neg hid]
  simp [defaults, write, updatePlaylists, hsame]

theorem defaults_setDefault {t : Tables ω} (ht : t.Keyed) {id : Int}
    (hnone : t.defaults = []) (hid : ∃ pl ∈ t.playlists, pl.id = id) :
    (t.write (.setDefaultPlaylist id)).defaults = [id] := by
  obtain ⟨pl, hpl, rfl⟩ := hid
  obtain ⟨before, after, hsplit⟩ := List.append_of_mem hpl
  have hnodup := ht.nodup
  rw [hsplit, List.map_append, List.map_cons, List.nodup_middle, List.nodup_cons] at hnodup
  have hother : ∀ pl' ∈ before ++ after, pl'.id ≠ pl.id ∧ pl'.isDefault ≠ 1 := by
    intro pl' hpl'
    constructor
    · intro hsame
      rw [← List.map_append] at hnodup
      exact hnodup.1 (hsame ▸ List.mem_map_of_mem hpl')
    · apply defaults_eq_nil.mp hnone
      rw [hsplit]
      exact (List.Sublist.append_left (List.sublist_cons_self pl after) before).subset hpl'
  have hquiet : ∀ part ⊆ before ++ after, (part.map fun pl' =>
      if pl'.id = pl.id then { pl' with isDefault := 1 } else pl').filter
        (·.isDefault = 1) = [] := by
    intro part hpart
    rw [List.filter_eq_nil_iff]
    intro pl' hpl'
    obtain ⟨old, hold, rfl⟩ := List.mem_map.mp hpl'
    obtain ⟨hid, hmark⟩ := hother old (hpart hold)
    simp [hid, hmark]
  have hbefore := hquiet before (List.subset_append_left _ _)
  have hafter := hquiet after (List.subset_append_right _ _)
  simp [defaults, write, updatePlaylists, hsplit, hbefore, hafter]

end Tables

/-! ## Requests in progress -/

/-- `cleared` is whether the first statement succeeded; `changed` is whether an
operation of the request has changed which playlists are marked. -/
structure Marking where
  cleared : Option Bool := none
  changed : Bool := false
  deriving DecidableEq, Repr

variable {ω : Type}

def defaulting : Service DefaultRequest Write (fun _ => Bool) Answer (Tables ω) Bool
    Marking where
  handle := DefaultRequest.handle
  exec failed w t := if failed then (false, t) else (true, t.write w)
  fresh := {}
  record w t r note :=
    { cleared := if w = .clearDefaultPlaylists then some r.1 else note.cleared
      changed := note.changed || decide (r.2.defaults ≠ t.defaults) }

abbrev MarkJob := Job DefaultRequest Write (fun _ => Bool) Answer Marking

abbrev Marks (ω : Type) :=
  Service.State DefaultRequest Write (fun _ => Bool) Answer (Tables ω) Marking

/-- Between its two statements, the first of which has succeeded. -/
def Clearing (j : MarkJob) : Prop := j.note.cleared = some true ∧ j.answer? = none

instance (j : MarkJob) : Decidable (Clearing j) :=
  inferInstanceAs (Decidable (_ ∧ _))

/--
No request clears while another one is between its statements; a request that
has cleared sets the mark of a playlist, and one that could not clear sets none.
-/
def Sound (s : Marks ω) (j : MarkJob) (failed : Bool) : Write → Prop
  | .clearDefaultPlaylists => failed = false → ∀ k ∈ s.jobs, ¬ Clearing k
  | .createPlaylist _ isDefault _ =>
      isDefault = 1 → (failed = false ↔ j.note.cleared = some true)
  | .setDefaultPlaylist id =>
      if j.note.cleared = some true then
        failed = false ∧ ∃ pl ∈ s.object.playlists, pl.id = id
      else failed = false → ∀ pl ∈ s.object.playlists, pl.id = id → pl.isDefault = 1
  | _ => True

instance (s : Marks ω) (j : MarkJob) (failed : Bool) : ∀ w, Decidable (Sound s j failed w)
  | .clearDefaultPlaylists => inferInstanceAs (Decidable (_ → _))
  | .createPlaylist _ _ _ => inferInstanceAs (Decidable (_ → _))
  | .setDefaultPlaylist _ => by unfold Sound; infer_instance
  | .setDevicePlaylist _ _ | .setDevicePip _ _ _ | .updatePlaylist _ _ _
  | .deletePlaylist _ | .addPlaylistItem _ _ _ _ | .deletePlaylistItem _
  | .updatePlaylistItemPosition _ _ | .updatePlaylistItemDwell _ _ => .isTrue trivial

/-- What the requests owe: one default when none is in progress, and no change
by a request that is answered with an error. -/
structure OneDefault (s : Marks ω) : Prop where
  one : Service.Idle s → s.object.defaults.length = 1
  unchanged : ∀ j ∈ s.jobs, ∀ err, j.answer? = some (.error err) → j.note.changed = false

inductive MarkStage (j : MarkJob) : Prop where
  | starting (h : j.rest = j.request.handle) (hnote : j.note = {})
  | marking (w : Write) (err : String) (ok : Bool) (hrest : j.rest = concluding w err)
      (hw : (∃ name interval, w = .createPlaylist name 1 interval) ∨
        ∃ id, w = .setDefaultPlaylist id)
      (hcleared : j.note.cleared = some ok) (hchanged : ok = false → j.note.changed = false)
  | answered (a : Answer) (h : j.rest = .ret a)
      (hchanged : ∀ err, a = .error err → j.note.changed = false)

abbrev Single (jobs : List MarkJob) (defaults : List Int) : Prop :=
  Service.Exclusive Clearing jobs (defaults.length = 1) fun _ => defaults = []

structure Marked (s : Marks ω) : Prop where
  keyed : s.object.Keyed
  staged : ∀ j ∈ s.jobs, MarkStage j
  single : Single s.jobs s.object.defaults

/-! ## Runs -/

theorem handle_cases (r : DefaultRequest) :
    (∃ err, r.handle = .ret (.error err)) ∨
      (∃ name interval,
        r.handle = concluding (.createPlaylist name 0 interval) "create failed") ∨
      ∃ w err, r.handle = .call .clearDefaultPlaylists (fun _ => concluding w err) ∧
        ((∃ name interval, w = .createPlaylist name 1 interval) ∨
          ∃ id, w = .setDefaultPlaylist id) := by
  cases r with
  | create name isDefault interval =>
      rw [DefaultRequest.handle, handlePlaylistCreate]
      by_cases hname : name = ""
      · rw [if_pos hname]
        exact .inl ⟨_, rfl⟩
      · rw [if_neg hname]
        by_cases hdefault : isDefault = "1"
        · rw [if_pos hdefault]
          exact .inr (.inr ⟨_, _, rfl, .inl ⟨_, _, rfl⟩⟩)
        · rw [if_neg hdefault]
          exact .inr (.inl ⟨_, _, rfl⟩)
  | setDefault id =>
      rw [DefaultRequest.handle, handlePlaylistSetDefault]
      cases atoi id with
      | none => exact .inl ⟨_, rfl⟩
      | some id' => exact .inr (.inr ⟨_, _, rfl, .inr ⟨_, rfl⟩⟩)

theorem not_clearing_of_answer {j : MarkJob} {a : Answer} (h : j.rest = .ret a) : ¬ Clearing j := by
  simp [Clearing, Job.answer?, h]

variable {s : Marks ω}

theorem Marked.start (hs : Marked s) (r : DefaultRequest) :
    Marked { s with jobs := s.jobs ++ [(defaulting (ω := ω)).started r] } where
  keyed := hs.keyed
  staged := forall_started hs.staged (.starting rfl rfl)
  single := hs.single.start (by simp [Clearing, Service.started, defaulting])

theorem Marked.fail (hs : Marked s) {i : Nat} {j : MarkJob} {w : Write} {err : String}
    (hj : s.jobs[i]? = some j) (hopen : ¬ Clearing j)
    (hchanged : j.note.changed = false) :
    Marked {
      object := (defaulting.exec true w s.object).2
      jobs := s.jobs.set i (defaulting.resumed true s.object j w fun ok =>
        .ret (if ok then .ok 200 else .error (err, 500))) } where
  keyed := hs.keyed
  staged := by
    apply forall_resumed hs.staged i
    apply MarkStage.answered (.error (err, 500)) rfl
    intro _ _
    simp [Service.resumed, defaulting, hchanged]
  single := hs.single.pass hj hopen (not_clearing_of_answer rfl) (fun h => h) fun _ _ h => h

theorem Marked.conclude (hs : Marked s) {i : Nat} {j : MarkJob} {w : Write} {err : String}
    (hkeyed : (s.object.write w).Keyed)
    (hsingle : ∀ j' : MarkJob, ¬ Clearing j' →
      Single (s.jobs.set i j') (s.object.write w).defaults) :
    Marked {
      object := (defaulting.exec false w s.object).2
      jobs := s.jobs.set i (defaulting.resumed false s.object j w fun ok =>
        .ret (if ok then .ok 200 else .error (err, 500))) } where
  keyed := hkeyed
  staged := by
    apply forall_resumed hs.staged i
    apply MarkStage.answered (.ok 200) rfl
    intro _ hok
    cases hok
  single := hsingle _ (not_clearing_of_answer (a := .ok 200) rfl)

theorem Marked.clear (hs : Marked s) {i : Nat} {failed : Bool} {j : MarkJob} {w : Write}
    {err : String} (hj : s.jobs[i]? = some j) (hnote : j.note = {})
    (hw : (∃ name interval, w = .createPlaylist name 1 interval) ∨
      ∃ id, w = .setDefaultPlaylist id)
    (hsound : failed = false → ∀ k ∈ s.jobs, ¬ Clearing k) :
    Marked {
      object := (defaulting.exec failed .clearDefaultPlaylists s.object).2
      jobs := s.jobs.set i (defaulting.resumed failed s.object j .clearDefaultPlaylists
        fun _ => concluding w err) } := by
  have hold : ¬ Clearing j := by simp [Clearing, hnote]
  cases failed with
  | true =>
      refine ⟨hs.keyed, ?_, ?_⟩
      · apply forall_resumed hs.staged i
        apply MarkStage.marking w err false rfl hw
        · simp [Service.resumed, defaulting]
        · simp [Service.resumed, defaulting, hnote]
      · refine hs.single.pass hj hold ?_ (fun h => h) fun _ _ h => h
        simp [Clearing, Service.resumed, defaulting]
  | false =>
      refine ⟨hs.keyed.clear, ?_, ?_⟩
      · apply forall_resumed hs.staged i
        apply MarkStage.marking w err true rfl hw
        · simp [Service.resumed, defaulting]
        · simp
      · simp only [defaulting, Bool.false_eq_true, if_false, Tables.defaults_clear]
        refine Service.Exclusive.enter (hsound rfl) hj ?_ rfl
        simp [Clearing, Service.resumed, concluding, Job.answer?]

theorem Marked.first (hs : Marked s) {i : Nat} {failed : Bool} {j : MarkJob} {o : Write}
    {next : Bool → Statements} (hsound : Sound s j failed o) (hj : s.jobs[i]? = some j)
    (hnote : j.note = {}) (h : .call o next = j.request.handle) :
    Marked {
      object := (defaulting.exec failed o s.object).2
      jobs := s.jobs.set i (defaulting.resumed failed s.object j o next) } := by
  have hold : ¬ Clearing j := by simp [Clearing, hnote]
  rcases handle_cases j.request with ⟨err, hr⟩ | ⟨name, interval, hr⟩ | ⟨w, err, hr, hw⟩
  · rw [hr] at h
    cases h
  · rw [hr] at h
    cases h
    cases failed with
    | true => exact hs.fail hj hold (by rw [hnote])
    | false =>
        apply hs.conclude (hs.keyed.create _ _ _)
        intro j' hj'
        rw [Tables.defaults_create, if_neg (by decide), List.append_nil]
        exact hs.single.pass hj hold hj' (fun h => h) fun _ _ h => h
  · rw [hr] at h
    cases h
    exact hs.clear hj hnote hw hsound

theorem Marked.mark (hs : Marked s) {i : Nat} {failed : Bool} {j : MarkJob} {w : Write}
    {err : String} (hsound : Sound s j failed w) (hj : s.jobs[i]? = some j)
    (hw : (∃ name interval, w = .createPlaylist name 1 interval) ∨
      ∃ id, w = .setDefaultPlaylist id)
    (hold : Clearing j) :
    Marked {
      object := (defaulting.exec failed w s.object).2
      jobs := s.jobs.set i (defaulting.resumed failed s.object j w fun ok =>
        .ret (if ok then .ok 200 else .error (err, 500))) } := by
  have hcleared : j.note.cleared = some true := hold.1
  obtain ⟨hids, -⟩ := hs.single.of_critical hj hold
  rcases hw with ⟨name, interval, rfl⟩ | ⟨id, rfl⟩
  · have hok : failed = false := (hsound rfl).mpr hcleared
    subst hok
    apply hs.conclude (hs.keyed.create _ _ _)
    intro j' hj'
    rw [Tables.defaults_create, if_pos rfl, hids, List.nil_append]
    exact hs.single.leave hj hold hj' rfl
  · rw [Sound, if_pos hcleared] at hsound
    obtain ⟨hok, hexists⟩ := hsound
    subst hok
    apply hs.conclude (hs.keyed.setDefault id)
    intro j' hj'
    rw [Tables.defaults_setDefault hs.keyed hids hexists]
    exact hs.single.leave hj hold hj' rfl

theorem Marked.remark (hs : Marked s) {i : Nat} {failed : Bool} {j : MarkJob} {w : Write}
    {err : String} (hsound : Sound s j failed w) (hj : s.jobs[i]? = some j)
    (hw : (∃ name interval, w = .createPlaylist name 1 interval) ∨
      ∃ id, w = .setDefaultPlaylist id)
    (hcleared : j.note.cleared = some false) (hchanged : j.note.changed = false) :
    Marked {
      object := (defaulting.exec failed w s.object).2
      jobs := s.jobs.set i (defaulting.resumed failed s.object j w fun ok =>
        .ret (if ok then .ok 200 else .error (err, 500))) } := by
  have hold : ¬ Clearing j := by simp [Clearing, hcleared]
  have hnot : ¬ j.note.cleared = some true := by simp [hcleared]
  cases failed with
  | true => exact hs.fail hj hold hchanged
  | false =>
      rcases hw with ⟨name, interval, rfl⟩ | ⟨id, rfl⟩
      · exact absurd ((hsound rfl).mp rfl) hnot
      · rw [Sound, if_neg hnot] at hsound
        apply hs.conclude (hs.keyed.setDefault id)
        intro j' hj'
        rw [Tables.defaults_setDefault_of_default (hsound rfl)]
        exact hs.single.pass hj hold hj' (fun h => h) fun _ _ h => h

theorem Marked.resume (hs : Marked s) {i : Nat} {failed : Bool} {j : MarkJob} {o : Write}
    {next : Bool → Statements} (hsound : Sound s j failed o) (hj : s.jobs[i]? = some j)
    (hrest : j.rest = .call o next) :
    Marked {
      object := (defaulting.exec failed o s.object).2
      jobs := s.jobs.set i (defaulting.resumed failed s.object j o next) } := by
  cases hs.staged j (List.mem_of_getElem? hj) with
  | starting h hnote => exact hs.first hsound hj hnote (hrest.symm.trans h)
  | marking w err ok h hw hcleared hchanged =>
      have hopen : j.answer? = none := by rw [Job.answer?, hrest]
      rw [hrest] at h
      cases h
      cases ok with
      | true => exact hs.mark hsound hj hw ⟨hcleared, hopen⟩
      | false => exact hs.remark hsound hj hw hcleared (hchanged rfl)
  | answered a h _ =>
      rw [hrest] at h
      cases h

theorem Marked.oneDefault (hs : Marked s) : OneDefault s where
  one := by
    intro hidle
    apply hs.single.of_none
    intro k hk hopen
    have hdone := hidle k hk
    rw [hopen.2] at hdone
    cases hdone
  unchanged := by
    intro j hj err herr
    rcases hs.staged j hj with ⟨h, hnote⟩ | ⟨w, err', ok, h, -, -, -⟩ | ⟨a, h, hchanged⟩
    · rw [hnote]
    · simp [Job.answer?, h, concluding] at herr
    · rw [Job.answer?, h] at herr
      exact hchanged err (Option.some.inj herr)

theorem one_default {tables : Tables ω} {t : Marks ω}
    {acts : List (Service.Act DefaultRequest Bool)} (hkeyed : tables.Keyed)
    (hone : tables.defaults.length = 1)
    (hsound : defaulting.acts.Along (Service.Guard Sound) ⟨tables, []⟩ acts)
    (hrun : defaulting.acts.run ⟨tables, []⟩ acts = some t) : OneDefault t := by
  have hstart : Marked (ω := ω) ⟨tables, []⟩ := ⟨hkeyed, by simp, .inl ⟨by simp, hone⟩⟩
  have hend : Marked t := by
    apply Service.run_invariant _ _ hstart hsound hrun
    · intro s r hs
      exact hs.start r
    · intro s i failed j o next hs hsound hj hrest
      exact hs.resume hsound hj hrest
  exact hend.oneDefault

private def house : Tables Nat where
  devices := []
  playlists := [⟨1, "Home", 1, 30⟩, ⟨2, "Guests", 0, 30⟩]
  playlistItems := []
  playlistSeq := 2
  itemSeq := 0
  screen := ⟨fun _ => none, fun _ => none, fun _ => none⟩

/-- The second request starts when the first has ended; the third fails. -/
theorem one_default_house : ∃ t, defaulting.acts.run ⟨house, []⟩
      [.start (.setDefault "2"), .resume 0 false, .resume 0 false,
        .start (.create "Night" "1" "60"), .resume 1 false, .resume 1 false,
        .start (.create "Night" "" ""), .resume 2 true] = some t ∧
    OneDefault t ∧ t.object.defaults = [3] := by
  obtain ⟨t, hrun, hids⟩ : ∃ t, defaulting.acts.run ⟨house, []⟩
      [.start (.setDefault "2"), .resume 0 false, .resume 0 false,
        .start (.create "Night" "1" "60"), .resume 1 false, .resume 1 false,
        .start (.create "Night" "" ""), .resume 2 true] = some t ∧
      t.object.defaults = [3] := ⟨_, rfl, by decide⟩
  refine ⟨t, hrun, one_default ⟨by decide, by decide⟩ (by decide) ?_ hrun, hids⟩
  decide

theorem no_default_left :
    ∃ t, defaulting.acts.run ⟨house, []⟩
        [.start (.setDefault "9"), .resume 0 false, .resume 0 false] = some t ∧
      house.Keyed ∧ house.defaults.length = 1 ∧ Service.Idle t ∧ ¬ OneDefault t := by
  refine ⟨_, rfl, ⟨by decide, by decide⟩, by decide, by decide, ?_⟩
  intro h
  exact absurd (h.one (by decide)) (by decide)

end FamilyPlanner.Server

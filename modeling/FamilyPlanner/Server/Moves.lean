import FamilyPlanner.Server.Order

/-!
# Moves in a playlist

Additions, deletions and moves whose calls of the store interleave and fail.
The positions stay distinct if every statement that places an item comes after
a read that no other one has followed; each move alone then exchanges two
neighbours.
-/

namespace FamilyPlanner.Server

open FamilyPlanner.Foundation FamilyPlanner.Widget

variable {ω : Type} {t : Tables ω} {playlistID : Int} {a b : PlaylistItem}

/-! ## Requests in progress -/

abbrev ItemJob := Job ItemRequest ItemCall ItemCall.Res Answer Placing

abbrev Ordering (ω : Type) :=
  Service.State ItemRequest ItemCall ItemCall.Res Answer (Placed ω) Placing

def Half (j : ItemJob) : Prop := j.note.first = some true ∧ j.answer? = none

instance (j : ItemJob) : Decidable (Half j) := inferInstanceAs (Decidable (_ ∧ _))

/--
A statement that places an item comes after a read of the positions that no
other one has followed, not between the two statements of a move, and the two
statements of a move succeed or fail together.
-/
def InOrder (s : Ordering ω) (j : ItemJob) (failed : Bool) : ItemCall → Prop
  | .write (.addPlaylistItem q viewID position dwell) =>
      failed = false ∧ s.object.tables.accepts (.addPlaylistItem q viewID position dwell) = true →
        (∀ k ∈ s.jobs, ¬ Half k) ∧ j.note.seen = s.object.edits ∧
          ∃ m ∈ j.note.max, int64 (m + 1) = m + 1
  | .write (.updatePlaylistItemPosition _ _) =>
      match j.note.first with
      | none => failed = false → (∀ k ∈ s.jobs, ¬ Half k) ∧ j.note.seen = s.object.edits
      | some ok => failed = false ↔ ok = true
  | _ => True

instance (s : Ordering ω) (j : ItemJob) (failed : Bool) :
    ∀ o, Decidable (InOrder s j failed o)
  | .write (.addPlaylistItem _ _ _ _) => inferInstanceAs (Decidable (_ → _))
  | .write (.updatePlaylistItemPosition _ _) =>
      match h : j.note.first with
      | none => decidable_of_iff
          (failed = false → (∀ k ∈ s.jobs, ¬ Half k) ∧ j.note.seen = s.object.edits)
          (by simp [InOrder, h])
      | some ok => decidable_of_iff (failed = false ↔ ok = true) (by simp [InOrder, h])
  | .write (.setDevicePlaylist _ _) | .write (.setDevicePip _ _ _)
  | .write (.createPlaylist _ _ _) | .write (.updatePlaylist _ _ _)
  | .write (.deletePlaylist _) | .write .clearDefaultPlaylists
  | .write (.setDefaultPlaylist _) | .write (.deletePlaylistItem _)
  | .write (.updatePlaylistItemDwell _ _) | .maxPlaylistPosition _
  | .getPlaylistItem _ | .listPlaylistItems _ => .isTrue trivial

structure Pair (playlistID : Int) (x : Placed ω) (calm : Prop) (seen : Nat)
    (a b : PlaylistItem) : Prop where
  same : a.playlistID = b.playlistID
  ne : a.id ≠ b.id
  left : x.tables.Belongs a
  right : x.tables.Belongs b
  fresh : seen = x.edits → calm → a.playlistID = playlistID →
    x.tables.Exchangeable playlistID a b

/-- How far a request has come; `calm` says that no move is half done. -/
inductive ItemStage (playlistID : Int) (x : Placed ω) (calm : Prop) (j : ItemJob) : Prop where
  | starting (hrest : j.rest = j.request.handle) (hfirst : j.note.first = none)
  | deleting (id : Int)
      (hrest : j.rest = .call (.write (.deletePlaylistItem id)) fun _ => .ret (.ok 200))
      (hfirst : j.note.first = none)
  | adding (q viewID dwell : Int) (hrest : j.rest = addItem q viewID dwell j.note.max)
      (hfirst : j.note.first = none) (hseen : j.note.seen ≤ x.edits)
      (hmax : ∀ m ∈ j.note.max, j.note.seen = x.edits →
        ∀ it ∈ x.tables.playlistItems, it.playlistID = q → it.position ≤ m)
  | listing (q itemID : Int) (dir : String)
      (hrest : j.rest = .call (.listPlaylistItems q)
        fun (items : Option (List PlaylistItem)) => exchange (moved (items.getD []) itemID dir))
      (hfirst : j.note.first = none)
  | moving (a b : PlaylistItem) (hrest : j.rest = exchange (some (a, b)))
      (hfirst : j.note.first = none) (hseen : j.note.seen ≤ x.edits)
      (hpair : Pair playlistID x calm j.note.seen a b)
  | half (a b : PlaylistItem) (ok : Bool) (hrest : j.rest = finishExchange a b)
      (hfirst : j.note.first = some ok)
  | answered (a : Answer) (h : j.rest = .ret a)

def Completes (playlistID : Int) (t : Tables ω) (j : ItemJob) : Prop :=
  ∃ a b, j.rest = finishExchange a b ∧
    (t.write (.updatePlaylistItemPosition a.position b.id)).Apart playlistID

abbrev Calm (jobs : List ItemJob) : Prop := ∀ k ∈ jobs, ¬ Half k

structure Kept (playlistID : Int) (s : Ordering ω) : Prop where
  keyed : s.object.tables.ItemsKeyed
  staged : ∀ j ∈ s.jobs, ItemStage playlistID s.object (Calm s.jobs) j
  apart : Service.Exclusive Half s.jobs (s.object.tables.Apart playlistID)
    (Completes playlistID s.object.tables)

structure Advances (x x' : Placed ω) (calm calm' : Prop) : Prop where
  le : x.edits ≤ x'.edits
  sub : x'.edits = x.edits → x'.tables.playlistItems ⊆ x.tables.playlistItems ∧
    (calm' → calm)
  belongs : ∀ a, x.tables.Belongs a → x'.tables.Belongs a

variable {x x' : Placed ω} {calm calm' : Prop} {j j' : ItemJob}

theorem Pair.advance {seen : Nat} (h : Pair playlistID x calm seen a b)
    (hx : Advances x x' calm calm') (hseen : seen ≤ x.edits) :
    Pair playlistID x' calm' seen a b where
  same := h.same
  ne := h.ne
  left := hx.belongs a h.left
  right := hx.belongs b h.right
  fresh := by
    intro hsync hcalm hp
    have hle := hx.le
    have hedits : x'.edits = x.edits := by omega
    obtain ⟨hsub, hback⟩ := hx.sub hedits
    exact (h.fresh (by omega) (hback hcalm) hp).mono hsub

theorem ItemStage.advance (h : ItemStage playlistID x calm j)
    (hx : Advances x x' calm calm') : ItemStage playlistID x' calm' j := by
  have hle := hx.le
  cases h with
  | starting hrest hfirst => exact .starting hrest hfirst
  | deleting id hrest hfirst => exact .deleting id hrest hfirst
  | adding q viewID dwell hrest hfirst hseen hmax =>
      refine .adding q viewID dwell hrest hfirst (by omega) ?_
      intro m hm hsync it hit
      have hedits : x'.edits = x.edits := by omega
      exact hmax m hm (by omega) it ((hx.sub hedits).1 hit)
  | listing q itemID dir hrest hfirst => exact .listing q itemID dir hrest hfirst
  | moving a b hrest hfirst hseen hpair =>
      exact .moving a b hrest hfirst (by omega) (hpair.advance hx hseen)
  | half a b ok hrest hfirst => exact .half a b ok hrest hfirst
  | answered a h => exact .answered a h

/-! ## Steps -/

variable {s : Ordering ω} {i : Nat}

theorem not_half_of_first (h : j.note.first = none) : ¬ Half j := by
  simp [Half, h]

theorem not_half_of_answer {a : Answer} (h : j.rest = .ret a) : ¬ Half j := by
  simp [Half, Job.answer?, h]

theorem Kept.pass (hs : Kept playlistID s) (hj : s.jobs[i]? = some j) (hold : ¬ Half j)
    (hnew : ¬ Half j') (hkeyed : x'.tables.ItemsKeyed) (hedits : x'.edits = s.object.edits)
    (hsub : x'.tables.playlistItems ⊆ s.object.tables.playlistItems)
    (hbelongs : ∀ a, s.object.tables.Belongs a → x'.tables.Belongs a)
    (hbusy : ∀ k, Completes playlistID s.object.tables k → Completes playlistID x'.tables k)
    (hstage : ItemStage playlistID x' (Calm (s.jobs.set i j')) j') :
    Kept playlistID ⟨x', s.jobs.set i j'⟩ where
  keyed := hkeyed
  staged := by
    apply forall_resumed _ i hstage
    intro k hk
    apply (hs.staged k hk).advance
    exact ⟨by omega, fun _ => ⟨hsub, Service.forall_not_of_set hj hold⟩, hbelongs⟩
  apart := hs.apart.pass hj hold hnew (fun h => h.mono hsub) fun k _ => hbusy k

theorem Kept.same (hs : Kept playlistID s) (hj : s.jobs[i]? = some j) (hold : ¬ Half j)
    (hnew : ¬ Half j') (hstage : ItemStage playlistID s.object (Calm (s.jobs.set i j')) j') :
    Kept playlistID ⟨s.object, s.jobs.set i j'⟩ :=
  hs.pass hj hold hnew hs.keyed rfl (List.Subset.refl _) (fun _ h => h) (fun _ h => h) hstage

theorem Kept.answer (hs : Kept playlistID s) (hj : s.jobs[i]? = some j) (hold : ¬ Half j)
    {a : Answer} (h : j'.rest = .ret a) : Kept playlistID ⟨s.object, s.jobs.set i j'⟩ :=
  hs.same hj hold (not_half_of_answer h) (.answered a h)

theorem Kept.start (hs : Kept playlistID s) (r : ItemRequest) :
    Kept playlistID { s with jobs := s.jobs ++ [(ordering (ω := ω)).started r] } where
  keyed := hs.keyed
  staged := by
    refine forall_started (P := ItemStage playlistID _ _) ?_ (.starting rfl rfl)
    intro k hk
    apply (hs.staged k hk).advance
    refine ⟨le_rfl, fun _ => ⟨List.Subset.refl _, ?_⟩, fun _ h => h⟩
    intro hcalm k hk
    exact hcalm k (List.mem_append_left _ hk)
  apart := hs.apart.start (not_half_of_first rfl)

theorem Completes.delete {t : Tables ω} (h : Completes playlistID t j) (id : Int) :
    Completes playlistID (t.write (.deletePlaylistItem id)) j := by
  obtain ⟨a, b, hrest, hapart⟩ := h
  refine ⟨a, b, hrest, hapart.mono ?_⟩
  rw [Tables.items_update, Tables.items_update]
  exact List.map_subset _ (Tables.items_delete_subset t id)

theorem Kept.delete (hs : Kept playlistID s) (hj : s.jobs[i]? = some j) (hold : ¬ Half j)
    {a : Answer} (h : j'.rest = .ret a) (id : Int) :
    Kept playlistID ⟨⟨s.object.tables.write (.deletePlaylistItem id), s.object.edits⟩,
      s.jobs.set i j'⟩ :=
  hs.pass hj hold (not_half_of_answer h) (hs.keyed.delete id) rfl
    (Tables.items_delete_subset _ id) (fun _ ha => ha.delete id)
    (fun _ hk => hk.delete id) (.answered a h)

/-- A step that places an item makes every earlier read stale. -/
theorem advances_of_edit {t' : Tables ω} {calm calm' : Prop}
    (hbelongs : ∀ a, x.tables.Belongs a → t'.Belongs a) :
    Advances x ⟨t', x.edits + 1⟩ calm calm' :=
  ⟨by simp, fun h => by simp at h, hbelongs⟩

theorem Kept.add (hs : Kept playlistID s) {q viewID position dwell : Int} {a : Answer}
    (h : j'.rest = .ret a) (hcalm : Calm s.jobs)
    (hok : s.object.tables.accepts (.addPlaylistItem q viewID position dwell) = true)
    (hbehind : ∀ it ∈ s.object.tables.playlistItems,
      it.playlistID = q → it.position < position) :
    Kept playlistID ⟨⟨s.object.tables.write (.addPlaylistItem q viewID position dwell),
      s.object.edits + 1⟩, s.jobs.set i j'⟩ where
  keyed := hs.keyed.add hok
  staged := by
    refine forall_resumed (P := ItemStage playlistID _ _) ?_ i (.answered a h)
    intro k hk
    exact (hs.staged k hk).advance (advances_of_edit fun _ ha => ha.add hok)
  apart := by
    refine .inl ⟨forall_resumed hcalm i (not_half_of_answer h), ?_⟩
    apply (hs.apart.of_none hcalm).add hok
    rintro rfl it hit hip
    exact hbehind it hit hip

theorem Kept.enter (hs : Kept playlistID s) (hj : s.jobs[i]? = some j) {a b : PlaylistItem}
    (hpair : Pair playlistID s.object (Calm s.jobs) j.note.seen a b)
    (hcalm : Calm s.jobs) (hsync : j.note.seen = s.object.edits)
    (hrest : j'.rest = finishExchange a b) (hfirst : j'.note.first = some true) :
    Kept playlistID ⟨⟨s.object.tables.write (.updatePlaylistItemPosition b.position a.id),
      s.object.edits + 1⟩, s.jobs.set i j'⟩ where
  keyed := hs.keyed.update _ _
  staged := by
    refine forall_resumed (P := ItemStage playlistID _ _) ?_ i (.half a b true hrest hfirst)
    intro k hk
    exact (hs.staged k hk).advance (advances_of_edit fun _ ha => ha.update _ _)
  apart := by
    apply Service.Exclusive.enter hcalm hj ⟨hfirst, by rw [Job.answer?, hrest]; rfl⟩
    refine ⟨a, b, hrest, ?_⟩
    have hapart := hs.apart.of_none hcalm
    by_cases hp : a.playlistID = playlistID
    · exact hapart.exchange hpair.ne (hpair.fresh hsync hcalm hp)
    · have hp' : b.playlistID ≠ playlistID := by
        rw [← hpair.same]
        exact hp
      exact (hapart.update_other hpair.left hp _).update_other (hpair.right.update _ _) hp' _

theorem Kept.leave (hs : Kept playlistID s) (hj : s.jobs[i]? = some j) {a b : PlaylistItem}
    {answer : Answer} (hold : Half j) (hrest : j.rest = finishExchange a b)
    (h : j'.rest = .ret answer) :
    Kept playlistID ⟨⟨s.object.tables.write (.updatePlaylistItemPosition a.position b.id),
      s.object.edits + 1⟩, s.jobs.set i j'⟩ where
  keyed := hs.keyed.update _ _
  staged := by
    refine forall_resumed (P := ItemStage playlistID _ _) ?_ i (.answered answer h)
    intro k hk
    exact (hs.staged k hk).advance (advances_of_edit fun _ ha => ha.update _ _)
  apart := by
    apply hs.apart.leave hj hold (not_half_of_answer h)
    obtain ⟨⟨a', b', hrest', hapart⟩, -⟩ := hs.apart.of_critical hj hold
    rw [hrest] at hrest'
    simp only [finishExchange, Prog.call.injEq, ItemCall.write.injEq,
      Write.updatePlaylistItemPosition.injEq] at hrest'
    obtain ⟨⟨hpos, hid⟩, -⟩ := hrest'
    rwa [hpos, hid]

theorem ItemRequest.handle_cases (r : ItemRequest) :
    (∃ a, r.handle = .ret a) ∨
      (∃ q viewID dwell,
        r.handle = .call (.maxPlaylistPosition q) (addItem q viewID dwell)) ∨
      (∃ id, r.handle = .call (.getPlaylistItem id) fun (item : Option PlaylistItem) =>
        match item with
        | none => .ret (.error ("not found", 404))
        | some _ => .call (.write (.deletePlaylistItem id)) fun _ => .ret (.ok 200)) ∨
      ∃ id dir, r.handle = .call (.getPlaylistItem id) fun (item : Option PlaylistItem) =>
        match item with
        | none => .ret (.error ("not found", 404))
        | some item =>
            .call (.listPlaylistItems item.playlistID)
              fun (items : Option (List PlaylistItem)) =>
                exchange (moved (items.getD []) id dir) := by
  cases r with
  | add id viewID dwell =>
      rw [handle, handlePlaylistAddItem]
      cases atoi id with
      | none => exact .inl ⟨_, rfl⟩
      | some id =>
          cases atoi viewID with
          | none => exact .inl ⟨_, rfl⟩
          | some viewID => exact .inr (.inl ⟨_, _, _, rfl⟩)
  | delete itemID =>
      rw [handle, handlePlaylistItemDelete]
      cases atoi itemID with
      | none => exact .inl ⟨_, rfl⟩
      | some id => exact .inr (.inr (.inl ⟨_, rfl⟩))
  | move itemID dir =>
      rw [handle, handlePlaylistItemMove]
      cases atoi itemID with
      | none => exact .inl ⟨_, rfl⟩
      | some id => exact .inr (.inr (.inr ⟨_, _, rfl⟩))

theorem le_maxPosition {t : Tables ω} {it : PlaylistItem} (hit : it ∈ t.playlistItems)
    (hp : it.playlistID = playlistID) : it.position ≤ t.maxPosition playlistID := by
  have hmem : it.position ∈ t.positions playlistID := by
    apply List.mem_map_of_mem
    simp [hit, hp]
  rw [Tables.maxPosition]
  cases hmax : (t.positions playlistID).max? with
  | none =>
      rw [List.max?_eq_none_iff.mp hmax] at hmem
      cases hmem
  | some m => exact (List.max?_eq_some_iff.mp hmax).2 _ hmem

theorem Kept.list (hs : Kept playlistID s) (hj : s.jobs[i]? = some j)
    (hfirst : j.note.first = none) (q itemID : Int) (dir : String)
    (items : Option (List PlaylistItem))
    (hitems : ∀ l ∈ items, l = s.object.tables.listPlaylistItems q) :
    Kept playlistID ⟨s.object, s.jobs.set i
      ⟨j.request, exchange (moved (items.getD []) itemID dir),
        { j.note with seen := s.object.edits }⟩⟩ := by
  have hold := not_half_of_first hfirst
  cases hpair : moved (items.getD []) itemID dir with
  | none => exact hs.answer hj hold rfl
  | some pair =>
      obtain ⟨a, b⟩ := pair
      have hlist : items.getD [] = s.object.tables.listPlaylistItems q := by
        cases items with
        | none => simp [moved] at hpair
        | some l => exact hitems l rfl
      rw [hlist] at hpair
      obtain ⟨ha, hb, hap, hbp, hab⟩ := moved_rows hs.keyed hpair
      refine hs.same hj hold (not_half_of_first hfirst)
        (.moving a b rfl hfirst (Nat.le_refl _) ?_)
      refine ⟨hap.trans hbp.symm, hab, belongs_of_mem hs.keyed ha,
        belongs_of_mem hs.keyed hb, ?_⟩
      intro _ hcalm hp
      have hapart := hs.apart.of_none (Service.forall_not_of_set hj hold hcalm)
      have hbp' : b.playlistID = playlistID := (hbp.trans hap.symm).trans hp
      exact exchangeable_of_mem hs.keyed hapart ha hb hp hbp' hab

theorem Kept.first (hs : Kept playlistID s) (hj : s.jobs[i]? = some j)
    (hfirst : j.note.first = none) {failed : Bool} {o : ItemCall}
    {next : ItemCall.Res o → ItemProg} (h : .call o next = j.request.handle) :
    Kept playlistID {
      object := (ordering.exec failed o s.object).2
      jobs := s.jobs.set i (ordering.resumed failed s.object j o next) } := by
  have hold := not_half_of_first hfirst
  rcases j.request.handle_cases with ⟨a, hr⟩ | ⟨q, viewID, dwell, hr⟩ | ⟨id, hr⟩ | ⟨id, dir, hr⟩
  · rw [hr] at h
    cases h
  · rw [hr] at h
    cases h
    refine hs.same hj hold (not_half_of_first hfirst) (.adding q viewID dwell rfl hfirst
      (Nat.le_refl _) ?_)
    intro m hm _ it hit hip
    cases failed with
    | true => cases hm
    | false =>
        cases hm
        exact le_maxPosition hit hip
  · rw [hr] at h
    cases h
    have hread (item : Option PlaylistItem) : Kept playlistID ⟨s.object, s.jobs.set i
        ⟨j.request, (match item with
          | none => .ret (.error ("not found", 404))
          | some _ => .call (.write (.deletePlaylistItem id)) fun _ => .ret (.ok 200)),
          j.note⟩⟩ := by
      cases item with
      | none => exact hs.answer hj hold rfl
      | some item =>
          exact hs.same hj hold (not_half_of_first hfirst) (.deleting id rfl hfirst)
    exact hread _
  · rw [hr] at h
    cases h
    have hread (item : Option PlaylistItem) : Kept playlistID ⟨s.object, s.jobs.set i
        ⟨j.request, (match item with
          | none => .ret (.error ("not found", 404))
          | some item =>
              .call (.listPlaylistItems item.playlistID)
                fun (items : Option (List PlaylistItem)) =>
                  exchange (moved (items.getD []) id dir)),
          j.note⟩⟩ := by
      cases item with
      | none => exact hs.answer hj hold rfl
      | some item =>
          exact hs.same hj hold (not_half_of_first hfirst)
            (.listing item.playlistID id dir rfl hfirst)
    exact hread _

theorem Kept.append (hs : Kept playlistID s) (hj : s.jobs[i]? = some j)
    (hfirst : j.note.first = none) {q viewID dwell : Int}
    (hmax : ∀ m ∈ j.note.max, j.note.seen = s.object.edits →
      ∀ it ∈ s.object.tables.playlistItems, it.playlistID = q → it.position ≤ m)
    {failed : Bool} {o : ItemCall} {next : ItemCall.Res o → ItemProg}
    (hin : InOrder s j failed o) (h : .call o next = addItem q viewID dwell j.note.max) :
    Kept playlistID {
      object := (ordering.exec failed o s.object).2
      jobs := s.jobs.set i (ordering.resumed failed s.object j o next) } := by
  have hold := not_half_of_first hfirst
  cases h
  by_cases hok : failed = false ∧ s.object.tables.accepts
      (.addPlaylistItem q viewID (int64 (j.note.max.getD 0 + 1)) dwell) = true
  · obtain ⟨rfl, haccepts⟩ := hok
    obtain ⟨hcalm, hsync, m, hm, hint⟩ := hin ⟨rfl, haccepts⟩
    have hpos : int64 (j.note.max.getD 0 + 1) = m + 1 := by
      rw [hm, Option.getD_some, hint]
    have hexec : (ordering (ω := ω)).exec false (.write (.addPlaylistItem q viewID
        (int64 (j.note.max.getD 0 + 1)) dwell)) s.object =
        (true, ⟨s.object.tables.write (.addPlaylistItem q viewID
          (int64 (j.note.max.getD 0 + 1)) dwell), s.object.edits + 1⟩) := by
      simp [ordering, ItemCall.exec, haccepts, Write.places]
    rw [Service.resumed, hexec]
    refine hs.add rfl hcalm haccepts ?_
    intro it hit hip
    have hle := hmax m hm hsync it hit hip
    omega
  · have hexec : (ordering (ω := ω)).exec failed (.write (.addPlaylistItem q viewID
        (int64 (j.note.max.getD 0 + 1)) dwell)) s.object = (false, s.object) := by
      have hno : failed = true ∨ s.object.tables.accepts (.addPlaylistItem q viewID
          (int64 (j.note.max.getD 0 + 1)) dwell) = false := by
        cases failed <;> simp_all
      exact if_pos hno
    rw [Service.resumed, hexec]
    exact hs.answer hj hold rfl

theorem Kept.finish (hs : Kept playlistID s) (hj : s.jobs[i]? = some j)
    {a b : PlaylistItem} {ok : Bool} (hrest : j.rest = finishExchange a b)
    (hfirst : j.note.first = some ok) {failed : Bool} {o : ItemCall}
    {next : ItemCall.Res o → ItemProg} (hin : InOrder s j failed o)
    (h : .call o next = finishExchange a b) :
    Kept playlistID {
      object := (ordering.exec failed o s.object).2
      jobs := s.jobs.set i (ordering.resumed failed s.object j o next) } := by
  cases h
  rw [InOrder, hfirst] at hin
  cases ok with
  | true =>
      have hok : failed = false := hin.mpr rfl
      subst hok
      exact hs.leave hj ⟨hfirst, by rw [Job.answer?, hrest]; rfl⟩ hrest rfl
  | false =>
      have hfail : failed = true := by
        cases failed with
        | true => rfl
        | false => exact absurd (hin.mp rfl) Bool.false_ne_true
      subst hfail
      have hold : ¬ Half j := by simp [Half, hfirst]
      exact hs.answer hj hold rfl

theorem Kept.resume (hs : Kept playlistID s) {failed : Bool} {o : ItemCall}
    {next : ItemCall.Res o → ItemProg} (hin : InOrder s j failed o)
    (hj : s.jobs[i]? = some j) (hrest : j.rest = .call o next) :
    Kept playlistID {
      object := (ordering.exec failed o s.object).2
      jobs := s.jobs.set i (ordering.resumed failed s.object j o next) } := by
  cases hs.staged j (List.mem_of_getElem? hj) with
  | starting h hfirst => exact hs.first hj hfirst (hrest.symm.trans h)
  | deleting id h hfirst =>
      have hold := not_half_of_first hfirst
      rw [hrest] at h
      cases h
      cases failed with
      | true => exact hs.answer hj hold rfl
      | false => exact hs.delete hj hold rfl id
  | adding q viewID dwell h hfirst hseen hmax =>
      exact hs.append hj hfirst hmax hin (hrest.symm.trans h)
  | listing q itemID dir h hfirst =>
      rw [hrest] at h
      cases h
      cases failed with
      | true => exact hs.list hj hfirst q itemID dir none (by simp)
      | false => exact hs.list hj hfirst q itemID dir (some _) (by simp)
  | moving a b h hfirst hseen hpair =>
      have hold := not_half_of_first hfirst
      rw [hrest] at h
      cases h
      have hnote (ok : Bool) : some (j.note.first.getD ok) = some ok := by
        rw [hfirst]
        rfl
      cases failed with
      | true =>
          refine hs.same hj hold ?_ (.half a b false rfl (hnote false))
          simp [Half, Service.resumed, ordering, ItemCall.exec, Placing.after, hfirst]
      | false =>
          rw [InOrder, hfirst] at hin
          obtain ⟨hcalm, hsync⟩ := hin rfl
          exact hs.enter hj hpair hcalm hsync rfl (hnote true)
  | half a b ok h hfirst => exact hs.finish hj h hfirst hin (hrest.symm.trans h)
  | answered a h =>
      rw [hrest] at h
      cases h

/-! ## A move alone -/

def Listed (a b : PlaylistItem) : Prop :=
  a.position < b.position ∨ a.position = b.position ∧ a.id ≤ b.id

instance : DecidableRel Listed := fun a b =>
  inferInstanceAs (Decidable (a.position < b.position ∨ a.position = b.position ∧ a.id ≤ b.id))

theorem pairwise_listPlaylistItems (t : Tables ω) (playlistID : Int) :
    (t.listPlaylistItems playlistID).Pairwise Listed := by
  have htotal : Std.Total Listed := ⟨fun a b => by unfold Listed; omega⟩
  have htrans : IsTrans PlaylistItem Listed := ⟨fun a b c => by unfold Listed; omega⟩
  exact List.pairwise_insertionSort Listed _

theorem positions_increase (ht : t.ItemsKeyed) (hapart : t.Apart playlistID) :
    (t.listPlaylistItems playlistID).Pairwise fun a b => a.position < b.position := by
  have hids := List.pairwise_map.mp (nodup_listPlaylistItems ht playlistID)
  apply ((pairwise_listPlaylistItems t playlistID).and hids).imp_of_mem
  intro a b ha hb hab
  have hne := hapart a (mem_listPlaylistItems.mp ha).1 b (mem_listPlaylistItems.mp hb).1
    (mem_listPlaylistItems.mp ha).2 (mem_listPlaylistItems.mp hb).2
  rcases hab.1 with hlt | ⟨heq, -⟩
  · exact hlt
  · exact absurd (hne heq) hab.2

theorem listPlaylistItems_eq {l : List PlaylistItem}
    (hperm : l.Perm (t.playlistItems.filter (·.playlistID = playlistID)))
    (hincrease : l.Pairwise fun a b => a.position < b.position) :
    t.listPlaylistItems playlistID = l := by
  have hsorted : l.Pairwise Listed := hincrease.imp fun h => .inl h
  have hsame : (t.listPlaylistItems playlistID).Perm l :=
    (List.perm_insertionSort _ _).trans hperm.symm
  apply hsame.eq_of_pairwise _ (pairwise_listPlaylistItems t playlistID) hsorted
  intro a b ha hb hab hba
  have hpos : a.position = b.position := by
    unfold Listed at hab hba
    omega
  have hpositions : (l.map PlaylistItem.position).Nodup :=
    List.pairwise_map.mpr (hincrease.imp fun h => ne_of_lt h)
  exact List.inj_on_of_nodup_map hpositions (hsame.mem_iff.mp ha) hb hpos

def swapped (a b : PlaylistItem) (it : PlaylistItem) : PlaylistItem :=
  Tables.place a.position b.id (Tables.place b.position a.id it)

def swap (t : Tables ω) (a b : PlaylistItem) : Tables ω :=
  (t.write (.updatePlaylistItemPosition b.position a.id)).write
    (.updatePlaylistItemPosition a.position b.id)

theorem filter_swap (t : Tables ω) (a b : PlaylistItem) :
    (swap t a b).playlistItems.filter (·.playlistID = playlistID) =
      (t.playlistItems.filter (·.playlistID = playlistID)).map (swapped a b) := by
  rw [swap, Tables.items_update, Tables.items_update, List.map_map, List.filter_map]
  congr 1
  apply List.filter_congr
  intro it _
  simp

theorem swapped_other {it : PlaylistItem} (ha : it.id ≠ a.id) (hb : it.id ≠ b.id) :
    swapped a b it = it := by
  simp [swapped, Tables.place, ha, hb]

theorem swapped_left (hab : a.id ≠ b.id) :
    swapped a b a = { a with position := b.position } := by
  simp [swapped, Tables.place, hab]

theorem swapped_right (hab : a.id ≠ b.id) :
    swapped a b b = { b with position := a.position } := by
  simp [swapped, Tables.place, hab.symm]

theorem map_swapped {pre post : List PlaylistItem} {x y : PlaylistItem}
    (hids : ((pre ++ x :: y :: post).map PlaylistItem.id).Nodup)
    (hab : a = x ∧ b = y ∨ a = y ∧ b = x) :
    (pre ++ x :: y :: post).map (swapped a b) =
      pre ++ { x with position := y.position } :: { y with position := x.position } :: post := by
  rw [List.map_append, List.map_cons, List.map_cons, List.nodup_middle, List.nodup_cons] at hids
  obtain ⟨hx, hids⟩ := hids
  have hy := (List.nodup_cons.mp (List.nodup_middle.mp hids)).1
  have hxy : x.id ≠ y.id := by
    intro h
    exact hx (by simp [h])
  have hother (it : PlaylistItem) (hit : it ∈ pre ++ post) : swapped a b it = it := by
    have hmem : it.id ∈ pre.map PlaylistItem.id ++ post.map PlaylistItem.id := by
      rw [← List.map_append]
      exact List.mem_map_of_mem hit
    have hiy : it.id ≠ y.id := fun h => hy (h ▸ hmem)
    have hix : it.id ≠ x.id := by
      intro h
      apply hx
      rw [h, List.mem_append] at hmem
      rw [List.mem_append, List.mem_cons]
      tauto
    rcases hab with ⟨rfl, rfl⟩ | ⟨rfl, rfl⟩
    · exact swapped_other hix hiy
    · exact swapped_other hiy hix
  have hpre : pre.map (swapped a b) = pre.map fun it => it :=
    List.map_congr_left fun it hit => hother it (List.mem_append_left _ hit)
  have hpost : post.map (swapped a b) = post.map fun it => it :=
    List.map_congr_left fun it hit => hother it (List.mem_append_right _ hit)
  rw [List.map_append, List.map_cons, List.map_cons, hpre, hpost, List.map_id', List.map_id']
  rcases hab with ⟨rfl, rfl⟩ | ⟨rfl, rfl⟩
  · rw [swapped_left hxy, swapped_right hxy]
  · rw [swapped_left hxy.symm, swapped_right hxy.symm]

theorem list_swap {pre post : List PlaylistItem} {x y : PlaylistItem} (ht : t.ItemsKeyed)
    (hapart : t.Apart playlistID)
    (hlist : t.listPlaylistItems playlistID = pre ++ x :: y :: post)
    (hab : a = x ∧ b = y ∨ a = y ∧ b = x) :
    (swap t a b).listPlaylistItems playlistID =
      pre ++ { y with position := x.position } :: { x with position := y.position } :: post := by
  have hids := nodup_listPlaylistItems ht playlistID
  have hincrease := positions_increase ht hapart
  have hrows := List.perm_insertionSort (fun a b : PlaylistItem =>
    a.position < b.position ∨ a.position = b.position ∧ a.id ≤ b.id)
    (t.playlistItems.filter (·.playlistID = playlistID))
  change (t.listPlaylistItems playlistID).Perm _ at hrows
  rw [hlist] at hids hincrease hrows
  apply listPlaylistItems_eq
  · rw [filter_swap]
    apply List.Perm.trans _ (hrows.map (swapped a b))
    rw [map_swapped hids hab]
    exact List.Perm.append_left pre (List.Perm.swap _ _ _)
  · rw [← List.pairwise_map (f := PlaylistItem.position) (R := (· < ·))] at hincrease ⊢
    simpa using hincrease

theorem findIdx?_item {pre post : List PlaylistItem} {x : PlaylistItem}
    (hids : ((pre ++ x :: post).map PlaylistItem.id).Nodup) :
    (pre ++ x :: post).findIdx? (·.id = x.id) = some pre.length := by
  rw [List.map_append, List.map_cons, List.nodup_middle, List.nodup_cons] at hids
  have hpre : pre.findIdx? (fun it => decide (it.id = x.id)) = none := by
    rw [List.findIdx?_eq_none_iff]
    intro it hit
    apply decide_eq_false
    intro h
    apply hids.1
    rw [← h]
    exact List.mem_append_left _ (List.mem_map_of_mem hit)
  simp [List.findIdx?_append, List.findIdx?_cons, hpre]

theorem moved_neighbours {pre post : List PlaylistItem} {x y : PlaylistItem}
    (hids : ((pre ++ x :: y :: post).map PlaylistItem.id).Nodup) :
    moved (pre ++ x :: y :: post) y.id "up" = some (y, x) ∧
      moved (pre ++ x :: y :: post) x.id "down" = some (x, y) := by
  have hx := findIdx?_item hids
  have hy : (pre ++ x :: y :: post).findIdx? (·.id = y.id) = some (pre.length + 1) := by
    rw [List.append_cons] at hids ⊢
    simpa using findIdx?_item hids
  constructor
  · simp [moved, hy]
  · simp [moved, hx]

/-- What a move alone answers and the order of the items after it. -/
def movedAlone (playlistID : Int) (x : Placed ω) (itemID dir : String) : Answer × List Int :=
  let r := (handlePlaylistItemMove itemID dir).alone (ItemCall.exec false) x
  (r.1, (r.2.tables.listPlaylistItems playlistID).map PlaylistItem.id)

theorem movedAlone_eq {x : Placed ω} (ht : x.tables.ItemsKeyed)
    (hapart : x.tables.Apart playlistID) {pre post : List PlaylistItem} {y z : PlaylistItem}
    (hlist : x.tables.listPlaylistItems playlistID = pre ++ y :: z :: post)
    (hab : a = y ∧ b = z ∨ a = z ∧ b = y) {itemID dir : String} (hid : atoi itemID = some a.id)
    (hmoved : moved (pre ++ y :: z :: post) a.id dir = some (a, b)) :
    movedAlone playlistID x itemID dir =
      (.ok 200, pre.map PlaylistItem.id ++ z.id :: y.id :: post.map PlaylistItem.id) := by
  have hmem : a ∈ x.tables.listPlaylistItems playlistID := by
    rw [hlist]
    rcases hab with ⟨rfl, -⟩ | ⟨rfl, -⟩ <;> simp
  obtain ⟨hrow, hp⟩ := mem_listPlaylistItems.mp hmem
  have hget : x.tables.getPlaylistItem a.id = some a := by
    obtain ⟨it, hit⟩ : ∃ it, x.tables.getPlaylistItem a.id = some it :=
      Option.isSome_iff_exists.mp (List.find?_isSome.mpr ⟨a, hrow, by simp⟩)
    have hid' : it.id = a.id := by simpa using List.find?_some hit
    rw [hit, eq_of_id ht (List.mem_of_find?_eq_some hit) hrow hid']
  have halone : (handlePlaylistItemMove itemID dir).alone (ItemCall.exec false) x =
      (.ok 200, ⟨swap x.tables a b, x.edits + 1 + 1⟩) := by
    simp [handlePlaylistItemMove, hid, ItemCall.exec, hget, hp, hlist, hmoved, exchange,
      finishExchange, Tables.accepts, Write.places, swap]
  rw [movedAlone, halone]
  simp only
  rw [list_swap ht hapart hlist hab]
  simp

/-! ## Runs -/

/-- Whenever no move is half done, the positions are distinct, and a move alone
exchanges the item with the neighbour on that side. -/
structure OrderKept (playlistID : Int) (s : Ordering ω) : Prop where
  apart : Calm s.jobs → s.object.tables.Apart playlistID
  up : Calm s.jobs → ∀ pre a b post, s.object.tables.listPlaylistItems playlistID =
    pre ++ a :: b :: post → ∀ itemID, atoi itemID = some b.id →
      movedAlone playlistID s.object itemID "up" =
        (.ok 200, pre.map (·.id) ++ b.id :: a.id :: post.map (·.id))
  down : Calm s.jobs → ∀ pre a b post, s.object.tables.listPlaylistItems playlistID =
    pre ++ a :: b :: post → ∀ itemID, atoi itemID = some a.id →
      movedAlone playlistID s.object itemID "down" =
        (.ok 200, pre.map (·.id) ++ b.id :: a.id :: post.map (·.id))

theorem Kept.orderKept (hs : Kept playlistID s) : OrderKept playlistID s where
  apart := hs.apart.of_none
  up := by
    intro hcalm pre a b post hlist itemID hid
    have hids := nodup_listPlaylistItems hs.keyed playlistID
    rw [hlist] at hids
    exact movedAlone_eq hs.keyed (hs.apart.of_none hcalm) hlist (.inr ⟨rfl, rfl⟩) hid
      (moved_neighbours hids).1
  down := by
    intro hcalm pre a b post hlist itemID hid
    have hids := nodup_listPlaylistItems hs.keyed playlistID
    rw [hlist] at hids
    exact movedAlone_eq hs.keyed (hs.apart.of_none hcalm) hlist (.inl ⟨rfl, rfl⟩) hid
      (moved_neighbours hids).2

theorem order_kept {x : Placed ω} {s : Ordering ω} {acts : List (Service.Act ItemRequest Bool)}
    (hkeyed : x.tables.ItemsKeyed) (hapart : x.tables.Apart playlistID)
    (hin : ordering.acts.Along (Service.Guard InOrder) ⟨x, []⟩ acts)
    (hrun : ordering.acts.run ⟨x, []⟩ acts = some s) : OrderKept playlistID s := by
  have hstart : Kept playlistID (ω := ω) ⟨x, []⟩ := ⟨hkeyed, by simp, .inl ⟨by simp, hapart⟩⟩
  have hend : Kept playlistID s := by
    apply Service.run_invariant _ _ hstart hin hrun
    · intro s r hs
      exact hs.start r
    · intro s i failed j o next hs hin hj hrest
      exact hs.resume hin hj hrest
  exact hend.orderKept

private def album : Placed Nat where
  tables := {
    devices := []
    playlists := [⟨1, "Home", 1, 30⟩]
    playlistItems := [⟨1, 1, 4, 0, 0⟩, ⟨2, 1, 5, 1, 0⟩]
    playlistSeq := 1
    itemSeq := 2
    screen := {
      getView := fun id => some ⟨id, .blank, "", ""⟩
      getWidget := fun _ => none
      listPlacementsByView := fun _ => none } }

/-- A move, while an addition waits, and the addition of a third item. -/
theorem order_kept_album : ∃ s, ordering.acts.run ⟨album, []⟩
      [.start (.add "1" "6" ""), .start (.move "2" "up"), .resume 1 false, .resume 1 false,
        .resume 1 false, .resume 1 false, .resume 0 false, .resume 0 false] = some s ∧
    OrderKept 1 s ∧ (s.object.tables.listPlaylistItems 1).map (·.id) = [2, 1, 3] := by
  obtain ⟨s, hrun, hids⟩ : ∃ s, ordering.acts.run ⟨album, []⟩
      [.start (.add "1" "6" ""), .start (.move "2" "up"), .resume 1 false, .resume 1 false,
        .resume 1 false, .resume 1 false, .resume 0 false, .resume 0 false] = some s ∧
      (s.object.tables.listPlaylistItems 1).map (·.id) = [2, 1, 3] := ⟨_, rfl, by decide⟩
  refine ⟨s, hrun, order_kept ⟨by decide, by decide⟩ ?_ ?_ hrun, hids⟩
  · unfold Tables.Apart
    decide
  · decide

/-- Two additions read the same maximum; the later of the two items then
cannot be moved before the other. -/
theorem positions_collide :
    ∃ s, ordering.acts.run ⟨album, []⟩
        [.start (.add "1" "6" ""), .start (.add "1" "7" ""), .resume 0 false, .resume 1 false,
          .resume 0 false, .resume 1 false] = some s ∧
      album.tables.ItemsKeyed ∧ album.tables.Apart 1 ∧ Service.Idle s ∧
      ¬ s.object.tables.Apart 1 ∧ ¬ OrderKept 1 s ∧
      movedAlone 1 s.object "4" "up" = (.ok 200, [1, 2, 3, 4]) := by
  refine ⟨_, rfl, ⟨by decide, by decide⟩, ?_, by decide, ?_, ?_, by decide⟩
  · unfold Tables.Apart
    decide
  · unfold Tables.Apart
    decide
  · intro h
    exact absurd (h.apart (by decide)) (by unfold Tables.Apart; decide)

end FamilyPlanner.Server

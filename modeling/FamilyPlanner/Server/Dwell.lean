import FamilyPlanner.Server.Order

/-!
# The interval of a playlist item

`deviceItems` and `pipItems` resolve the same rows for the main stage and for
the corner.  The first multiplies the interval into 64-bit nanoseconds before
it asks whether there is one, the second stays with seconds.
-/

namespace FamilyPlanner.Server

open FamilyPlanner.Foundation FamilyPlanner.Rotation FamilyPlanner.Widget

/-! ## The forms -/

def handlePlaylistItemDwell (itemID dwell : String) : ItemProg :=
  match atoi itemID with
  | none => .ret (.error ("bad id", 400))
  | some itemID =>
      .call (.getPlaylistItem itemID) fun (item : Option PlaylistItem) =>
        match item with
        | none => .ret (.error ("not found", 404))
        | some _ =>
            let dwell := parseIntDefault dwell 0
            let dwell := if dwell < 0 then 0 else dwell
            .call (.write (.updatePlaylistItemDwell dwell itemID)) fun _ => .ret (.ok 200)

def handlePlaylistUpdate (id name interval : String) : Statements :=
  match atoi id with
  | none => .ret (.error ("bad id", 400))
  | some id =>
      if name = "" then .ret (.error ("name required", 400))
      else
        .call (.updatePlaylist name (parseIntDefault interval 30) id) fun ok =>
          .ret (if ok then .ok 303 else .error ("update failed", 500))

/-- A number of seconds as the columns of intervals hold it. -/
def Storable (n : Int) : Prop := 0 ≤ n ∧ n < 2 ^ 63

instance (n : Int) : Decidable (Storable n) := inferInstanceAs (Decidable (_ ∧ _))

theorem storable_parseIntDefault (s : String) {fallback : Int} (h : Storable fallback) :
    Storable (parseIntDefault s fallback) := by
  unfold parseIntDefault
  cases hs : atoi s with
  | none => exact h
  | some v =>
      simp only
      split
      · exact ⟨by omega, (atoi_bounds hs).2⟩
      · exact h

def Write.interval? : Write → Option Int
  | .createPlaylist _ _ n | .updatePlaylist _ n _ => some n
  | .addPlaylistItem _ _ _ n | .updatePlaylistItemDwell n _ => some n
  | _ => none

def Write.Sound (w : Write) : Prop := ∀ n ∈ w.interval?, Storable n

def ItemCall.Sound : ItemCall → Prop
  | .write w => w.Sound
  | _ => True

theorem sound_concluding {w : Write} (hw : w.Sound) (err : String) :
    (concluding w err).Only Write.Sound fun _ _ => True :=
  ⟨hw, fun _ _ => trivial⟩

theorem sound_handlePlaylistCreate (name isDefault interval : String) :
    (handlePlaylistCreate name isDefault interval).Only Write.Sound fun _ _ => True := by
  have hcreate (isDefault : Int) : (concluding (.createPlaylist name isDefault
      (parseIntDefault interval 30)) "create failed").Only Write.Sound fun _ _ => True := by
    apply sound_concluding
    rintro _ ⟨⟩
    exact storable_parseIntDefault interval (by decide)
  unfold handlePlaylistCreate
  split
  · exact trivial
  · split
    · refine ⟨?_, fun _ _ => hcreate 1⟩
      rintro _ ⟨⟩
    · exact hcreate 0

theorem sound_handlePlaylistUpdate (id name interval : String) :
    (handlePlaylistUpdate id name interval).Only Write.Sound fun _ _ => True := by
  unfold handlePlaylistUpdate
  split
  · exact trivial
  · split
    · exact trivial
    · refine ⟨?_, fun _ _ => trivial⟩
      rintro _ ⟨⟩
      exact storable_parseIntDefault interval (by decide)

theorem sound_handlePlaylistAddItem (id viewID dwell : String) :
    (handlePlaylistAddItem id viewID dwell).Only ItemCall.Sound fun _ _ => True := by
  unfold handlePlaylistAddItem
  split
  · exact trivial
  · split
    · exact trivial
    · refine ⟨trivial, fun _ _ => ⟨?_, fun _ _ => trivial⟩⟩
      rintro _ ⟨⟩
      exact storable_parseIntDefault dwell (by decide)

theorem sound_handlePlaylistItemDwell (itemID dwell : String) :
    (handlePlaylistItemDwell itemID dwell).Only ItemCall.Sound fun _ _ => True := by
  have hstorable := storable_parseIntDefault dwell (show Storable 0 by decide)
  unfold handlePlaylistItemDwell
  split
  · exact trivial
  · refine ⟨trivial, fun (item : Option PlaylistItem) _ => ?_⟩
    cases item with
    | none => exact trivial
    | some _ =>
        refine ⟨?_, fun _ _ => trivial⟩
        rintro _ ⟨⟩
        rw [if_neg (not_lt.mpr hstorable.1)]
        exact hstorable

/-! ## The two stages -/

def interval (pl : Playlist) (it : PlaylistItem) : Int :=
  if 0 < it.dwellSeconds then it.dwellSeconds else pl.defaultDwellSeconds

theorem pipItem_dwell {ω : Type} (q : Queries ω) (pl : Playlist) {it : PlaylistItem}
    (h : Storable it.dwellSeconds) : (pipItem q pl it).dwell = max (interval pl it) 3 := by
  obtain ⟨hmin, -⟩ := h
  simp only [pipItem, interval]
  split <;> split <;> omega

theorem int64_lt (n : Int) : int64 n < 2 ^ 63 := by
  simp only [int64]
  omega

theorem int64_of_lt {n : Int} (hmin : 0 ≤ n) (hmax : n < 2 ^ 63) : int64 n = n := by
  simp only [int64]
  omega

def nanoseconds (pl : Playlist) (it : PlaylistItem) : Int :=
  if int64 (it.dwellSeconds * 1000000000) ≤ 0 then
    int64 (pl.defaultDwellSeconds * 1000000000)
  else int64 (it.dwellSeconds * 1000000000)

theorem rotationItem_dwell (pl : Playlist) (it : PlaylistItem) :
    @Eq Int (rotationItem pl it).dwell (max (nanoseconds pl it) 3000000000) := by
  change (if nanoseconds pl it < 3000000000 then 3000000000 else nanoseconds pl it) = _
  split <;> omega

theorem nanoseconds_lt (pl : Playlist) (it : PlaylistItem) :
    nanoseconds pl it < 2 ^ 63 := by
  rw [nanoseconds]
  split
  · exact int64_lt _
  · exact int64_lt _

theorem nanoseconds_of_lt {pl : Playlist} {it : PlaylistItem}
    (hown : Storable it.dwellSeconds) (hdefault : Storable pl.defaultDwellSeconds)
    (h : interval pl it * 1000000000 < 2 ^ 63) :
    nanoseconds pl it = interval pl it * 1000000000 := by
  obtain ⟨hown, -⟩ := hown
  obtain ⟨hdefault, -⟩ := hdefault
  by_cases hpos : 0 < it.dwellSeconds
  · rw [interval, if_pos hpos] at h ⊢
    have hint := int64_of_lt (n := it.dwellSeconds * 1000000000) (by omega) h
    rw [nanoseconds, if_neg (by omega), hint]
  · rw [interval, if_neg hpos] at h ⊢
    have hint := int64_of_lt (n := it.dwellSeconds * 1000000000) (by omega) (by omega)
    rw [nanoseconds, if_pos (by omega), int64_of_lt (by omega) h]

theorem rotationItem_dwell_iff {pl : Playlist} {it : PlaylistItem}
    (hown : Storable it.dwellSeconds) (hdefault : Storable pl.defaultDwellSeconds) :
    @Eq Int (rotationItem pl it).dwell (max (interval pl it) 3 * 1000000000) ↔
      interval pl it * 1000000000 < 2 ^ 63 := by
  rw [rotationItem_dwell]
  constructor
  · intro h
    have := nanoseconds_lt pl it
    omega
  · intro h
    rw [nanoseconds_of_lt hown hdefault h]
    omega

section Stages

variable {ω : Type}

/-- A playlist that a device plays on the main stage and one plays in the corner. -/
structure OnBothStages (q : Queries ω) (dev dev' : KioskDevice) (pl : Playlist)
    (rows : List PlaylistItem) : Prop where
  main : resolvePlaylist q dev = some pl
  assigned : dev'.pipPlaylistID ≠ 0
  corner : q.getPlaylist dev'.pipPlaylistID = .ok pl
  rows : q.listPlaylistItems pl.id = .ok rows

theorem OnBothStages.deviceItems_eq {q : Queries ω} {dev dev' : KioskDevice}
    {pl : Playlist} {rows : List PlaylistItem} (h : OnBothStages q dev dev' pl rows) :
    deviceItems q dev = rows.map (rotationItem pl) := by
  simp only [deviceItems, h.main, h.rows]

theorem OnBothStages.pipItems_eq {q : Queries ω} {dev dev' : KioskDevice}
    {pl : Playlist} {rows : List PlaylistItem} (h : OnBothStages q dev dev' pl rows) :
    pipItems q dev' = rows.map (pipItem q pl) := by
  simp only [pipItems, if_neg h.assigned, h.corner, h.rows]

/-- The two rotations run with one interval, at least 3 seconds, exactly when no
interval in use overflows as nanoseconds. -/
theorem intervals_agree_iff (q : Queries ω) (dev dev' : KioskDevice) (pl : Playlist)
    (rows : List PlaylistItem) (h : OnBothStages q dev dev' pl rows)
    (hown : ∀ it ∈ rows, Storable it.dwellSeconds)
    (hdefault : Storable pl.defaultDwellSeconds) :
    (deviceItems q dev).map Item.dwell =
          (pipItems q dev').map (fun it => it.dwell * second) ∧
        (pipItems q dev').map PipItem.dwell =
          rows.map (fun it => max (interval pl it) 3) ↔
      ∀ it ∈ rows, interval pl it * 1000000000 < 2 ^ 63 := by
  have hpip : ∀ it ∈ rows, (pipItem q pl it).dwell = max (interval pl it) 3 :=
    fun it hit => pipItem_dwell q pl (hown it hit)
  have hcorner : (pipItems q dev').map PipItem.dwell =
      rows.map fun it => max (interval pl it) 3 := by
    rw [h.pipItems_eq, List.map_map]
    exact List.map_congr_left hpip
  rw [and_iff_left hcorner, h.deviceItems_eq, h.pipItems_eq, List.map_map, List.map_map,
    List.map_inj_left]
  constructor
  · intro hall it hit
    have hsame := hall it hit
    simp only [Function.comp_apply, hpip it hit] at hsame
    exact (rotationItem_dwell_iff (hown it hit) hdefault).mp hsame
  · intro hall it hit
    simp only [Function.comp_apply, hpip it hit]
    exact (rotationItem_dwell_iff (hown it hit) hdefault).mpr (hall it hit)

end Stages

def lone (dwellSeconds : Int) : Queries Unit where
  getPlaylist _ := .ok ⟨1, "Standaard", 1, 30⟩
  getDefaultPlaylist := .ok ⟨1, "Standaard", 1, 30⟩
  listPlaylistItems _ := .ok [⟨1, 1, 7, 0, dwellSeconds⟩]
  screen := ⟨fun _ => none, fun _ => none, fun _ => none⟩

def everywhere : KioskDevice := ⟨1, 1, 1, "{}"⟩

theorem lone_onBothStages (dwellSeconds : Int) :
    OnBothStages (lone dwellSeconds) everywhere everywhere ⟨1, "Standaard", 1, 30⟩
      [⟨1, 1, 7, 0, dwellSeconds⟩] where
  main := rfl
  assigned := by decide
  corner := rfl
  rows := rfl

theorem intervals_agree_twenty :
    (deviceItems (lone 20) everywhere).map Item.dwell =
        (pipItems (lone 20) everywhere).map (fun it => it.dwell * second) ∧
      (pipItems (lone 20) everywhere).map PipItem.dwell = [20] :=
  (intervals_agree_iff (lone 20) everywhere everywhere _ _ (lone_onBothStages 20)
    (by simp [Storable]) (by simp [Storable])).mpr (by decide)

/-- An interval whose nanoseconds are negative in 64 bits: the main stage takes
the default. -/
theorem intervals_differ :
    Storable 9223372037 ∧
      (deviceItems (lone 9223372037) everywhere).map Item.dwell = [30 * second] ∧
      (pipItems (lone 9223372037) everywhere).map PipItem.dwell = [9223372037] ∧
      (deviceItems (lone 9223372037) everywhere).map Item.dwell ≠
        (pipItems (lone 9223372037) everywhere).map (fun it => it.dwell * second) := by
  refine ⟨by simp [Storable], by decide, by decide, by decide⟩

end FamilyPlanner.Server

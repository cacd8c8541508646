import FamilyPlanner.Server.Defaults

/-!
# The order of a playlist

Items are added behind the last position and moved by exchanging the positions
of two neighbours.  An addition is two calls of the store and a move four, so
that requests overlap, and the errors of several calls are ignored.
-/

namespace FamilyPlanner.Server

open FamilyPlanner.Foundation FamilyPlanner.Widget

/-! ## The handlers -/

inductive ItemCall where
  | maxPlaylistPosition (playlistID : Int)
  | getPlaylistItem (id : Int)
  | listPlaylistItems (playlistID : Int)
  | write (w : Write)
  deriving DecidableEq, Repr

/-- `none` is an error of a query, `false` one of a statement. -/
@[reducible] def ItemCall.Res : ItemCall → Type
  | maxPlaylistPosition _ => Option Int
  | getPlaylistItem _ => Option PlaylistItem
  | listPlaylistItems _ => Option (List PlaylistItem)
  | write _ => Bool

abbrev ItemProg := Prog ItemCall ItemCall.Res Answer

/-- The position behind the maximum, which reads as 0 next to an error. -/
def addItem (id viewID dwell : Int) (maxPos : Option Int) : ItemProg :=
  .call (.write (.addPlaylistItem id viewID (int64 (maxPos.getD 0 + 1)) dwell))
    fun (ok : Bool) => .ret (if ok then .ok 200 else .error ("add failed", 500))

def handlePlaylistAddItem (id viewID dwell : String) : ItemProg :=
  match atoi id with
  | none => .ret (.error ("bad id", 400))
  | some id =>
      match atoi viewID with
      | none => .ret (.error ("bad view", 400))
      | some viewID =>
          .call (.maxPlaylistPosition id) (addItem id viewID (parseIntDefault dwell 0))

def handlePlaylistItemDelete (itemID : String) : ItemProg :=
  match atoi itemID with
  | none => .ret (.error ("bad id", 400))
  | some itemID =>
      .call (.getPlaylistItem itemID) fun (item : Option PlaylistItem) =>
        match item with
        | none => .ret (.error ("not found", 404))
        | some _ => .call (.write (.deletePlaylistItem itemID)) fun _ => .ret (.ok 200)

def moved (items : List PlaylistItem) (itemID : Int) (dir : String) :
    Option (PlaylistItem × PlaylistItem) :=
  match items.findIdx? (·.id = itemID) with
  | none => none
  | some idx =>
      if dir = "up" ∧ 0 < idx then
        match items[idx]?, items[idx - 1]? with
        | some a, some b => some (a, b)
        | _, _ => none
      else if dir = "down" ∧ idx < items.length - 1 then
        match items[idx]?, items[idx + 1]? with
        | some a, some b => some (a, b)
        | _, _ => none
      else none

def finishExchange (a b : PlaylistItem) : ItemProg :=
  .call (.write (.updatePlaylistItemPosition a.position b.id)) fun _ => .ret (.ok 200)

def exchange : Option (PlaylistItem × PlaylistItem) → ItemProg
  | none => .ret (.ok 200)
  | some (a, b) =>
      .call (.write (.updatePlaylistItemPosition b.position a.id)) fun _ =>
        finishExchange a b

def handlePlaylistItemMove (itemID dir : String) : ItemProg :=
  match atoi itemID with
  | none => .ret (.error ("bad id", 400))
  | some itemID =>
      .call (.getPlaylistItem itemID) fun (item : Option PlaylistItem) =>
        match item with
        | none => .ret (.error ("not found", 404))
        | some item =>
            .call (.listPlaylistItems item.playlistID)
              fun (items : Option (List PlaylistItem)) =>
                exchange (moved (items.getD []) itemID dir)

inductive ItemRequest where
  | add (id viewID dwell : String)
  | delete (itemID : String)
  | move (itemID dir : String)
  deriving DecidableEq, Repr

def ItemRequest.handle : ItemRequest → ItemProg
  | add id viewID dwell => handlePlaylistAddItem id viewID dwell
  | delete itemID => handlePlaylistItemDelete itemID
  | move itemID dir => handlePlaylistItemMove itemID dir

/-! ## The calls -/

namespace Tables

variable {ω : Type}

def positions (t : Tables ω) (playlistID : Int) : List Int :=
  (t.playlistItems.filter (·.playlistID = playlistID)).map PlaylistItem.position

def maxPosition (t : Tables ω) (playlistID : Int) : Int :=
  (t.positions playlistID).max?.getD (-1)

def getPlaylistItem (t : Tables ω) (id : Int) : Option PlaylistItem :=
  t.playlistItems.find? (·.id = id)

def accepts (t : Tables ω) : Write → Bool
  | .addPlaylistItem playlistID viewID _ _ =>
      (t.getPlaylist playlistID).isSome && (t.screen.getView viewID).isSome
  | _ => true

end Tables

def Write.places : Write → Bool
  | addPlaylistItem _ _ _ _ | updatePlaylistItemPosition _ _ => true
  | _ => false

/-- `edits` is history: how many statements have placed an item. -/
structure Placed (ω : Type) where
  tables : Tables ω
  edits : Nat := 0

variable {ω : Type}

def ItemCall.exec (failed : Bool) : (c : ItemCall) → Placed ω → ItemCall.Res c × Placed ω
  | maxPlaylistPosition playlistID, x =>
      (if failed then none else some (x.tables.maxPosition playlistID), x)
  | getPlaylistItem id, x => (if failed then none else x.tables.getPlaylistItem id, x)
  | listPlaylistItems playlistID, x =>
      (if failed then none else some (x.tables.listPlaylistItems playlistID), x)
  | write w, x =>
      if failed ∨ x.tables.accepts w = false then (false, x)
      else (true, ⟨x.tables.write w, if w.places then x.edits + 1 else x.edits⟩)

/-- `seen` is `edits` when the positions were read, `max` the maximum that was
read, and `first` the outcome of the first statement of a move. -/
structure Placing where
  seen : Nat := 0
  max : Option Int := none
  first : Option Bool := none
  deriving DecidableEq, Repr

def Placing.after : (c : ItemCall) → Placed ω → ItemCall.Res c × Placed ω → Placing → Placing
  | .maxPlaylistPosition _, x, ((maxPos : Option Int), _), n =>
      { n with seen := x.edits, max := maxPos }
  | .listPlaylistItems _, x, _, n => { n with seen := x.edits }
  | .write (.updatePlaylistItemPosition _ _), _, ((ok : Bool), _), n =>
      { n with first := some (n.first.getD ok) }
  | _, _, _, n => n

def ordering : Service ItemRequest ItemCall ItemCall.Res Answer (Placed ω) Bool Placing where
  handle := ItemRequest.handle
  exec := ItemCall.exec
  fresh := {}
  record := Placing.after

/-! ## The positions -/

namespace Tables

/-- The ids of the items are keys, and given out in order. -/
structure ItemsKeyed (t : Tables ω) : Prop where
  nodup : (t.playlistItems.map PlaylistItem.id).Nodup
  bound : ∀ it ∈ t.playlistItems, it.id ≤ t.itemSeq

/-- The items of a playlist have distinct positions. -/
def Apart (t : Tables ω) (playlistID : Int) : Prop :=
  ∀ x ∈ t.playlistItems, ∀ y ∈ t.playlistItems, x.playlistID = playlistID →
    y.playlistID = playlistID → x.position = y.position → x.id = y.id

/-- If the item is still there, it is in the playlist of the row. -/
def Belongs (t : Tables ω) (a : PlaylistItem) : Prop :=
  a.id ≤ t.itemSeq ∧ ∀ it ∈ t.playlistItems, it.id = a.id → it.playlistID = a.playlistID

/-- The two items are where the rows say, and no other item is. -/
def Exchangeable (t : Tables ω) (playlistID : Int) (a b : PlaylistItem) : Prop :=
  a.position ≠ b.position ∧ ∀ it ∈ t.playlistItems, it.playlistID = playlistID →
    (it.id = a.id → it.position = a.position) ∧ (it.id = b.id → it.position = b.position) ∧
      (it.id ≠ a.id → it.id ≠ b.id → it.position ≠ a.position ∧ it.position ≠ b.position)

variable {t t' : Tables ω} {playlistID : Int} {a b : PlaylistItem}

theorem Apart.mono (h : t.Apart playlistID) (hsub : t'.playlistItems ⊆ t.playlistItems) :
    t'.Apart playlistID :=
  fun x hx y hy => h x (hsub hx) y (hsub hy)

theorem Exchangeable.mono (h : t.Exchangeable playlistID a b)
    (hsub : t'.playlistItems ⊆ t.playlistItems) : t'.Exchangeable playlistID a b :=
  ⟨h.1, fun it hit => h.2 it (hsub hit)⟩

def place (position id : Int) (it : PlaylistItem) : PlaylistItem :=
  if it.id = id then { it with position } else it

@[simp] theorem place_id (position id : Int) (it : PlaylistItem) :
    (place position id it).id = it.id := by
  unfold place
  split <;> rfl

@[simp] theorem place_playlistID (position id : Int) (it : PlaylistItem) :
    (place position id it).playlistID = it.playlistID := by
  unfold place
  split <;> rfl

theorem place_position (position id : Int) (it : PlaylistItem) :
    (place position id it).position = if it.id = id then position else it.position := by
  unfold place
  split <;> rfl

theorem items_update (t : Tables ω) (position id : Int) :
    (t.write (.updatePlaylistItemPosition position id)).playlistItems =
      t.playlistItems.map (place position id) := rfl

theorem items_add (playlistID viewID position dwell : Int)
    (h : t.accepts (.addPlaylistItem playlistID viewID position dwell) = true) :
    t.write (.addPlaylistItem playlistID viewID position dwell) =
      { t with
        playlistItems := t.playlistItems ++
          [⟨t.itemSeq + 1, playlistID, viewID, position, dwell⟩]
        itemSeq := t.itemSeq + 1 } := by
  simp only [accepts, Bool.and_eq_true] at h
  simp [write, h]

theorem items_delete_subset (t : Tables ω) (id : Int) :
    (t.write (.deletePlaylistItem id)).playlistItems ⊆ t.playlistItems :=
  List.filter_subset_self _

theorem ItemsKeyed.delete (ht : t.ItemsKeyed) (id : Int) :
    (t.write (.deletePlaylistItem id)).ItemsKeyed where
  nodup := ht.nodup.sublist (List.filter_sublist.map _)
  bound it hit := ht.bound it (items_delete_subset t id hit)

theorem ItemsKeyed.update (ht : t.ItemsKeyed) (position id : Int) :
    (t.write (.updatePlaylistItemPosition position id)).ItemsKeyed where
  nodup := by
    rw [items_update, List.map_map]
    simpa [Function.comp_def] using ht.nodup
  bound := by
    intro it hit
    rw [items_update] at hit
    obtain ⟨old, hold, rfl⟩ := List.mem_map.mp hit
    rw [place_id]
    exact ht.bound old hold

theorem ItemsKeyed.add (ht : t.ItemsKeyed) {playlistID viewID position dwell : Int}
    (h : t.accepts (.addPlaylistItem playlistID viewID position dwell) = true) :
    (t.write (.addPlaylistItem playlistID viewID position dwell)).ItemsKeyed := by
  rw [items_add _ _ _ _ h]
  constructor
  · rw [List.map_append, List.nodup_append]
    refine ⟨ht.nodup, by simp, ?_⟩
    intro id hid id' hid'
    obtain ⟨it, hit, rfl⟩ := List.mem_map.mp hid
    have hle := ht.bound it hit
    simp only [List.map_cons, List.map_nil, List.mem_singleton] at hid'
    omega
  · intro it hit
    rcases List.mem_append.mp hit with hit | hit
    · have hle := ht.bound it hit
      simp only
      omega
    · rw [List.mem_singleton] at hit
      subst hit
      exact le_rfl

theorem Belongs.delete (h : t.Belongs a) (id : Int) :
    (t.write (.deletePlaylistItem id)).Belongs a :=
  ⟨h.1, fun it hit => h.2 it (items_delete_subset t id hit)⟩

theorem Belongs.update (h : t.Belongs a) (position id : Int) :
    (t.write (.updatePlaylistItemPosition position id)).Belongs a := by
  refine ⟨h.1, ?_⟩
  intro it hit
  rw [items_update] at hit
  obtain ⟨old, hold, rfl⟩ := List.mem_map.mp hit
  simpa using h.2 old hold

theorem Belongs.add (h : t.Belongs a) {playlistID viewID position dwell : Int}
    (hok : t.accepts (.addPlaylistItem playlistID viewID position dwell) = true) :
    (t.write (.addPlaylistItem playlistID viewID position dwell)).Belongs a := by
  rw [items_add _ _ _ _ hok]
  refine ⟨by have := h.1; simp only; omega, ?_⟩
  intro it hit hid
  rcases List.mem_append.mp hit with hit | hit
  · exact h.2 it hit hid
  · rw [List.mem_singleton] at hit
    subst hit
    have hle := h.1
    simp only at hid
    omega

theorem Apart.add (h : t.Apart playlistID) {q viewID position dwell : Int}
    (hok : t.accepts (.addPlaylistItem q viewID position dwell) = true)
    (hbehind : q = playlistID →
      ∀ it ∈ t.playlistItems, it.playlistID = playlistID → it.position < position) :
    (t.write (.addPlaylistItem q viewID position dwell)).Apart playlistID := by
  rw [items_add _ _ _ _ hok]
  intro x hx y hy hxp hyp hpos
  simp only [List.mem_append, List.mem_singleton] at hx hy
  rcases hx with hx | rfl <;> rcases hy with hy | rfl
  · exact h x hx y hy hxp hyp hpos
  · have hlt := hbehind hyp x hx hxp
    simp only at hpos
    omega
  · have hlt := hbehind hxp y hy hyp
    simp only at hpos
    omega
  · rfl

theorem Apart.update_other (h : t.Apart playlistID) (ha : t.Belongs a)
    (hother : a.playlistID ≠ playlistID) (position : Int) :
    (t.write (.updatePlaylistItemPosition position a.id)).Apart playlistID := by
  intro x' hx' y' hy' hxp hyp hpos
  rw [items_update] at hx' hy'
  obtain ⟨x, hx, rfl⟩ := List.mem_map.mp hx'
  obtain ⟨y, hy, rfl⟩ := List.mem_map.mp hy'
  rw [place_playlistID] at hxp hyp
  have hxa : x.id ≠ a.id := fun hid => hother ((ha.2 x hx hid).symm.trans hxp)
  have hya : y.id ≠ a.id := fun hid => hother ((ha.2 y hy hid).symm.trans hyp)
  rw [place_position, place_position, if_neg hxa, if_neg hya] at hpos
  rw [place_id, place_id]
  exact h x hx y hy hxp hyp hpos

theorem Apart.exchange (h : t.Apart playlistID) (hab : a.id ≠ b.id)
    (hrows : t.Exchangeable playlistID a b) :
    ((t.write (.updatePlaylistItemPosition b.position a.id)).write
      (.updatePlaylistItemPosition a.position b.id)).Apart playlistID := by
  intro x' hx' y' hy' hxp hyp hpos
  rw [items_update, items_update, List.map_map] at hx' hy'
  obtain ⟨x, hx, rfl⟩ := List.mem_map.mp hx'
  obtain ⟨y, hy, rfl⟩ := List.mem_map.mp hy'
  simp only [Function.comp_apply, place_playlistID, place_id, place_position] at hxp hyp hpos ⊢
  have hxr := hrows.2 x hx hxp
  have hyr := hrows.2 y hy hyp
  have hne := hrows.1
  have hxy := h x hx y hy hxp hyp
  grind

end Tables

/-! ## The neighbour of an item -/

theorem moved_mem {items : List PlaylistItem} {itemID : Int} {dir : String}
    {a b : PlaylistItem} (h : moved items itemID dir = some (a, b)) :
    ∃ i k : Nat, items[i]? = some a ∧ items[k]? = some b ∧ i ≠ k := by
  have hpair {i k : Nat} (hik : i ≠ k) (hab : (match items[i]?, items[k]? with
      | some a, some b => some (a, b)
      | _, _ => none) = some (a, b)) :
      ∃ i k : Nat, items[i]? = some a ∧ items[k]? = some b ∧ i ≠ k := by
    refine ⟨i, k, ?_, ?_, hik⟩ <;>
      cases hi : items[i]? <;> cases hk : items[k]? <;> simp_all
  rw [moved] at h
  cases hidx : items.findIdx? (·.id = itemID) with
  | none => simp [hidx] at h
  | some idx =>
      simp only [hidx] at h
      split at h
      · rename_i hup
        exact hpair (by omega) h
      · split at h
        · exact hpair (by omega) h
        · cases h

variable {t : Tables ω} {playlistID : Int} {a b : PlaylistItem}

theorem mem_listPlaylistItems {it : PlaylistItem} :
    it ∈ t.listPlaylistItems playlistID ↔
      it ∈ t.playlistItems ∧ it.playlistID = playlistID := by
  simp [Tables.listPlaylistItems, List.mem_insertionSort]

theorem nodup_listPlaylistItems (ht : t.ItemsKeyed) (playlistID : Int) :
    ((t.listPlaylistItems playlistID).map PlaylistItem.id).Nodup := by
  have hperm := (List.perm_insertionSort (fun a b : PlaylistItem =>
    a.position < b.position ∨ a.position = b.position ∧ a.id ≤ b.id)
    (t.playlistItems.filter (·.playlistID = playlistID))).map PlaylistItem.id
  apply hperm.nodup_iff.mpr
  exact ht.nodup.sublist (List.filter_sublist.map _)

theorem moved_rows (ht : t.ItemsKeyed) {itemID : Int} {dir : String}
    (h : moved (t.listPlaylistItems playlistID) itemID dir = some (a, b)) :
    a ∈ t.playlistItems ∧ b ∈ t.playlistItems ∧ a.playlistID = playlistID ∧
      b.playlistID = playlistID ∧ a.id ≠ b.id := by
  obtain ⟨i, k, hi, hk, hik⟩ := moved_mem h
  obtain ⟨ha, hap⟩ := mem_listPlaylistItems.mp (List.mem_of_getElem? hi)
  obtain ⟨hb, hbp⟩ := mem_listPlaylistItems.mp (List.mem_of_getElem? hk)
  refine ⟨ha, hb, hap, hbp, ?_⟩
  intro hid
  have hlt : i < ((t.listPlaylistItems playlistID).map PlaylistItem.id).length := by
    rw [List.length_map]
    exact (List.getElem?_eq_some_iff.mp hi).1
  apply hik
  apply (List.getElem?_inj hlt (nodup_listPlaylistItems ht playlistID)).mp
  rw [List.getElem?_map, List.getElem?_map, hi, hk, Option.map_some, Option.map_some, hid]

theorem eq_of_id (ht : t.ItemsKeyed) {x y : PlaylistItem} (hx : x ∈ t.playlistItems)
    (hy : y ∈ t.playlistItems) (h : x.id = y.id) : x = y :=
  List.inj_on_of_nodup_map ht.nodup hx hy h

theorem belongs_of_mem (ht : t.ItemsKeyed) (ha : a ∈ t.playlistItems) : t.Belongs a := by
  refine ⟨ht.bound a ha, ?_⟩
  intro it hit hid
  rw [eq_of_id ht hit ha hid]

theorem exchangeable_of_mem (ht : t.ItemsKeyed) (hapart : t.Apart playlistID)
    (ha : a ∈ t.playlistItems) (hb : b ∈ t.playlistItems) (hap : a.playlistID = playlistID)
    (hbp : b.playlistID = playlistID) (hab : a.id ≠ b.id) :
    t.Exchangeable playlistID a b := by
  refine ⟨fun hpos => hab (hapart a ha b hb hap hbp hpos), ?_⟩
  intro it hit hip
  refine ⟨?_, ?_, ?_⟩
  · intro hid
    rw [eq_of_id ht hit ha hid]
  · intro hid
    rw [eq_of_id ht hit hb hid]
  · intro hia hib
    exact ⟨fun hpos => hia (hapart it hit a ha hip hap hpos),
      fun hpos => hib (hapart it hit b hb hip hbp hpos)⟩

end FamilyPlanner.Server

import FamilyPlanner.Rotation.State
import FamilyPlanner.Screen.Fragment
import Mathlib.Data.List.Sort

/-!
# Playlists and what a device plays

The tables behind the rotation, the statements the admin pages execute on them,
and the queries that resolve a device's playlist.  A query that fails is
folded into an empty list or into the default playlist, as in the source.
-/

namespace FamilyPlanner.Server

open FamilyPlanner.Rotation FamilyPlanner.Screen FamilyPlanner.Widget

structure KioskDevice where
  id : Int
  playlistID : Int
  pipPlaylistID : Int
  pipConfigJson : String
  deriving DecidableEq, Repr

structure Playlist where
  id : Int
  name : String
  isDefault : Int
  defaultDwellSeconds : Int
  deriving DecidableEq, Repr

structure PlaylistItem where
  id : Int
  playlistID : Int
  viewID : Int
  position : Int
  dwellSeconds : Int
  deriving DecidableEq, Repr

/--
Rows are in the order of their ids.  The two numbers are the last ids given
out; `screen` answers the queries on views, widgets and placements.
-/
structure Tables (ω : Type) where
  devices : List KioskDevice
  playlists : List Playlist
  playlistItems : List PlaylistItem
  playlistSeq : Int
  itemSeq : Int
  screen : Reads ω

inductive Write where
  | setDevicePlaylist (playlistID id : Int)
  | setDevicePip (pipPlaylistID : Int) (pipConfigJson : String) (id : Int)
  | createPlaylist (name : String) (isDefault defaultDwellSeconds : Int)
  | updatePlaylist (name : String) (defaultDwellSeconds id : Int)
  | deletePlaylist (id : Int)
  | clearDefaultPlaylists
  | setDefaultPlaylist (id : Int)
  | addPlaylistItem (playlistID viewID position dwellSeconds : Int)
  | deletePlaylistItem (id : Int)
  | updatePlaylistItemPosition (position id : Int)
  | updatePlaylistItemDwell (dwellSeconds id : Int)
  deriving DecidableEq, Repr

inductive ReadError where
  | noRows
  | failed
  deriving DecidableEq, Repr

structure ReadFaults where
  getPlaylist : Bool := false
  getDefaultPlaylist : Bool := false
  listPlaylistItems : Bool := false
  deriving DecidableEq, Repr

structure Queries (ω : Type) where
  getPlaylist : Int → Except ReadError Playlist
  getDefaultPlaylist : Except ReadError Playlist
  listPlaylistItems : Int → Except ReadError (List PlaylistItem)
  screen : Reads ω

namespace Tables

variable {ω : Type} (t : Tables ω)

def updateDevice (id : Int) (f : KioskDevice → KioskDevice) : Tables ω :=
  { t with devices := t.devices.map fun d => if d.id = id then f d else d }

def updatePlaylists (p : Playlist → Bool) (f : Playlist → Playlist) : Tables ω :=
  { t with playlists := t.playlists.map fun pl => if p pl then f pl else pl }

def updateItem (id : Int) (f : PlaylistItem → PlaylistItem) : Tables ω :=
  { t with
    playlistItems := t.playlistItems.map fun it => if it.id = id then f it else it }

def getDevice (id : Int) : Option KioskDevice := t.devices.find? (·.id = id)

def getPlaylist (id : Int) : Option Playlist := t.playlists.find? (·.id = id)

def getDefaultPlaylist : Option Playlist := t.playlists.find? (·.isDefault = 1)

/-- The rows in the order of `position` and `id`. -/
def listPlaylistItems (id : Int) : List PlaylistItem :=
  (t.playlistItems.filter (·.playlistID = id)).insertionSort fun a b =>
    a.position < b.position ∨ a.position = b.position ∧ a.id ≤ b.id

def write : Write → Tables ω
  | .setDevicePlaylist playlistID id =>
      t.updateDevice id fun d => { d with playlistID }
  | .setDevicePip pipPlaylistID pipConfigJson id =>
      t.updateDevice id fun d => { d with pipPlaylistID, pipConfigJson }
  | .createPlaylist name isDefault defaultDwellSeconds =>
      { t with
        playlists := t.playlists ++
          [⟨t.playlistSeq + 1, name, isDefault, defaultDwellSeconds⟩]
        playlistSeq := t.playlistSeq + 1 }
  | .updatePlaylist name defaultDwellSeconds id =>
      t.updatePlaylists (·.id = id) fun pl => { pl with name, defaultDwellSeconds }
  -- the items of the playlist go with it
  | .deletePlaylist id =>
      { t with
        playlists := t.playlists.filter (·.id ≠ id)
        playlistItems := t.playlistItems.filter (·.playlistID ≠ id) }
  | .clearDefaultPlaylists =>
      t.updatePlaylists (fun _ => true) fun pl => { pl with isDefault := 0 }
  | .setDefaultPlaylist id =>
      t.updatePlaylists (·.id = id) fun pl => { pl with isDefault := 1 }
  -- an item of an unknown playlist or view violates a foreign key
  | .addPlaylistItem playlistID viewID position dwellSeconds =>
      if (t.getPlaylist playlistID).isSome ∧ (t.screen.getView viewID).isSome then
        { t with
          playlistItems := t.playlistItems ++
            [⟨t.itemSeq + 1, playlistID, viewID, position, dwellSeconds⟩]
          itemSeq := t.itemSeq + 1 }
      else t
  | .deletePlaylistItem id =>
      { t with playlistItems := t.playlistItems.filter (·.id ≠ id) }
  | .updatePlaylistItemPosition position id =>
      t.updateItem id fun it => { it with position }
  | .updatePlaylistItemDwell dwellSeconds id =>
      t.updateItem id fun it => { it with dwellSeconds }

def answer {α : Type} (failed : Bool) (row : Option α) : Except ReadError α :=
  if failed then .error .failed
  else
    match row with
    | none => .error .noRows
    | some a => .ok a

def queries (f : ReadFaults) : Queries ω where
  getPlaylist := fun id => answer f.getPlaylist (t.getPlaylist id)
  getDefaultPlaylist := answer f.getDefaultPlaylist t.getDefaultPlaylist
  listPlaylistItems := fun id =>
    answer f.listPlaylistItems (some (t.listPlaylistItems id))
  screen := t.screen

end Tables

/-- `handleDeviceAssign`; a statement that fails ends the request. -/
def handleDeviceAssign (id : Int) (form : String → String)
    (pipConfigJson : String) : List Write :=
  [.setDevicePlaylist (atoiValue (form "playlist_id")) id,
    .setDevicePip (atoiValue (form "pip_playlist_id")) pipConfigJson id]

/-! ## Resolution -/

structure PipItem where
  viewID : Int
  dwell : Int
  onEnd : Bool
  deriving DecidableEq, Repr

section

variable {ω : Type} (q : Queries ω)

def resolvePlaylist (dev : KioskDevice) : Option Playlist :=
  let getDefaultPlaylist :=
    match q.getDefaultPlaylist with
    | .ok pl => some pl
    | .error _ => none
  if dev.playlistID ≠ 0 then
    match q.getPlaylist dev.playlistID with
    | .ok pl => some pl
    | .error _ => getDefaultPlaylist
  else getDefaultPlaylist

def rotationItem (pl : Playlist) (it : PlaylistItem) : Item :=
  let d := Widget.seconds it.dwellSeconds
  let d := if d ≤ 0 then Widget.seconds pl.defaultDwellSeconds else d
  ⟨it.viewID, if d < 3 * second then 3 * second else d⟩

def deviceItems (dev : KioskDevice) : List Item :=
  match resolvePlaylist q dev with
  | none => []
  | some pl =>
      match q.listPlaylistItems pl.id with
      | .error _ => []
      | .ok rows => rows.map (rotationItem pl)

def pipItem (pl : Playlist) (it : PlaylistItem) : PipItem :=
  let secs := it.dwellSeconds
  let secs := if secs ≤ 0 then pl.defaultDwellSeconds else secs
  ⟨it.viewID, if secs < 3 then 3 else secs, suspends q.screen it.viewID⟩

def pipItems (dev : KioskDevice) : List PipItem :=
  if dev.pipPlaylistID = 0 then []
  else
    match q.getPlaylist dev.pipPlaylistID with
    | .error _ => []
    | .ok pl =>
        match q.listPlaylistItems pl.id with
        | .error _ => []
        | .ok rows => rows.map (pipItem q pl)

end

end FamilyPlanner.Server

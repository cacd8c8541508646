import FamilyPlanner.Foundation.Service
import FamilyPlanner.Server.Playlists

/-!
# Pairing

A screen is paired with the passphrase and from then on known by the token in
its cookie, of which only the hash is stored.  Deleting the device revokes the
token.  Requests overlap, and any call of the store may fail.
-/

namespace FamilyPlanner.Server.Pairing

open FamilyPlanner.Foundation FamilyPlanner.Widget

structure Device extends KioskDevice where
  name : String
  tokenHash : String
  lastSeen : String
  deriving DecidableEq, Repr

/-! ## The handlers -/

structure DevicePip where
  corner : String
  size : String
  muted : Bool
  deriving DecidableEq, Repr

def DevicePip.marshal (pc : DevicePip) : String :=
  "\x7b\"corner\":\"" ++ pc.corner ++ "\",\"size\":\"" ++ pc.size ++ "\",\"muted\":" ++
    (if pc.muted then "true" else "false") ++ "\x7d"

def pick (v first : String) (allowed : List String) : String :=
  if v ∈ first :: allowed then v else first

/-- The fields of the corner playlist in the forms for a device. -/
structure PipForm where
  pipPlaylistID : String := ""
  pipCorner : String := ""
  pipSize : String := ""
  pipMuted : String := ""
  deriving DecidableEq, Repr

def PipForm.devicePip (f : PipForm) : DevicePip where
  corner := pick f.pipCorner "br" ["bl", "tr", "tl", "right", "left"]
  size := pick f.pipSize "m" ["s", "l"]
  muted := f.pipMuted ≠ ""

inductive DeviceCall where
  | passphraseHash
  | newToken
  | createDevice (name tokenHash : String)
  | setDevicePlaylist (playlistID id : Int)
  | setDevicePip (pipPlaylistID : Int) (pipConfigJson : String) (id : Int)
  | getDeviceByTokenHash (tokenHash : String)
  | touchDevice (id : Int)
  | deleteDevice (id : Int)
  | updateDeviceName (name : String) (id : Int)
  deriving DecidableEq, Repr

/-- `none` and `false` are errors. -/
@[reducible] def DeviceCall.Res : DeviceCall → Type
  | passphraseHash | newToken => Option String
  | createDevice _ _ | getDeviceByTokenHash _ => Option Device
  | _ => Bool

inductive Reply where
  | error (text : String) (code : Nat)
  | redirect (location : String)
  | paired (token : String)
  | kiosk (dev : Device)
  | devices
  deriving DecidableEq, Repr

abbrev DeviceProg := Prog DeviceCall DeviceCall.Res Reply

/-- `hashToken` is the hash of the tokens and `verify` that of the passphrase,
`none` for a stored hash that is not one. -/
structure Hashes where
  hashToken : String → String
  verify : String → String → Option Bool

variable (H : Hashes)

/-- `none` and the empty text are no stored hash. -/
def accepted (passphrase : String) (hash : Option String) : Bool :=
  hash.any fun hash => hash ≠ "" && (H.verify passphrase hash).getD false

structure PairForm extends PipForm where
  passphrase : String := ""
  playlistID : String := ""
  deriving DecidableEq, Repr

def pairPip (f : PairForm) (token : String) (dev : Device) : DeviceProg :=
  let pipID := atoiValue f.pipPlaylistID
  if 0 < pipID then
    .call (.setDevicePip pipID f.devicePip.marshal dev.id) fun _ => .ret (.paired token)
  else .ret (.paired token)

def pairPlaylist (f : PairForm) (token : String) (dev : Device) : DeviceProg :=
  let plID := atoiValue f.playlistID
  if 0 < plID then
    .call (.setDevicePlaylist plID dev.id) fun _ => pairPip f token dev
  else pairPip f token dev

def pairDevice (f : PairForm) : Option String → DeviceProg
  | none => .ret (.error "internal error" 500)
  | some token =>
      .call (.createDevice "kiosk" (H.hashToken token)) fun (dev : Option Device) =>
        match dev with
        | none => .ret (.error "internal error" 500)
        | some dev => pairPlaylist f token dev

def handlePairPost (f : PairForm) : DeviceProg :=
  .call .passphraseHash fun (hash : Option String) =>
    if accepted H f.passphrase hash then .call .newToken (pairDevice H f)
    else .ret (.error "login.error" 401)

def letIn : Option Device → DeviceProg
  | none => .ret (.redirect "/pair")
  | some dev => .call (.touchDevice dev.id) fun _ => .ret (.kiosk dev)

/-- `cookie` is the value of the cookie, if there is one. -/
def requireKiosk (cookie : Option String) : DeviceProg :=
  match cookie with
  | none => .ret (.redirect "/pair")
  | some value =>
      if value = "" then .ret (.redirect "/pair")
      else .call (.getDeviceByTokenHash (H.hashToken value)) letIn

structure AssignForm extends PipForm where
  playlistID : String := ""
  deriving DecidableEq, Repr

def handleDeviceAssign (id : String) (f : AssignForm) : DeviceProg :=
  match atoi id with
  | none => .ret (.error "bad id" 400)
  | some id =>
      .call (.setDevicePlaylist (atoiValue f.playlistID) id) fun (ok : Bool) =>
        if ok then
          .call (.setDevicePip (atoiValue f.pipPlaylistID) f.devicePip.marshal id)
            fun (ok : Bool) => .ret (if ok then .devices else .error "assign failed" 500)
        else .ret (.error "assign failed" 500)

def handleDeviceDelete (id : String) : DeviceProg :=
  match atoi id with
  | none => .ret (.error "bad id" 400)
  | some id =>
      .call (.deleteDevice id) fun (ok : Bool) =>
        .ret (if ok then .devices else .error "delete failed" 500)

def handleDeviceRename (id name : String) : DeviceProg :=
  match atoi id with
  | none => .ret (.error "bad id" 400)
  | some id =>
      if name ≠ "" then .call (.updateDeviceName name id) fun _ => .ret .devices
      else .ret .devices

inductive DeviceRequest where
  | pair (f : PairForm)
  | kiosk (cookie : Option String)
  | assign (id : String) (f : AssignForm)
  | delete (id : String)
  | rename (id name : String)
  deriving DecidableEq, Repr

def DeviceRequest.handle : DeviceRequest → DeviceProg
  | pair f => handlePairPost H f
  | kiosk cookie => requireKiosk H cookie
  | assign id f => handleDeviceAssign id f
  | delete id => handleDeviceDelete id
  | rename id name => handleDeviceRename id name

/-! ## The devices -/

/--
Ids are given out in order and never again.  `issued` and `deleted` are
history: the hashes of the tokens with the devices created for them, and the
devices that were deleted.
-/
structure Devices where
  devices : List Device := []
  deviceSeq : Int := 0
  passphraseHash : Option String
  issued : List (String × Int) := []
  deleted : List Int := []
  deriving DecidableEq, Repr

namespace Devices

variable (x : Devices)

def updateDevice (id : Int) (f : Device → Device) : Devices :=
  { x with devices := x.devices.map fun d => if d.id = id then f d else d }

def getDeviceByTokenHash (hash : String) : Option Device :=
  x.devices.find? (·.tokenHash = hash)

/-- A hash that is already there violates the constraint on the column. -/
def create (name tokenHash : String) : Option Device × Devices :=
  if x.devices.any (·.tokenHash = tokenHash) then (none, x)
  else
    let d : Device :=
      { id := x.deviceSeq + 1, playlistID := 0, pipPlaylistID := 0, pipConfigJson := "",
        name, tokenHash, lastSeen := "" }
    (some d, { x with
      devices := x.devices ++ [d]
      deviceSeq := x.deviceSeq + 1
      issued := x.issued ++ [(tokenHash, x.deviceSeq + 1)] })

def delete (id : Int) : Devices :=
  { x with
    devices := x.devices.filter (·.id ≠ id)
    deleted := x.deleted ++ (x.devices.filter (·.id = id)).map (·.id) }

end Devices

/-- `token` is the answer of `NewToken` and `now` the time of a call. -/
structure Env where
  failed : Bool := false
  token : Option String := none
  now : String := ""
  deriving DecidableEq, Repr

def DeviceCall.exec (env : Env) : (c : DeviceCall) → Devices → DeviceCall.Res c × Devices
  | passphraseHash, x => (if env.failed then none else x.passphraseHash, x)
  | newToken, x => (env.token, x)
  | createDevice name tokenHash, x =>
      if env.failed then (none, x) else x.create name tokenHash
  | getDeviceByTokenHash hash, x =>
      (if env.failed then none else x.getDeviceByTokenHash hash, x)
  | setDevicePlaylist playlistID id, x =>
      if env.failed then (false, x)
      else (true, x.updateDevice id fun d => { d with playlistID })
  | setDevicePip pipPlaylistID pipConfigJson id, x =>
      if env.failed then (false, x)
      else (true, x.updateDevice id fun d => { d with pipPlaylistID, pipConfigJson })
  | touchDevice id, x =>
      if env.failed then (false, x)
      else (true, x.updateDevice id fun d => { d with lastSeen := env.now })
  | deleteDevice id, x => if env.failed then (false, x) else (true, x.delete id)
  | updateDeviceName name id, x =>
      if env.failed then (false, x)
      else (true, x.updateDevice id fun d => { d with name })

/-- What the calls of a request have returned: the stored hash, the token, the
device created and the one found, each with the hash of its token. -/
structure Told where
  stored : Option String := none
  token : Option String := none
  created : Option (String × Int) := none
  found : Option (String × Int) := none
  deriving DecidableEq, Repr

def Told.after : (c : DeviceCall) → DeviceCall.Res c → Told → Told
  | .passphraseHash, (hash : Option String), k => { k with stored := hash }
  | .newToken, (token : Option String), k => { k with token }
  | .createDevice _ tokenHash, (dev : Option Device), k =>
      { k with created := dev.map fun d => (tokenHash, d.id) }
  | .getDeviceByTokenHash hash, (dev : Option Device), k =>
      { k with found := dev.map fun d => (hash, d.id) }
  | _, _, k => k

def pairing : Service DeviceRequest DeviceCall DeviceCall.Res Reply Devices Env Told where
  handle := DeviceRequest.handle H
  exec := DeviceCall.exec
  fresh := {}
  record o _ r k := k.after o r.1

abbrev DeviceJob := Job DeviceRequest DeviceCall DeviceCall.Res Reply Told

abbrev Site := Service.State DeviceRequest DeviceCall DeviceCall.Res Reply Devices Told

/-! ## The table -/

def Device.key (d : Device) : String × Int := (d.tokenHash, d.id)

namespace Devices

structure Sound (x : Devices) : Prop where
  ids : (x.devices.map (·.id)).Nodup
  tokens : (x.devices.map (·.tokenHash)).Nodup
  issuedIds : (x.issued.map Prod.snd).Nodup
  bound : ∀ e ∈ x.issued, e.2 ≤ x.deviceSeq
  gone : ∀ id ∈ x.deleted, id ≤ x.deviceSeq
  keys : ∀ e, e ∈ x.devices.map Device.key ↔ e ∈ x.issued ∧ e.2 ∉ x.deleted

variable {x : Devices}

theorem Sound.key_mem (hx : x.Sound) {d : Device} (hd : d ∈ x.devices) :
    d.key ∈ x.issued ∧ d.id ∉ x.deleted :=
  (hx.keys d.key).mp (List.mem_map_of_mem hd)

theorem Sound.update (hx : x.Sound) (id : Int) {f : Device → Device}
    (hf : ∀ d, (f d).key = d.key) : (x.updateDevice id f).Sound := by
  have hkey (d : Device) : (if d.id = id then f d else d).key = d.key := by
    split
    · exact hf d
    · rfl
  have hid (d : Device) : (if d.id = id then f d else d).id = d.id :=
    congrArg Prod.snd (hkey d)
  have htoken (d : Device) : (if d.id = id then f d else d).tokenHash = d.tokenHash :=
    congrArg Prod.fst (hkey d)
  constructor
  · simpa [updateDevice, Function.comp_def, hid] using hx.ids
  · simpa [updateDevice, Function.comp_def, htoken] using hx.tokens
  · exact hx.issuedIds
  · exact hx.bound
  · exact hx.gone
  · intro e
    rw [show (x.updateDevice id f).devices.map Device.key = x.devices.map Device.key by
      simp [updateDevice, Function.comp_def, hkey]]
    exact hx.keys e

theorem Sound.delete (hx : x.Sound) (id : Int) : (x.delete id).Sound := by
  constructor
  · exact List.Nodup.sublist (List.Sublist.map _ List.filter_sublist) hx.ids
  · exact List.Nodup.sublist (List.Sublist.map _ List.filter_sublist) hx.tokens
  · exact hx.issuedIds
  · exact hx.bound
  · intro id' hid'
    rcases List.mem_append.mp hid' with hid' | hid'
    · exact hx.gone id' hid'
    · obtain ⟨d, hd, rfl⟩ := List.mem_map.mp hid'
      exact hx.bound _ (hx.key_mem (List.mem_filter.mp hd).1).1
  · intro e
    constructor
    · intro he
      obtain ⟨d, hd, rfl⟩ := List.mem_map.mp he
      obtain ⟨hd, hne⟩ := List.mem_filter.mp hd
      obtain ⟨hissued, halive⟩ := hx.key_mem hd
      refine ⟨hissued, ?_⟩
      intro hdeleted
      rcases List.mem_append.mp hdeleted with h | h
      · exact halive h
      · obtain ⟨d', hd', hsame⟩ := List.mem_map.mp h
        have hid : d'.id = id := by simpa using (List.mem_filter.mp hd').2
        exact (of_decide_eq_true hne) (hsame.symm.trans hid)
    · rintro ⟨hissued, halive⟩
      have hold : e.2 ∉ x.deleted := fun h => halive (List.mem_append_left _ h)
      obtain ⟨d, hd, rfl⟩ := List.mem_map.mp ((hx.keys e).mpr ⟨hissued, hold⟩)
      apply List.mem_map_of_mem
      apply List.mem_filter.mpr
      refine ⟨hd, decide_eq_true ?_⟩
      intro hid
      apply halive
      apply List.mem_append_right
      exact List.mem_map.mpr ⟨d, List.mem_filter.mpr ⟨hd, decide_eq_true hid⟩, rfl⟩

theorem Sound.lookup_iff (hx : x.Sound) {hash : String} {id : Int} :
    (∃ d ∈ x.getDeviceByTokenHash hash, d.id = id) ↔
      (hash, id) ∈ x.issued ∧ id ∉ x.deleted := by
  rw [show ((hash, id) ∈ x.issued ∧ id ∉ x.deleted) ↔ _ from (hx.keys (hash, id)).symm]
  constructor
  · rintro ⟨d, hd, rfl⟩
    have htoken : d.tokenHash = hash := by simpa using List.find?_some hd
    rw [← htoken]
    exact List.mem_map_of_mem (f := Device.key) (List.mem_of_find?_eq_some hd)
  · intro hkey
    obtain ⟨d, hd, hde⟩ := List.mem_map.mp hkey
    have htoken : d.tokenHash = hash := congrArg Prod.fst hde
    have hsome : (x.getDeviceByTokenHash hash).isSome := by
      rw [getDeviceByTokenHash, List.find?_isSome]
      exact ⟨d, hd, by simp [htoken]⟩
    obtain ⟨d', hd'⟩ := Option.isSome_iff_exists.mp hsome
    have htoken' : d'.tokenHash = hash := by simpa using List.find?_some hd'
    have hsame : d' = d := List.inj_on_of_nodup_map hx.tokens (List.mem_of_find?_eq_some hd') hd
      (htoken'.trans htoken.symm)
    exact ⟨d', hd', hsame ▸ congrArg Prod.snd hde⟩

theorem Sound.create (hx : x.Sound) (name hash : String) : (x.create name hash).2.Sound := by
  unfold Devices.create
  split
  · exact hx
  · rename_i hnone
    have hnew : hash ∉ x.devices.map (·.tokenHash) := by
      intro hmem
      obtain ⟨d, hd, htoken⟩ := List.mem_map.mp hmem
      exact hnone (List.any_eq_true.mpr ⟨d, hd, decide_eq_true htoken⟩)
    have hid : ∀ e ∈ x.issued, e.2 ≠ x.deviceSeq + 1 := by
      intro e he
      have := hx.bound e he
      omega
    constructor
    · simp only [List.map_append, List.map_cons, List.map_nil]
      apply List.nodup_append.mpr
      refine ⟨hx.ids, by simp, ?_⟩
      intro id hmem id' hmem'
      obtain ⟨d, hd, rfl⟩ := List.mem_map.mp hmem
      rw [List.mem_singleton] at hmem'
      subst hmem'
      exact hid _ (hx.key_mem hd).1
    · simp only [List.map_append, List.map_cons, List.map_nil]
      apply List.nodup_append.mpr
      refine ⟨hx.tokens, by simp, ?_⟩
      rintro token htoken token' htoken' rfl
      rw [List.mem_singleton] at htoken'
      exact hnew (htoken' ▸ htoken)
    · simp only [List.map_append, List.map_cons, List.map_nil]
      apply List.nodup_append.mpr
      refine ⟨hx.issuedIds, by simp, ?_⟩
      intro id hmem id' hmem'
      obtain ⟨e, he, rfl⟩ := List.mem_map.mp hmem
      rw [List.mem_singleton] at hmem'
      subst hmem'
      exact hid e he
    · intro e he
      rcases List.mem_append.mp he with he | he
      · have := hx.bound e he
        dsimp only
        omega
      · rw [List.mem_singleton.mp he]
    · intro id hdeleted
      have := hx.gone id hdeleted
      dsimp only
      omega
    · intro e
      simp only [List.map_append, List.map_cons, List.map_nil, List.mem_append,
        List.mem_singleton, hx.keys e, Device.key]
      constructor
      · rintro (⟨hissued, halive⟩ | rfl)
        · exact ⟨.inl hissued, halive⟩
        · refine ⟨.inr rfl, ?_⟩
          intro hdeleted
          have := hx.gone _ hdeleted
          dsimp only at this
          omega
      · rintro ⟨hissued | hnew, halive⟩
        · exact .inl ⟨hissued, halive⟩
        · exact .inr hnew

end Devices

/-! ## What a request may do -/

/-- A device is created once, for a token just drawn and a passphrase that was
found right. -/
def Asks (r : DeviceRequest) (k : Told) : DeviceCall → Prop
  | .createDevice _ tokenHash =>
      (∃ f, r = .pair f ∧ accepted H f.passphrase k.stored) ∧
        k.token.map H.hashToken = some tokenHash ∧ k.created = none
  | .passphraseHash | .newToken => k.created = none
  | _ => True

def Promises (r : DeviceRequest) (k : Told) : Reply → Prop
  | .paired token => k.token = some token ∧ ∃ id, k.created = some (H.hashToken token, id)
  | .kiosk dev => ∃ value, r = .kiosk (some value) ∧ k.found = some (H.hashToken value, dev.id)
  | _ => True

abbrev Honoured (r : DeviceRequest) : Told → DeviceProg → Prop :=
  fun k p => p.Honours Told.after (Asks H r) (Promises H r) k

variable {H}

theorem honoured_pairPip {r : DeviceRequest} {k : Told} {f : PairForm} {token : String}
    {dev : Device} (htoken : k.token = some token)
    (hcreated : k.created = some (H.hashToken token, dev.id)) :
    Honoured H r k (pairPip f token dev) := by
  unfold pairPip
  dsimp only
  split
  · exact ⟨trivial, fun _ => ⟨htoken, dev.id, hcreated⟩⟩
  · exact ⟨htoken, dev.id, hcreated⟩

theorem honoured_pairDevice {k : Told} {f : PairForm} {token : Option String}
    (haccepted : accepted H f.passphrase k.stored) (htoken : k.token = token)
    (hcreated : k.created = none) : Honoured H (.pair f) k (pairDevice H f token) := by
  cases token with
  | none => trivial
  | some token =>
      refine ⟨⟨⟨f, rfl, haccepted⟩, by simp [htoken], hcreated⟩, ?_⟩
      intro dev
      cases dev with
      | none => trivial
      | some dev =>
          simp only [pairPlaylist]
          split
          · exact ⟨trivial, fun _ => honoured_pairPip htoken rfl⟩
          · exact honoured_pairPip htoken rfl

theorem honoured_handle (r : DeviceRequest) : Honoured H r {} (r.handle H) := by
  cases r with
  | pair f =>
      refine ⟨rfl, ?_⟩
      intro hash
      dsimp only
      split
      · rename_i haccepted
        exact ⟨rfl, fun token => honoured_pairDevice haccepted rfl rfl⟩
      · trivial
  | kiosk cookie =>
      cases cookie with
      | none => trivial
      | some value =>
          simp only [DeviceRequest.handle, requireKiosk]
          split
          · trivial
          · refine ⟨trivial, ?_⟩
            intro dev
            cases dev with
            | none => trivial
            | some dev => exact ⟨trivial, fun _ => ⟨value, rfl, rfl⟩⟩
  | assign id f =>
      simp only [DeviceRequest.handle, handleDeviceAssign]
      cases atoi id with
      | none => trivial
      | some id =>
          refine ⟨trivial, ?_⟩
          intro ok
          cases ok with
          | false => trivial
          | true => exact ⟨trivial, fun ok => by cases ok <;> trivial⟩
  | delete id =>
      simp only [DeviceRequest.handle, handleDeviceDelete]
      cases atoi id with
      | none => trivial
      | some id => exact ⟨trivial, fun ok => by cases ok <;> trivial⟩
  | rename id name =>
      simp only [DeviceRequest.handle, handleDeviceRename]
      cases atoi id with
      | none => trivial
      | some id =>
          dsimp only
          split
          · exact ⟨trivial, fun _ => trivial⟩
          · trivial

/-! ## Runs -/

/-- The device of the entry was created by the request, whose passphrase was
found right, for a token with that hash. -/
def Admitted (H : Hashes) (hash : Option String) (j : DeviceJob) (e : String × Int) : Prop :=
  (∃ f, j.request = .pair f ∧ accepted H f.passphrase hash) ∧
    j.note.token.map H.hashToken = some e.1 ∧ j.note.created = some e

structure Site.Sound (H : Hashes) (hash : Option String) (s : Site) : Prop where
  table : s.object.Sound
  unchanged : s.object.passphraseHash = hash
  stored : ∀ j ∈ s.jobs, j.note.stored = none ∨ j.note.stored = hash
  admitted : ∀ j ∈ s.jobs, ∀ e, j.note.created = some e → Admitted H hash j e
  created : s.object.issued.Perm (s.jobs.filterMap (·.note.created))
  found : ∀ j ∈ s.jobs, ∀ e, j.note.found = some e → e ∈ s.object.issued

variable {hash : Option String} {s t : Site}

theorem accepted_stored {passphrase : String} {stored : Option String}
    (h : stored = none ∨ stored = hash) (haccepted : accepted H passphrase stored) :
    accepted H passphrase hash := by
  rcases h with rfl | rfl
  · simp [accepted] at haccepted
  · exact haccepted

namespace Site

variable {i : Nat} {j j' : DeviceJob} {x : Devices}

theorem Sound.pass (hs : s.Sound H hash) (hj : s.jobs[i]? = some j) (hx : x.Sound)
    (hunchanged : x.passphraseHash = s.object.passphraseHash)
    (hissued : x.issued = s.object.issued)
    (hstored : j'.note.stored = none ∨ j'.note.stored = hash)
    (hcreated : j'.note.created = j.note.created)
    (hadmitted : ∀ e, j'.note.created = some e → Admitted H hash j' e)
    (hfound : ∀ e, j'.note.found = some e → e ∈ s.object.issued) :
    Sound H hash ⟨x, s.jobs.set i j'⟩ := by
  constructor
  · exact hx
  · exact hunchanged.trans hs.unchanged
  · exact forall_resumed hs.stored i hstored
  · exact forall_resumed hs.admitted i hadmitted
  · simp only [hissued]
    rw [filterMap_set_of_eq hj hcreated]
    exact hs.created
  · simp only [hissued]
    exact forall_resumed hs.found i hfound

theorem Sound.silent (hs : s.Sound H hash) (hj : s.jobs[i]? = some j) (hx : x.Sound)
    (hunchanged : x.passphraseHash = s.object.passphraseHash)
    (hissued : x.issued = s.object.issued) (hrequest : j'.request = j.request)
    (hnote : j'.note = j.note) : Sound H hash ⟨x, s.jobs.set i j'⟩ := by
  have hmem := List.mem_of_getElem? hj
  apply hs.pass hj hx hunchanged hissued
  · rw [hnote]
    exact hs.stored j hmem
  · rw [hnote]
  · simpa only [Admitted, hrequest, hnote] using hs.admitted j hmem
  · rw [hnote]
    exact hs.found j hmem

theorem Sound.create (hs : s.Sound H hash) (hj : s.jobs[i]? = some j)
    {next : Option Device → DeviceProg} {env : Env} {name tokenHash : String}
    (hasks : Asks H j.request j.note (.createDevice name tokenHash)) :
    let out := DeviceCall.exec env (.createDevice name tokenHash) s.object
    Sound H hash
      { object := out.2
        jobs := s.jobs.set i
          ⟨j.request, next out.1, j.note.after (.createDevice name tokenHash) out.1⟩ } := by
  intro out
  obtain ⟨⟨f, hf, haccepted⟩, htoken, hnone⟩ := hasks
  have hmem := List.mem_of_getElem? hj
  have hrefused : out = (none, s.object) → Sound H hash
      { object := out.2
        jobs := s.jobs.set i
          ⟨j.request, next out.1, j.note.after (.createDevice name tokenHash) out.1⟩ } := by
    intro hout
    rw [hout]
    apply hs.pass hj hs.table rfl rfl
    · exact hs.stored j hmem
    · exact hnone.symm
    · intro e he
      cases he
    · exact hs.found j hmem
  by_cases hfailed : env.failed
  · exact hrefused (by simp [out, DeviceCall.exec, hfailed])
  by_cases hthere : s.object.devices.any (·.tokenHash = tokenHash)
  · exact hrefused (by simp [out, DeviceCall.exec, hfailed, Devices.create, hthere])
  clear hrefused
  have htable : out.2.Sound := by
    have h := hs.table.create name tokenHash
    simpa [out, DeviceCall.exec, hfailed] using h
  have hcreated : (j.note.after (.createDevice name tokenHash) out.1).created =
      some (tokenHash, s.object.deviceSeq + 1) := by
    simp [out, DeviceCall.exec, hfailed, Devices.create, hthere, Told.after]
  have hissued : out.2.issued = s.object.issued ++ [(tokenHash, s.object.deviceSeq + 1)] := by
    simp [out, DeviceCall.exec, hfailed, Devices.create, hthere]
  constructor
  · exact htable
  · rw [← hs.unchanged]
    simp [out, DeviceCall.exec, hfailed, Devices.create, hthere]
  · exact forall_resumed hs.stored i (hs.stored j hmem)
  · apply forall_resumed hs.admitted
    intro e he
    dsimp only at he
    rw [hcreated] at he
    cases he
    exact ⟨⟨f, hf, accepted_stored (hs.stored j hmem) haccepted⟩, htoken, hcreated⟩
  · dsimp only
    rw [hissued]
    apply List.Perm.trans (List.Perm.append_right _ hs.created)
    have hperm := filterMap_set_perm (f := fun k : DeviceJob => k.note.created)
      (u := ⟨j.request, next out.1, j.note.after (.createDevice name tokenHash) out.1⟩) hj hnone
    rw [hcreated] at hperm
    exact hperm.symm
  · dsimp only
    rw [hissued]
    apply forall_resumed
    · intro k hk e he
      exact List.mem_append_left _ (hs.found k hk e he)
    · intro e he
      exact List.mem_append_left _ (hs.found j hmem e he)

theorem Sound.resume (hs : s.Sound H hash) (hj : s.jobs[i]? = some j) {env : Env}
    {c : DeviceCall} {next : DeviceCall.Res c → DeviceProg}
    (hasks : Asks H j.request j.note c) :
    Sound H hash
      { object := (c.exec env s.object).2
        jobs := s.jobs.set i ((pairing H).resumed env s.object j c next) } := by
  have hmem := List.mem_of_getElem? hj
  cases c with
  | createDevice name tokenHash => exact hs.create hj hasks
  | passphraseHash =>
      apply hs.pass hj hs.table rfl rfl
      · simp only [Service.resumed, pairing, DeviceCall.exec, Told.after]
        split
        · exact .inl rfl
        · exact .inr hs.unchanged
      · rfl
      · intro e he
        cases hasks.symm.trans he
      · exact hs.found j hmem
  | newToken =>
      apply hs.pass hj hs.table rfl rfl
      · exact hs.stored j hmem
      · rfl
      · intro e he
        cases hasks.symm.trans he
      · exact hs.found j hmem
  | getDeviceByTokenHash tokenHash =>
      apply hs.pass hj hs.table rfl rfl
      · exact hs.stored j hmem
      · rfl
      · exact hs.admitted j hmem
      · intro e he
        simp only [Service.resumed, pairing, DeviceCall.exec, Told.after] at he
        split at he
        · cases he
        · obtain ⟨d, hd, rfl⟩ := Option.map_eq_some_iff.mp he
          exact (hs.table.lookup_iff.mp ⟨d, hd, rfl⟩).1
  | setDevicePlaylist playlistID id =>
      simp only [DeviceCall.exec]
      split
      · exact hs.silent hj hs.table rfl rfl rfl rfl
      · exact hs.silent hj (hs.table.update id fun _ => rfl) rfl rfl rfl rfl
  | setDevicePip pipPlaylistID pipConfigJson id =>
      simp only [DeviceCall.exec]
      split
      · exact hs.silent hj hs.table rfl rfl rfl rfl
      · exact hs.silent hj (hs.table.update id fun _ => rfl) rfl rfl rfl rfl
  | touchDevice id =>
      simp only [DeviceCall.exec]
      split
      · exact hs.silent hj hs.table rfl rfl rfl rfl
      · exact hs.silent hj (hs.table.update id fun _ => rfl) rfl rfl rfl rfl
  | updateDeviceName name id =>
      simp only [DeviceCall.exec]
      split
      · exact hs.silent hj hs.table rfl rfl rfl rfl
      · exact hs.silent hj (hs.table.update id fun _ => rfl) rfl rfl rfl rfl
  | deleteDevice id =>
      simp only [DeviceCall.exec]
      split
      · exact hs.silent hj hs.table rfl rfl rfl rfl
      · exact hs.silent hj (hs.table.delete id) rfl rfl rfl rfl

theorem sound_run (H : Hashes) (hash : Option String)
    {acts : List (Service.Act DeviceRequest Env)}
    (hrun : (pairing H).acts.run { object := { passphraseHash := hash } } acts = some s) :
    Service.Honest Told.after (Asks H) (Promises H) s.jobs ∧ s.Sound H hash := by
  apply Service.run_invariant_honest (I := Sound H hash) _ _ _ _ _ hrun
  · intro _ _ _ _
    rfl
  · exact honoured_handle
  · intro s r hs
    constructor
    · exact hs.table
    · exact hs.unchanged
    · exact forall_started hs.stored (.inl rfl)
    · apply forall_started hs.admitted
      intro e he
      cases he
    · simpa [Service.started, pairing] using hs.created
    · apply forall_started hs.found
      intro e he
      cases he
  · intro s i env j o next _ hs hj _ hasks
    exact hs.resume hj hasks
  · refine ⟨by simp [Service.Honest], ?_⟩
    constructor
    · constructor <;> simp
    · rfl
    · simp
    · simp
    · simp
    · simp

/-- A cookie is that of the device created for it, until that is deleted. -/
structure Paired (H : Hashes) (hash : Option String) (s : Site) : Prop where
  cookie_iff : ∀ (cookie : String) (id : Int),
    (∃ d ∈ s.object.getDeviceByTokenHash (H.hashToken cookie), d.id = id) ↔
      id ∉ s.object.deleted ∧ ∃ j ∈ s.jobs, Admitted H hash j (H.hashToken cookie, id)
  served : ∀ j ∈ s.jobs, ∀ cookie d, j.request = .kiosk cookie → j.answer? = some (.kiosk d) →
    ∃ value, cookie = some value ∧ ∃ k ∈ s.jobs, Admitted H hash k (H.hashToken value, d.id)
  paired : ∀ j ∈ s.jobs, ∀ token, j.answer? = some (.paired token) →
    ∃ id, Admitted H hash j (H.hashToken token, id)
  apart : (s.jobs.filterMap fun j => j.note.created.map Prod.snd).Nodup

theorem served_as_paired (H : Hashes) (hash : Option String)
    {acts : List (Service.Act DeviceRequest Env)}
    (hrun : (pairing H).acts.run { object := { passphraseHash := hash } } acts = some s) :
    s.Paired H hash := by
  obtain ⟨hhonest, hs⟩ := sound_run H hash hrun
  have hissued : ∀ e, e ∈ s.object.issued ↔ ∃ j ∈ s.jobs, Admitted H hash j e := by
    intro e
    rw [hs.created.mem_iff, List.mem_filterMap]
    constructor
    · rintro ⟨j, hj, he⟩
      exact ⟨j, hj, hs.admitted j hj e he⟩
    · rintro ⟨j, hj, he⟩
      exact ⟨j, hj, he.2.2⟩
  constructor
  · intro cookie id
    rw [hs.table.lookup_iff, hissued]
    exact And.comm
  · intro j hj cookie d hrequest hanswer
    obtain ⟨value, hvalue, hfound⟩ := hhonest.answered hj hanswer
    refine ⟨value, ?_, (hissued _).mp (hs.found j hj _ hfound)⟩
    rw [hrequest] at hvalue
    exact (DeviceRequest.kiosk.inj hvalue)
  · intro j hj token hanswer
    obtain ⟨-, id, hcreated⟩ := hhonest.answered hj hanswer
    exact ⟨id, hs.admitted j hj _ hcreated⟩
  · have hnodup := (hs.created.map Prod.snd).nodup_iff.mp hs.table.issuedIds
    rwa [List.map_filterMap] at hnodup

private def stored : String :=
  "$argon2id$v=19$m=65536,t=1,p=4$AQIDBAUGBwgJCgsMDQ4PEA$" ++
    "/TxFD4MX2DOtPBgnxhIh5/nxjMevdrgeYEecOAU64qI"

private def first : String := "JTA7RlFcZ3J9iJOeqbS_ytXg6_YBDBciLThDTllkb3o"

private def second : String := "SlVga3aBjJeirbjDztnk7_oFEBsmMTxHUl1oc36JlJ8"

private def hashes : Hashes where
  hashToken token :=
    if token = first then "41cb42d1a32d56951c3bb9188999d5df45b8acf6181d6c21f049abe2414bab62"
    else if token = second then
      "52ecdeb9866e4710e9cbb55391e0bbafc58576eba1a32916b343c358b72a3e3b"
    else ""
  verify passphrase hash := if hash = stored then some (passphrase = "familie") else none

private def form (passphrase : String) : PairForm := { passphrase, playlistID := "2" }

/-- Two screens are paired at the same time, a third is not; the first is
served, deleted and sent back to the pairing page. -/
private def pairings : List (Service.Act DeviceRequest Env) :=
  [.start (.pair (form "familie")), .start (.pair (form "familie")),
    .start (.pair (form "gezin")), .resume 0 {}, .resume 1 {}, .resume 2 {},
    .resume 0 { token := some first }, .resume 1 { token := some second },
    .resume 1 {}, .resume 0 {}, .resume 0 { failed := true }, .resume 1 {},
    .start (.kiosk (some first)), .resume 3 {}, .resume 3 { now := "2026-05-30T08:00:00Z" },
    .start (.delete "2"), .resume 4 {}, .start (.kiosk (some first)), .resume 5 {}]

theorem served_as_paired_overlapping :
    ∃ s, (pairing hashes).acts.run { object := { passphraseHash := some stored } } pairings =
        some s ∧
      s.object.devices.map (·.id) = [1] ∧ s.object.deleted = [2] ∧
      s.jobs.map (·.answer?.isSome) = [true, true, true, true, true, true] ∧
      Paired hashes (some stored) s := by
  obtain ⟨s, hrun⟩ : ∃ s, (pairing hashes).acts.run
      { object := { passphraseHash := some stored } } pairings = some s := ⟨_, rfl⟩
  refine ⟨s, hrun, ?_, ?_, ?_, served_as_paired hashes (some stored) hrun⟩
  all_goals
    cases hrun
    decide +kernel

end Site

end FamilyPlanner.Server.Pairing

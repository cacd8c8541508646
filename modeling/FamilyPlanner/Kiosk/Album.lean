import FamilyPlanner.Foundation.Sorting
import FamilyPlanner.Kiosk.Slideshow
import FamilyPlanner.Widget.Graph
import FamilyPlanner.Widget.Providers
import Mathlib.Data.String.Basic

/-!
# From the drive to the slideshow

The photos of the linked folders go through a listing, a sort, the captions
with their cache of places, the widget's data and the shuffles of the page, and
each keeps its own caption.
-/

namespace FamilyPlanner.Kiosk.Album

open FamilyPlanner.Foundation FamilyPlanner.Widget FamilyPlanner.Widget.Graph

/-! ## The listing of a folder -/

structure Thumbnail where
  large : Option String
  medium : Option String
  deriving DecidableEq, Repr

/-- `file`, `photo` and `location` are those of their fields that are read; a
coordinate is an `ω`. -/
structure DriveEntry (ω : Type) where
  mimeType : Option String
  downloadURL : String
  createdDateTime : String
  takenDateTime : Option String
  location : Option (ω × ω)
  thumbnails : List Thumbnail

section Listing

variable {ω : Type} [Zero ω] [DecidableEq ω]

def isImage (it : DriveEntry ω) : Bool :=
  match it.mimeType with
  | some mimeType => "image/".toList.isPrefixOf mimeType.toList
  | none => false

def thumbnailURL (it : DriveEntry ω) : String :=
  match it.thumbnails with
  | ⟨some url, _⟩ :: _ => url
  | ⟨none, some url⟩ :: _ => url
  | _ => ""

def photoURL (it : DriveEntry ω) : String :=
  if thumbnailURL it = "" ∧ isImage it then it.downloadURL else thumbnailURL it

def taken (it : DriveEntry ω) : String :=
  match it.takenDateTime with
  | some t => if t ≠ "" then t else it.createdDateTime
  | none => it.createdDateTime

/-- `tenThousandths` is the number of the geocoder's request. -/
def geoOf (tenThousandths : ω → Int) (it : DriveEntry ω) : Option (Int × Int) :=
  match it.location with
  | some (lat, lon) =>
      if lat ≠ 0 ∨ lon ≠ 0 then some (tenThousandths lat, tenThousandths lon) else none
  | none => none

def photoOf (tenThousandths : ω → Int) (it : DriveEntry ω) : Option PhotoItem :=
  if photoURL it = "" ∨ (isImage it = false ∧ it.thumbnails = []) then none
  else some ⟨photoURL it, taken it, geoOf tenThousandths it⟩

def photosURL (folderID : String) : String :=
  let path :=
    if folderID ≠ "" then "/me/drive/items/" ++ folderID ++ "/children"
    else "/me/drive/root/children"
  graphBase ++ path ++ "?$top=200&$expand=thumbnails"

abbrev Drive (ω : Type) := String → String → Except String (Response (Graph.Page (DriveEntry ω)))

def graphFolderPhotos (tenThousandths : ω → Int) (sort : SortBy PhotoItem.taken) (drive : Drive ω)
    (token folderID : String) : Except String (List PhotoItem) :=
  match graphGet (drive token (photosURL folderID)) with
  | .error err => .error err
  | .ok body => .ok (sort.sort (body.value.filterMap (photoOf tenThousandths)))

def withDrives (tenThousandths : ω → Int) (sort : SortBy PhotoItem.taken) (drives : Nat → Drive ω)
    (net : Net) : Net :=
  { net with
    source := fun i =>
      { net.source i with
        graphFolderPhotos := graphFolderPhotos tenThousandths sort (drives i) } }

end Listing

/-! ## Captions -/

section Caption

variable (h : Helpers) (net : Net)

/-- The place of the first of the photos that the rounding does not tell apart. -/
def placeOf (geos : List (Int × Int)) (geo : Int × Int) : String :=
  net.geocodeReverse ((geos.find? fun g => h.geoKey g = h.geoKey geo).getD geo)

def withPlace (c place : String) : String :=
  if place = "" then c else if c = "" then place else c ++ " · " ++ place

def captionOf (full : Bool) (geos : List (Int × Int)) (it : PhotoItem) : String :=
  match it.geo, full with
  | some geo, true => withPlace (h.photoDate it.taken) (placeOf h net geos geo)
  | _, _ => h.photoDate it.taken

/-- The cache holds the place of the first photo for each key that was looked up. -/
def Remembers (cache : List ((Int × Int) × String)) (geos : List (Int × Int)) : Prop :=
  ∀ key, cache.lookup key = (geos.find? fun g => h.geoKey g = key).map net.geocodeReverse

variable {h net} {cache : List ((Int × Int) × String)} {seen : List (Int × Int)}

theorem Remembers.place (hcache : Remembers h net cache seen) (geo : Int × Int)
    (rest : List (Int × Int)) :
    (cache.lookup (h.geoKey geo)).getD (net.geocodeReverse geo) =
      placeOf h net (seen ++ geo :: rest) geo := by
  rw [hcache, placeOf, List.find?_append]
  cases hfind : seen.find? fun g => h.geoKey g = h.geoKey geo with
  | some g => simp
  | none => simp

theorem Remembers.add (hcache : Remembers h net cache seen) (geo : Int × Int) :
    Remembers h net
      ((h.geoKey geo, (cache.lookup (h.geoKey geo)).getD (net.geocodeReverse geo)) :: cache)
      (seen ++ [geo]) := by
  intro key
  rw [List.find?_append]
  by_cases hkey : key = h.geoKey geo
  · subst hkey
    rw [List.lookup_cons_self, hcache]
    cases hfind : seen.find? fun g => h.geoKey g = h.geoKey geo with
    | some g => simp
    | none => simp
  · have hne : (key == h.geoKey geo) = false := beq_eq_false_iff_ne.mpr hkey
    have hother : decide (h.geoKey geo = key) = false := decide_eq_false (Ne.symm hkey)
    rw [List.lookup_cons, hne]
    simp [hother, hcache key]

theorem captions_dates (its : List PhotoItem) :
    captions h net false cache its = its.map fun it => h.photoDate it.taken := by
  induction its with
  | nil => rfl
  | cons it its ih =>
      cases hgeo : it.geo with
      | none => simp [captions, hgeo, ih]
      | some geo => simp [captions, hgeo, ih]

theorem captions_places (hcache : Remembers h net cache seen) (its : List PhotoItem) :
    captions h net true cache its =
      its.map (captionOf h net true (seen ++ its.filterMap PhotoItem.geo)) := by
  induction its generalizing cache seen with
  | nil => rfl
  | cons it its ih =>
      cases hgeo : it.geo with
      | none =>
          rw [List.filterMap_cons_none hgeo, List.map_cons, ← ih hcache]
          simp [captions, captionOf, hgeo]
      | some geo =>
          have hlist : seen ++ geo :: its.filterMap PhotoItem.geo =
              seen ++ [geo] ++ its.filterMap PhotoItem.geo := by
            simp
          rw [List.filterMap_cons_some hgeo, List.map_cons]
          have hplace := hcache.place geo (its.filterMap PhotoItem.geo)
          have hrest := ih (hcache.add geo)
          rw [← hlist] at hrest
          rw [← hrest]
          simp [captions, captionOf, hgeo, withPlace, ← hplace]

theorem captions_eq (full : Bool) (its : List PhotoItem) :
    captions h net full [] its =
      its.map (captionOf h net full (its.filterMap PhotoItem.geo)) := by
  cases full with
  | false =>
      rw [captions_dates]
      apply List.map_congr_left
      intro it _
      cases hgeo : it.geo with
      | none => simp [captionOf, hgeo]
      | some geo => simp [captionOf, hgeo]
  | true =>
      have hempty : Remembers h net [] [] := fun key => rfl
      exact captions_places hempty its

end Caption

/-! ## The album -/

section Fetch

variable {ω : Type} [Zero ω] [DecidableEq ω] {tenThousandths : ω → Int}
  {sort : SortBy PhotoItem.taken} {drives : Nat → Drive ω} {net : Net} {h : Helpers}
  {cfg : PhotosConfig} {sources : List SourceInput}

def contribution (tenThousandths : ω → Int) (sort : SortBy PhotoItem.taken)
    (drives : Nat → Drive ω) (p : SourceInput × Nat) : List PhotoItem :=
  if Secret.getAccessToken p.1.secret = "" ∨ p.1.type ≠ .onedrive then []
  else
    match graphFolderPhotos tenThousandths sort (drives p.2) (Secret.getAccessToken p.1.secret)
        p.1.resource with
    | .error _ => []
    | .ok items => items

def album (tenThousandths : ω → Int) (sort : SortBy PhotoItem.taken) (drives : Nat → Drive ω)
    (sources : List SourceInput) : List PhotoItem :=
  sources.zipIdx.flatMap (contribution tenThousandths sort drives)

def Listed (tenThousandths : ω → Int) (drives : Nat → Drive ω) (sources : List SourceInput)
    (it : PhotoItem) : Prop :=
  ∃ i s, sources[i]? = some s ∧ s.type = .onedrive ∧ Secret.getAccessToken s.secret ≠ "" ∧
    ∃ body, graphGet (drives i (Secret.getAccessToken s.secret) (photosURL s.resource)) =
      .ok body ∧ ∃ e ∈ body.value, photoOf tenThousandths e = some it

theorem mem_contribution {p : SourceInput × Nat} {it : PhotoItem} :
    it ∈ contribution tenThousandths sort drives p ↔
      p.1.type = .onedrive ∧ Secret.getAccessToken p.1.secret ≠ "" ∧
        ∃ body, graphGet (drives p.2 (Secret.getAccessToken p.1.secret)
          (photosURL p.1.resource)) = .ok body ∧
            ∃ e ∈ body.value, photoOf tenThousandths e = some it := by
  unfold contribution graphFolderPhotos
  by_cases hskip : Secret.getAccessToken p.1.secret = "" ∨ p.1.type ≠ .onedrive
  · rw [if_pos hskip]
    simp only [List.not_mem_nil, false_iff]
    rintro ⟨htype, htoken, -⟩
    exact hskip.elim htoken fun hne => hne htype
  · rw [if_neg hskip]
    push Not at hskip
    cases graphGet (drives p.2 (Secret.getAccessToken p.1.secret) (photosURL p.1.resource)) with
    | error err => simp
    | ok body => simp [hskip.1, hskip.2]

theorem mem_album {it : PhotoItem} :
    it ∈ album tenThousandths sort drives sources ↔ Listed tenThousandths drives sources it := by
  simp only [album, List.mem_flatMap, mem_contribution, Listed, Prod.exists,
    List.mk_mem_zipIdx_iff_getElem?]
  constructor
  · rintro ⟨s, i, hsource, hlisted⟩
    exact ⟨i, s, hsource, hlisted⟩
  · rintro ⟨i, s, hsource, hlisted⟩
    exact ⟨s, i, hsource, hlisted⟩

theorem items_visitPhotos (p : SourceInput × Nat) :
    (visitPhotos ((withDrives tenThousandths sort drives net).source p.2) p.1).items =
      contribution tenThousandths sort drives p := by
  unfold visitPhotos contribution
  split
  · rfl
  · simp only [withDrives]
    cases graphFolderPhotos tenThousandths sort (drives p.2) (Secret.getAccessToken p.1.secret)
      p.1.resource with
    | error err => rfl
    | ok items => rfl

def captioned (cfg : PhotosConfig) : Prop := cfg.caption = "date" ∨ cfg.caption = "full"

instance : Decidable (captioned cfg) := inferInstanceAs (Decidable (_ ∨ _))

/-- The caption of a photo of the album of these sources. -/
def ownCaption (h : Helpers) (net : Net) (cfg : PhotosConfig) (album : List PhotoItem)
    (it : PhotoItem) : String :=
  captionOf h net (cfg.caption = "full") (album.filterMap PhotoItem.geo) it

theorem fetchPhotos_data {data : Widget.Data} {ttl : Duration}
    (hok : fetchPhotos h (withDrives tenThousandths sort drives net) cfg sources =
      .ok (some data, ttl)) :
    ∃ secs, data = .photos ((album tenThousandths sort drives sources).map PhotoItem.url)
      (if captioned cfg then
        (album tenThousandths sort drives sources).map
          (ownCaption h net cfg (album tenThousandths sort drives sources))
      else []) secs := by
  have hitems : ∀ visit : SourceInput × Nat → Visit PhotoItem String,
      (∀ p, visit p =
        visitPhotos ((withDrives tenThousandths sort drives net).source p.2) p.1) →
      (Tally.of (sources.zipIdx.map visit)).items =
        album tenThousandths sort drives sources := by
    intro visit hvisit
    rw [Tally.of_items, List.flatMap_map]
    apply List.flatMap_congr
    intro p _
    rw [hvisit]
    exact items_visitPhotos p
  unfold fetchPhotos at hok
  simp only [hitems _ fun _ => rfl, captions_eq] at hok
  split at hok
  · simp at hok
  · cases hok
    exact ⟨_, rfl⟩

end Fetch

/-! ## On the screen -/

section Screen

open Slideshow

variable {s : Slideshow}

theorem fpStep_caps (s : Slideshow) (dir : Int) : (s.fpStep dir).caps = s.caps := by
  simp only [fpStep]
  split_ifs <;> rfl

theorem next_of_one (h : s.urls.length < 2) (e : Slideshow.Input) : (s.next e).painted = s.painted := by
  cases e with
  | step dir => rw [next, fpStep, if_pos h]
  | others draws => rfl

theorem next_lists (e : Slideshow.Input) : (s.next e).urls = s.urls ∧ (s.next e).caps = s.caps := by
  cases e with
  | step dir => exact ⟨fpStep_urls s dir, fpStep_caps s dir⟩
  | others draws => exact ⟨rfl, rfl⟩

theorem run_lists (inputs : List Slideshow.Input) :
    (inputs.foldl next s).urls = s.urls ∧ (inputs.foldl next s).caps = s.caps := by
  induction inputs generalizing s with
  | nil => exact ⟨rfl, rfl⟩
  | cons e inputs ih =>
      rw [List.foldl_cons]
      exact ⟨ih.1.trans (next_lists e).1, ih.2.trans (next_lists e).2⟩

theorem captioned_of_one (h : s.urls.length < 2) (hs : s.Captioned) (inputs : List Slideshow.Input) :
    (inputs.foldl next s).Captioned := by
  induction inputs generalizing s with
  | nil => exact hs
  | cons e inputs ih =>
      have hlists := next_lists (s := s) e
      apply ih
      · rw [hlists.1]
        exact h
      · obtain ⟨i, hurl, hcaption⟩ := hs
        refine ⟨i, ?_, ?_⟩
        · rw [hlists.1, next_of_one h]
          exact hurl
        · rw [hlists.2, next_of_one h]
          exact hcaption

theorem photosFormatter_captions {urls captions : List String} {secs : Int} {c : PhotoCell}
    (hc : photosFormatter (some (.photos urls captions secs)) = some c) :
    c.photoCaptions = captions := by
  cases urls with
  | nil => cases hc
  | cons url rest =>
      cases hc
      rfl

theorem captioned_run {c : PhotoCell} (hfirst : c.photoURLs[0]? = some c.imageURL) (seed : Nat)
    (inputs : List Slideshow.Input) : (inputs.foldl next (startSlideshow c seed)).Captioned := by
  by_cases hn : 2 ≤ c.photoURLs.length
  · exact ((ready_start hn hfirst seed).run inputs).captioned
  · exact captioned_of_one (Nat.lt_of_not_ge hn) ⟨0, hfirst, head?_eq_getD c.photoCaptions⟩ inputs

variable {ω : Type} [Zero ω] [DecidableEq ω] {tenThousandths : ω → Int}
  {sort : SortBy PhotoItem.taken} {drives : Nat → Drive ω} {net : Net} {h : Helpers}
  {cfg : PhotosConfig} {sources : List SourceInput}

/-- The photo on the screen is one of a folder that could be read, under its own caption,
after any steps; and each pass after the first shows the whole album, each photo once. -/
theorem painted_own {data : Widget.Data} {ttl : Duration} {c : PhotoCell}
    (hok : fetchPhotos h (withDrives tenThousandths sort drives net) cfg sources =
      .ok (some data, ttl))
    (hc : photosFormatter (some data) = some c) (seed : Nat) (inputs : List Slideshow.Input) :
    (∃ it, Listed tenThousandths drives sources it ∧
      (inputs.foldl next (startSlideshow c seed)).painted =
        ⟨it.url, if captioned cfg then
          some (ownCaption h net cfg (album tenThousandths sort drives sources) it) else none⟩) ∧
      ∀ others pass, 0 < pass → 2 ≤ (album tenThousandths sort drives sources).length →
        ((startSlideshow c seed).seen others
          (pass * (album tenThousandths sort drives sources).length)
          (album tenThousandths sort drives sources).length).Perm
            ((album tenThousandths sort drives sources).map PhotoItem.url) := by
  obtain ⟨secs, rfl⟩ := fetchPhotos_data hok
  have hmem : ∀ it, it ∈ album tenThousandths sort drives sources ↔
      Listed tenThousandths drives sources it := fun it => mem_album
  generalize album tenThousandths sort drives sources = photos at hc hmem ⊢
  obtain ⟨hurls, hfirst⟩ := photosFormatter_eq hc
  rw [← hurls] at hfirst
  constructor
  · obtain ⟨i, hurl, hcaption⟩ := captioned_run hfirst seed inputs
    have hlists := run_lists (s := startSlideshow c seed) inputs
    have hcaps : (startSlideshow c seed).caps = c.photoCaptions := rfl
    have hsrc : (startSlideshow c seed).urls = photos.map PhotoItem.url := hurls
    rw [hlists.1, hsrc, List.getElem?_map] at hurl
    obtain ⟨it, hit, hurl⟩ := Option.map_eq_some_iff.mp hurl
    refine ⟨it, (hmem it).mp (List.mem_of_getElem? hit), ?_⟩
    rw [hlists.2, hcaps, photosFormatter_captions hc] at hcaption
    generalize (inputs.foldl next (startSlideshow c seed)).painted = painted at hurl hcaption ⊢
    obtain ⟨src, caption⟩ := painted
    cases hurl
    congr 1
    refine Eq.trans hcaption ?_
    by_cases hcaptioned : captioned cfg
    · have hne : photos.map (ownCaption h net cfg photos) ≠ [] :=
        List.ne_nil_of_mem (List.mem_map_of_mem (List.mem_of_getElem? hit))
      rw [if_pos hcaptioned, if_pos hcaptioned, if_neg hne, List.getD_eq_getElem?_getD,
        List.getElem?_map, hit]
      rfl
    · rw [if_neg hcaptioned, if_neg hcaptioned, if_pos rfl]
  · intro others pass hpass htwo
    have hlength : c.photoURLs.length = photos.length := by
      rw [hurls, List.length_map]
    have hready := ready_start (hlength ▸ htwo) hfirst seed
    have hperm := seen_later hready rfl others hpass
    have hstart : (startSlideshow c seed).urls = c.photoURLs := rfl
    rw [hstart, hlength, hurls] at hperm
    exact hperm

/-! A drive with two photos of one place, a document and a folder. -/

def garden : List (DriveEntry Int) :=
  [⟨some "image/jpeg", "d1", "2026-07-02T10:00:00Z", none, some (510543, 37174), [⟨some "t1", none⟩]⟩,
    ⟨some "application/pdf", "d2", "2026-06-01T10:00:00Z", none, none, []⟩,
    ⟨none, "", "2026-06-02T10:00:00Z", none, none, []⟩,
    ⟨some "image/png", "d3", "2026-07-01T10:00:00Z", some "", some (510501, 37199), []⟩]

def gardenDrive : Nat → Drive Int := fun _ _ _ => .ok ⟨200, .ok ⟨garden, none⟩⟩

def unreachable : Remote where
  fetchICS _ _ _ := .error "offline"
  fetchRSS _ := .error "offline"
  graphCalendar _ _ _ := .error "offline"
  graphListTodoLists _ := .error "offline"
  graphTodoTasks _ _ := .error "offline"
  graphFolderPhotos _ _ := .error "offline"
  bringLogin _ _ := .error "offline"
  bringResolveList _ _ := ""
  bringItems _ _ _ := .error "offline"

def geocoder : Net where
  source _ := unreachable
  fallbackFeed _ _ _ := .error "offline"
  geocodeReverse geo := if geo.2 = 37199 then "Gent" else "Gent-Zuid"
  shuffle := id

def hundredths : Helpers where
  photoDate s := String.ofList (s.toList.take 10)
  geoKey geo := (geo.1 / 100, geo.2 / 100)
  todoDueLabel _ := ""
  dueByToday _ := false
  window _ := ⟨0, 0⟩
  matchTitle _ _ := true
  dueDay d := d

def linked : List SourceInput :=
  [⟨.onedrive, {}, some (.accessToken "token"), "", "", "", 0, 1⟩]

example : album id (.stable _) gardenDrive linked =
    [⟨"d3", "2026-07-01T10:00:00Z", some (510501, 37199)⟩,
      ⟨"t1", "2026-07-02T10:00:00Z", some (510543, 37174)⟩] := by
  decide +kernel

def gardenCell : PhotoCell :=
  ⟨"d3", ["d3", "t1"], ["2026-07-01 · Gent", "2026-07-02 · Gent"], 8⟩

theorem painted_own_garden :
    (∃ it, Listed id gardenDrive linked it ∧
      ([Slideshow.Input.step 1].foldl next (startSlideshow gardenCell 1)).painted =
        ⟨it.url, if captioned ⟨"", "full"⟩ then
          some (ownCaption hundredths geocoder ⟨"", "full"⟩
            (album id (.stable _) gardenDrive linked) it) else none⟩) ∧
      ∀ others pass, 0 < pass → 2 ≤ (album id (.stable _) gardenDrive linked).length →
        ((startSlideshow gardenCell 1).seen others
          (pass * (album id (.stable _) gardenDrive linked).length)
          (album id (.stable _) gardenDrive linked).length).Perm
            ((album id (.stable _) gardenDrive linked).map PhotoItem.url) := by
  have hok : fetchPhotos hundredths (withDrives id (.stable _) gardenDrive geocoder) ⟨"", "full"⟩
      linked = .ok (some (.photos ["d3", "t1"] gardenCell.photoCaptions 8), minutes 45) := by
    decide +kernel
  exact painted_own hok rfl 1 [.step 1]

end Screen

end FamilyPlanner.Kiosk.Album

import FamilyPlanner.Foundation.Grouping
import FamilyPlanner.Widget.Providers

/-!
# Grouped shopping lists

`bringSections` reads a catalog of sections into a map from names to sections
and the order of the sections; `bringItems` groups a shopping list by that map
and drains the groups in that order.  The two structures agree for every
catalog, so no purchase is lost.
-/

namespace FamilyPlanner.Widget.Bring

open FamilyPlanner.Foundation

structure CatalogItem where
  itemId : String
  name : String
  deriving DecidableEq, Repr

structure Section where
  name : String
  items : List CatalogItem
  deriving DecidableEq, Repr

/-- A missing key reads as the empty string. -/
abbrev SecMap := String → String

structure Sections where
  secMap : SecMap
  order : List String

structure Purchase where
  name : String
  specification : String
  deriving DecidableEq, Repr

def shoppingHeaderPrefix : String := "\x1e"

def listIsHeader (line : String) : Bool :=
  shoppingHeaderPrefix ≠ "" ∧ shoppingHeaderPrefix.toList <+: line.toList

def other : String := "Overig"

/-- The lookup in a catalog of German names, `none` where it has no entry. -/
def bringLocalize (cat : String → Option String) (name : String) : String :=
  match cat name with
  | some t => if t ≠ "" then t else name
  | none => name

def display (name spec : String) : String :=
  if spec ≠ "" then name ++ " (" ++ spec ++ ")" else name

section Model

variable (lower upper : Char → Char)

def readItem (sec : String) (m : SecMap) (it : CatalogItem) : SecMap :=
  let m := if it.name ≠ "" then Function.update m (mapRunes lower it.name) sec else m
  if it.itemId ≠ "" then Function.update m (mapRunes lower it.itemId) sec else m

def readSection (s : Sections) (sec : Section) : Sections :=
  { secMap := sec.items.foldl (readItem lower sec.name) s.secMap
    order := s.order ++ [sec.name] }

def readSections (catalog : List Section) : Sections :=
  catalog.foldl (readSection lower) ⟨fun _ => "", []⟩

/-- What `bringSections` keeps between calls, and when it was read. -/
structure Cache where
  sections : Option Sections
  readAt : Int

/-- `answer` is the decoded catalog, `none` when the request or the decoding
failed. -/
def bringSections (cache : Cache) (now : Int) (answer : Option (List Section)) :
    Cache :=
  if cache.sections.isSome ∧ now - cache.readAt < seconds (24 * 3600) then cache
  else
    match answer with
    | none | some [] => cache
    | some catalog => ⟨some (readSections lower catalog), now⟩

def sectionOf (s : Sections) (cat : String → Option String) (p : Purchase) : String :=
  let name := bringLocalize cat p.name
  let sec := s.secMap (mapRunes lower name)
  let sec := if sec = "" then s.secMap (mapRunes lower p.name) else sec
  if sec = "" then other else sec

structure Emitted where
  groups : String → List String
  out : List String

def headerLine (sec : String) : String := shoppingHeaderPrefix ++ mapRunes upper sec

def emit (e : Emitted) (sec : String) : Emitted :=
  let its := e.groups sec
  if 0 < its.length then
    { groups := Function.update e.groups sec []
      out := e.out ++ [headerLine upper sec] ++ its }
  else e

def shown (cat : String → Option String) (p : Purchase) : String :=
  display (bringLocalize cat p.name) p.specification

def flatItems (cat : String → Option String) (purchase : List Purchase) :
    List String :=
  purchase.map (shown cat)

/-- The lines of a list; `sections` is what `bringSections` returned. -/
def bringItems (sections : Option Sections) (cat : String → Option String)
    (group : Bool) (purchase : List Purchase) : List String :=
  if group = false then flatItems cat purchase
  else
    match sections with
    | none => flatItems cat purchase
    | some s =>
        let groups := purchase.foldl (gather (sectionOf lower s cat) (shown cat))
          fun _ => []
        (emit upper (s.order.foldl (emit upper) ⟨groups, []⟩) other).out

/-! ## What the catalog assigns -/

def Lists (it : CatalogItem) (key : String) : Prop :=
  (it.name ≠ "" ∧ mapRunes lower it.name = key) ∨
    (it.itemId ≠ "" ∧ mapRunes lower it.itemId = key)

instance (it : CatalogItem) (key : String) : Decidable (Lists lower it key) :=
  inferInstanceAs (Decidable (_ ∨ _))

def listing (catalog : List Section) (key : String) : List String :=
  catalog.flatMap fun sec =>
    (sec.items.filter fun it => Lists lower it key).map fun _ => sec.name

/-- The section assigned to a name is the last to list it; a section without a
name of its own assigns nothing. -/
def assigned (catalog : List Section) (name : String) : Option String :=
  (listing lower catalog (mapRunes lower name)).getLast?.filter (· ≠ "")

/-- The Dutch name of an item, and its own where the catalog has none for it. -/
def translated (cat : String → Option String) (name : String) : String :=
  ((cat name).filter (· ≠ "")).getD name

def line (cat : String → Option String) (p : Purchase) : String :=
  if p.specification = "" then translated cat p.name
  else translated cat p.name ++ " (" ++ p.specification ++ ")"

def assignedSection (catalog : List Section) (cat : String → Option String)
    (p : Purchase) : String :=
  match assigned lower catalog (translated cat p.name) with
  | some sec => sec
  | none => (assigned lower catalog p.name).getD other

/-- The lines are blocks of a header and its items: no item is lost, no section
comes twice or empty, and each has the purchases assigned to it in their order. -/
structure Blocks (catalog : List Section) (cat : String → Option String)
    (purchase : List Purchase) (flat lines : List String)
    (blocks : List (String × List String)) : Prop where
  lines : lines = blocks.flatMap fun b => headerLine upper b.1 :: b.2
  perm : (blocks.flatMap Prod.snd).Perm flat
  nodup : (blocks.map Prod.fst).Nodup
  items : ∀ b ∈ blocks, b.2 ≠ [] ∧
    b.2 = (purchase.filter fun p => assignedSection lower catalog cat p = b.1).map
      (line cat)

theorem bringLocalize_eq (cat : String → Option String) (name : String) :
    bringLocalize cat name = translated cat name := by
  unfold bringLocalize translated
  cases cat name with
  | none => rfl
  | some t => by_cases ht : t = "" <;> simp [ht, Option.filter_some]

theorem shown_eq (cat : String → Option String) (p : Purchase) :
    shown cat p = line cat p := by
  rw [shown, bringLocalize_eq, display, line]
  split <;> simp_all

theorem readItem_eq (sec : String) (m : SecMap) (it : CatalogItem) (key : String) :
    readItem lower sec m it key = if Lists lower it key then sec else m key := by
  have hname : (if it.name ≠ "" then Function.update m (mapRunes lower it.name) sec
      else m) key =
      if it.name ≠ "" ∧ mapRunes lower it.name = key then sec else m key := by
    by_cases hn : it.name = "" <;> simp [hn, Function.update_apply, eq_comm]
  simp only [readItem]
  by_cases hid : it.itemId ≠ "" ∧ mapRunes lower it.itemId = key
  · rw [if_pos hid.1, ← hid.2, Function.update_self, if_pos (.inr ⟨hid.1, rfl⟩)]
  · have hlists : Lists lower it key ↔ it.name ≠ "" ∧ mapRunes lower it.name = key := by
      rw [Lists, or_iff_left hid]
    simp only [hlists]
    rw [← hname]
    by_cases hi : it.itemId ≠ ""
    · rw [if_pos hi, Function.update_of_ne]
      rintro rfl
      exact hid ⟨hi, rfl⟩
    · rw [if_neg hi]

theorem foldl_readItem (sec : String) (items : List CatalogItem) (m : SecMap)
    (key : String) :
    items.foldl (readItem lower sec) m key =
      (((items.filter fun it => Lists lower it key).map fun _ => sec).getLast?).getD
        (m key) := by
  induction items generalizing m with
  | nil => rfl
  | cons it rest ih =>
      rw [List.foldl_cons, ih, readItem_eq]
      by_cases h : Lists lower it key
      · rw [if_pos h, List.filter_cons_of_pos (by simpa using h), List.map_cons,
          List.getLast?_cons]
        rfl
      · rw [if_neg h, List.filter_cons_of_neg (by simpa using h)]

theorem foldl_readSection (catalog : List Section) (s : Sections) (key : String) :
    (catalog.foldl (readSection lower) s).secMap key =
        (listing lower catalog key).getLast?.getD (s.secMap key) ∧
      (catalog.foldl (readSection lower) s).order =
        s.order ++ catalog.map Section.name := by
  induction catalog generalizing s with
  | nil => simp [listing]
  | cons sec rest ih =>
      obtain ⟨hmap, horder⟩ := ih (readSection lower s sec)
      constructor
      · have hsec : (readSection lower s sec).secMap key =
            sec.items.foldl (readItem lower sec.name) s.secMap key := rfl
        rw [List.foldl_cons, hmap, hsec, foldl_readItem, listing, listing,
          List.flatMap_cons, List.getLast?_append]
        cases (rest.flatMap _).getLast? <;> rfl
      · rw [List.foldl_cons, horder, readSection, List.append_assoc]
        rfl

theorem secMap_readSections (catalog : List Section) (name : String) :
    (readSections lower catalog).secMap (mapRunes lower name) =
      (assigned lower catalog name).getD "" := by
  rw [readSections, (foldl_readSection lower catalog _ _).1, assigned]
  cases (listing lower catalog (mapRunes lower name)).getLast? with
  | none => rfl
  | some sec => by_cases h : sec = "" <;> simp [h, Option.filter_some]

theorem assigned_ne {catalog : List Section} {name sec : String}
    (h : assigned lower catalog name = some sec) :
    sec ≠ "" ∧ sec ∈ catalog.map Section.name := by
  obtain ⟨hlast, hne⟩ := Option.filter_eq_some_iff.mp h
  refine ⟨of_decide_eq_true hne, ?_⟩
  obtain ⟨s, hs, hmem⟩ := List.mem_flatMap.mp (List.mem_of_getLast? hlast)
  obtain ⟨it, -, rfl⟩ := List.mem_map.mp hmem
  exact List.mem_map_of_mem hs

theorem sectionOf_readSections (catalog : List Section) (cat : String → Option String)
    (p : Purchase) :
    sectionOf lower (readSections lower catalog) cat p =
      assignedSection lower catalog cat p := by
  simp only [sectionOf, assignedSection, bringLocalize_eq, secMap_readSections]
  cases ht : assigned lower catalog (translated cat p.name) with
  | some sec => simp [(assigned_ne lower ht).1]
  | none =>
      cases ho : assigned lower catalog p.name with
      | some sec => simp [(assigned_ne lower ho).1]
      | none => simp

theorem assignedSection_mem (catalog : List Section) (cat : String → Option String)
    (p : Purchase) :
    assignedSection lower catalog cat p ∈
      (readSections lower catalog).order ++ [other] := by
  have horder : (readSections lower catalog).order = catalog.map Section.name := by
    rw [readSections, (foldl_readSection lower catalog _ "").2, List.nil_append]
  rw [horder, List.mem_append, List.mem_singleton, assignedSection]
  cases ht : assigned lower catalog (translated cat p.name) with
  | some sec => exact .inl (assigned_ne lower ht).2
  | none =>
      cases ho : assigned lower catalog p.name with
      | some sec => exact .inl (assigned_ne lower ho).2
      | none => exact .inr rfl

theorem foldl_emit (ks : List String) (e : Emitted) :
    (ks.foldl (emit upper) e).out =
      e.out ++ (drain e.groups ks).flatMap fun b => headerLine upper b.1 :: b.2 := by
  induction ks generalizing e with
  | nil => simp [drain]
  | cons k ks ih =>
      rw [List.foldl_cons, ih, emit, drain]
      by_cases h : e.groups k = []
      · simp [h]
      · have hpos : 0 < (e.groups k).length := List.length_pos_iff.mpr h
        simp [h, hpos]

theorem bringItems_grouped_eq (s : Sections) (cat : String → Option String)
    (purchase : List Purchase) :
    bringItems lower upper (some s) cat true purchase =
      (drain (grouped (sectionOf lower s cat) (shown cat) purchase)
        (s.order ++ [other])).flatMap fun b => headerLine upper b.1 :: b.2 := by
  have h := foldl_emit upper (s.order ++ [other])
    ⟨grouped (sectionOf lower s cat) (shown cat) purchase, []⟩
  rw [List.foldl_append, List.nil_append] at h
  exact h

theorem blocks_drain (catalog : List Section) (cat : String → Option String)
    (purchase : List Purchase) :
    Blocks lower upper catalog cat purchase
      (bringItems lower upper (some (readSections lower catalog)) cat false purchase)
      (bringItems lower upper (some (readSections lower catalog)) cat true purchase)
      (drain (grouped (sectionOf lower (readSections lower catalog) cat) (shown cat) purchase)
        ((readSections lower catalog).order ++ [other])) := by
  have hsec : sectionOf lower (readSections lower catalog) cat =
      assignedSection lower catalog cat :=
    funext (sectionOf_readSections lower catalog cat)
  have hline : shown cat = line cat := funext (shown_eq cat)
  refine ⟨bringItems_grouped_eq lower upper _ cat purchase, ?_, ?_, ?_⟩
  · apply drain_grouped_perm
    intro p _
    rw [hsec]
    exact assignedSection_mem lower catalog cat p
  · exact drain_nodup _ _
  · intro b hb
    obtain ⟨-, hitems, hne⟩ := mem_drain hb
    rw [grouped_eq, hsec, hline] at hitems
    exact ⟨hne, hitems⟩

/-- Grouping a shopping list loses nothing. -/
theorem bringItems_blocks (catalog : List Section) (cat : String → Option String)
    (purchase : List Purchase) :
    ∃ blocks, Blocks lower upper catalog cat purchase
      (bringItems lower upper (some (readSections lower catalog)) cat false purchase)
      (bringItems lower upper (some (readSections lower catalog)) cat true purchase)
      blocks :=
  ⟨_, blocks_drain lower upper catalog cat purchase⟩

private def aisles : List Section :=
  [⟨"Zuivel", [⟨"", "Melk"⟩]⟩, ⟨"Brood", [⟨"Brötchen", "Pistolets"⟩]⟩, ⟨"Drank", []⟩]

private def dutch (name : String) : Option String :=
  if name = "Milch" then some "Melk"
  else if name = "Brötchen" then some "Broodjes"
  else if name = "Käse" then some ""
  else none

private def groceries : List Purchase :=
  [⟨"Brötchen", "6"⟩, ⟨"Käse", ""⟩, ⟨"Milch", "2 l"⟩, ⟨"Lampjes", ""⟩]

/-- The milk is found under its Dutch name, the rolls under their own. -/
theorem bringItems_blocks_groceries :
    bringItems Char.toLower Char.toUpper (some (readSections Char.toLower aisles)) dutch
        true groceries =
      ["\x1eZUIVEL", "Melk (2 l)", "\x1eBROOD", "Broodjes (6)", "\x1eOVERIG", "Käse",
        "Lampjes"] ∧
    ∃ blocks, Blocks Char.toLower Char.toUpper aisles dutch groceries
      ["Broodjes (6)", "Käse", "Melk (2 l)", "Lampjes"]
      ["\x1eZUIVEL", "Melk (2 l)", "\x1eBROOD", "Broodjes (6)", "\x1eOVERIG", "Käse",
        "Lampjes"] blocks := by
  have hgrouped : bringItems Char.toLower Char.toUpper
      (some (readSections Char.toLower aisles)) dutch true groceries =
        ["\x1eZUIVEL", "Melk (2 l)", "\x1eBROOD", "Broodjes (6)", "\x1eOVERIG", "Käse",
          "Lampjes"] := by
    decide +kernel
  refine ⟨hgrouped, ?_⟩
  rw [← hgrouped]
  exact bringItems_blocks Char.toLower Char.toUpper aisles dutch groceries

/-- Where no item looks like a header, leaving the headers out is leaving out
the lines that look like one. -/
theorem filter_blocks {catalog : List Section} {cat : String → Option String}
    {purchase : List Purchase} {flat lines : List String}
    {blocks : List (String × List String)}
    (h : Blocks lower upper catalog cat purchase flat lines blocks)
    (hitems : ∀ p ∈ purchase, listIsHeader (line cat p) = false) :
    lines.filter (fun line => !listIsHeader line) = blocks.flatMap Prod.snd := by
  rw [h.lines, List.filter_flatMap]
  apply List.flatMap_congr
  intro b hb
  have hheader : listIsHeader (headerLine upper b.1) = true := by
    simp [listIsHeader, headerLine, shoppingHeaderPrefix]
  rw [List.filter_cons_of_neg (by simp [hheader]), List.filter_eq_self]
  intro line hline
  rw [(h.items b hb).2] at hline
  obtain ⟨p, hp, rfl⟩ := List.mem_map.mp hline
  rw [hitems p (List.mem_filter.mp hp).1]
  rfl

/-! ## The catalog kept between calls -/

def Cache.Read (c : Cache) : Prop :=
  ∀ s, c.sections = some s → ∃ catalog, s = readSections lower catalog

theorem bringSections_read {c : Cache} (h : c.Read lower) (now : Int)
    (answer : Option (List Section)) : (bringSections lower c now answer).Read lower := by
  unfold bringSections
  split
  · exact h
  · split
    · exact h
    · exact h
    · intro s hs
      cases hs
      exact ⟨_, rfl⟩

theorem run_read (calls : List (Int × Option (List Section))) {c : Cache}
    (h : c.Read lower) :
    (calls.foldl (fun c call => bringSections lower c call.1 call.2) c).Read lower := by
  induction calls generalizing c with
  | nil => exact h
  | cons call rest ih => exact ih (bringSections_read lower h call.1 call.2)

theorem run_blocks (calls : List (Int × Option (List Section)))
    (cat : String → Option String) (purchase : List Purchase) :
    let kept := calls.foldl (fun c call => bringSections lower c call.1 call.2) ⟨none, 0⟩
    let flat := bringItems lower upper kept.sections cat false purchase
    let lines := bringItems lower upper kept.sections cat true purchase
    lines = flat ∨
      ∃ catalog blocks, Blocks lower upper catalog cat purchase flat lines blocks := by
  intro kept flat lines
  cases hs : kept.sections with
  | none =>
      left
      simp [flat, lines, hs, bringItems]
  | some s =>
      right
      have hread : kept.Read lower := run_read lower calls (by simp [Cache.Read])
      obtain ⟨catalog, rfl⟩ := hread s hs
      have hblocks := blocks_drain lower upper catalog cat purchase
      exact ⟨catalog, _, by simpa only [flat, lines, hs] using hblocks⟩

end Model

end FamilyPlanner.Widget.Bring

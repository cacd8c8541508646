import FamilyPlanner.Broker.Rows
import FamilyPlanner.Foundation.Service
import FamilyPlanner.Widget.Registry

/-!
# The edit form of a widget

`handleWidgetUpdate` writes a new configuration that holds the fields of the
form alone.  A provider and the server read settings that no field shows.
-/

namespace FamilyPlanner.Server

open FamilyPlanner.Foundation FamilyPlanner.Widget FamilyPlanner.Broker

/-- The presentation of the title, part of no schema. -/
def genericKeys : List String := ["hide_title", "title_size", "title_align"]

def shownKeys (typ : WidgetType) : List String := typ.schema ++ genericKeys

/-- What `cellForWidget`, `handlePdfMedia` and `handleWidgetEdit` read, the first
two of these keys for any type. -/
def serverKeys : List String := ["od_item", "od_name", "file"] ++ genericKeys

def readKeys (typ : WidgetType) : List String := typ.configKeys ++ serverKeys

def formConfig (typ : WidgetType) (form : String → String) : ConfigJson :=
  .object (typ.schema.map (fun name => (name, form name)) ++
    (if form "hide_title" ≠ "" then [("hide_title", "1")] else []) ++
    [("title_size", form "title_size"), ("title_align", form "title_align")])

structure FormFaults where
  getWidget : Bool := false
  updateWidget : Bool := false
  deriving DecidableEq, Repr

def handleWidgetUpdate (param : String) (form : String → String) (faults : FormFaults)
    (t : Widgets) : Answer × Widgets :=
  match atoi param with
  | none => (.error ("bad id", 400), t)
  | some id =>
      match (if faults.getWidget then none else t.get id) with
      | none => (.error ("not found", 404), t)
      | some wgt =>
          match WidgetType.get wgt.type with
          | none => (.error ("unknown type", 400), t)
          | some typ =>
              if form "name" = "" then (.error ("name required", 400), t)
              else if faults.updateWidget then (.error ("update failed", 500), t)
              else (.ok 303, t.update id (formConfig typ form))

/-! ## What a save keeps -/

theorem lookup_eq_none {key : String} {members : List (String × String)}
    (h : ∀ m ∈ members, m.1 ≠ key) : members.lookup key = none := by
  rw [List.lookup_eq_none_iff]
  intro m hm
  simpa using (h m hm).symm

theorem formConfig_get (typ : WidgetType) (form : String → String) {key : String}
    (hkey : key ∉ shownKeys typ) : (formConfig typ form).get key = "" := by
  rw [shownKeys, List.mem_append] at hkey
  push Not at hkey
  obtain ⟨hschema, hgeneric⟩ := hkey
  have hfields : ∀ m ∈ typ.schema.map (fun name => (name, form name)), m.1 ≠ key := by
    rintro m hm rfl
    obtain ⟨name, hname, rfl⟩ := List.mem_map.mp hm
    exact hschema hname
  simp only [genericKeys, List.mem_cons, List.not_mem_nil, or_false, not_or] at hgeneric
  have hnone : (typ.schema.map (fun name => (name, form name)) ++
      (if form "hide_title" ≠ "" then [("hide_title", "1")] else []) ++
      [("title_size", form "title_size"), ("title_align", form "title_align")]).lookup key =
        none := by
    apply lookup_eq_none
    intro m hm
    rw [List.mem_append, List.mem_append] at hm
    rcases hm with (hm | hm) | hm
    · exact hfields m hm
    · split at hm
      · cases List.mem_singleton.mp hm
        exact Ne.symm hgeneric.1
      · cases hm
    · rcases List.mem_pair.mp hm with rfl | rfl
      · exact Ne.symm hgeneric.2.1
      · exact Ne.symm hgeneric.2.2
  rw [formConfig, ConfigJson.get, hnone]
  rfl

theorem get_update {t : Widgets} {id : Int} {wgt : WidgetRow} (h : t.get id = some wgt)
    (id' : Int) (configJson : ConfigJson) : (t.update id' configJson).get id =
      some (if id = id' then { wgt with configJson } else wgt) := by
  have hid := Widgets.get_id h
  have hsame : ((fun r : WidgetRow => decide (r.id = id)) ∘ fun r =>
      if r.id = id' then { r with configJson } else r) = fun r => decide (r.id = id) := by
    funext r
    simp only [Function.comp_apply]
    split <;> rfl
  rw [Widgets.get] at h
  rw [Widgets.get, Widgets.update, List.find?_map, hsame, h, Option.map_some, hid]

def Saves (param : String) (form : String → String) (faults : FormFaults) (id : Int) : Prop :=
  atoi param = some id ∧ form "name" ≠ "" ∧ faults.getWidget = false ∧
    faults.updateWidget = false

theorem handleWidgetUpdate_get {t : Widgets} {id : Int} {wgt : WidgetRow} {typ : WidgetType}
    (hwgt : t.get id = some wgt) (htyp : WidgetType.get wgt.type = some typ) (param : String)
    (form : String → String) (faults : FormFaults) :
    (Saves param form faults id ∧ (handleWidgetUpdate param form faults t).2.get id =
        some { wgt with configJson := formConfig typ form }) ∨
      (¬ Saves param form faults id ∧
        (handleWidgetUpdate param form faults t).2.get id = some wgt) := by
  unfold handleWidgetUpdate Saves
  cases hparam : atoi param with
  | none => exact .inr ⟨by simp, hwgt⟩
  | some id' =>
      by_cases hid : id' = id
      · cases hid
        cases hfault : faults.getWidget with
        | true => exact .inr ⟨by simp, hwgt⟩
        | false =>
            simp only [Bool.false_eq_true, if_false, hwgt, htyp]
            by_cases hname : form "name" = ""
            · exact .inr ⟨by simp [hname], by simpa [hname] using hwgt⟩
            · cases hupdate : faults.updateWidget with
              | true => exact .inr ⟨by simp, by simpa [hname] using hwgt⟩
              | false =>
                  refine .inl ⟨by simp [hname], ?_⟩
                  simp [hname, get_update hwgt]
      · refine .inr ⟨by simp [hid], ?_⟩
        -- another widget is the one that changes
        cases hget : if faults.getWidget then none else t.get id' with
        | none => simpa [hget] using hwgt
        | some other =>
            cases hother : WidgetType.get other.type with
            | none => simpa [hget, hother] using hwgt
            | some typ' =>
                simp only [hget, hother]
                split
                · exact hwgt
                · split
                  · exact hwgt
                  · rw [get_update hwgt, if_neg (Ne.symm hid)]

def Keeps (keys : String → Prop) (before after : Widgets) (id : Int) : Prop :=
  ∀ wgt ∈ before.get id, ∀ wgt' ∈ after.get id, ∀ key, keys key →
    wgt'.configJson.get key = wgt.configJson.get key

theorem keeps_iff {t : Widgets} {id : Int} {wgt : WidgetRow} {typ : WidgetType}
    (hwgt : t.get id = some wgt) (htyp : WidgetType.get wgt.type = some typ) (param : String)
    (form : String → String) (faults : FormFaults) {keys : String → Prop}
    (hkeys : ∀ key, keys key → key ∉ shownKeys typ) :
    Keeps keys t (handleWidgetUpdate param form faults t).2 id ↔
      (Saves param form faults id → ∀ key, keys key → wgt.configJson.get key = "") := by
  rcases handleWidgetUpdate_get hwgt htyp param form faults with ⟨hsaves, hget⟩ | ⟨hnot, hget⟩
  · simp only [Keeps, hwgt, hget, Option.mem_def, Option.some.injEq, forall_eq', hsaves,
      forall_const]
    apply forall₂_congr
    intro key hkey
    rw [formConfig_get typ form (hkeys key hkey)]
    exact eq_comm
  · simp [Keeps, hwgt, hget, hnot]

/-- What is read from the configuration of a type and shown on no form. -/
def unshownKeys (typ : WidgetType) : List String :=
  (readKeys typ).filter fun key => key ∉ shownKeys typ

theorem unshownKeys_eq (typ : WidgetType) : unshownKeys typ =
    match typ with
    | .countdown => ["title", "od_item", "od_name", "file"]
    | .calendar => ["url", "filter", "od_item", "od_name", "file"]
    | .todolist => ["all_lists", "od_item", "od_name", "file"]
    | .pdf => ["file", "od_item", "od_name", "file"]
    | _ => ["od_item", "od_name", "file"] := by
  cases typ <;> decide

/--
A save keeps the settings that are not on the form exactly if there are none;
the same holds of those that the provider or the server reads.
-/
theorem save_keeps_iff {t : Widgets} {id : Int} {wgt : WidgetRow} {typ : WidgetType}
    (hwgt : t.get id = some wgt) (htyp : WidgetType.get wgt.type = some typ) (param : String)
    (form : String → String) (faults : FormFaults) :
    (Keeps (· ∉ shownKeys typ) t (handleWidgetUpdate param form faults t).2 id ↔
        (Saves param form faults id → ∀ key ∉ shownKeys typ, wgt.configJson.get key = "")) ∧
      (Keeps (· ∈ unshownKeys typ) t (handleWidgetUpdate param form faults t).2 id ↔
        (Saves param form faults id → ∀ key ∈ unshownKeys typ, wgt.configJson.get key = "")) := by
  constructor
  · exact keeps_iff hwgt htyp param form faults fun _ h => h
  · apply keeps_iff hwgt htyp param form faults
    intro key hkey
    simpa using (List.mem_filter.mp hkey).2

private def documents : Widgets where
  rows := [⟨1, "pdf", .object [("od_item", "01ABC"), ("od_name", "menu.docx"),
    ("file", "menu.docx"), ("fit", "page")]⟩, ⟨2, "clock", .object [("title_size", "large")]⟩]
  primaryKey := by decide

private def submitted (field : String) : String :=
  if field = "name" then "Menu" else if field = "fit" then "width" else ""

theorem save_keeps_iff_clock :
    Keeps (· ∈ unshownKeys .clock) documents
      (handleWidgetUpdate "2" submitted {} documents).2 2 := by
  have hkeeps := @save_keeps_iff documents 2 ⟨2, "clock", .object [("title_size", "large")]⟩
    .clock rfl rfl "2" submitted {}
  apply hkeeps.2.mpr
  intro _
  decide

/-- A new name for a widget that shows a document of OneDrive. -/
theorem save_drops_document :
    (handleWidgetUpdate "1" submitted {} documents).2.get 1 =
        some ⟨1, "pdf", .object [("interval", ""), ("fit", "width"), ("title_size", ""),
          ("title_align", "")]⟩ ∧
      ¬ Keeps (· ∈ unshownKeys .pdf) documents
        (handleWidgetUpdate "1" submitted {} documents).2 1 := by
  refine ⟨by decide, ?_⟩
  intro h
  exact absurd (h _ rfl _ rfl "od_item" (by decide)) (by decide)

end FamilyPlanner.Server

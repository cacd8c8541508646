import FamilyPlanner.Screen.Saves
import Mathlib.Data.List.Permutation

/-!
# Overlapping edits of layouts

Requests of the editor whose calls of the store interleave.  A save that finds
the text its request has read leaves the requests in the order of their saves;
one that finds another text undoes an edit.
-/

namespace FamilyPlanner.Screen

open FamilyPlanner.Foundation FamilyPlanner.Widget

variable {ω : Type} [JsonWeight ω] (parseFloat : String → Option ω)

/-- The environment says whether the call fails; noted is the text that was read. -/
def editor : Service Request (ViewCall ω) ViewCall.Res Answer (Views ω) Bool
    (Option (Text ω)) where
  handle := handle parseFloat
  exec failed := ViewCall.exec fun _ => failed
  fresh := none
  record
    | .getView _, _, ((row : Option (Text ω)), _), _ => row
    | .setViewLayout _ _, _, _, note => note

def inTurn : System (Views ω) Request where
  step views r :=
    match Turn.run parseFloat { request := r } views with
    | (.ok _, views') => some views'
    | (.error _, _) => none

variable {parseFloat}

abbrev EditJob (ω : Type) := Job Request (ViewCall ω) ViewCall.Res Answer (Option (Text ω))

abbrev Editing (ω : Type) :=
  Service.State Request (ViewCall ω) ViewCall.Res Answer (Views ω) (Option (Text ω))

def succeeded (r : Request) : Answer → Option Request
  | .ok _ => some r
  | .error _ => none

/-- A save finds the text that its request has read, unless it fails. -/
def Unchanged (s : Editing ω) (j : EditJob ω) (failed : Bool) : ViewCall ω → Prop
  | .getView _ => True
  | .setViewLayout _ id => failed = false → s.object id = j.note

inductive Stage (parseFloat : String → Option ω) (j : EditJob ω) : Prop where
  | starting (h : j.rest = handle parseFloat j.request)
  | saving (id : Int) (text : Text ω) (value : Json ω)
      (hid : atoi j.request.id = some id) (hnote : j.note = some text)
      (hvalue : j.request.edit.marshal parseFloat text = .ok value)
      (hrest : j.rest = saveLayout j.request.edit id value)
  | answered (a : Answer) (h : j.rest = .ret a)

theorem inTurn_step {views : Views ω} {r : Request} {id : Int} {text : Text ω}
    {value : Json ω} (hid : atoi r.id = some id) (htext : views id = some text)
    (hvalue : r.edit.marshal parseFloat text = .ok value) :
    (inTurn parseFloat).step views r =
      some (Function.update views id ((views id).map fun _ => .json value)) := by
  have hrun : Turn.run parseFloat { request := r } views =
      (.ok r.edit.status, Function.update views id ((views id).map fun _ => .json value)) := by
    rw [Turn.run_eq _ views hid]
    change (editLayout parseFloat r.edit id (views id)).alone _ views = _
    rw [htext, editLayout, hvalue]
    dsimp only
    rw [alone_saveLayout, htext]
    rfl
  simp only [inTurn, hrun]

/-- The successful requests so far, in some order, lead to what is stored. -/
structure Serial (parseFloat : String → Option ω) (views : Views ω) (s : Editing ω) :
    Prop where
  inTurn : ∃ order, order.Perm (Service.answers succeeded s.jobs) ∧
    (inTurn parseFloat).run views order = some s.object
  staged : ∀ j ∈ s.jobs, Stage parseFloat j

variable {views₀ : Views ω} {s : Editing ω}

theorem answer_handle (r : Request) :
    (((editor parseFloat).started r).answer?).bind (succeeded r) = none := by
  change (Job.answer? (⟨r, handle parseFloat r, none⟩ : EditJob ω)).bind (succeeded r) = none
  cases hid : atoi r.id <;> simp [handle, hid, Job.answer?, succeeded]

theorem Serial.started (hs : Serial parseFloat views₀ s) (r : Request) :
    Serial parseFloat views₀ { s with jobs := s.jobs ++ [(editor parseFloat).started r] } := by
  constructor
  · obtain ⟨order, hperm, hrun⟩ := hs.inTurn
    refine ⟨order, ?_, hrun⟩
    rw [Service.answers_append]
    change order.Perm (_ ++ ((((editor parseFloat).started r).answer?).bind
      (succeeded r)).toList)
    rw [answer_handle]
    simpa using hperm
  · exact forall_started hs.staged (.starting rfl)

theorem Serial.passed (hs : Serial parseFloat views₀ s) {i : Nat} {j j' : EditJob ω}
    (hj : s.jobs[i]? = some j) (hopen : j.answer? = none) (hstage : Stage parseFloat j')
    (hnone : (j'.answer?).bind (succeeded j'.request) = none) :
    Serial parseFloat views₀ ⟨s.object, s.jobs.set i j'⟩ := by
  constructor
  · obtain ⟨order, hperm, hrun⟩ := hs.inTurn
    refine ⟨order, hperm.trans ?_, hrun⟩
    have hanswers : (Service.answers succeeded (s.jobs.set i j')).Perm _ :=
      Service.answers_set hj hopen
    rw [hnone] at hanswers
    simpa using hanswers.symm
  · exact forall_resumed hs.staged i hstage

theorem Serial.saved (hs : Serial parseFloat views₀ s) {i : Nat} {j j' : EditJob ω}
    {id : Int} {text : Text ω} {value : Json ω} (hj : s.jobs[i]? = some j)
    (hopen : j.answer? = none) (hid : atoi j.request.id = some id)
    (htext : s.object id = some text)
    (hvalue : j.request.edit.marshal parseFloat text = .ok value)
    (hsaved : j'.request = j.request)
    (hanswer : j'.answer? = some (.ok j.request.edit.status)) :
    Serial parseFloat views₀ ⟨Function.update s.object id
      ((s.object id).map fun _ => .json value), s.jobs.set i j'⟩ := by
  constructor
  · obtain ⟨order, hperm, hrun⟩ := hs.inTurn
    refine ⟨order ++ [j.request], ?_, System.run_concat hrun (inTurn_step hid htext hvalue)⟩
    have hanswers : (Service.answers succeeded (s.jobs.set i j')).Perm _ :=
      Service.answers_set hj hopen
    rw [hanswer, hsaved] at hanswers
    exact (hperm.append_right _).trans hanswers.symm
  · apply forall_resumed hs.staged i
    apply Stage.answered (.ok j.request.edit.status)
    cases hrest : j'.rest with
    | ret a =>
        rw [Job.answer?, hrest] at hanswer
        rw [Option.some.inj hanswer]
    | call o next => simp [Job.answer?, hrest] at hanswer

theorem Serial.read (hs : Serial parseFloat views₀ s) {i : Nat} {j : EditJob ω}
    (hj : s.jobs[i]? = some j) (hopen : j.answer? = none) {id : Int}
    (hid : atoi j.request.id = some id) (row : Option (Text ω)) :
    Serial parseFloat views₀ ⟨s.object, s.jobs.set i
      ⟨j.request, editLayout parseFloat j.request.edit id row, row⟩⟩ := by
  cases row with
  | none => exact hs.passed hj hopen (.answered _ rfl) rfl
  | some text =>
      cases hvalue : j.request.edit.marshal parseFloat text with
      | error err =>
          have hrest : editLayout parseFloat j.request.edit id (some text) =
              .ret (.error err) := by
            rw [editLayout, hvalue]
          rw [hrest]
          exact hs.passed hj hopen (.answered _ rfl) rfl
      | ok value =>
          have hrest : editLayout parseFloat j.request.edit id (some text) =
              saveLayout j.request.edit id value := by
            rw [editLayout, hvalue]
          rw [hrest]
          exact hs.passed hj hopen (.saving id text value hid rfl hvalue rfl) rfl

theorem Serial.resumed (hs : Serial parseFloat views₀ s) {i : Nat} {failed : Bool}
    {j : EditJob ω} {o : ViewCall ω} {next : ViewCall.Res o → Prog _ _ Answer}
    (hfound : Unchanged s j failed o) (hj : s.jobs[i]? = some j)
    (hrest : j.rest = .call o next) :
    Serial parseFloat views₀
      { object := ((editor parseFloat).exec failed o s.object).2
        jobs := s.jobs.set i ((editor parseFloat).resumed failed s.object j o next) } := by
  have hopen : j.answer? = none := by rw [Job.answer?, hrest]
  rcases hs.staged j (List.mem_of_getElem? hj) with
    h | ⟨id, text, value, hid, hnote, hvalue, h⟩ | ⟨a, h⟩
  · rw [hrest] at h
    cases hid : atoi j.request.id with
    | none => simp [handle, hid] at h
    | some id =>
        rw [handle, hid] at h
        cases h
        exact hs.read hj hopen hid (if failed then none else s.object id)
  · rw [hrest] at h
    cases h
    cases failed with
    | true => exact hs.passed hj hopen (.answered (.error ("save failed", 500)) rfl) rfl
    | false =>
        have htext : s.object id = some text := (hfound rfl).trans hnote
        exact hs.saved hj hopen hid htext hvalue rfl rfl
  · rw [hrest] at h
    cases h

theorem edits_in_turn {t : Editing ω} {acts : List (Service.Act Request Bool)}
    (hfound : (editor parseFloat).acts.Along (Service.Guard Unchanged) ⟨views₀, []⟩ acts)
    (hrun : (editor parseFloat).acts.run ⟨views₀, []⟩ acts = some t) :
    ∃ order, order.Perm (Service.answers succeeded t.jobs) ∧
      (inTurn parseFloat).run views₀ order = some t.object := by
  have hstart : Serial parseFloat views₀ ⟨views₀, []⟩ := by
    constructor
    · exact ⟨[], .nil, rfl⟩
    · simp
  have hend : Serial parseFloat views₀ t := by
    apply Service.run_invariant _ _ hstart hfound hrun
    · intro s r hs
      exact hs.started r
    · intro s i failed j o next hs hfound hj hrest
      exact hs.resumed hfound hj hrest
  exact hend.inTurn

/-! ## An edit that is lost -/

def twoPanes : Views Float64 := fun _ =>
  (Json.encodeNode (.split "row" [(.finite 1, .leaf { widgetID := 0 }),
    (.finite 1, .leaf { widgetID := 0 })])).map .json

def putFive : Request := { id := "1", edit := .setWidget "0" "5" }

def putSix : Request := { id := "1", edit := .setWidget "1" "6" }

def crossing : List (Service.Act Request Bool) :=
  [.start putFive, .start putSix, .resume 0 false, .resume 1 false, .resume 0 false,
    .resume 1 false]

def shown (views : Views Float64) : Option (List Int) :=
  (views 1).map fun text => (loadLayout text).leaves

theorem edits_lost : ∃ t, (editor noFloat).acts.run ⟨twoPanes, []⟩ crossing = some t ∧
    Service.Idle t ∧ Service.answers succeeded t.jobs = [putFive, putSix] ∧
    ¬ ∃ order, order.Perm (Service.answers succeeded t.jobs) ∧
      (inTurn noFloat).run twoPanes order = some t.object := by
  obtain ⟨t, hrun, hshown, hanswers, hidle⟩ :
      ∃ t, (editor noFloat).acts.run ⟨twoPanes, []⟩ crossing = some t ∧
        shown t.object = some [0, 6] ∧
        Service.answers succeeded t.jobs = [putFive, putSix] ∧ Service.Idle t :=
    ⟨_, rfl, by decide, rfl, by decide⟩
  refine ⟨t, hrun, hidle, hanswers, ?_⟩
  rintro ⟨order, hperm, hturn⟩
  rw [hanswers] at hperm
  have horder : order = [putFive, putSix] ∨ order = [putSix, putFive] := by
    have hmem := List.mem_permutations.mpr hperm
    simpa [List.permutations] using hmem
  have hboth : ((inTurn noFloat).run twoPanes order).bind shown = some [5, 6] := by
    rcases horder with rfl | rfl <;> decide
  rw [hturn, Option.bind_some, hshown] at hboth
  exact absurd hboth (by decide)

def queued : List (Service.Act Request Bool) :=
  [.start putFive, .start putSix, .resume 0 false, .resume 0 false, .resume 1 false,
    .resume 1 false]

theorem edits_in_turn_queued : ∃ t order,
    (editor noFloat).acts.run ⟨twoPanes, []⟩ queued = some t ∧
      order.Perm (Service.answers succeeded t.jobs) ∧
      (inTurn noFloat).run twoPanes order = some t.object := by
  have hfound : (editor noFloat).acts.Along (Service.Guard Unchanged) ⟨twoPanes, []⟩
      queued := by
    refine ⟨trivial, fun s hs => ?_⟩
    cases hs
    refine ⟨trivial, fun s hs => ?_⟩
    cases hs
    refine ⟨by rintro j ⟨⟩; trivial, fun s hs => ?_⟩
    cases hs
    refine ⟨by rintro j ⟨⟩; exact fun _ => rfl, fun s hs => ?_⟩
    cases hs
    refine ⟨by rintro j ⟨⟩; trivial, fun s hs => ?_⟩
    cases hs
    refine ⟨by rintro j ⟨⟩; exact fun _ => rfl, fun s hs => ?_⟩
    trivial
  obtain ⟨t, hrun⟩ : ∃ t, (editor noFloat).acts.run ⟨twoPanes, []⟩ queued = some t :=
    ⟨_, rfl⟩
  obtain ⟨order, hperm, hturn⟩ := edits_in_turn hfound hrun
  exact ⟨t, order, hrun, hperm, hturn⟩

end FamilyPlanner.Screen

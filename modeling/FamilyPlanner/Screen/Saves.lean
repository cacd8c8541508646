import FamilyPlanner.Foundation.Run
import FamilyPlanner.Screen.Editor

/-!
# What the editor saves

Requests executed one at a time.  Next to the stored texts the state records
the tree that the last successful request on a view has made.
-/

namespace FamilyPlanner.Screen

open FamilyPlanner.Foundation FamilyPlanner.Widget

structure Faults where
  getView : Bool := false
  setViewLayout : Bool := false
  deriving DecidableEq, Repr

structure Turn where
  request : Request
  faults : Faults := {}
  deriving DecidableEq, Repr

structure Saves (ω : Type) where
  views : Views ω
  saved : Int → Option (Node ω) := fun _ => none

variable {ω : Type}

def Faults.fails (f : Faults) : ViewCall ω → Bool
  | .getView _ => f.getView
  | .setViewLayout _ _ => f.setViewLayout

theorem alone_saveLayout (faults : Faults) (e : Edit) (id : Int) (value : Json ω)
    (views : Views ω) :
    (saveLayout e id value).alone (ViewCall.exec faults.fails) views =
      if faults.setViewLayout then (.error ("save failed", 500), views)
      else (.ok e.status,
        Function.update views id ((views id).map fun _ => .json value)) := by
  rcases faults with ⟨getView, _ | _⟩ <;> rfl

variable [JsonWeight ω] (parseFloat : String → Option ω)

def Turn.run (e : Turn) (views : Views ω) : Answer × Views ω :=
  (handle parseFloat e.request).alone (ViewCall.exec e.faults.fails) views

def Turn.edited (e : Turn) (views : Views ω) : Option (Int × Node ω) :=
  match atoi e.request.id with
  | none => none
  | some id => (views id).map fun text =>
      (id, e.request.edit.apply parseFloat (loadLayout text))

def editing : System (Saves ω) Turn where
  step s e :=
    some {
      views := (e.run parseFloat s.views).2
      saved :=
        match (e.run parseFloat s.views).1, e.edited parseFloat s.views with
        | .ok _, some (id, root) => Function.update s.saved id (some root)
        | _, _ => s.saved }

/-- What the request saves nests no deeper than the decoder reads. -/
def Shallow (s : Saves ω) (e : Turn) : Prop :=
  (e.run parseFloat s.views).1.isOk = true →
    ∀ edited ∈ e.edited parseFloat s.views, ∀ value ∈ Json.encodeNode edited.2,
      value.depth ≤ Json.maxNestingDepth

instance (s : Saves ω) (e : Turn) : Decidable (Shallow parseFloat s e) :=
  inferInstanceAs (Decidable (_ → ∀ edited ∈ e.edited parseFloat s.views,
    ∀ value ∈ Json.encodeNode edited.2, value.depth ≤ Json.maxNestingDepth))

variable {parseFloat}

theorem Turn.run_eq (e : Turn) (views : Views ω) {id : Int}
    (hid : atoi e.request.id = some id) :
    e.run parseFloat views =
      (editLayout parseFloat e.request.edit id
        (if e.faults.getView then none else views id)).alone
          (ViewCall.exec e.faults.fails) views := by
  rw [run, handle, hid]
  rfl

theorem Turn.run_cases (parseFloat : String → Option ω) (e : Turn) (views : Views ω) :
    (∃ err, e.run parseFloat views = (.error err, views)) ∨
      ∃ id text value, atoi e.request.id = some id ∧ views id = some text ∧
        e.request.edit.marshal parseFloat text = .ok value ∧
        e.run parseFloat views =
          (.ok e.request.edit.status, Function.update views id (some (.json value))) := by
  cases hid : atoi e.request.id with
  | none => exact .inl ⟨("bad id", 400), by rw [run, handle, hid]; rfl⟩
  | some id =>
      rw [e.run_eq views hid]
      cases hread : (if e.faults.getView then none else views id) with
      | none => exact .inl ⟨("not found", 404), rfl⟩
      | some text =>
          have htext : views id = some text := by
            by_cases hfault : e.faults.getView
            · simp [hfault] at hread
            · simpa [hfault] using hread
          rw [editLayout]
          cases hsave : e.request.edit.marshal parseFloat text with
          | error err => exact .inl ⟨err, rfl⟩
          | ok value =>
              dsimp only
              rw [alone_saveLayout]
              by_cases hfault : e.faults.setViewLayout
              · exact .inl ⟨_, if_pos hfault⟩
              · refine .inr ⟨id, text, value, rfl, htext, hsave, ?_⟩
                rw [if_neg hfault, htext]
                rfl

/-- What the editor has saved of a view is what is loaded from its text. -/
def Loads (text₀ : Text ω) (id : Int) (s : Saves ω) : Prop :=
  ∃ text, s.views id = some text ∧
    match s.saved id with
    | none => text = text₀
    | some root => text.layoutJson.parse = .ok root ∧ loadLayout text = root

theorem loads_step {text₀ : Text ω} {id : Int} {s s' : Saves ω} {e : Turn}
    (hs : Loads text₀ id s) (hshallow : Shallow parseFloat s e)
    (hstep : (editing parseFloat).step s e = some s') : Loads text₀ id s' := by
  cases hstep
  rcases e.run_cases parseFloat s.views with
    ⟨err, hrun⟩ | ⟨id', text', value, hid, htext, hvalue, hrun⟩
  · simp only [Loads, hrun]
    exact hs
  · have hedited : e.edited parseFloat s.views =
        some (id', e.request.edit.apply parseFloat (loadLayout text')) := by
      simp [Turn.edited, hid, htext]
    have hdepth : value.depth ≤ Json.maxNestingDepth :=
      hshallow (by rw [hrun]; rfl) _ hedited value (Edit.encodeNode_of_marshal hvalue)
    have hparse := parse_of_marshal hvalue hdepth
    simp only [Loads, hrun, hedited]
    by_cases hsame : id = id'
    · subst hsame
      refine ⟨_, Function.update_self id _ s.views, ?_⟩
      rw [Function.update_self]
      exact ⟨hparse, loadLayout_of_parse hparse⟩
    · simp only [Function.update_of_ne hsame]
      exact hs

theorem saved_is_loaded {s t : Saves ω} {es : List Turn} {id : Int} {text₀ : Text ω}
    (hs : s.views id = some text₀) (hfresh : s.saved id = none)
    (hshallow : (editing parseFloat).Along (Shallow parseFloat) s es)
    (hrun : (editing parseFloat).run s es = some t) :
    Loads text₀ id t ∧
      (editing parseFloat).Along (fun s e => ∀ err s',
        (e.run parseFloat s.views).1 = .error err →
          (editing parseFloat).step s e = some s' → s'.views = s.views) s es := by
  constructor
  · have hstart : Loads text₀ id s := ⟨text₀, hs, by rw [hfresh]⟩
    exact System.run_invariant_along (fun _ _ _ => loads_step) hstart hshallow hrun
  · apply System.Along.of_forall
    intro s e err s' herr hstep
    cases hstep
    rcases e.run_cases parseFloat s.views with
      ⟨err, hrun⟩ | ⟨id', text', value, hid, htext, hvalue, hrun⟩
    · exact congrArg Prod.snd hrun
    · simp [hrun] at herr

/-- `strconv.ParseFloat` on whole numbers and `NaN`. -/
def parseWhole (s : String) : Option Float64 :=
  if s = "NaN" then some .nan else (atoi s).map fun n => .finite n

def dragged : List Turn :=
  [{ request := ⟨"1", .split "" "row"⟩ }, { request := ⟨"1", .weights "" "3, 1"⟩ },
    { request := ⟨"1", .weights "" "NaN,1"⟩ }]

def onePane : Saves Float64 where
  views id := if id = 1 then some .blank else none

theorem saved_is_loaded_dragged :
    ∃ t, (editing parseWhole).run onePane dragged = some t ∧ Loads .blank 1 t ∧
      (editing parseWhole).Along (fun s e => ∀ err s',
        (e.run parseWhole s.views).1 = .error err →
          (editing parseWhole).step s e = some s' → s'.views = s.views)
        onePane dragged := by
  obtain ⟨t, hrun⟩ := System.exists_run (M := editing parseWhole)
    (fun _ _ => ⟨_, rfl⟩) onePane dragged
  exact ⟨t, hrun, saved_is_loaded rfl rfl (by decide) hrun⟩

/-! ## A tree that is saved and not loaded -/

def nested : Nat → Node Float64
  | 0 => .leaf { widgetID := 0 }
  | n + 1 => .split "row" [(.finite 1, nested n), (.finite 1, .leaf { widgetID := 0 })]

theorem nested_valid (n : Nat) : (nested n).Valid := by
  induction n with
  | zero => exact Node.valid_leaf _
  | succ n ih => simp [nested, Node.valid_split, Node.valid_leaf, ih]

theorem get_nested (n : Nat) : Node.paths.get (nested (n + 1)) 0 = some (nested n) := by
  change (nested (n + 1)).childAt 0 = some (nested n)
  apply Node.childAt_eq_some.mpr
  exact ⟨[], _, _, rfl, rfl⟩

theorem nodeAt_nested (n : Nat) :
    (nested n).nodeAt (List.replicate n 0) = some (.leaf { widgetID := 0 }) := by
  induction n with
  | zero => rfl
  | succ n ih => exact Branching.find_cons_eq_some.mpr ⟨_, get_nested n, ih⟩

theorem putAt_nested (n : Nat) :
    (nested n).putAt (List.replicate n 0) (nested 1) = nested (n + 1) := by
  induction n with
  | zero => rfl
  | succ n ih =>
      rw [List.replicate_succ, Node.putAt, Branching.put_cons _ (get_nested n), ← Node.putAt, ih]
      rfl

theorem splitLeaf_nested (n : Nat) :
    (nested n).splitLeaf (List.replicate n 0) "row" = (.ok (), nested (n + 1)) := by
  simp only [Node.splitLeaf, nodeAt_nested]
  rw [← putAt_nested n]
  rfl

theorem encodeNode_nested (n : Nat) :
    ∃ value, Json.encodeNode (nested n) = some value ∧ value.depth = 4 * n + 2 := by
  induction n with
  | zero => exact ⟨_, rfl, rfl⟩
  | succ n ih =>
      obtain ⟨value, hvalue, hdepth⟩ := ih
      have hsplit : Json.encodeNode (nested (n + 1)) =
          some (.object [("split", Json.encodeSplit "row"
            [.object [("weight", .float (.finite 1)), ("node", value)],
              .object [("weight", .float (.finite 1)),
                ("node", .object [("leaf", Json.encodeLeaf { widgetID := 0 })])]])]) := by
        simp [nested, Json.encodeNode, Json.encodeChildren, JsonWeight.finite, hvalue]
      refine ⟨_, hsplit, ?_⟩
      simp [Json.encodeSplit, Json.encodeLeaf, Json.depth, Json.membersDepth,
        Json.elementsDepth, hdepth]
      omega

def zeros (n : Nat) : String :=
  String.ofList (['.'].intercalate (List.replicate n ['0']))

theorem parsePath_zeros {n : Nat} (hn : 0 < n) :
    parsePath (zeros n) = List.replicate n 0 := by
  have hsplit : splitAtChar (zeros n) '.' = List.replicate n "0" := by
    rw [splitAtChar, zeros, String.toList_ofList, List.splitOn_intercalate]
    · simp
    · intro l hl
      simp [List.eq_of_mem_replicate hl]
    · simp; omega
  have hread (m : Nat) : (List.replicate m "0").mapM atoi = some (List.replicate m 0) := by
    induction m with
    | zero => rfl
    | succ m ih =>
        have hzero : atoi "0" = some 0 := by decide
        simp [List.replicate_succ, hzero, ih]
  have hne : zeros n ≠ "" := by
    intro hempty
    have hblank : splitAtChar "" '.' = [""] := by decide
    rw [hempty, hblank, ← Nat.succ_pred_eq_of_pos hn, List.replicate_succ] at hsplit
    simp at hsplit
  rw [parsePath, if_neg hne, hsplit, hread]
  rfl

def noFloat : String → Option Float64 := fun _ => none

def deepSplit : Turn where
  request := { id := "1", edit := .split (zeros 2499) "row" }

theorem nested_saved_not_loaded : ∃ stored saved : Text Float64,
    stored.layoutJson.parse = .ok (nested 2499) ∧
      (deepSplit.edited noFloat fun _ => some stored) = some (1, nested 2500) ∧
      (deepSplit.run noFloat fun _ => some stored) =
        (.ok 200, Function.update (fun _ => some stored) 1 (some saved)) ∧
      saved.layoutJson.parse = .error "exceeded max depth" ∧
      loadLayout saved = .leaf { widgetID := 0 } := by
  obtain ⟨value, hvalue, hdepth⟩ := encodeNode_nested 2499
  obtain ⟨value', hvalue', hdepth'⟩ := encodeNode_nested 2500
  have hback : value.unmarshal = .ok (nested 2499) := by
    apply Json.unmarshal_encodeNode hvalue
    rw [hdepth, Json.maxNestingDepth]
    omega
  have hstored : (Text.json value).layoutJson.parse = .ok (nested 2499) := by
    have hvalid : (nested 2499).validate = .ok () := nested_valid 2499
    simp [Text.layoutJson, hback, LayoutJson.parse, hvalid]
  have happly : (Edit.split (zeros 2499) "row").apply noFloat
      (loadLayout (.json value)) = nested 2500 := by
    rw [loadLayout_of_parse hstored, Edit.apply, parsePath_zeros (by omega),
      splitLeaf_nested 2499]
  have hid : atoi "1" = some 1 := by decide
  have hedited : (deepSplit.edited noFloat fun _ => some (.json value)) =
      some (1, nested 2500) := by
    simp [Turn.edited, deepSplit, hid, happly]
  have hsave : (Edit.split (zeros 2499) "row").marshal noFloat (.json value) =
      .ok value' := by
    rw [Edit.marshal_eq, happly, hvalue']
  have hrun : (deepSplit.run noFloat fun _ => some (.json value)) =
      (.ok 200, Function.update (fun _ => some (.json value)) 1 (some (.json value'))) := by
    rw [deepSplit.run_eq _ hid]
    change (editLayout noFloat (.split (zeros 2499) "row") 1 (some (.json value))).alone _ _ = _
    rw [editLayout, hsave]
    exact alone_saveLayout {} _ _ _ _
  have hdeep : value'.unmarshal = .error "exceeded max depth" := by
    rw [Json.unmarshal, if_pos]
    rw [hdepth', Json.maxNestingDepth]
    omega
  have hparse : (Text.json value').layoutJson.parse = .error "exceeded max depth" := by
    rw [Text.layoutJson, hdeep]
    rfl
  have hlost : loadLayout (.json value') = .leaf { widgetID := 0 } := by
    rw [loadLayout, LayoutJson.tree_of_parse_error hparse]
    rfl
  exact ⟨_, _, hstored, hedited, hrun, hparse, hlost⟩

end FamilyPlanner.Screen

import FamilyPlanner.Broker.World
import FamilyPlanner.Foundation.Lineage
import FamilyPlanner.Foundation.Run

/-!
# The token of a data source

A background refresh, a page that needs an access token and a reconnect all end
in an unconditional write of `secret_ciphertext`.  The first two present the
token they have read to the provider before.
-/

namespace FamilyPlanner.Server

open FamilyPlanner.Foundation FamilyPlanner.Widget FamilyPlanner.Broker

variable {P D : Type}

def tokenFromSecret (b : Broker P D) (secretCiphertext : String) : Option Token :=
  if secretCiphertext = "" then none
  else (b.openSecret secretCiphertext).bind StoredSecret.getToken

def storeToken (b : Broker P D) (id : Int) (tok : Token) : Program P D Unit :=
  match b.sealSecret (.token tok) with
  | none => .ret ()
  | some cipher => .call (.updateDataSourceSecret cipher "connected" id) fun _ => .ret ()

def freshAccessToken (b : Broker P D) (id : Int) (ds : DataSource) :
    Program P D (Option String) :=
  match tokenFromSecret b ds.secretCiphertext with
  | none => .ret none
  | some tok =>
      .call (.freshToken ds.type tok) fun (r : Except OAuthError Token) =>
        match r with
        | .error _ => .ret none
        | .ok fresh =>
            (if fresh.accessToken ≠ tok.accessToken then storeToken b id fresh
              else .ret ()) >>= fun _ => .ret (some fresh.accessToken)

/-! ## What a thread stores -/

def readsSecret : Call P D → Bool
  | .listWidgetSources _ => true
  | _ => false

/-- History of a thread: the secrets it has read, under the ids of their sources,
and the token it was given, with the one it had presented. -/
structure Note where
  read : Option (List (Int × String)) := none
  answer : Option (Entry Token) := none
  deriving DecidableEq, Repr

namespace Note

def presented (n : Note) : Bool := n.answer.any (·.parent.isSome)

def secrets (rows : List SourceRow) : List (Int × String) :=
  rows.map fun r => (r.dataSourceID, r.sourceSecret)

def after : (c : Call P D) → Call.Res c → Note → Note
  | .listWidgetSources _, (rows : Option (List SourceRow)), n =>
      { n with read := some (secrets (rows.getD [])) }
  | .freshToken _ tok, (.ok fresh : Except OAuthError Token), n =>
      { n with answer := some ⟨fresh, some tok⟩ }
  | _, _, n => n

/-- What is stored is the token the thread was given, for one whose secret it
has read; the secrets are read once. -/
def Proper (b : Broker P D) (n : Note) : Call P D → Prop
  | .listWidgetSources _ => n.read = none
  | .updateDataSourceSecret cipher _ id =>
      ∃ e ∈ n.answer, b.sealSecret (.token e.value) = some cipher ∧
        ∀ tok ∈ e.parent, ∃ secret, (id, secret) ∈ n.read.getD [] ∧
          tokenFromSecret b secret = some tok
  | _ => True

end Note

def Call.Quiet : Call P D → Prop
  | .listWidgetSources _ | .updateDataSourceSecret _ _ _ => False
  | _ => True

abbrev Stores {α : Type} (b : Broker P D) (n : Note) (p : Program P D α) : Prop :=
  p.Tracks Note.after (Note.Proper b) n

abbrev Quiet {α : Type} (p : Program P D α) : Prop := p.Only Call.Quiet fun _ _ => True

variable {b : Broker P D}

theorem Quiet.stores {α : Type} {p : Program P D α} (hp : Quiet p) (n : Note) :
    Stores b n p := by
  apply Prog.Only.tracks hp
  intro n c hc
  cases c <;> trivial

theorem quiet_of_aside {α : Type} {p : Program P D α} (hp : Aside p) : Quiet p := by
  apply Prog.Only.mono hp _ (fun _ _ h => h)
  intro c hc
  cases c <;> trivial

theorem quiet_markErr (id : Int) (msg : String) :
    Quiet (markErr id msg : Program P D Unit) :=
  only_markErr trivial trivial trivial fun _ => trivial

theorem read_after (n : Note) {c : Call P D} (r : Call.Res c)
    (hc : readsSecret c = false) : (n.after c r).read = n.read := by
  cases c with
  | listWidgetSources widgetID => cases hc
  | freshToken dsType tok => cases r <;> rfl
  | _ => rfl

theorem read_after_of_proper {n : Note} {c : Call P D} (r : Call.Res c)
    {read : List (Int × String)} (hc : n.Proper b c) (hn : n.read = some read) :
    (n.after c r).read = some read := by
  refine (read_after n r ?_).trans hn
  cases c with
  | listWidgetSources widgetID => cases hc.symm.trans hn
  | _ => rfl

theorem stores_refreshOAuth {n : Note} {read : List (Int × String)}
    (hn : n.read = some read) (dsType : SourceType) {id : Int} {secret : String}
    {raw : StoredSecret} (hmem : (id, secret) ∈ read)
    (hraw : tokenFromSecret b secret = raw.getToken) :
    Stores b n (b.refreshOAuth dsType id raw) := by
  unfold refreshOAuth
  cases htok : raw.getToken with
  | none =>
      apply Quiet.stores
      exact (quiet_of_aside (aside_recordSourceHealth _ _ _ _)).bind fun _ => Prog.only_ret _
  | some tok =>
      refine ⟨trivial, ?_⟩
      intro r
      cases r with
      | error e =>
          apply Quiet.stores
          exact (quiet_of_aside (aside_recordSourceHealth _ _ _ _)).bind fun _ => Prog.only_ret _
      | ok fresh =>
          have hdone (n : Note) : Stores b n
              (recordSourceHealth id fresh.expiry "ok" "" >>= fun _ =>
                .ret (some (.accessToken fresh.accessToken)) :
                  Program P D (Option Secret)) := by
            apply Quiet.stores
            exact (quiet_of_aside (aside_recordSourceHealth _ _ _ _)).bind fun _ => Prog.only_ret _
          dsimp only
          split
          · cases hseal : b.sealSecret (.token fresh) with
            | none => exact hdone _
            | some cipher =>
                refine ⟨⟨⟨fresh, some tok⟩, rfl, hseal, ?_⟩, fun _ => hdone _⟩
                intro tok' htok'
                cases htok'
                refine ⟨secret, ?_, hraw.trans htok⟩
                rw [show (n.after (.freshToken dsType tok) (.ok fresh)).read = some read
                  from hn]
                exact hmem
          · exact hdone _

theorem stores_resolveSecret {n : Note} {read : List (Int × String)}
    (hn : n.read = some read) {r : SourceRow}
    (hmem : (r.dataSourceID, r.sourceSecret) ∈ read) :
    Stores b n (b.resolveSecret r) := by
  unfold resolveSecret
  dsimp only
  split
  · exact Prog.tracks_ret _ _
  · rename_i raw hraw
    split
    · apply Prog.Tracks.bind _ fun _ _ => Prog.tracks_ret _ _
      apply stores_refreshOAuth hn r.sourceType hmem
      unfold tokenFromSecret
      by_cases hempty : r.sourceSecret = ""
      · simp [hempty] at hraw
      · simp only [ne_eq, hempty, not_false_eq_true, if_true] at hraw
        simp [hempty, hraw]
    · exact Prog.tracks_ret _ _

theorem stores_sourceInputs (read : List (Int × String)) {rows : List SourceRow}
    (hrows : ∀ r ∈ rows, (r.dataSourceID, r.sourceSecret) ∈ read) {n : Note}
    (hn : n.read = some read) : Stores b n (b.sourceInputs rows) := by
  induction rows generalizing n with
  | nil => exact Prog.tracks_ret _ _
  | cons r rows ih =>
      have hkeeps (n : Note) (c : Call P D) (r : Call.Res c) :
          n.Proper b c → n.read = some read → (n.after c r).read = some read :=
        read_after_of_proper r
      apply Prog.Tracks.bind_keeping hkeeps
        (stores_resolveSecret hn (hrows r List.mem_cons_self)) hn
      intro n' _ hn'
      apply Prog.Tracks.bind _ fun _ _ => Prog.tracks_ret _ _
      exact ih (fun r' hr' => hrows r' (List.mem_cons_of_mem r hr')) hn'

theorem stores_sourcesFor (b : Broker P D) (widgetID : Int) :
    Stores b {} (b.sourcesFor widgetID) := by
  refine ⟨rfl, ?_⟩
  intro rows
  cases rows with
  | none => exact Prog.tracks_ret _ _
  | some rows =>
      apply stores_sourceInputs (Note.secrets rows) _ rfl
      intro r hr
      exact List.mem_map_of_mem hr

theorem stores_refreshWidget (b : Broker P D) (wgt : WidgetRow) :
    Stores b {} (b.refreshWidget wgt) := by
  unfold refreshWidget
  apply Prog.Tracks.bind
  · unfold obtain
    cases b.typ wgt.type with
    | none => exact Prog.tracks_ret _ _
    | some newProvider =>
        apply (stores_sourcesFor b wgt.id).bind
        intro n sources
        cases newProvider wgt.configJson sources with
        | error err => exact Prog.tracks_ret _ _
        | ok prov =>
            apply Quiet.stores
            refine ⟨trivial, ?_⟩
            intro r _
            cases r with
            | error err =>
                exact (quiet_of_aside (aside_recordSourcesHealth _ _)).bind fun _ => Prog.only_ret _
            | ok fetched =>
                apply (quiet_of_aside (aside_recordSourcesHealth _ _)).bind
                intro _
                cases fetched.1.bind b.marshalError with
                | some err => exact Prog.only_ret _
                | none => exact (quiet_of_aside (aside_refreshCap _)).bind fun _ => Prog.only_ret _
  · intro n r
    apply Quiet.stores
    cases r with
    | error msg => exact quiet_markErr wgt.id msg
    | ok fetched =>
        refine ⟨trivial, fun _ _ => ?_⟩
        exact ⟨trivial, fun _ _ => Prog.only_ret ()⟩

theorem stores_storeToken {n : Note} {e : Entry Token} {id : Int}
    (hanswer : n.answer = some e)
    (hread : ∀ tok ∈ e.parent, ∃ secret, (id, secret) ∈ n.read.getD [] ∧
      tokenFromSecret b secret = some tok) : Stores b n (storeToken b id e.value) := by
  unfold storeToken
  cases hseal : b.sealSecret (.token e.value) with
  | none => exact Prog.tracks_ret _ _
  | some cipher =>
      exact ⟨⟨e, hanswer, hseal, hread⟩, fun _ => Prog.tracks_ret _ _⟩

theorem stores_freshAccessToken (b : Broker P D) (id : Int) (ds : DataSource) :
    Stores b { read := some [(id, ds.secretCiphertext)] } (freshAccessToken b id ds) := by
  unfold freshAccessToken
  cases htok : tokenFromSecret b ds.secretCiphertext with
  | none => exact Prog.tracks_ret _ _
  | some tok =>
      refine ⟨trivial, ?_⟩
      intro r
      cases r with
      | error e => exact Prog.tracks_ret _ _
      | ok fresh =>
          apply Prog.Tracks.bind _ fun _ _ => Prog.tracks_ret _ _
          split
          · apply stores_storeToken (e := ⟨fresh, some tok⟩) rfl
            intro tok' htok'
            cases htok'
            exact ⟨_, List.mem_singleton_self _, htok⟩
          · exact Prog.tracks_ret _ _

end FamilyPlanner.Server

import FamilyPlanner.Server.PdfMedia

/-!
# The choice of a document

The requests for one widget interleave.  What is served is the last choice if an
upload finds no item in the configuration and a fetch puts its file in place
while its item is the selected one.
-/

namespace FamilyPlanner.Server.PdfMedia

open FamilyPlanner.Foundation FamilyPlanner.Widget

/-! ## Requests in progress -/

/-- What a request knows: the item in the configuration it has read, whether it has
written, how many choices had been completed when it opened the file, and what it has
served, with the last choice then. -/
structure PdfNote where
  item : String := ""
  writing : Bool := false
  seen : Nat := 0
  served : Option (Option Choice × Doc) := none

def pdfWidget : Service PdfRequest PdfCall PdfCall.Res Answer Media PdfEnv PdfNote where
  handle := PdfRequest.handle
  exec := PdfCall.exec
  fresh := {}
  record
    | .getWidget, _, ((config : Option ConfigJson), _), n =>
        { n with item := config.elim "" (·.get "od_item") }
    | .create, _, ((dst : Option Nat), _), n => { n with writing := dst.isSome }
    | .updateWidget _, _, _, n => { n with writing := true }
    | .openFile, x, _, n => { n with seen := x.choices }
    | .serveContent _, x, ((doc : Doc), _), n => { n with served := some (x.choice, doc) }
    | _, _, _, n => n

abbrev PdfJob := Job PdfRequest PdfCall PdfCall.Res Answer PdfNote

abbrev Pdf := Service.State PdfRequest PdfCall PdfCall.Res Answer Media PdfNote

/-- An upload or selection between its first write and its response. -/
def Choosing (j : PdfJob) : Prop := j.note.writing = true ∧ j.answer? = none

instance (j : PdfJob) : Decidable (Choosing j) := inferInstanceAs (Decidable (_ ∧ _))

abbrev Settled (jobs : List PdfJob) : Prop := ∀ k ∈ jobs, ¬ Choosing k

/--
An upload finds no item in the configuration, when it reads it and when it first
writes.  From the first write of an upload or selection to its response its writes
succeed, and nothing else is written or served.  A fetch puts its file in place while its
item is the selected one, and a file is read before another choice is completed.
-/
def InTurn (s : Pdf) (j : PdfJob) (env : PdfEnv) : PdfCall → Prop
  | .create => env.failed = false →
      Settled s.jobs ∧ j.note.item = "" ∧ s.object.config.get "od_item" = ""
  | .copy _ _ | .remove => env.failed = false
  | .updateWidget _ => j.note.writing = false → Settled s.jobs ∧ env.failed = false
  | .rename tmp => env.failed = false →
      Settled s.jobs ∧ tmp.item = some (s.object.config.get "od_item")
  | .serveContent _ => Settled s.jobs ∧ j.note.seen = s.object.choices
  | _ => True

instance (s : Pdf) (j : PdfJob) (env : PdfEnv) : ∀ o, Decidable (InTurn s j env o)
  | .create => inferInstanceAs (Decidable (_ → _))
  | .copy _ _ | .remove => inferInstanceAs (Decidable (_ = _))
  | .updateWidget _ => inferInstanceAs (Decidable (_ → _))
  | .rename _ => inferInstanceAs (Decidable (_ → _))
  | .serveContent _ => inferInstanceAs (Decidable (_ ∧ _))
  | .getWidget | .mkdirAll | .pdfCacheStale | .fetch _ _ | .stat | .openFile | .redirect _ =>
      .isTrue trivial

/-! ## What a choice shows -/

namespace Choice

def odItem : Choice → String
  | upload _ => ""
  | item id => id

/-- The document is the uploaded file or content of the selected item. -/
def Shows : Choice → Doc → Prop
  | upload pdf, doc => doc.bytes = pdf ∧ doc.item = none
  | item id, doc => doc.item = some id

structure Holds (c : Choice) (x : Media) : Prop where
  config : x.config.get "od_item" = c.odItem
  file : ∀ k ∈ x.path, c.Shows (x.files k)

end Choice

/-! ## How far a request has come -/

inductive Stage (x : Media) (settled : Prop) (j : PdfJob) : Prop where
  | starting (hrest : j.rest = j.request.handle) (hquiet : j.note.writing = false)
  | storing (config : ConfigJson) (filename : String) (pdf : Bytes)
      (hrest : j.rest = storeUpload config filename pdf) (hquiet : j.note.writing = false)
      (hlength : pdf.length ≤ maxPdfBytes) (hitem : j.note.item = config.get "od_item")
  | creating (config : ConfigJson) (filename : String) (pdf : Bytes)
      (hrest : j.rest = createUpload config filename pdf) (hquiet : j.note.writing = false)
      (hlength : pdf.length ≤ maxPdfBytes) (hitem : j.note.item = config.get "od_item")
  | selecting (config : ConfigJson) (item name : String)
      (hrest : j.rest = recordItem config item name) (hquiet : j.note.writing = false)
  | refetching (item name : String) (hrest : j.rest = refetch item name)
      (hquiet : j.note.writing = false) (hitem : item ≠ "")
  | fetching (item name : String) (hrest : j.rest = fetchOneDrivePdf item name)
      (hquiet : j.note.writing = false) (hitem : item ≠ "")
  | placing (tmp : Doc) (hrest : j.rest = placeFetched tmp)
      (hquiet : j.note.writing = false) (hitem : tmp.item ≠ some "")
  | fallingBack (hrest : j.rest = fallBack) (hquiet : j.note.writing = false)
  | opening (hrest : j.rest = servePdf) (hquiet : j.note.writing = false)
  | serving (file : Nat) (hrest : j.rest = .call (.serveContent file) fun _ => .ret (.ok 200))
      (hquiet : j.note.writing = false) (hfile : file < x.next) (hseen : j.note.seen ≤ x.choices)
      (hshows : j.note.seen = x.choices → settled → ∀ c ∈ x.choice, c.Shows (x.files file))
  | choosing (h : Choosing j)
  | answered (a : Answer) (h : j.rest = .ret a)

inductive Making (x : Media) (j : PdfJob) : Prop where
  | copying (config : ConfigJson) (filename : String) (pdf : Bytes) (dst : Nat)
      (hrest : j.rest = copyUpload config filename pdf dst) (hdst : x.path = some dst)
      (hlength : pdf.length ≤ maxPdfBytes) (hread : config.get "od_item" = "")
      (hitem : x.config.get "od_item" = "")
  | recording (config : ConfigJson) (filename : String) (pdf : Bytes)
      (hrest : j.rest = recordUpload config filename pdf) (hread : config.get "od_item" = "")
      (hholds : (Choice.upload pdf).Holds x)
  | removing (item : String) (hrest : j.rest = removeFile item)
      (hitem : x.config.get "od_item" = item)
  | redirecting (c : Choice) (hrest : j.rest = redirect c) (hholds : c.Holds x)

/-- What a step may do to the files that requests have opened. -/
structure Advances (x x' : Media) (settled settled' : Prop) : Prop where
  next : x.next ≤ x'.next
  choices : x.choices ≤ x'.choices
  kept : x'.choices = x.choices → settled' →
    settled ∧ x'.choice = x.choice ∧ ∀ k < x.next, x'.files k = x.files k

structure Kept (s : Pdf) : Prop where
  staged : ∀ j ∈ s.jobs, Stage s.object (Settled s.jobs) j
  served : ∀ j ∈ s.jobs, ∀ r ∈ j.note.served, ∀ c ∈ r.1, c.Shows r.2
  current : Service.Exclusive Choosing s.jobs (∀ c ∈ s.object.choice, c.Holds s.object)
    (Making s.object)

variable {x x' : Media} {settled settled' : Prop} {s : Pdf} {j j' : PdfJob} {i : Nat}
  {env : PdfEnv}

theorem Stage.advance (h : Stage x settled j) (hx : Advances x x' settled settled') :
    Stage x' settled' j := by
  cases h with
  | serving file hrest hquiet hfile hseen hshows =>
      refine .serving file hrest hquiet (Nat.lt_of_lt_of_le hfile hx.next)
        (Nat.le_trans hseen hx.choices) ?_
      intro hsame hsettled
      have hchoices : x'.choices = x.choices := by
        have hle := hx.choices
        omega
      obtain ⟨hbefore, hchoice, hfiles⟩ := hx.kept hchoices hsettled
      rw [hchoice, hfiles file hfile]
      exact hshows (hsame.trans hchoices) hbefore
  | starting hrest hquiet => exact .starting hrest hquiet
  | storing config filename pdf hrest hquiet hlength hitem =>
      exact .storing config filename pdf hrest hquiet hlength hitem
  | creating config filename pdf hrest hquiet hlength hitem =>
      exact .creating config filename pdf hrest hquiet hlength hitem
  | selecting config item name hrest hquiet => exact .selecting config item name hrest hquiet
  | refetching item name hrest hquiet hitem => exact .refetching item name hrest hquiet hitem
  | fetching item name hrest hquiet hitem => exact .fetching item name hrest hquiet hitem
  | placing tmp hrest hquiet hitem => exact .placing tmp hrest hquiet hitem
  | fallingBack hrest hquiet => exact .fallingBack hrest hquiet
  | opening hrest hquiet => exact .opening hrest hquiet
  | choosing h => exact .choosing h
  | answered a h => exact .answered a h

theorem not_choosing_of_quiet (h : j.note.writing = false) : ¬ Choosing j := by
  simp [Choosing, h]

theorem not_choosing_of_answer {a : Answer} (h : j.rest = .ret a) : ¬ Choosing j := by
  simp [Choosing, Job.answer?, h]

theorem advances_of_settled (h : settled' → settled) : Advances x x settled settled' :=
  ⟨Nat.le_refl _, Nat.le_refl _, fun _ h' => ⟨h h', rfl, fun _ _ => rfl⟩⟩

/-! ## Steps that write nothing -/

theorem Kept.staged_set (hs : Kept s) (hx : Advances s.object x' (Settled s.jobs) settled')
    (i : Nat) (hstage : Stage x' settled' j') : ∀ k ∈ s.jobs.set i j', Stage x' settled' k :=
  forall_resumed (fun k hk => (hs.staged k hk).advance hx) i hstage

theorem Kept.served_set (hs : Kept s) (hj : s.jobs[i]? = some j)
    (hserved : j'.note.served = j.note.served) :
    ∀ k ∈ s.jobs.set i j', ∀ r ∈ k.note.served, ∀ c ∈ r.1, c.Shows r.2 := by
  apply forall_resumed hs.served i
  rw [hserved]
  exact hs.served j (List.mem_of_getElem? hj)

theorem Kept.pass (hs : Kept s) (hj : s.jobs[i]? = some j) (hold : ¬ Choosing j)
    (hnew : ¬ Choosing j') (hstage : Stage s.object (Settled s.jobs) j')
    (hserved : ∀ r ∈ j'.note.served, ∀ c ∈ r.1, c.Shows r.2) :
    Kept ⟨s.object, s.jobs.set i j'⟩ := by
  have hx : Advances s.object s.object (Settled s.jobs) (Settled (s.jobs.set i j')) :=
    advances_of_settled (Service.forall_not_of_set hj hold)
  refine ⟨hs.staged_set hx i (hstage.advance hx), forall_resumed hs.served i hserved, ?_⟩
  exact hs.current.pass hj hold hnew id fun _ _ h => h

theorem Kept.same (hs : Kept s) (hj : s.jobs[i]? = some j) (hold : ¬ Choosing j)
    (hnew : ¬ Choosing j') (hserved : j'.note.served = j.note.served)
    (hstage : Stage s.object (Settled s.jobs) j') : Kept ⟨s.object, s.jobs.set i j'⟩ := by
  apply hs.pass hj hold hnew hstage
  rw [hserved]
  exact hs.served j (List.mem_of_getElem? hj)

theorem Kept.answer (hs : Kept s) (hj : s.jobs[i]? = some j) (hold : ¬ Choosing j) {a : Answer}
    (hrest : j'.rest = .ret a) (hserved : j'.note.served = j.note.served) :
    Kept ⟨s.object, s.jobs.set i j'⟩ :=
  hs.same hj hold (not_choosing_of_answer hrest) hserved (.answered a hrest)

theorem Kept.start (hs : Kept s) (r : PdfRequest) :
    Kept { s with jobs := s.jobs ++ [pdfWidget.started r] } := by
  have hnew : ¬ Choosing (pdfWidget.started r) := not_choosing_of_quiet rfl
  have hx : Advances s.object s.object (Settled s.jobs)
      (Settled (s.jobs ++ [pdfWidget.started r])) := by
    apply advances_of_settled
    intro h k hk
    exact h k (List.mem_append_left _ hk)
  refine ⟨?_, ?_, hs.current.start hnew⟩
  · exact forall_started (fun k hk => (hs.staged k hk).advance hx) (.starting rfl rfl)
  · apply forall_started hs.served
    intro r hr
    cases hr

/-! ## Steps that write -/

theorem Kept.choose (hs : Kept s) (hj : s.jobs[i]? = some j)
    (honly : ∀ (i' : Nat) k, s.jobs[i']? = some k → Choosing k → i' = i)
    (hnew : Choosing j') (hmaking : Making x' j') (hserved : j'.note.served = j.note.served)
    (hnext : s.object.next ≤ x'.next) (hchoices : s.object.choices ≤ x'.choices) :
    Kept ⟨x', s.jobs.set i j'⟩ := by
  have hx : Advances s.object x' (Settled s.jobs) (Settled (s.jobs.set i j')) := by
    refine ⟨hnext, hchoices, fun _ hsettled => absurd hnew (hsettled j' ?_)⟩
    exact List.mem_set (List.getElem?_eq_some_iff.mp hj).1 _
  exact ⟨hs.staged_set hx i (.choosing hnew), hs.served_set hj hserved,
    .hold honly hj hnew hmaking⟩

theorem only_of_settled (h : Settled s.jobs) (i' : Nat) (k : PdfJob)
    (hk : s.jobs[i']? = some k) (hchoosing : Choosing k) : i' = i :=
  absurd hchoosing (h k (List.mem_of_getElem? hk))

theorem Media.create_path (x : Media) (now : Int) : ∃ dst, (x.create now).path = some dst := by
  unfold create
  cases hpath : x.path with
  | none => exact ⟨_, rfl⟩
  | some file => exact ⟨file, hpath⟩

theorem Media.create_kept (x : Media) (now : Int) :
    (x.create now).config = x.config ∧ x.next ≤ (x.create now).next ∧
      (x.create now).choices = x.choices := by
  unfold create
  cases x.path with
  | none => exact ⟨rfl, Nat.le_succ _, rfl⟩
  | some file => exact ⟨rfl, Nat.le_refl _, rfl⟩

theorem Kept.begin (hs : Kept s) (hj : s.jobs[i]? = some j) (hsettled : Settled s.jobs)
    {config : ConfigJson} {filename : String} {pdf : Bytes} (hlength : pdf.length ≤ maxPdfBytes)
    (hread : config.get "od_item" = "") (hitem : s.object.config.get "od_item" = "")
    {now : Int} (hrest : j'.rest = copyInto config filename pdf (s.object.create now).path)
    (hnote : j'.note = { j.note with writing := (s.object.create now).path.isSome }) :
    Kept ⟨s.object.create now, s.jobs.set i j'⟩ := by
  obtain ⟨dst, hdst⟩ := s.object.create_path now
  obtain ⟨hconfig, hnext, hchoices⟩ := s.object.create_kept now
  rw [hdst] at hrest hnote
  have hchoosing : Choosing j' := by
    constructor
    · rw [hnote]
      rfl
    · rw [Job.answer?, hrest]
      rfl
  refine hs.choose hj (only_of_settled hsettled) hchoosing ?_ ?_ hnext (Nat.le_of_eq hchoices.symm)
  · refine .copying config filename pdf dst hrest hdst hlength hread ?_
    rw [hconfig]
    exact hitem
  · rw [hnote]

theorem Kept.complete (hs : Kept s) (hj : s.jobs[i]? = some j) (hold : Choosing j) {c : Choice}
    (hholds : c.Holds s.object) {a : Answer} (hrest : j'.rest = .ret a)
    (hserved : j'.note.served = j.note.served) :
    Kept ⟨{ s.object with choice := some c, choices := s.object.choices + 1 },
      s.jobs.set i j'⟩ := by
  have hx : Advances s.object
      { s.object with choice := some c, choices := s.object.choices + 1 }
      (Settled s.jobs) (Settled (s.jobs.set i j')) :=
    ⟨Nat.le_refl _, Nat.le_succ _, fun h => absurd h (Nat.succ_ne_self _)⟩
  refine ⟨hs.staged_set hx i (.answered a hrest), hs.served_set hj hserved, ?_⟩
  apply hs.current.leave hj hold (not_choosing_of_answer hrest)
  rintro _ ⟨⟩
  exact ⟨hholds.config, hholds.file⟩

theorem Kept.place (hs : Kept s) (hj : s.jobs[i]? = some j)
    (hsettled : Settled s.jobs) {tmp : Doc}
    (hitem : tmp.item = some (s.object.config.get "od_item")) (hsome : tmp.item ≠ some "")
    (hrest : j'.rest = servePdf) (hquiet : j'.note.writing = false)
    (hserved : j'.note.served = j.note.served) :
    Kept ⟨s.object.place tmp, s.jobs.set i j'⟩ := by
  have hx : Advances s.object (s.object.place tmp) (Settled s.jobs)
      (Settled (s.jobs.set i j')) := by
    refine ⟨Nat.le_succ _, Nat.le_refl _, fun _ _ => ⟨hsettled, rfl, ?_⟩⟩
    intro k hk
    exact Function.update_of_ne (Nat.ne_of_lt hk) _ _
  refine ⟨hs.staged_set hx i (.opening hrest hquiet), hs.served_set hj hserved,
    .inl ⟨forall_resumed hsettled i (not_choosing_of_quiet hquiet), ?_⟩⟩
  intro c hc
  have hholds := hs.current.of_none hsettled c hc
  refine ⟨hholds.config, ?_⟩
  rintro _ ⟨⟩
  have hfile : (s.object.place tmp).files s.object.next = tmp := Function.update_self ..
  rw [hfile]
  rw [hholds.config] at hitem
  cases c with
  | upload pdf => exact absurd hitem hsome
  | item id => exact hitem

/-! ## One operation -/

theorem checkUpload_cases (form : UploadForm) (config : ConfigJson) :
    (∃ a, checkUpload form config = .ret a) ∨
      ∃ filename pdf, pdf.length ≤ maxPdfBytes ∧
        checkUpload form config = storeUpload config filename pdf := by
  unfold checkUpload
  split
  · exact .inl ⟨_, rfl⟩
  · split
    · exact .inl ⟨_, rfl⟩
    · rename_i filename pdf _
      split
      · exact .inl ⟨_, rfl⟩
      · rename_i hlength
        split
        · exact .inl ⟨_, rfl⟩
        · split
          · exact .inl ⟨_, rfl⟩
          · exact .inr ⟨filename, pdf, Nat.le_of_not_lt hlength, rfl⟩

theorem Kept.getWidget {o : PdfCall} {next : o.Res → PdfProgram}
    {rest : Option ConfigJson → PdfProgram} (h : Prog.call o next = .call PdfCall.getWidget rest)
    (hread : ∀ config : Option ConfigJson, Kept ⟨s.object, s.jobs.set i ⟨j.request,
      rest config, { j.note with item := config.elim "" (·.get "od_item") }⟩⟩) :
    Kept ⟨(pdfWidget.exec env o s.object).2,
      s.jobs.set i (pdfWidget.resumed env s.object j o next)⟩ := by
  cases h
  exact hread _

theorem Kept.read (hs : Kept s) (hj : s.jobs[i]? = some j) (hquiet : j.note.writing = false)
    {o : PdfCall} {next : o.Res → PdfProgram} (h : .call o next = j.request.handle) :
    Kept ⟨(pdfWidget.exec env o s.object).2,
      s.jobs.set i (pdfWidget.resumed env s.object j o next)⟩ := by
  have hold := not_choosing_of_quiet hquiet
  cases hrequest : j.request with
  | upload form =>
      obtain ⟨rest, hhandle, hnone, hsome⟩ : ∃ rest : Option ConfigJson → PdfProgram,
          j.request.handle = .call .getWidget rest ∧
            rest none = .ret (.error ("not a pdf widget", 400)) ∧
            ∀ config, rest (some config) = checkUpload form config := by
        rw [hrequest]
        exact ⟨_, rfl, rfl, fun _ => rfl⟩
      apply Kept.getWidget (h.trans hhandle)
      intro config
      cases config with
      | none => exact hs.answer hj hold hnone rfl
      | some config =>
          rw [hsome]
          rcases checkUpload_cases form config with ⟨a, h⟩ | ⟨filename, pdf, hlength, h⟩
          · exact hs.answer hj hold h rfl
          · exact hs.same hj hold (not_choosing_of_quiet hquiet) rfl
              (.storing config filename pdf h hquiet hlength rfl)
  | select item name =>
      obtain ⟨rest, hhandle, hnone, hsome⟩ : ∃ rest : Option ConfigJson → PdfProgram,
          j.request.handle = .call .getWidget rest ∧
            rest none = .ret (.error ("not a pdf widget", 400)) ∧
            ∀ config, rest (some config) = recordItem config item name := by
        rw [hrequest]
        exact ⟨_, rfl, rfl, fun _ => rfl⟩
      apply Kept.getWidget (h.trans hhandle)
      intro config
      cases config with
      | none => exact hs.answer hj hold hnone rfl
      | some config =>
          exact hs.same hj hold (not_choosing_of_quiet hquiet) rfl
            (.selecting config item name (hsome config) hquiet)
  | media =>
      obtain ⟨rest, hhandle, hnone, hsome⟩ : ∃ rest : Option ConfigJson → PdfProgram,
          j.request.handle = .call .getWidget rest ∧ rest none = servePdf ∧
            ∀ config : ConfigJson, rest (some config) =
              if config.get "od_item" = "" then servePdf
              else refetch (config.get "od_item") (config.get "od_name") := by
        rw [hrequest]
        exact ⟨_, rfl, rfl, fun _ => rfl⟩
      apply Kept.getWidget (h.trans hhandle)
      intro config
      refine hs.same hj hold (not_choosing_of_quiet hquiet) rfl ?_
      cases config with
      | none => exact .opening hnone hquiet
      | some config =>
          by_cases hitem : config.get "od_item" = ""
          · exact .opening ((hsome config).trans (if_pos hitem)) hquiet
          · exact .refetching _ _ ((hsome config).trans (if_neg hitem)) hquiet hitem

theorem Kept.make (hs : Kept s) (hj : s.jobs[i]? = some j) (hchoosing : Choosing j)
    {o : PdfCall} {next : o.Res → PdfProgram} (hin : InTurn s j env o)
    (h : j.rest = .call o next) :
    Kept ⟨(pdfWidget.exec env o s.object).2,
      s.jobs.set i (pdfWidget.resumed env s.object j o next)⟩ := by
  obtain ⟨hmaking, honly⟩ := hs.current.of_critical hj hchoosing
  cases hmaking with
  | copying config filename pdf dst hrest hdst hlength hread hitem =>
      rw [hrest] at h
      change Prog.call (PdfCall.copy _ _) _ = _ at h
      cases h
      obtain ⟨now, failed, content, written⟩ := env
      cases hin
      refine hs.choose hj honly ⟨hchoosing.1, rfl⟩ ?_ rfl (Nat.le_refl _) (Nat.le_refl _)
      refine .recording config filename pdf rfl hread ⟨hitem, ?_⟩
      intro k hk
      cases hdst.symm.trans hk
      have hfile : (s.object.write dst ⟨pdf.take maxPdfBytes, now, none⟩).files dst =
          ⟨pdf.take maxPdfBytes, now, none⟩ := Function.update_self ..
      change Choice.Shows _ ((s.object.write dst ⟨pdf.take maxPdfBytes, now, none⟩).files dst)
      rw [hfile, List.take_of_length_le hlength]
      exact ⟨rfl, rfl⟩
  | recording config filename pdf hrest hread hholds =>
      rw [hrest] at h
      change Prog.call (PdfCall.updateWidget _) _ = _ at h
      cases h
      obtain ⟨now, failed, content, written⟩ := env
      cases failed with
      | true =>
          refine hs.choose hj honly ⟨rfl, rfl⟩ ?_ rfl (Nat.le_refl _) (Nat.le_refl _)
          exact .redirecting (.upload pdf) rfl hholds
      | false =>
          refine hs.choose hj honly ⟨rfl, rfl⟩ ?_ rfl (Nat.le_refl _) (Nat.le_refl _)
          refine .redirecting (.upload pdf) rfl ⟨?_, hholds.file⟩
          refine (setMember_get _ _ _ _).trans ?_
          rw [if_neg (by decide), hread]
          rfl
  | removing item hrest hitem =>
      rw [hrest] at h
      change Prog.call PdfCall.remove _ = _ at h
      cases h
      obtain ⟨now, failed, content, written⟩ := env
      cases hin
      refine hs.choose hj honly ⟨hchoosing.1, rfl⟩ ?_ rfl (Nat.le_refl _) (Nat.le_refl _)
      refine .redirecting (.item item) rfl ⟨hitem, ?_⟩
      intro k hk
      cases hk
  | redirecting c hrest hholds =>
      rw [hrest] at h
      change Prog.call (PdfCall.redirect _) _ = _ at h
      cases h
      exact hs.complete hj hchoosing hholds rfl rfl

theorem Kept.openFile (hs : Kept s) (hj : s.jobs[i]? = some j) (hquiet : j.note.writing = false)
    {file : Option Nat} (hfile : ∀ k ∈ file, s.object.path = some k) :
    Kept ⟨s.object, s.jobs.set i
      ⟨j.request, serveFile file, { j.note with seen := s.object.choices }⟩⟩ := by
  have hold := not_choosing_of_quiet hquiet
  cases file with
  | none => exact hs.answer hj hold rfl rfl
  | some k =>
      have hpath := hfile k rfl
      refine hs.same hj hold (not_choosing_of_quiet hquiet) rfl ?_
      refine .serving k rfl hquiet (s.object.allocated k hpath) (Nat.le_refl _) ?_
      intro _ hsettled c hc
      exact (hs.current.of_none hsettled c hc).file k hpath

theorem Kept.resume (hs : Kept s) (hj : s.jobs[i]? = some j)
    {o : PdfCall} {next : o.Res → PdfProgram} (hin : InTurn s j env o)
    (hrest : j.rest = .call o next) :
    Kept ⟨(pdfWidget.exec env o s.object).2,
      s.jobs.set i (pdfWidget.resumed env s.object j o next)⟩ := by
  cases hs.staged j (List.mem_of_getElem? hj) with
  | starting h hquiet => exact hs.read hj hquiet (hrest.symm.trans h)
  | storing config filename pdf h hquiet hlength hitem =>
      rw [hrest] at h
      change _ = Prog.call PdfCall.mkdirAll _ at h
      cases h
      have hold := not_choosing_of_quiet hquiet
      obtain ⟨now, failed, content, written⟩ := env
      cases failed with
      | true => exact hs.answer hj hold rfl rfl
      | false =>
          exact hs.same hj hold (not_choosing_of_quiet hquiet) rfl
            (.creating config filename pdf rfl hquiet hlength hitem)
  | creating config filename pdf h hquiet hlength hitem =>
      rw [hrest] at h
      change _ = Prog.call PdfCall.create _ at h
      cases h
      obtain ⟨now, failed, content, written⟩ := env
      cases failed with
      | true => exact hs.answer hj (not_choosing_of_quiet hquiet) rfl rfl
      | false =>
          obtain ⟨hsettled, hread, hconfig⟩ := hin rfl
          exact hs.begin hj hsettled hlength (hitem.symm.trans hread) hconfig rfl rfl
  | selecting config item name h hquiet =>
      rw [hrest] at h
      change _ = Prog.call (PdfCall.updateWidget _) _ at h
      cases h
      obtain ⟨hsettled, hfailed⟩ := hin hquiet
      obtain ⟨now, failed, content, written⟩ := env
      cases hfailed
      have hitem : (setMember (setMember (setMember config "od_item" item) "od_name" name)
          "file" name).get "od_item" = item := by
        rw [setMember_get, if_neg (by decide), setMember_get, if_neg (by decide), setMember_get,
          if_pos rfl]
      refine hs.choose hj (only_of_settled hsettled) ⟨rfl, rfl⟩ ?_ rfl (Nat.le_refl _)
        (Nat.le_refl _)
      exact .removing item rfl hitem
  | refetching item name h hquiet hitem =>
      rw [hrest] at h
      change _ = Prog.call PdfCall.pdfCacheStale _ at h
      cases h
      refine hs.same hj (not_choosing_of_quiet hquiet) (not_choosing_of_quiet hquiet) rfl ?_
      cases hstale : (pdfWidget.exec env .pdfCacheStale s.object).1 with
      | true => exact .fetching item name (if_pos hstale) hquiet hitem
      | false => exact .opening (if_neg (by simp [hstale])) hquiet
  | fetching item name h hquiet hitem =>
      rw [hrest] at h
      change _ = Prog.call (PdfCall.fetch _ _) _ at h
      cases h
      refine hs.same hj (not_choosing_of_quiet hquiet) (not_choosing_of_quiet hquiet) rfl ?_
      obtain ⟨now, failed, content, written⟩ := env
      cases failed with
      | true => exact .fallingBack rfl hquiet
      | false => exact .placing _ rfl hquiet fun h => hitem (Option.some.inj h)
  | placing tmp h hquiet hitem =>
      rw [hrest] at h
      change _ = Prog.call (PdfCall.rename _) _ at h
      cases h
      have hold := not_choosing_of_quiet hquiet
      obtain ⟨now, failed, content, written⟩ := env
      cases failed with
      | true => exact hs.same hj hold (not_choosing_of_quiet hquiet) rfl (.fallingBack rfl hquiet)
      | false =>
          obtain ⟨hsettled, hselected⟩ := hin rfl
          exact hs.place hj hsettled hselected hitem rfl hquiet rfl
  | fallingBack h hquiet =>
      rw [hrest] at h
      change _ = Prog.call PdfCall.stat _ at h
      cases h
      have hold := not_choosing_of_quiet hquiet
      cases hfound : (pdfWidget.exec env .stat s.object).1 with
      | true =>
          exact hs.same hj hold (not_choosing_of_quiet hquiet) rfl
            (.opening (if_pos hfound) hquiet)
      | false => exact hs.answer hj hold (if_neg (by simp [hfound])) rfl
  | opening h hquiet =>
      rw [hrest] at h
      change _ = Prog.call PdfCall.openFile _ at h
      cases h
      obtain ⟨now, failed, content, written⟩ := env
      cases failed with
      | true => exact hs.openFile hj hquiet fun _ h => by cases h
      | false => exact hs.openFile hj hquiet fun _ h => h
  | serving file h hquiet hfile hseen hshows =>
      rw [hrest] at h
      cases h
      obtain ⟨hsettled, hsame⟩ := hin
      refine hs.pass hj (not_choosing_of_quiet hquiet) (not_choosing_of_quiet hquiet)
        (.answered _ rfl) ?_
      rintro _ ⟨⟩ c hc
      exact hshows hsame hsettled c hc
  | choosing h => exact hs.make hj h hin hrest
  | answered a h =>
      rw [hrest] at h
      cases h

/--
In every run of uploads, selections and requests for the document that meets the
condition, each document that is served is that of the choice completed last, and so is the one
at the path whenever no choice is being made.
-/
theorem serves_last_choice {x : Media} {s : Pdf} {es : List (Service.Act PdfRequest PdfEnv)}
    (hturn : pdfWidget.acts.Along (Service.Guard InTurn) ⟨x, []⟩ es)
    (hrun : pdfWidget.acts.run ⟨x, []⟩ es = some s) (hchoice : x.choice = none) :
    (∀ j ∈ s.jobs, ∀ r ∈ j.note.served, ∀ c ∈ r.1, c.Shows r.2) ∧
      (Settled s.jobs → ∀ c ∈ s.object.choice, ∀ k ∈ s.object.path,
        c.Shows (s.object.files k)) := by
  have hstart : Kept ⟨x, []⟩ := by
    refine ⟨by simp, by simp, .inl ⟨by simp, ?_⟩⟩
    simp [hchoice]
  have hs : Kept s := by
    apply Service.run_invariant (I := Kept) (P := InTurn) _ _ hstart hturn hrun
    · intro s r hs
      exact hs.start r
    · intro s i env j o next hs hin hj hrest
      exact hs.resume hj hin hrest
  refine ⟨hs.served, ?_⟩
  intro hsettled c hc k hk
  exact (hs.current.of_none hsettled c hc).file k hk

/-! ## An upload after a selection -/

private def blank : Media where
  config := .object []
  path := none
  files := fun _ => ⟨[], 0, none⟩
  next := 0
  allocated := by simp

private def letter : Bytes := pdfMagic ++ [0x2d]

private def menu : Bytes := pdfMagic ++ [0x31]

private def letterForm : UploadForm := ⟨true, some ("letter.pdf", letter), true⟩

private def account (now : Int) : PdfEnv where
  now := now
  content := fun _ _ => menu

private def resumes (i : Nat) (env : PdfEnv) (n : Nat) : List (Service.Act PdfRequest PdfEnv) :=
  List.replicate n (.resume i env)

private def letterThenMenu : List (Service.Act PdfRequest PdfEnv) :=
  .start (.upload letterForm) :: resumes 0 (account 0) 6 ++
    .start (.select "A" "menu.pdf") :: resumes 1 (account 0) 4 ++
    .start .media :: resumes 2 (account 0) 6

theorem serves_last_choice_menu : ∃ s, pdfWidget.acts.run ⟨blank, []⟩ letterThenMenu = some s ∧
    s.jobs.map (fun j => j.note.served) =
      [none, none, some (some (.item "A"), ⟨menu, 0, some "A"⟩)] ∧
    ∀ j ∈ s.jobs, ∀ r ∈ j.note.served, ∀ c ∈ r.1, c.Shows r.2 := by
  obtain ⟨s, hrun, hserved⟩ : ∃ s,
      pdfWidget.acts.run ⟨blank, []⟩ letterThenMenu = some s ∧
      s.jobs.map (fun j => j.note.served) =
        [none, none, some (some (.item "A"), ⟨menu, 0, some "A"⟩)] := ⟨_, rfl, by decide⟩
  refine ⟨s, hrun, hserved, (serves_last_choice ?_ hrun rfl).1⟩
  decide

/-- The upload leaves the item in the configuration; an hour later the next request
fetches it over the upload. -/
theorem upload_replaced : ∃ es s, pdfWidget.acts.run ⟨blank, []⟩ es = some s ∧
    ∃ j ∈ s.jobs, j.note.served =
        some (some (.upload letter), ⟨menu, 3601000000000, some "A"⟩) ∧
      ¬ (Choice.upload letter).Shows ⟨menu, 3601000000000, some "A"⟩ := by
  refine ⟨.start (.select "A" "menu.pdf") :: resumes 0 (account 0) 4 ++
    .start (.upload letterForm) :: resumes 1 (account 0) 6 ++
    .start .media :: resumes 2 (account 3601000000000) 6, _, rfl, ?_⟩
  refine ⟨_, List.mem_of_getElem? (i := 2) rfl, by decide, ?_⟩
  simp [Choice.Shows]

end FamilyPlanner.Server.PdfMedia

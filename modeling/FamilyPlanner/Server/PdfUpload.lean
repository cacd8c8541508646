import FamilyPlanner.Server.PdfChoice

/-!
# An upload that fails

An upload writes into the file that is served: it is emptied before the copy
begins.  A run of the upload alone against what a request for the document is
answered with before and after it.
-/

namespace FamilyPlanner.Server.PdfMedia

open FamilyPlanner.Foundation FamilyPlanner.Widget

abbrev Envs := PdfCall → PdfEnv

def execute (envs : Envs) (o : PdfCall) (x : Media) : o.Res × Media := o.exec (envs o) x

def Media.doc (x : Media) : Option Doc := x.path.map x.files

/-! ## What is served -/

/-- An execution that remembers the bytes it serves. -/
def observing (envs : Envs) (o : PdfCall) (s : Media × Option Bytes) :
    o.Res × (Media × Option Bytes) :=
  let served :=
    match o with
    | .serveContent file => some (s.1.files file).bytes
    | _ => s.2
  ((execute envs o s.1).1, ((execute envs o s.1).2, served))

def served (envs : Envs) (x : Media) : Answer × Option Bytes :=
  let r := handlePdfMedia.alone (observing envs) (x, none)
  (r.1, r.2.2)

def serveDoc (envs : Envs) (doc : Option Doc) : Answer × Option Bytes :=
  match doc with
  | some d =>
      if (envs .openFile).failed then (.error ("404 page not found", 404), none)
      else (.ok 200, some d.bytes)
  | none => (.error ("404 page not found", 404), none)

def serveKept (envs : Envs) (doc : Option Doc) : Answer × Option Bytes :=
  if (envs .stat).failed = false ∧ doc.isSome then serveDoc envs doc
  else (.error ("onedrive fetch failed", 502), none)

def stale (envs : Envs) (doc : Option Doc) : Bool :=
  (envs .pdfCacheStale).failed ||
    doc.all fun d => seconds 3600 < (envs .pdfCacheStale).now - d.mtime

def serveItem (envs : Envs) (item name : String) (doc : Option Doc) :
    Answer × Option Bytes :=
  if stale envs doc then
    let env := envs (.fetch item (isOfficeDoc name))
    let tmp : Doc := ⟨env.content item (isOfficeDoc name), env.now, some item⟩
    if env.failed ∨ (envs (.rename tmp)).failed then serveKept envs doc
    else serveDoc envs (some tmp)
  else serveDoc envs doc

/-- `handlePdfMedia` on what it reads. -/
def serving (envs : Envs) (config : ConfigJson) (doc : Option Doc) :
    Answer × Option Bytes :=
  if (envs .getWidget).failed ∨ config.get "od_item" = "" then serveDoc envs doc
  else serveItem envs (config.get "od_item") (config.get "od_name") doc

def outcome (envs : Envs) (p : PdfProgram) (x : Media) : Answer × Option Bytes :=
  ((p.alone (observing envs) (x, none)).1, (p.alone (observing envs) (x, none)).2.2)

theorem outcome_call (envs : Envs) {o : PdfCall} (ho : ∀ file, o ≠ .serveContent file)
    (next : o.Res → PdfProgram) (x : Media) :
    outcome envs (.call o next) x =
      outcome envs (next (execute envs o x).1) (execute envs o x).2 := by
  cases o with
  | serveContent file => exact absurd rfl (ho file)
  | _ => rfl

theorem outcome_servePdf (envs : Envs) (x : Media) :
    outcome envs servePdf x = serveDoc envs x.doc := by
  cases hfailed : (envs .openFile).failed <;> cases hpath : x.path <;>
    simp [outcome, servePdf, observing, execute, PdfCall.exec, hfailed, hpath, serveFile,
      serveDoc, Media.doc]

theorem outcome_fallBack (envs : Envs) (x : Media) :
    outcome envs fallBack x = serveKept envs x.doc := by
  rw [fallBack, outcome_call envs (by simp)]
  simp only [execute, PdfCall.exec, serveKept]
  by_cases hfound : (envs .stat).failed = false ∧ x.doc.isSome
  · have hpath : x.path.isSome = true := by simpa [Media.doc] using hfound.2
    simp only [hfound.1, hpath, Bool.not_false, Bool.and_self, if_true]
    rw [if_pos ⟨trivial, hfound.2⟩]
    exact outcome_servePdf envs x
  · have hmissing : (!(envs .stat).failed && x.path.isSome) = false := by
      simpa [Media.doc] using hfound
    rw [if_neg hfound]
    simp only [hmissing, Bool.false_eq_true, if_false]
    rfl

theorem outcome_placeFetched (envs : Envs) (tmp : Doc) (x : Media) :
    outcome envs (placeFetched tmp) x =
      if (envs (.rename tmp)).failed then serveKept envs x.doc
      else serveDoc envs (some tmp) := by
  rw [placeFetched, outcome_call envs (by simp)]
  simp only [execute, PdfCall.exec]
  by_cases hfailed : (envs (.rename tmp)).failed = true
  · simp only [hfailed, if_true, Bool.false_eq_true, if_false]
    exact outcome_fallBack envs x
  · simp only [hfailed, Bool.false_eq_true, if_false, if_true]
    have hdoc : (x.place tmp).doc = some tmp := by
      simp [Media.doc, Media.place, Media.write]
    rw [← hdoc]
    exact outcome_servePdf envs (x.place tmp)

theorem outcome_refetch (envs : Envs) (item name : String) (x : Media) :
    outcome envs (refetch item name) x = serveItem envs item name x.doc := by
  have hstale : (execute envs .pdfCacheStale x).1 = stale envs x.doc := by
    simp only [execute, PdfCall.exec, stale, Media.doc]
    cases x.path <;> rfl
  rw [refetch, outcome_call envs (by simp), hstale, serveItem]
  change outcome envs _ x = _
  cases stale envs x.doc with
  | false => exact outcome_servePdf envs x
  | true =>
      simp only [if_true]
      rw [fetchOneDrivePdf, outcome_call envs (by simp)]
      simp only [execute, PdfCall.exec]
      by_cases hfetch : (envs (.fetch item (isOfficeDoc name))).failed = true
      · simp only [hfetch, if_true, true_or]
        exact outcome_fallBack envs x
      · simp only [hfetch, Bool.false_eq_true, if_false, false_or]
        exact outcome_placeFetched envs _ x

/-- A request for the document sees the configuration and the file only. -/
theorem served_eq (envs : Envs) (x : Media) : served envs x = serving envs x.config x.doc := by
  change outcome envs handlePdfMedia x = _
  rw [handlePdfMedia, outcome_call envs (by simp), serving]
  simp only [execute, PdfCall.exec]
  by_cases hfailed : (envs .getWidget).failed = true
  · simp only [hfailed, if_true, true_or]
    exact outcome_servePdf envs x
  · simp only [hfailed, Bool.false_eq_true, if_false, false_or]
    split
    · exact outcome_servePdf envs x
    · exact outcome_refetch envs _ _ x

/-! ## What a failed upload leaves -/

/-- The configuration is as before and so is every answer to a request for the
document. -/
def Unchanged (x x' : Media) : Prop :=
  x'.config = x.config ∧ ∀ envs, served envs x' = served envs x

structure Accepted (form : UploadForm) (name : String) (pdf : Bytes) : Prop where
  parsed : form.parsed = true
  file : form.file = some (name, pdf)
  size : pdf.length ≤ maxPdfBytes
  magic : pdf.take 4 = pdfMagic
  seeks : form.seeks = true

/-- The file `dst` is created for an upload that passes the checks, and the copy
stops. -/
structure CopyStops (form : UploadForm) (envs : Envs) (x : Media) (name : String)
    (pdf : Bytes) (dst : Nat) : Prop where
  read : (envs .getWidget).failed = false
  accepted : Accepted form name pdf
  stored : (envs .mkdirAll).failed = false
  opened : (envs .create).failed = false
  created : (x.create (envs .create).now).path = some dst
  stopped : (envs (.copy dst (pdf.take maxPdfBytes))).failed = true

/-- The part of the upload that is in the file when the copy has stopped, with the
time it was written. -/
def partialDoc (envs : Envs) (pdf : Bytes) (dst : Nat) : Doc :=
  let env := envs (.copy dst (pdf.take maxPdfBytes))
  ⟨(pdf.take maxPdfBytes).take env.written, env.now, none⟩

/-- The file held just that before; where an item is selected, it also had that
time. -/
def SameFile (x : Media) (doc : Doc) : Prop :=
  ∃ before, x.doc = some before ∧ before.bytes = doc.bytes ∧
    (x.config.get "od_item" = "" ∨ before.mtime = doc.mtime)

def upload (form : UploadForm) (envs : Envs) (x : Media) : Answer × Media :=
  (handleWidgetPdfUpload form).alone (execute envs) x

section Upload

variable {form : UploadForm} {envs : Envs} {x : Media} {name : String} {pdf : Bytes}
  {dst : Nat}

theorem checkUpload_accepted (h : Accepted form name pdf) (config : ConfigJson) :
    checkUpload form config = storeUpload config name pdf := by
  have hsize : ¬ maxPdfBytes < pdf.length := Nat.not_lt_of_le h.size
  simp [checkUpload, h.parsed, h.file, hsize, h.magic, h.seeks]

theorem checkUpload_refused (h : ∀ name pdf, ¬ Accepted form name pdf)
    (config : ConfigJson) : ∃ err, checkUpload form config = .ret (.error err) := by
  unfold checkUpload
  by_cases hparsed : form.parsed = true
  · simp only [hparsed, Bool.not_true, Bool.false_eq_true, if_false]
    cases hfile : form.file with
    | none => exact ⟨_, rfl⟩
    | some upload =>
        obtain ⟨name, pdf⟩ := upload
        dsimp only
        by_cases hsize : maxPdfBytes < pdf.length
        · exact ⟨_, if_pos hsize⟩
        · rw [if_neg hsize]
          by_cases hmagic : pdf.take 4 ≠ pdfMagic
          · exact ⟨_, if_pos hmagic⟩
          · rw [if_neg hmagic]
            have hseeks : form.seeks ≠ true := by
              intro hseeks
              exact h name pdf
                ⟨hparsed, hfile, Nat.le_of_not_lt hsize, not_not.mp hmagic, hseeks⟩
            exact ⟨_, if_pos (by simp [hseeks])⟩
  · exact ⟨_, if_pos (by simp [hparsed])⟩

theorem upload_stops (h : CopyStops form envs x name pdf dst) :
    upload form envs x = (.error ("write error", 500),
      (x.create (envs .create).now).write dst (partialDoc envs pdf dst)) := by
  simp only [upload, handleWidgetPdfUpload, Prog.alone_call, execute, PdfCall.exec, h.read,
    Bool.false_eq_true, if_false]
  rw [checkUpload_accepted h.accepted]
  simp only [storeUpload, createUpload, Prog.alone_call, execute, PdfCall.exec, h.stored,
    h.opened, h.created, Bool.not_false, Bool.false_eq_true, if_true, if_false, copyInto,
    copyUpload, h.stopped, Bool.not_true, Prog.alone_ret, partialDoc]

theorem storeUpload_refused {config : ConfigJson} (hcopy : ∀ dst,
      (envs .mkdirAll).failed = false → (envs .create).failed = false →
        (x.create (envs .create).now).path = some dst →
          (envs (.copy dst (pdf.take maxPdfBytes))).failed = false)
    {err : String × Nat}
    (herr : ((storeUpload config name pdf).alone (execute envs) x).1 = .error err) :
    ((storeUpload config name pdf).alone (execute envs) x).2 = x := by
  simp only [storeUpload, createUpload, Prog.alone_call, execute, PdfCall.exec] at herr ⊢
  by_cases hdir : (envs .mkdirAll).failed = true
  · simp only [hdir, Bool.not_true, Bool.false_eq_true, if_false, Prog.alone_ret]
  · by_cases hopen : (envs .create).failed = true
    · simp only [hdir, hopen, Bool.not_false, if_true, Prog.alone_call, execute,
        PdfCall.exec, copyInto, Prog.alone_ret]
    · -- The copy is written, and what is left to do answers with a redirect.
      obtain ⟨dst, hdst⟩ := x.create_path (envs .create).now
      have hcopied := hcopy dst (by simpa using hdir) (by simpa using hopen) hdst
      simp [hdir, hopen, hdst, hcopied, Prog.alone_call, execute, PdfCall.exec, copyInto,
        copyUpload, recordUpload, redirect] at herr

/-- Without a copy that stops, an upload that is refused has written nothing. -/
theorem upload_refused (h : ∀ name pdf dst, ¬ CopyStops form envs x name pdf dst)
    {err : String × Nat} (herr : (upload form envs x).1 = .error err) :
    (upload form envs x).2 = x := by
  unfold upload at herr ⊢
  simp only [handleWidgetPdfUpload, Prog.alone_call, execute, PdfCall.exec] at herr ⊢
  by_cases hread : (envs .getWidget).failed = true
  · simp only [hread, if_true, Prog.alone_ret]
  · simp only [hread, Bool.false_eq_true, if_false] at herr ⊢
    by_cases hfits : ∃ name pdf, Accepted form name pdf
    · obtain ⟨name, pdf, hfits⟩ := hfits
      rw [checkUpload_accepted hfits] at herr ⊢
      refine storeUpload_refused ?_ herr
      intro dst hdir hopen hdst
      by_contra hstopped
      exact h name pdf dst
        ⟨by simpa using hread, hfits, hdir, hopen, hdst, by simpa using hstopped⟩
    · obtain ⟨err', hrefused⟩ := checkUpload_refused
        (fun name pdf hfits' => hfits ⟨name, pdf, hfits'⟩) x.config
      rw [hrefused, Prog.alone_ret]

theorem stopped_doc (h : (x.create (envs .create).now).path = some dst) (doc : Doc) :
    ((x.create (envs .create).now).write dst doc).doc = some doc := by
  simp [Media.doc, Media.write, h]

theorem stopped_config (doc : Doc) :
    ((x.create (envs .create).now).write dst doc).config = x.config :=
  (x.create_kept _).1

end Upload

/-! ## Two files that serve alike -/

theorem serving_same {config : ConfigJson} {d d' : Doc} (hbytes : d.bytes = d'.bytes)
    (hmtime : config.get "od_item" = "" ∨ d.mtime = d'.mtime) (envs : Envs) :
    serving envs config (some d) = serving envs config (some d') := by
  have hdoc : serveDoc envs (some d) = serveDoc envs (some d') := by
    simp only [serveDoc, hbytes]
  by_cases hitem : config.get "od_item" = ""
  · simp only [serving, hitem, or_true, if_true, hdoc]
  · have htime : d.mtime = d'.mtime := hmtime.resolve_left hitem
    have hstale : stale envs (some d) = stale envs (some d') := by
      simp only [stale, Option.all_some, htime]
    simp only [serving, serveItem, serveKept, hstale, hdoc, Option.isSome_some]

def unread : Envs
  | .getWidget => ⟨0, true, fun _ _ => [], 0⟩
  | _ => ⟨0, false, fun _ _ => [], 0⟩

def offline (now : Int) : Envs
  | .fetch _ _ | .stat => ⟨0, true, fun _ _ => [], 0⟩
  | .pdfCacheStale => ⟨now, false, fun _ _ => [], 0⟩
  | _ => ⟨0, false, fun _ _ => [], 0⟩

theorem serving_offline {config : ConfigJson} (hitem : config.get "od_item" ≠ "") (now : Int)
    (d : Doc) : serving (offline now) config (some d) =
      if seconds 3600 < now - d.mtime then (.error ("onedrive fetch failed", 502), none)
      else (.ok 200, some d.bytes) := by
  by_cases hold : seconds 3600 < now - d.mtime <;>
    simp [serving, serveItem, serveKept, serveDoc, stale, offline, hitem, hold]

theorem time_of_stale {limit a b : Int} (h : ∀ now, limit < now - a ↔ limit < now - b) :
    a = b := by
  have ha := h (limit + 1 + a)
  have hb := h (limit + 1 + b)
  omega

theorem same_of_serving {config : ConfigJson} {doc : Option Doc} {d' : Doc}
    (h : ∀ envs, serving envs config (some d') = serving envs config doc) :
    ∃ d, doc = some d ∧ d.bytes = d'.bytes ∧
      (config.get "od_item" = "" ∨ d.mtime = d'.mtime) := by
  have hunread : serveDoc unread (some d') = serveDoc unread doc := h unread
  cases doc with
  | none => simp [serveDoc, unread] at hunread
  | some d =>
      refine ⟨d, rfl, by simpa [serveDoc, unread] using hunread.symm, ?_⟩
      by_cases hitem : config.get "od_item" = ""
      · exact .inl hitem
      · right
        refine @time_of_stale (seconds 3600) _ _ ?_
        intro now
        have hserved := h (offline now)
        rw [serving_offline hitem, serving_offline hitem] at hserved
        by_cases hnew : seconds 3600 < now - d'.mtime <;>
          by_cases hold : seconds 3600 < now - d.mtime
        · exact iff_of_true hold hnew
        · simp [if_pos hnew, if_neg hold] at hserved
        · simp [if_neg hnew, if_pos hold] at hserved
        · exact iff_of_false hold hnew

/-- A refused upload leaves everything as it was if and only if no copy stops, or the
one that does has put there what was there. -/
theorem upload_failure_iff (form : UploadForm) (envs : Envs) (x : Media) :
    (∀ err, (upload form envs x).1 = .error err → Unchanged x (upload form envs x).2) ↔
      ∀ name pdf dst, CopyStops form envs x name pdf dst →
        SameFile x (partialDoc envs pdf dst) := by
  constructor
  · intro h name pdf dst hstops
    have hrun := upload_stops hstops
    have hdoc := stopped_doc hstops.created (partialDoc envs pdf dst)
    have hconfig : ((x.create (envs .create).now).write dst
        (partialDoc envs pdf dst)).config = x.config := stopped_config _
    obtain ⟨-, hserved⟩ := h _ (by rw [hrun])
    rw [hrun] at hserved
    apply same_of_serving
    intro envs'
    have hsame := hserved envs'
    rw [served_eq, served_eq, hdoc, hconfig] at hsame
    exact hsame
  · intro h err herr
    by_cases hstops : ∃ name pdf dst, CopyStops form envs x name pdf dst
    · obtain ⟨name, pdf, dst, hstops⟩ := hstops
      obtain ⟨before, hbefore, hbytes, hmtime⟩ := h name pdf dst hstops
      have hdoc := stopped_doc hstops.created (partialDoc envs pdf dst)
      rw [upload_stops hstops]
      refine ⟨stopped_config _, fun envs' => ?_⟩
      rw [served_eq, served_eq, hdoc, hbefore, stopped_config]
      exact (serving_same hbytes hmtime envs').symm
    · have hstate := upload_refused
        (fun name pdf dst hstops' => hstops ⟨name, pdf, dst, hstops'⟩) herr
      rw [hstate]
      exact ⟨rfl, fun _ => rfl⟩

/-! ## A copy that stops at its start -/

private def shown : Media where
  config := .object [("file", "week.pdf")]
  path := some 0
  files := fun _ => ⟨pdfMagic ++ [0x2d], 0, none⟩
  next := 1
  allocated := by simp

private def weekForm : UploadForm := ⟨true, some ("week.pdf", pdfMagic ++ [0x31]), true⟩

private def fullDisk : Envs
  | .copy _ _ => ⟨1, true, fun _ _ => [], 0⟩
  | _ => ⟨1, false, fun _ _ => [], 0⟩

/-- The document that was shown is an empty file afterwards. -/
theorem upload_empties : (upload weekForm fullDisk shown).1 = .error ("write error", 500) ∧
    served unread shown = (.ok 200, some (pdfMagic ++ [0x2d])) ∧
    served unread (upload weekForm fullDisk shown).2 = (.ok 200, some []) ∧
    ¬ Unchanged shown (upload weekForm fullDisk shown).2 := by
  have hafter : served unread (upload weekForm fullDisk shown).2 = (.ok 200, some []) := rfl
  refine ⟨rfl, rfl, hafter, ?_⟩
  intro h
  have hserved := h.2 unread
  rw [hafter] at hserved
  cases hserved

end FamilyPlanner.Server.PdfMedia

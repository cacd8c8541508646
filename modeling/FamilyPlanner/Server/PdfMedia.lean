import FamilyPlanner.Broker.Broker
import FamilyPlanner.Foundation.Service

/-!
# The document of a pdf widget

Uploads, selections of a OneDrive item and requests for the document, as
programs of operations on the configuration and the file of one widget.
-/

namespace FamilyPlanner.Server.PdfMedia

open FamilyPlanner.Foundation FamilyPlanner.Widget

abbrev Bytes := List UInt8

def maxPdfBytes : Nat := 26214400

/-- `filepath.Base` -/
def base (path : String) : String :=
  if path = "" then "."
  else
    match (path.toList.reverse.dropWhile (· = '/')).takeWhile (· ≠ '/') with
    | [] => "/"
    | name => String.ofList name.reverse

/-- `IsOfficeDoc` -/
def isOfficeDoc (name : String) : Bool :=
  [".pptx", ".ppt", ".docx", ".doc", ".xlsx"].any fun e =>
    e.toList <:+ name.toList.map Broker.toLower

def setMember (config : ConfigJson) (key value : String) : ConfigJson :=
  .object ((key, value) ::
    match config with
    | .malformed _ => []
    | .object members => members.filter (·.1 ≠ key))

theorem lookup_filter_ne {key key' : String} (h : key' ≠ key)
    (members : List (String × String)) :
    (members.filter (·.1 ≠ key)).lookup key' = members.lookup key' := by
  induction members with
  | nil => rfl
  | cons m members ih =>
      by_cases hm : m.1 = key
      · have hother : (key' == m.1) = false := by simpa [hm] using h
        rw [List.filter_cons_of_neg (by simp [hm]), ih, List.lookup_cons, hother]
      · rw [List.filter_cons_of_pos (by simp [hm]), List.lookup_cons, List.lookup_cons, ih]

theorem setMember_get (config : ConfigJson) (key value key' : String) :
    (setMember config key value).get key' = if key' = key then value else config.get key' := by
  simp only [setMember, ConfigJson.get, List.lookup_cons]
  by_cases hkey : key' = key
  · simp [hkey]
  · have hother : (key' == key) = false := by simpa using hkey
    simp only [hother, hkey, if_false]
    cases config with
    | malformed err => rfl
    | object members =>
        simp only [lookup_filter_ne hkey]

/-! ## The file -/

/-- `item` is history: the OneDrive item whose content this is. -/
structure Doc where
  bytes : Bytes
  mtime : Int
  item : Option String
  deriving DecidableEq, Repr

inductive Choice where
  | upload (pdf : Bytes)
  | item (id : String)
  deriving DecidableEq, Repr

/-- The path leads to one of the files; a file that is open outlives its place there.
`choice` is history, the upload or selection that was last completed, and `choices`
the number of these. -/
structure Media where
  config : ConfigJson
  path : Option Nat
  files : Nat → Doc
  next : Nat
  choice : Option Choice := none
  choices : Nat := 0
  allocated : ∀ k ∈ path, k < next

inductive PdfCall where
  | getWidget
  | mkdirAll
  | create
  | copy (dst : Nat) (pdf : Bytes)
  | updateWidget (config : ConfigJson)
  | remove
  | pdfCacheStale
  | fetch (item : String) (asPDF : Bool)
  | rename (tmp : Doc)
  | stat
  | openFile
  | serveContent (file : Nat)
  | redirect (choice : Choice)

/-- Of a failure it is known where the handlers tell it. -/
@[reducible] def PdfCall.Res : PdfCall → Type
  | .getWidget => Option ConfigJson
  | .mkdirAll | .copy _ _ | .pdfCacheStale | .rename _ | .stat => Bool
  | .create | .openFile => Option Nat
  | .fetch _ _ => Option Doc
  | .serveContent _ => Doc
  | .updateWidget _ | .remove | .redirect _ => Unit

/-- `written` is how much a failing copy has written. -/
structure PdfEnv where
  now : Int
  failed : Bool := false
  content : String → Bool → Bytes := fun _ _ => []
  written : Nat := 0

namespace Media

def write (x : Media) (file : Nat) (doc : Doc) : Media :=
  { x with files := Function.update x.files file doc }

def place (x : Media) (doc : Doc) : Media :=
  { x.write x.next doc with
    path := some x.next
    next := x.next + 1
    allocated := by simp }

def create (x : Media) (now : Int) : Media :=
  match x.path with
  | some file => x.write file ⟨[], now, none⟩
  | none => x.place ⟨[], now, none⟩

end Media

/-- A fetch is from the account's token to the temporary file. -/
def PdfCall.exec (env : PdfEnv) : (o : PdfCall) → Media → o.Res × Media
  | .getWidget, x => (if env.failed then none else some x.config, x)
  | .mkdirAll, x => (!env.failed, x)
  | .create, x =>
      if env.failed then (none, x) else ((x.create env.now).path, x.create env.now)
  | .copy dst pdf, x =>
      (!env.failed, x.write dst ⟨if env.failed then pdf.take env.written else pdf, env.now, none⟩)
  | .updateWidget config, x => ((), if env.failed then x else { x with config := config })
  | .remove, x => ((), if env.failed then x else { x with path := none, allocated := by simp })
  | .pdfCacheStale, x =>
      (env.failed || x.path.all fun k => seconds 3600 < env.now - (x.files k).mtime, x)
  | .fetch item asPDF, x =>
      (if env.failed then none else some ⟨env.content item asPDF, env.now, some item⟩, x)
  | .rename tmp, x => if env.failed then (false, x) else (true, x.place tmp)
  | .stat, x => (!env.failed && x.path.isSome, x)
  | .openFile, x => (if env.failed then none else x.path, x)
  | .serveContent file, x => (x.files file, x)
  | .redirect choice, x => ((), { x with choice := some choice, choices := x.choices + 1 })

/-! ## The handlers -/

abbrev PdfProgram := Prog PdfCall PdfCall.Res Answer

/-- The request of an upload: whether its form can be parsed, the file with its
name, and whether the file can be read again from its start. -/
structure UploadForm where
  parsed : Bool
  file : Option (String × Bytes)
  seeks : Bool

inductive PdfRequest where
  | upload (form : UploadForm)
  | select (item name : String)
  | media

def redirect (choice : Choice) : PdfProgram :=
  .call (.redirect choice) fun _ => .ret (.ok 303)

def recordUpload (config : ConfigJson) (filename : String) (pdf : Bytes) : PdfProgram :=
  .call (.updateWidget (setMember config "file" (base filename))) fun _ =>
    redirect (.upload pdf)

def copyUpload (config : ConfigJson) (filename : String) (pdf : Bytes) (dst : Nat) :
    PdfProgram :=
  .call (.copy dst (pdf.take maxPdfBytes)) fun (ok : Bool) =>
    if ok then recordUpload config filename pdf else .ret (.error ("write error", 500))

def copyInto (config : ConfigJson) (filename : String) (pdf : Bytes) :
    Option Nat → PdfProgram
  | none => .ret (.error ("storage error", 500))
  | some dst => copyUpload config filename pdf dst

def createUpload (config : ConfigJson) (filename : String) (pdf : Bytes) : PdfProgram :=
  .call .create (copyInto config filename pdf)

def storeUpload (config : ConfigJson) (filename : String) (pdf : Bytes) : PdfProgram :=
  .call .mkdirAll fun (ok : Bool) =>
    if ok then createUpload config filename pdf else .ret (.error ("storage error", 500))

def pdfMagic : Bytes := [0x25, 0x50, 0x44, 0x46]

def checkUpload (form : UploadForm) (config : ConfigJson) : PdfProgram :=
  if !form.parsed then .ret (.error ("upload too large", 413))
  else
    match form.file with
    | none => .ret (.error ("no file", 400))
    | some (filename, pdf) =>
        if maxPdfBytes < pdf.length then .ret (.error ("file too large (max 25 MB)", 413))
        else if pdf.take 4 ≠ pdfMagic then .ret (.error ("not a PDF", 400))
        else if !form.seeks then .ret (.error ("read error", 500))
        else storeUpload config filename pdf

def handleWidgetPdfUpload (form : UploadForm) : PdfProgram :=
  .call .getWidget fun (config : Option ConfigJson) =>
    match config with
    | none => .ret (.error ("not a pdf widget", 400))
    | some config => checkUpload form config

def removeFile (item : String) : PdfProgram := .call .remove fun _ => redirect (.item item)

def recordItem (config : ConfigJson) (item name : String) : PdfProgram :=
  .call (.updateWidget
    (setMember (setMember (setMember config "od_item" item) "od_name" name) "file" name))
    fun _ => removeFile item

def handleWidgetOneDriveSelect (item name : String) : PdfProgram :=
  .call .getWidget fun (config : Option ConfigJson) =>
    match config with
    | none => .ret (.error ("not a pdf widget", 400))
    | some config => recordItem config item name

def serveFile : Option Nat → PdfProgram
  | none => .ret (.error ("404 page not found", 404))
  | some file => .call (.serveContent file) fun _ => .ret (.ok 200)

def servePdf : PdfProgram := .call .openFile serveFile

/-- After a failed fetch the copy there is, is served. -/
def fallBack : PdfProgram :=
  .call .stat fun (found : Bool) =>
    if found then servePdf else .ret (.error ("onedrive fetch failed", 502))

def placeFetched (tmp : Doc) : PdfProgram :=
  .call (.rename tmp) fun (ok : Bool) => if ok then servePdf else fallBack

def fetchOneDrivePdf (item name : String) : PdfProgram :=
  .call (.fetch item (isOfficeDoc name)) fun (tmp : Option Doc) =>
    match tmp with
    | none => fallBack
    | some tmp => placeFetched tmp

def refetch (item name : String) : PdfProgram :=
  .call .pdfCacheStale fun (stale : Bool) =>
    if stale then fetchOneDrivePdf item name else servePdf

def handlePdfMedia : PdfProgram :=
  .call .getWidget fun (config : Option ConfigJson) =>
    match config with
    | none => servePdf
    | some config =>
        if config.get "od_item" = "" then servePdf
        else refetch (config.get "od_item") (config.get "od_name")

def PdfRequest.handle : PdfRequest → PdfProgram
  | .upload form => handleWidgetPdfUpload form
  | .select item name => handleWidgetOneDriveSelect item name
  | .media => handlePdfMedia

end FamilyPlanner.Server.PdfMedia

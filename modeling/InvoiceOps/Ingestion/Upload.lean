import InvoiceOps.Lib.Json
import InvoiceOps.Lib.Lists
import InvoiceOps.Lib.Run
import InvoiceOps.Lib.Uuid

/-! Uploads (`ingestion/service.py`, `jobs/events.py`). An upload writes its object before its rows, and the object
store knows nothing of the transaction: when the rows are not committed, the upload deletes its own object again.
Uploads take their steps in any order, each step may fail, and a digest that two uploads have inserted makes the later
one wait until the other transaction has ended. -/

namespace InvoiceOps.Ingestion

open StateMachine

structure UploadCommand where
  filename : String
  contentType : String
  body : List UInt8
deriving DecidableEq, Repr

structure IngestionEnv where
  sha256 : List UInt8 → String
  maxUploadBytes : ℕ

inductive UploadError
  | unsupported (message : String)
  | empty
  | tooLarge
deriving DecidableEq, Repr

/-- `FILE_SIGNATURES`, for the `ALLOWED_CONTENT_TYPES`. -/
def fileSignatures : List (String × List UInt8) :=
  [("application/pdf", [0x25, 0x50, 0x44, 0x46, 0x2d]),
    ("image/jpeg", [0xff, 0xd8, 0xff]),
    ("image/png", [0x89, 0x50, 0x4e, 0x47, 0x0d, 0x0a, 0x1a, 0x0a])]

/-- The checks made before anything is stored. -/
def IngestionEnv.validate (E : IngestionEnv) (command : UploadCommand) : Option UploadError :=
  match fileSignatures.find? fun s => s.1 = command.contentType with
  | none => some (.unsupported command.contentType)
  | some s =>
    if command.body = [] then some .empty
    else if E.maxUploadBytes < command.body.length then some .tooLarge
    else if s.2.isPrefixOf command.body then none
    else some (.unsupported ("content does not match declared type " ++ command.contentType))

/-- `PurePath(filename).name or "upload"`: the last part of the path that names something. -/
def safeName (filename : String) : String :=
  (((filename.toList.splitOn '/').filter fun part => part ≠ [] ∧ part ≠ ['.']).getLast?.map String.ofList).getD "upload"

structure Document where
  id : Uuid
  originalFilename : String
  contentType : String
  byteSize : ℕ
  sha256 : String
  objectKey : String
deriving DecidableEq, Repr

structure IngestionJob where
  id : Uuid
  documentId : Uuid
deriving DecidableEq, Repr

/-- What is logged with an event. -/
structure LoggedEvent where
  eventKey : String
  eventType : String
  stage : String
  status : String
  message : String
  payload : Json

structure JobEvent extends LoggedEvent where
  jobId : Uuid
  sequenceNumber : ℕ

def uploadAccepted : LoggedEvent where
  eventKey := "upload.accepted"
  eventType := "upload.accepted"
  stage := "upload"
  status := "completed"
  message := "Invoice upload accepted"
  payload := .obj [("deduplicated", .bool false)]

def documentValidated (contentType : String) : LoggedEvent where
  eventKey := "document.validated"
  eventType := "document.validated"
  stage := "validation"
  status := "completed"
  message := "Document type and signature validated"
  payload := .obj [("content_type", .str contentType)]

/-- `append_job_event`: the row it adds to those its transaction sees, none when the key is there. -/
def appendJobEvent (seen : List JobEvent) (jobId : Uuid) (event : LoggedEvent) : List JobEvent :=
  let events := seen.filter (·.jobId = jobId)
  if event.eventKey ∈ events.map (·.eventKey) then []
  else [{ event with jobId := jobId, sequenceNumber := (events.map (·.sequenceNumber)).foldl max 0 + 1 }]

inductive UploadOutcome
  | created
  | deduplicated (jobId : Uuid)
  | raised
  /-- The object store has refused the object. -/
  | putFailed
deriving DecidableEq, Repr

/-- Where an upload stands. -/
inductive UploadPhase
  | begun
  /-- No document with the digest was found. -/
  | absent
  /-- The object is written. -/
  | stored
  /-- The document and the job are inserted. -/
  | flushed
  | accepted
  | validated
  /-- An exception, an integrity error or another one, has left the transaction. -/
  | failed (integrity : Bool)
  | rolledBack (integrity : Bool)
  | deleted (integrity : Bool)
  | committed
  | returned (outcome : UploadOutcome)
  /-- The process has ended without a return. -/
  | lost
deriving DecidableEq, Repr

/-- A call of `ingest` whose command is valid, with the ids it makes up and the rows it has not committed. -/
structure Upload where
  command : UploadCommand
  documentId : Uuid
  jobId : Uuid
  inserted : Bool
  events : List JobEvent
  phase : UploadPhase

structure UploadWorld where
  documents : List Document
  jobs : List IngestionJob
  events : List JobEvent
  store : String → Option (List UInt8)
  uploads : List Upload

def UploadWorld.initial : UploadWorld := ⟨[], [], [], fun _ => none, []⟩

def Upload.objectKey (u : Upload) : String := "invoices/" ++ u.documentId.str ++ "/" ++ safeName u.command.filename

def Upload.digest (E : IngestionEnv) (u : Upload) : String := E.sha256 u.command.body

def Upload.document (E : IngestionEnv) (u : Upload) : Document where
  id := u.documentId
  originalFilename := safeName u.command.filename
  contentType := u.command.contentType
  byteSize := u.command.body.length
  sha256 := u.digest E
  objectKey := u.objectKey

def Upload.job (u : Upload) : IngestionJob := ⟨u.jobId, u.documentId⟩

inductive UploadAct
  | ingest (command : UploadCommand) (documentId jobId : Uuid)
  | findExisting (i : ℕ)
  | put (i : ℕ)
  /-- What a put that fails leaves under the key is not known. -/
  | putFails (i : ℕ) (left : Option (List UInt8))
  | flush (i : ℕ)
  | acceptUpload (i : ℕ)
  | validateDocument (i : ℕ)
  | commit (i : ℕ)
  /-- A flush, an append or the commit fails. -/
  | fail (i : ℕ) (integrity : Bool)
  | rollback (i : ℕ)
  | delete (i : ℕ)
  | recover (i : ℕ)
  /-- What follows the commit, with or without an error of its own. -/
  | dispatch (i : ℕ) (raises : Bool)
  | lose (i : ℕ)

section

variable (E : IngestionEnv) (w : UploadWorld) (i : ℕ) (u : Upload)

def UploadWorld.set : UploadWorld := { w with uploads := w.uploads.set i u }

/-- `_find_existing`. -/
def UploadWorld.findExisting (digest : String) : Option IngestionJob :=
  w.jobs.find? fun job => w.documents.any fun d => d.id = job.documentId ∧ d.sha256 = digest

/-- The call of the upload is over. -/
def Upload.return (outcome : UploadOutcome) : Upload := { u with phase := .returned outcome }

/-- A job that is found ends the call. -/
def UploadWorld.search (missing : UploadPhase) : UploadWorld :=
  match w.findExisting (u.digest E) with
  | some job => w.set i (u.return (.deduplicated job.id))
  | none => w.set i { u with phase := missing }

/-- Another transaction has inserted the digest and has not ended. -/
def UploadWorld.contended : Bool :=
  w.uploads.zipIdx.any fun v => decide (v.2 ≠ i) && v.1.inserted && decide (v.1.digest E = u.digest E)

/-- The document and the job are inserted, unless a key is taken. -/
def UploadWorld.flush : UploadWorld :=
  if u.digest E ∈ w.documents.map (·.sha256) ∨ u.objectKey ∈ w.documents.map (·.objectKey) ∨
    u.documentId ∈ w.jobs.map (·.documentId) then w.set i { u with phase := .failed true }
  else w.set i { u with inserted := true, phase := .flushed }

/-- An event is appended; the transaction sees the committed events and its own. -/
def UploadWorld.append (event : LoggedEvent) (phase : UploadPhase) : UploadWorld :=
  w.set i { u with events := u.events ++ appendJobEvent (w.events ++ u.events) u.jobId event, phase := phase }

def UploadWorld.commit : UploadWorld :=
  { w.set i { u with inserted := false, events := [], phase := .committed } with
    documents := w.documents ++ [u.document E]
    jobs := w.jobs ++ [u.job]
    events := w.events ++ u.events }

def UploadWorld.write (object : Option (List UInt8)) : UploadWorld :=
  { w with store := Function.update w.store u.objectKey object }

/-- The call ends after the object has been deleted: with the job of a concurrent upload, or with the error. -/
def UploadWorld.recover (integrity : Bool) : UploadWorld :=
  if integrity then w.search E i u (.returned .raised) else w.set i (u.return .raised)

/-- A step; `none` where the upload is not there or not at that point, or has to wait. -/
def UploadWorld.next : UploadAct → Option UploadWorld
  | .ingest command documentId jobId =>
    if (E.validate command).isSome then some w
    else if documentId ∈ w.uploads.map (·.documentId) ∨ jobId ∈ w.uploads.map (·.jobId) then none
    else some { w with uploads := w.uploads ++ [⟨command, documentId, jobId, false, [], .begun⟩] }
  | .findExisting i => w.uploads[i]?.bind fun u => if u.phase = .begun then some (w.search E i u .absent) else none
  | .put i => w.uploads[i]?.bind fun u =>
    if u.phase = .absent then some ((w.write u (some u.command.body)).set i { u with phase := .stored }) else none
  | .putFails i left => w.uploads[i]?.bind fun u =>
    if u.phase = .absent then some ((w.write u left).set i (u.return .putFailed)) else none
  | .flush i => w.uploads[i]?.bind fun u =>
    if u.phase = .stored ∧ w.contended E i u = false then some (w.flush E i u) else none
  | .acceptUpload i => w.uploads[i]?.bind fun u =>
    if u.phase = .flushed then some (w.append i u uploadAccepted .accepted) else none
  | .validateDocument i => w.uploads[i]?.bind fun u =>
    if u.phase = .accepted then some (w.append i u (documentValidated u.command.contentType) .validated) else none
  | .commit i => w.uploads[i]?.bind fun u => if u.phase = .validated then some (w.commit E i u) else none
  | .fail i integrity => w.uploads[i]?.bind fun u =>
    if u.phase ∈ [.stored, .flushed, .accepted, .validated] then some (w.set i { u with phase := .failed integrity })
    else none
  | .rollback i => w.uploads[i]?.bind fun u =>
    match u.phase with
    | .failed integrity => some (w.set i { u with inserted := false, events := [], phase := .rolledBack integrity })
    | _ => none
  | .delete i => w.uploads[i]?.bind fun u =>
    match u.phase with
    | .rolledBack integrity => some ((w.write u none).set i { u with phase := .deleted integrity })
    | _ => none
  | .recover i => w.uploads[i]?.bind fun u =>
    match u.phase with
    | .deleted integrity => some (w.recover E i u integrity)
    | _ => none
  | .dispatch i raises => w.uploads[i]?.bind fun u =>
    if u.phase = .committed then some (w.set i (u.return (if raises then .raised else .created))) else none
  | .lose i => w.uploads[i]?.bind fun u =>
    match u.phase with
    | .returned _ => none
    | _ => some (w.set i { u with inserted := false, events := [], phase := .lost })

end

/-- The row of an event of the upload. -/
def Upload.event (u : Upload) (sequenceNumber : ℕ) (event : LoggedEvent) : JobEvent :=
  { event with jobId := u.jobId, sequenceNumber := sequenceNumber }

/-- The events of an accepted upload. -/
def Upload.acceptedEvents (u : Upload) : List JobEvent :=
  [u.event 1 uploadAccepted, u.event 2 (documentValidated u.command.contentType)]

/-- What an upload has done at its point, with what is stored under its key. -/
def Upload.Ok (committed : Prop) (object : Option (List UInt8)) (u : Upload) : Prop :=
  match u.phase with
  | .begun | .absent => ¬ committed ∧ object = none ∧ u.inserted = false ∧ u.events = []
  | .stored => ¬ committed ∧ object = some u.command.body ∧ u.inserted = false ∧ u.events = []
  | .flushed => ¬ committed ∧ object = some u.command.body ∧ u.inserted = true ∧ u.events = []
  | .accepted => ¬ committed ∧ object = some u.command.body ∧ u.inserted = true ∧ u.events = [u.event 1 uploadAccepted]
  | .validated => ¬ committed ∧ object = some u.command.body ∧ u.inserted = true ∧ u.events = u.acceptedEvents
  | .failed _ => ¬ committed ∧ object = some u.command.body
  | .rolledBack _ => ¬ committed ∧ object = some u.command.body ∧ u.inserted = false
  | .deleted _ => ¬ committed ∧ object = none ∧ u.inserted = false
  | .committed => committed ∧ u.inserted = false
  | .lost => u.inserted = false
  | .returned outcome => u.inserted = false ∧ (outcome ≠ .putFailed → ¬ committed → object = none)

/-- The rows and the object of a committed upload. -/
structure Upload.Committed (E : IngestionEnv) (w : UploadWorld) (u : Upload) : Prop where
  document : u.document E ∈ w.documents
  job : u.job ∈ w.jobs
  events : w.events.filter (·.jobId = u.jobId) = u.acceptedEvents
  object : w.store u.objectKey = some u.command.body

structure UploadInv (E : IngestionEnv) (w : UploadWorld) : Prop where
  documentIds : (w.uploads.map (·.documentId)).Nodup
  jobIds : (w.uploads.map (·.jobId)).Nodup
  written : ∀ key, w.store key ≠ none → ∃ u ∈ w.uploads, u.objectKey = key
  digests : (w.documents.map (·.sha256)).Nodup
  jobDocuments : (w.jobs.map (·.documentId)).Nodup
  eventJobs : ∀ e ∈ w.events, e.jobId ∈ w.jobs.map (·.id)
  documents : ∀ d ∈ w.documents, ∃ u ∈ w.uploads, d = u.document E ∧ u.Committed E w
  jobs : ∀ job ∈ w.jobs, ∃ u ∈ w.uploads, job = u.job ∧ u.Committed E w
  pending : ∀ u ∈ w.uploads, u.inserted = true → u.digest E ∉ w.documents.map (·.sha256)
  contended : ∀ (i j : ℕ) (u v : Upload), w.uploads[i]? = some u → w.uploads[j]? = some v → u.inserted = true →
    v.inserted = true → u.digest E = v.digest E → i = j
  phases : ∀ u ∈ w.uploads, u.Ok (u.documentId ∈ w.documents.map (·.id)) (w.store u.objectKey)

section

variable {E : IngestionEnv} {w w' : UploadWorld} {i : ℕ} {u u' v : Upload}

/-- The key of an object determines the id of its document. -/
theorem documentId_of_objectKey (h : u.objectKey = v.objectKey) : u.documentId = v.documentId := by
  have hchars := congrArg String.toList h
  simp only [Upload.objectKey, String.toList_append, List.append_assoc] at hchars
  have hrest := List.append_cancel_left hchars
  have hlength : u.documentId.str.toList.length = v.documentId.str.toList.length := by
    simp [Uuid.str, Uuid.length_chars]
  exact Uuid.str_inj (String.toList_injective (List.append_inj_left hrest hlength))

theorem uploadInv_initial (E : IngestionEnv) : UploadInv E .initial where
  documentIds := .nil
  jobIds := .nil
  written _ h := absurd rfl h
  digests := .nil
  jobDocuments := .nil
  eventJobs _ h := absurd h List.not_mem_nil
  documents _ h := absurd h List.not_mem_nil
  jobs _ h := absurd h List.not_mem_nil
  pending _ h := absurd h List.not_mem_nil
  contended _ _ _ _ h := by cases h
  phases _ h := absurd h List.not_mem_nil

theorem UploadInv.objectKey_ne (h : UploadInv E w) {j : ℕ} (hu : w.uploads[i]? = some u)
    (hv : w.uploads[j]? = some v) (hne : j ≠ i) : v.objectKey ≠ u.objectKey := by
  intro heq
  exact hne (Lists.index_eq_of_key h.documentIds hv hu (documentId_of_objectKey heq))

/-- The rows and the object of a committed upload stay while its tables and its object do. -/
theorem Upload.Committed.transfer (h : v.Committed E w) (hdocuments : w'.documents = w.documents)
    (hjobs : w'.jobs = w.jobs) (hevents : w'.events = w.events)
    (hstore : w'.store v.objectKey = w.store v.objectKey) : v.Committed E w' where
  document := hdocuments ▸ h.document
  job := hjobs ▸ h.job
  events := hevents ▸ h.events
  object := hstore.trans h.object

theorem Upload.Committed.moved (h : v.Committed E w) {inserted : Bool} {events : List JobEvent} {phase : UploadPhase} :
    Upload.Committed E w { v with inserted := inserted, events := events, phase := phase } :=
  ⟨h.document, h.job, h.events, h.object⟩

theorem Upload.Committed.mem_ids (h : v.Committed E w) : v.documentId ∈ w.documents.map (·.id) :=
  List.mem_map_of_mem (f := (·.id)) h.document

section

variable {inserted : Bool} {events : List JobEvent} {phase : UploadPhase} {object : Option (List UInt8)}

theorem store_set : (w.set i u).store = w.store := rfl

theorem store_write_self (w : UploadWorld) (u : Upload) (object : Option (List UInt8)) :
    (w.write u object).store u.objectKey = object := by
  simp only [UploadWorld.write, Function.update_self]

theorem store_write_of_ne (w : UploadWorld) (object : Option (List UInt8)) {key : String} (hne : key ≠ u.objectKey) :
    (w.write u object).store key = w.store key := by
  simp only [UploadWorld.write, Function.update_of_ne hne]

theorem UploadInv.exists_committed (h : UploadInv E w) (hu : w.uploads[i]? = some u)
    (hobject : u.documentId ∈ w.documents.map (·.id) → object = w.store u.objectKey) (hv : v ∈ w.uploads)
    (hc : v.Committed E w) :
    ∃ v' ∈ w.uploads.set i { u with inserted := inserted, events := events, phase := phase },
      v'.document E = v.document E ∧ v'.job = v.job ∧ v'.Committed E
        ((w.write u object).set i { u with inserted := inserted, events := events, phase := phase }) := by
  obtain ⟨hi, -⟩ := List.getElem?_eq_some_iff.1 hu
  obtain ⟨j, hj⟩ := List.mem_iff_getElem?.1 hv
  by_cases hji : j = i
  · subst hji
    obtain rfl := Option.some.inj (hj.symm.trans hu)
    have hstore : (w.write v object).store v.objectKey = w.store v.objectKey :=
      (store_write_self w v object).trans (hobject hc.mem_ids)
    refine ⟨_, (Lists.mem_set_iff_getElem? hi).2 (.inl rfl), rfl, rfl, ?_⟩
    apply Upload.Committed.moved
    refine hc.transfer rfl rfl rfl ?_
    rw [store_set, hstore]
  · have hstore := store_write_of_ne w object (h.objectKey_ne hu hj hji)
    refine ⟨v, (Lists.mem_set_iff_getElem? hi).2 (.inr ⟨j, hji, hj⟩), rfl, rfl, hc.transfer rfl rfl rfl ?_⟩
    rw [store_set, hstore]

/-- No other upload that has inserted the digest is in the way of one that may insert it. -/
theorem not_inserted_of_not_contended {j : ℕ} (h : w.contended E i u = false) (hv : w.uploads[j]? = some v)
    (hne : j ≠ i) (hdigest : v.digest E = u.digest E) : v.inserted = false := by
  have hmem : (v, j) ∈ w.uploads.zipIdx := by simpa [List.mk_mem_zipIdx_iff_getElem?] using hv
  have hall := List.any_eq_false.1 h (v, j) hmem
  simpa [hne, hdigest] using hall

/-- A step of one upload that commits nothing: what it does to its object and to itself. -/
theorem UploadInv.move (h : UploadInv E w) (hu : w.uploads[i]? = some u)
    (hobject : u.documentId ∈ w.documents.map (·.id) → object = w.store u.objectKey)
    (hinserted : inserted = true → u.inserted = true ∨
      w.contended E i u = false ∧ u.digest E ∉ w.documents.map (·.sha256))
    (hok : Upload.Ok (u.documentId ∈ w.documents.map (·.id)) object
      { u with inserted := inserted, events := events, phase := phase }) :
    UploadInv E ((w.write u object).set i { u with inserted := inserted, events := events, phase := phase }) := by
  obtain ⟨hi, hget⟩ := List.getElem?_eq_some_iff.1 hu
  have hmem : u ∈ w.uploads := List.mem_of_getElem? hu
  -- a digest the moved upload has inserted is inserted by no other upload
  have hothers : ∀ j v, j ≠ i → w.uploads[j]? = some v → inserted = true → v.inserted = true →
      v.digest E ≠ u.digest E := by
    intro j v hji hj hins hv hdigest
    rcases hinserted hins with hold | ⟨hcont, -⟩
    · exact hji (h.contended j i v u hj hu hv hold hdigest)
    · exact absurd (not_inserted_of_not_contended hcont hj hji hdigest) (by simp [hv])
  constructor
  · have hids := h.documentIds
    rwa [← Lists.map_set_of_key hu (y := { u with inserted := inserted, events := events, phase := phase }) rfl] at hids
  · have hids := h.jobIds
    rwa [← Lists.map_set_of_key hu (y := { u with inserted := inserted, events := events, phase := phase }) rfl] at hids
  · intro key hkey
    by_cases heq : key = u.objectKey
    · exact ⟨_, (Lists.mem_set_iff_getElem? hi).2 (.inl rfl), heq.symm⟩
    · have hold : w.store key ≠ none := by
        rwa [← store_write_of_ne w object heq]
      obtain ⟨v, hv, rfl⟩ := h.written key hold
      obtain ⟨j, hj⟩ := List.mem_iff_getElem?.1 hv
      have hji : j ≠ i := by
        rintro rfl
        obtain rfl := Option.some.inj (hj.symm.trans hu)
        exact heq rfl
      exact ⟨v, (Lists.mem_set_iff_getElem? hi).2 (.inr ⟨j, hji, hj⟩), rfl⟩
  · exact h.digests
  · exact h.jobDocuments
  · exact h.eventJobs
  · intro d hd
    obtain ⟨v, hv, rfl, hc⟩ := h.documents d hd
    obtain ⟨v', hv', hdocument, -, hc'⟩ := h.exists_committed hu hobject hv hc
    exact ⟨v', hv', hdocument.symm, hc'⟩
  · intro job hjob
    obtain ⟨v, hv, rfl, hc⟩ := h.jobs job hjob
    obtain ⟨v', hv', -, hjob', hc'⟩ := h.exists_committed hu hobject hv hc
    exact ⟨v', hv', hjob'.symm, hc'⟩
  · intro v hv hins
    rcases (Lists.mem_set_iff_getElem? hi).1 hv with rfl | ⟨j, -, hj⟩
    · rcases hinserted hins with hold | ⟨-, hnew⟩
      · exact h.pending u hmem hold
      · exact hnew
    · exact h.pending v (List.mem_of_getElem? hj) hins
  · intro j k v v' hj hk hv hv' hdigest
    rw [UploadWorld.set, List.getElem?_set] at hj hk
    split_ifs at hj hk with hij hi' hik
    · rw [← hij, ← hik]
    · obtain rfl := Option.some.inj hj
      exact absurd hdigest.symm (hothers k v' (Ne.symm hik) hk hv hv')
    · obtain rfl := Option.some.inj hk
      exact absurd hdigest (hothers j v (Ne.symm hij) hj hv' hv)
    · exact h.contended j k v v' hj hk hv hv' hdigest
  · intro v hv
    rcases (Lists.mem_set_iff_getElem? hi).1 hv with rfl | ⟨j, hji, hj⟩
    · rw [store_set]
      rwa [← store_write_self w u object] at hok
    · have hold := h.phases v (List.mem_of_getElem? hj)
      rw [store_set, store_write_of_ne w object (h.objectKey_ne hu hj hji)]
      exact hold

theorem UploadInv.stay (h : UploadInv E w) (hu : w.uploads[i]? = some u)
    (hinserted : inserted = true → u.inserted = true ∨
      w.contended E i u = false ∧ u.digest E ∉ w.documents.map (·.sha256))
    (hok : Upload.Ok (u.documentId ∈ w.documents.map (·.id)) (w.store u.objectKey)
      { u with inserted := inserted, events := events, phase := phase }) :
    UploadInv E (w.set i { u with inserted := inserted, events := events, phase := phase }) := by
  have hwrite : w.write u (w.store u.objectKey) = w := by simp only [UploadWorld.write, Function.update_eq_self]
  have hmove := h.move hu (fun _ => rfl) hinserted hok
  rwa [hwrite] at hmove

end

/-- The job of an upload that has not committed is not there. -/
theorem UploadInv.job_absent (h : UploadInv E w) (hu : u ∈ w.uploads)
    (hnot : u.documentId ∉ w.documents.map (·.id)) : u.jobId ∉ w.jobs.map (·.id) := by
  intro hmem
  obtain ⟨job, hjob, hid⟩ := List.mem_map.1 hmem
  obtain ⟨v, hv, rfl, hc⟩ := h.jobs job hjob
  obtain rfl : v = u := List.inj_on_of_nodup_map h.jobIds hv hu hid
  exact hnot hc.mem_ids

theorem UploadInv.job_document_absent (h : UploadInv E w)
    (hnot : u.documentId ∉ w.documents.map (·.id)) : u.documentId ∉ w.jobs.map (·.documentId) := by
  intro hmem
  obtain ⟨job, hjob, hid⟩ := List.mem_map.1 hmem
  obtain ⟨v, -, rfl, hc⟩ := h.jobs job hjob
  exact hnot (hid ▸ hc.mem_ids)

theorem UploadInv.events_absent (h : UploadInv E w) (hu : u ∈ w.uploads)
    (hnot : u.documentId ∉ w.documents.map (·.id)) : w.events.filter (·.jobId = u.jobId) = [] := by
  refine List.filter_eq_nil_iff.2 fun e he heq => h.job_absent hu hnot ?_
  rw [← of_decide_eq_true heq]
  exact h.eventJobs e he

/-- The events of an upload are appended one after the other, from 1 on. -/
theorem appendJobEvent_first (hseen : w.events.filter (·.jobId = u.jobId) = []) (event : LoggedEvent) :
    appendJobEvent (w.events ++ []) u.jobId event = [u.event 1 event] := by
  simp [appendJobEvent, hseen, Upload.event]

theorem appendJobEvent_second (hseen : w.events.filter (·.jobId = u.jobId) = []) {first event : LoggedEvent}
    (hkey : event.eventKey ≠ first.eventKey) :
    appendJobEvent (w.events ++ [u.event 1 first]) u.jobId event = [u.event 2 event] := by
  simp [appendJobEvent, List.filter_append, hseen, Upload.event, hkey]

theorem filter_acceptedEvents_self (u : Upload) :
    u.acceptedEvents.filter (·.jobId = u.jobId) = u.acceptedEvents := by
  simp [Upload.acceptedEvents, Upload.event]

theorem filter_acceptedEvents_of_ne (hne : u.jobId ≠ v.jobId) :
    u.acceptedEvents.filter (·.jobId = v.jobId) = [] := by
  simp [Upload.acceptedEvents, Upload.event, hne]

/-- A commit adds the rows of one upload; the others keep theirs. -/
theorem Upload.Committed.commit (h : v.Committed E w) (hevents : u.events = u.acceptedEvents)
    (hne : u.jobId ≠ v.jobId) : v.Committed E (w.commit E i u) where
  document := List.mem_append_left _ h.document
  job := List.mem_append_left _ h.job
  events := by
    simp only [UploadWorld.commit, List.filter_append, hevents, filter_acceptedEvents_of_ne hne, List.append_nil]
    exact h.events
  object := h.object

theorem UploadInv.committed_commit (h : UploadInv E w) (hu : u ∈ w.uploads)
    (hnot : u.documentId ∉ w.documents.map (·.id)) (hobject : w.store u.objectKey = some u.command.body)
    (hevents : u.events = u.acceptedEvents) : u.Committed E (w.commit E i u) where
  document := List.mem_append_right _ (List.mem_singleton.2 rfl)
  job := List.mem_append_right _ (List.mem_singleton.2 rfl)
  events := by
    simp only [UploadWorld.commit, List.filter_append, h.events_absent hu hnot, hevents, List.nil_append]
    exact filter_acceptedEvents_self u
  object := hobject

/-- An upload that is committed stays one when another commits. -/
theorem UploadInv.exists_committed_commit (h : UploadInv E w) (hu : w.uploads[i]? = some u)
    (hnot : u.documentId ∉ w.documents.map (·.id)) (hevents : u.events = u.acceptedEvents) (hv : v ∈ w.uploads)
    (hc : v.Committed E w) : v ∈ (w.commit E i u).uploads ∧ v.Committed E (w.commit E i u) := by
  obtain ⟨hi, -⟩ := List.getElem?_eq_some_iff.1 hu
  obtain ⟨j, hj⟩ := List.mem_iff_getElem?.1 hv
  have hji : j ≠ i := by
    rintro rfl
    obtain rfl := Option.some.inj (hj.symm.trans hu)
    exact hnot hc.mem_ids
  have hne : u.jobId ≠ v.jobId := fun heq => hji (Lists.index_eq_of_key h.jobIds hj hu heq.symm)
  exact ⟨(Lists.mem_set_iff_getElem? hi).2 (.inr ⟨j, hji, hj⟩), hc.commit hevents hne⟩

theorem UploadInv.commit (h : UploadInv E w) (hu : w.uploads[i]? = some u) (hphase : u.phase = .validated) :
    UploadInv E (w.commit E i u) := by
  obtain ⟨hi, -⟩ := List.getElem?_eq_some_iff.1 hu
  have hmem : u ∈ w.uploads := List.mem_of_getElem? hu
  have hok := h.phases u hmem
  simp only [Upload.Ok, hphase] at hok
  obtain ⟨hnot, hobject, hinserted, hevents⟩ := hok
  have hself := h.committed_commit (i := i) hmem hnot hobject hevents
  have hset : { u with inserted := false, events := [], phase := .committed } ∈ (w.commit E i u).uploads :=
    (Lists.mem_set_iff_getElem? hi).2 (.inl rfl)
  constructor
  · have hids := h.documentIds
    rwa [← Lists.map_set_of_key hu (y := { u with inserted := false, events := [], phase := .committed }) rfl] at hids
  · have hids := h.jobIds
    rwa [← Lists.map_set_of_key hu (y := { u with inserted := false, events := [], phase := .committed }) rfl] at hids
  · intro key hkey
    obtain ⟨v, hv, rfl⟩ := h.written key hkey
    obtain ⟨j, hj⟩ := List.mem_iff_getElem?.1 hv
    by_cases hji : j = i
    · subst hji
      obtain rfl := Option.some.inj (hj.symm.trans hu)
      exact ⟨_, hset, rfl⟩
    · exact ⟨v, (Lists.mem_set_iff_getElem? hi).2 (.inr ⟨j, hji, hj⟩), rfl⟩
  · exact Lists.nodup_map_snoc h.digests (h.pending u hmem hinserted)
  · exact Lists.nodup_map_snoc h.jobDocuments (h.job_document_absent hnot)
  · intro e he
    rw [UploadWorld.commit, List.map_append]
    rcases List.mem_append.1 he with hold | hnew
    · exact List.mem_append_left _ (h.eventJobs e hold)
    · refine List.mem_append_right _ (List.mem_singleton.2 ?_)
      rw [hevents, ← filter_acceptedEvents_self] at hnew
      exact of_decide_eq_true (List.mem_filter.1 hnew).2
  · intro d hd
    rcases List.mem_append.1 hd with hold | hnew
    · obtain ⟨v, hv, rfl, hc⟩ := h.documents d hold
      obtain ⟨hv', hc'⟩ := h.exists_committed_commit hu hnot hevents hv hc
      exact ⟨v, hv', rfl, hc'⟩
    · exact ⟨_, hset, List.mem_singleton.1 hnew, hself.moved⟩
  · intro job hjob
    rcases List.mem_append.1 hjob with hold | hnew
    · obtain ⟨v, hv, rfl, hc⟩ := h.jobs job hold
      obtain ⟨hv', hc'⟩ := h.exists_committed_commit hu hnot hevents hv hc
      exact ⟨v, hv', rfl, hc'⟩
    · exact ⟨_, hset, List.mem_singleton.1 hnew, hself.moved⟩
  · intro v hv hins hdigest
    rcases (Lists.mem_set_iff_getElem? hi).1 hv with rfl | ⟨j, hji, hj⟩
    · cases hins
    · rw [UploadWorld.commit, List.map_append] at hdigest
      rcases List.mem_append.1 hdigest with hold | hnew
      · exact h.pending v (List.mem_of_getElem? hj) hins hold
      · exact hji (h.contended j i v u hj hu hins hinserted (List.mem_singleton.1 hnew))
  · intro j k v v' hj hk hv hv' hdigest
    simp only [UploadWorld.commit, UploadWorld.set, List.getElem?_set] at hj hk
    split_ifs at hj hk with hij hik
    · rw [← hij, ← hik]
    · obtain rfl := Option.some.inj hj
      cases hv
    · obtain rfl := Option.some.inj hk
      cases hv'
    · exact h.contended j k v v' hj hk hv hv' hdigest
  · intro v hv
    rcases (Lists.mem_set_iff_getElem? hi).1 hv with rfl | ⟨j, hji, hj⟩
    · exact ⟨hself.mem_ids, rfl⟩
    · have hold := h.phases v (List.mem_of_getElem? hj)
      have hne : v.documentId ≠ u.documentId := fun heq => hji (Lists.index_eq_of_key h.documentIds hj hu heq)
      have hids : v.documentId ∈ (w.commit E i u).documents.map (·.id) ↔ v.documentId ∈ w.documents.map (·.id) := by
        rw [UploadWorld.commit, List.map_append, List.mem_append]
        exact or_iff_left fun hnew => hne (List.mem_singleton.1 hnew)
      rwa [hids]

/-- A new upload has no rows yet, and nothing is stored under its key. -/
theorem UploadInv.ingest (h : UploadInv E w) (hv : v.inserted = false) (hevents : v.events = [])
    (hphase : v.phase = .begun) (hid : v.documentId ∉ w.uploads.map (·.documentId))
    (hjob : v.jobId ∉ w.uploads.map (·.jobId)) : UploadInv E { w with uploads := w.uploads ++ [v] } := by
  have hnot : v.documentId ∉ w.documents.map (·.id) := by
    intro hmem
    obtain ⟨d, hd, heq⟩ := List.mem_map.1 hmem
    obtain ⟨u, hu, rfl, -⟩ := h.documents d hd
    exact hid (List.mem_map.2 ⟨u, hu, heq⟩)
  have hobject : w.store v.objectKey = none := by
    by_contra hsome
    obtain ⟨u, hu, heq⟩ := h.written _ hsome
    exact hid (List.mem_map.2 ⟨u, hu, documentId_of_objectKey heq⟩)
  constructor
  · exact Lists.nodup_map_snoc h.documentIds hid
  · exact Lists.nodup_map_snoc h.jobIds hjob
  · intro key hkey
    obtain ⟨u, hu, heq⟩ := h.written key hkey
    exact ⟨u, List.mem_append_left _ hu, heq⟩
  · exact h.digests
  · exact h.jobDocuments
  · exact h.eventJobs
  · intro d hd
    obtain ⟨u, hu, heq, hc⟩ := h.documents d hd
    exact ⟨u, List.mem_append_left _ hu, heq, hc.transfer rfl rfl rfl rfl⟩
  · intro job hjob
    obtain ⟨u, hu, heq, hc⟩ := h.jobs job hjob
    exact ⟨u, List.mem_append_left _ hu, heq, hc.transfer rfl rfl rfl rfl⟩
  · intro u hu hins
    rcases List.mem_append.1 hu with hold | hnew
    · exact h.pending u hold hins
    · obtain rfl := List.mem_singleton.1 hnew
      simp [hv] at hins
  · intro j k u u' hj hk hu hu' hdigest
    have hold : ∀ (j : ℕ) (u : Upload), (w.uploads ++ [v])[j]? = some u → u.inserted = true →
        w.uploads[j]? = some u := by
      intro j u hj hu
      rw [List.getElem?_append] at hj
      split_ifs at hj with hlt
      · exact hj
      · obtain rfl := List.mem_singleton.1 (List.mem_of_getElem? hj)
        simp [hv] at hu
    exact h.contended j k u u' (hold j u hj hu) (hold k u' hk hu') hu hu' hdigest
  · intro u hu
    rcases List.mem_append.1 hu with hold | hnew
    · exact h.phases u hold
    · obtain rfl := List.mem_singleton.1 hnew
      simp only [Upload.Ok, hphase]
      exact ⟨hnot, hobject, hv, hevents⟩

theorem UploadInv.search (h : UploadInv E w) (hu : w.uploads[i]? = some u) {missing : UploadPhase}
    (hinserted : u.inserted = false) (hobject : w.store u.objectKey = none)
    (hok : Upload.Ok (u.documentId ∈ w.documents.map (·.id)) (w.store u.objectKey) { u with phase := missing }) :
    UploadInv E (w.search E i u missing) := by
  unfold UploadWorld.search
  split
  · exact h.stay hu .inl ⟨hinserted, fun _ _ => hobject⟩
  · exact h.stay hu .inl hok

theorem UploadInv.flush (h : UploadInv E w) (hu : w.uploads[i]? = some u) (hphase : u.phase = .stored)
    (hcont : w.contended E i u = false) : UploadInv E (w.flush E i u) := by
  have hok := h.phases u (List.mem_of_getElem? hu)
  simp only [Upload.Ok, hphase] at hok
  obtain ⟨hnot, hobject, -, hevents⟩ := hok
  unfold UploadWorld.flush
  split
  · exact h.stay hu .inl ⟨hnot, hobject⟩
  · rename_i htaken
    exact h.stay hu (fun _ => .inr ⟨hcont, fun hmem => htaken (.inl hmem)⟩) ⟨hnot, hobject, rfl, hevents⟩

theorem UploadInv.step (h : UploadInv E w) {act : UploadAct} (hnext : w.next E act = some w') : UploadInv E w' := by
  have hphases : ∀ {i : ℕ} {u : Upload}, w.uploads[i]? = some u → _ :=
    fun {_ _} hu => h.phases _ (List.mem_of_getElem? hu)
  cases act with
  | ingest command documentId jobId =>
    simp only [UploadWorld.next] at hnext
    split_ifs at hnext with hinvalid htaken
    · exact Option.some.inj hnext ▸ h
    · obtain rfl := Option.some.inj hnext
      exact h.ingest rfl rfl rfl (fun hid => htaken (.inl hid)) fun hid => htaken (.inr hid)
  | findExisting i =>
    obtain ⟨u, hu, hstep⟩ := Option.bind_eq_some_iff.1 hnext
    split_ifs at hstep with hphase
    obtain rfl := Option.some.inj hstep
    have hok := hphases hu
    simp only [Upload.Ok, hphase] at hok
    exact h.search hu hok.2.2.1 hok.2.1 hok
  | put i =>
    obtain ⟨u, hu, hstep⟩ := Option.bind_eq_some_iff.1 hnext
    split_ifs at hstep with hphase
    obtain rfl := Option.some.inj hstep
    have hok := hphases hu
    simp only [Upload.Ok, hphase] at hok
    exact h.move hu (fun hc => absurd hc hok.1) .inl ⟨hok.1, rfl, hok.2.2⟩
  | putFails i left =>
    obtain ⟨u, hu, hstep⟩ := Option.bind_eq_some_iff.1 hnext
    split_ifs at hstep with hphase
    obtain rfl := Option.some.inj hstep
    have hok := hphases hu
    simp only [Upload.Ok, hphase] at hok
    exact h.move hu (fun hc => absurd hc hok.1) .inl ⟨hok.2.2.1, fun hne => absurd rfl hne⟩
  | flush i =>
    obtain ⟨u, hu, hstep⟩ := Option.bind_eq_some_iff.1 hnext
    split_ifs at hstep with hphase
    obtain rfl := Option.some.inj hstep
    exact h.flush hu hphase.1 hphase.2
  | acceptUpload i =>
    obtain ⟨u, hu, hstep⟩ := Option.bind_eq_some_iff.1 hnext
    split_ifs at hstep with hphase
    obtain rfl := Option.some.inj hstep
    have hok := hphases hu
    simp only [Upload.Ok, hphase] at hok
    obtain ⟨hnot, hobject, hinserted, hevents⟩ := hok
    have happend := appendJobEvent_first (h.events_absent (List.mem_of_getElem? hu) hnot) uploadAccepted
    refine h.stay hu .inl ⟨hnot, hobject, hinserted, ?_⟩
    simp only [hevents, happend, List.nil_append]
    rfl
  | validateDocument i =>
    obtain ⟨u, hu, hstep⟩ := Option.bind_eq_some_iff.1 hnext
    split_ifs at hstep with hphase
    obtain rfl := Option.some.inj hstep
    have hok := hphases hu
    simp only [Upload.Ok, hphase] at hok
    obtain ⟨hnot, hobject, hinserted, hevents⟩ := hok
    have hseen := h.events_absent (List.mem_of_getElem? hu) hnot
    have hkey : (documentValidated u.command.contentType).eventKey ≠ uploadAccepted.eventKey := by
      simp [documentValidated, uploadAccepted]
    refine h.stay hu .inl ⟨hnot, hobject, hinserted, ?_⟩
    simp only [hevents, appendJobEvent_second hseen hkey]
    rfl
  | commit i =>
    obtain ⟨u, hu, hstep⟩ := Option.bind_eq_some_iff.1 hnext
    split_ifs at hstep with hphase
    obtain rfl := Option.some.inj hstep
    exact h.commit hu hphase
  | fail i integrity =>
    obtain ⟨u, hu, hstep⟩ := Option.bind_eq_some_iff.1 hnext
    split_ifs at hstep with hphase
    obtain rfl := Option.some.inj hstep
    have hok := hphases hu
    have hfailed : u.documentId ∉ w.documents.map (·.id) ∧ w.store u.objectKey = some u.command.body := by
      simp only [List.mem_cons, List.not_mem_nil, or_false] at hphase
      rcases hphase with hphase | hphase | hphase | hphase
      all_goals
        simp only [Upload.Ok, hphase] at hok
        exact ⟨hok.1, hok.2.1⟩
    exact h.stay hu .inl hfailed
  | rollback i =>
    obtain ⟨u, hu, hstep⟩ := Option.bind_eq_some_iff.1 hnext
    split at hstep
    · rename_i integrity hphase
      obtain rfl := Option.some.inj hstep
      have hok := hphases hu
      simp only [Upload.Ok, hphase] at hok
      exact h.stay hu (fun hins => by cases hins) ⟨hok.1, hok.2, rfl⟩
    · cases hstep
  | delete i =>
    obtain ⟨u, hu, hstep⟩ := Option.bind_eq_some_iff.1 hnext
    split at hstep
    · rename_i integrity hphase
      obtain rfl := Option.some.inj hstep
      have hok := hphases hu
      simp only [Upload.Ok, hphase] at hok
      exact h.move hu (fun hc => absurd hc hok.1) .inl ⟨hok.1, rfl, hok.2.2⟩
    · cases hstep
  | recover i =>
    obtain ⟨u, hu, hstep⟩ := Option.bind_eq_some_iff.1 hnext
    split at hstep
    · rename_i integrity hphase
      obtain rfl := Option.some.inj hstep
      have hok := hphases hu
      simp only [Upload.Ok, hphase] at hok
      obtain ⟨hnot, hobject, hinserted⟩ := hok
      unfold UploadWorld.recover
      split
      · exact h.search hu hinserted hobject ⟨hinserted, fun _ _ => hobject⟩
      · exact h.stay hu .inl ⟨hinserted, fun _ _ => hobject⟩
    · cases hstep
  | dispatch i raises =>
    obtain ⟨u, hu, hstep⟩ := Option.bind_eq_some_iff.1 hnext
    split at hstep
    · rename_i hphase
      obtain rfl := Option.some.inj hstep
      have hok := hphases hu
      simp only [Upload.Ok, hphase] at hok
      exact h.stay hu .inl ⟨hok.2, fun _ hnot => absurd hok.1 hnot⟩
    · cases hstep
  | lose i =>
    obtain ⟨u, hu, hstep⟩ := Option.bind_eq_some_iff.1 hnext
    split at hstep
    · cases hstep
    · obtain rfl := Option.some.inj hstep
      exact h.stay hu (fun hins => by cases hins) rfl

theorem uploadInv_of_run {acts : List UploadAct} (h : Steps (UploadWorld.next E) .initial acts w) : UploadInv E w :=
  h.invariant (fun _ _ _ hinv hnext => UploadInv.step hinv hnext) (uploadInv_initial E)

/-- A committed document has its own job and no other. -/
theorem UploadInv.jobs_of_document (h : UploadInv E w) (hc : v.Committed E w) :
    w.jobs.filter (·.documentId = v.documentId) = [v.job] :=
  Lists.filter_key h.jobDocuments hc.job

/-- Along every run of uploads, taking their steps in any order and failing at any of them: a digest has one document;
a document has the bytes of its upload under its key and one job, whose events are the two of the upload; and a call
that has ended without a document of its own has left no object, unless the object store had refused it. -/
theorem uploads_consistent (acts : List UploadAct) (w : UploadWorld)
    (h : Steps (UploadWorld.next E) .initial acts w) :
    (w.documents.map (·.sha256)).Nodup ∧
    (∀ d ∈ w.documents, ∃ u ∈ w.uploads, d = u.document E ∧ w.store d.objectKey = some u.command.body ∧
      ∃ job : IngestionJob, w.jobs.filter (·.documentId = d.id) = [job] ∧
        w.events.filter (·.jobId = job.id) =
          [{ uploadAccepted with jobId := job.id, sequenceNumber := 1 },
            { documentValidated d.contentType with jobId := job.id, sequenceNumber := 2 }]) ∧
    (∀ u ∈ w.uploads, ∀ outcome, u.phase = .returned outcome → outcome ≠ .putFailed →
      u.document E ∉ w.documents → w.store u.objectKey = none) := by
  have hinv := uploadInv_of_run h
  refine ⟨hinv.digests, fun d hd => ?_, fun u hu outcome hphase hput hnot => ?_⟩
  · obtain ⟨u, hu, rfl, hc⟩ := hinv.documents d hd
    exact ⟨u, hu, rfl, hc.object, u.job, hinv.jobs_of_document hc, hc.events⟩
  · have hok := hinv.phases u hu
    simp only [Upload.Ok, hphase] at hok
    refine hok.2 hput fun hmem => hnot ?_
    obtain ⟨d, hd, hid⟩ := List.mem_map.1 hmem
    obtain ⟨v, hv, rfl, -⟩ := hinv.documents d hd
    obtain rfl : v = u := List.inj_on_of_nodup_map hinv.documentIds hv hu hid
    exact hd

end

/-- The digest of the bytes that both uploads have. -/
def pdfEnv : IngestionEnv where
  sha256 _ := "38523c087796e5d5dd1cf9bad1fb026781a838dd9dd2cf8af58b9f6502a46778"
  maxUploadBytes := 10000000

def pdfUpload : UploadCommand := ⟨"note.pdf", "application/pdf", [0x25, 0x50, 0x44, 0x46, 0x2d]⟩

/-- Neither upload finds the other; the second inserts its rows after the first has committed. -/
def pdfRace : List UploadAct :=
  [.ingest pdfUpload (.ofNat 1) (.ofNat 11), .ingest pdfUpload (.ofNat 2) (.ofNat 12), .findExisting 0,
    .findExisting 1, .put 0, .put 1, .flush 0, .acceptUpload 0, .validateDocument 0, .commit 0, .flush 1, .rollback 1,
    .delete 1, .recover 1, .dispatch 0 false]

theorem uploads_consistent_race : ∃ (w : UploadWorld) (u : Upload),
    Steps (UploadWorld.next pdfEnv) .initial pdfRace w ∧ w.documents.map (·.id) = [.ofNat 1] ∧
    w.uploads[1]? = some u ∧ u.phase = .returned (.deduplicated (.ofNat 11)) ∧
    (w.documents.map (·.sha256)).Nodup ∧ w.store u.objectKey = none := by
  obtain ⟨w, u, hw, hids, hu, hid, hphase⟩ : ∃ w u, exec (UploadWorld.next pdfEnv) .initial pdfRace = some w ∧
      w.documents.map (·.id) = [.ofNat 1] ∧ w.uploads[1]? = some u ∧ u.documentId = .ofNat 2 ∧
      u.phase = .returned (.deduplicated (.ofNat 11)) :=
    ⟨_, _, rfl, rfl, rfl, rfl, rfl⟩
  obtain ⟨hdigests, -, hobjects⟩ := uploads_consistent pdfRace w (.of_exec hw)
  have hnot : u.document pdfEnv ∉ w.documents := by
    intro hmem
    have hmem' : u.documentId ∈ w.documents.map (·.id) := List.mem_map_of_mem (f := (·.id)) hmem
    rw [hids, hid] at hmem'
    exact absurd hmem' (by decide)
  exact ⟨w, u, .of_exec hw, hids, hu, hphase, hdigests,
    hobjects u (List.mem_of_getElem? hu) _ hphase (by simp) hnot⟩

end InvoiceOps.Ingestion

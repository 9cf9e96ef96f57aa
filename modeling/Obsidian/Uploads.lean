import Obsidian.BodyProcessors.Registry
import Obsidian.InputFrames
import Obsidian.Phases

namespace Obsidian

open Obsidian.Data

/-! # Uploaded files

`ProcessRequestBody` leaves the uploaded files on the disk, and `Close` removes the ones
that `FILES_TMPNAMES` names.
-/

def Transaction.removedFiles (host : Host) (tx : Transaction) : List Bytes :=
  if host.disk.hasAccessToFS then tx.vars.tmpNames host.toRuntime else []

section

variable (host : Host) (waf : WAF) (libraries : BodyLibraries) (tx : Transaction)

def requestBodyProcessor : Bytes :=
  let rbp := tx.vars.single .reqbodyProcessor
  if tx.forceRequestBodyVariable ∧ rbp = [] then str "URLENCODED" else rbp

def processorVars : TransactionVariables :=
  if tx.forceRequestBodyVariable then
    tx.vars.setSingle .reqbodyProcessor (requestBodyProcessor tx)
  else tx.vars

def ReadsMultipart : Prop :=
  tx.ruleEngine ≠ .off ∧ tx.interruption = none ∧ tx.lastPhase = .requestHeaders ∧
    tx.requestBodyAccess = true ∧ tx.requestBodyBuffer.length ≠ 0 ∧
    host.toLower (host.toLower (requestBodyProcessor tx)) = str "multipart"

instance : Decidable (ReadsMultipart host tx) := inferInstanceAs (Decidable (_ ∧ _))

def contentType : Bytes :=
  ((tx.vars.mapGet host.toRuntime .requestHeaders (str "content-type")).head?).getD []

def readUploads : Multipart.Progress × Option GoError :=
  Multipart.processRequest (libraries.multipartSetup host) waf.uploadDir
    (tx.requestBodyBuffer.readAll host.disk) (contentType host tx) (processorVars tx)

def uploadedFiles : List Bytes :=
  if ReadsMultipart host tx then (readUploads host waf libraries tx).1.created else []

end

section

variable {host : Host} {waf : WAF} {libraries : BodyLibraries} {tx : Transaction}

theorem prepareRequestBody_uploads (reads : ReadsMultipart host tx) :
    (prepareRequestBody (host.withBodyProcessors libraries) waf tx).vars.map .filesTmpNames =
      (readUploads host waf libraries tx).1.vars.map .filesTmpNames := by
  obtain ⟨_, _, _, _, _, named⟩ := reads
  have given : host.toLower (requestBodyProcessor tx) ≠ [] := by
    intro empty
    rw [empty] at named
    exact absurd named (by rw [show host.toLower [] = [] from rfl]; decide)
  have found : (host.withBodyProcessors libraries).getBodyProcessor
      (host.toLower (requestBodyProcessor tx)) = _ := getBodyProcessor_multipart named
  have same : (host.withBodyProcessors libraries).toLower = host.toLower := rfl
  unfold prepareRequestBody
  cases forced : tx.forceRequestBodyVariable
  · have name : requestBodyProcessor tx = tx.vars.single .reqbodyProcessor := by
      simp [requestBodyProcessor, forced]
    have vars : processorVars tx = tx.vars := by simp [processorVars, forced]
    rw [name] at given found
    simp only [Bool.false_eq_true, false_and, if_false, same, given, found, readUploads, vars]
    split
    all_goals
      next read => exact (congrArg (·.1.map .filesTmpNames) read).symm
  · have vars : processorVars tx = tx.vars.setSingle .reqbodyProcessor (requestBodyProcessor tx) := by
      simp [processorVars, forced]
    have name : requestBodyProcessor tx =
        if tx.vars.single .reqbodyProcessor = [] then str "URLENCODED"
        else tx.vars.single .reqbodyProcessor := by
      simp [requestBodyProcessor, forced]
    simp only [true_and, if_true, ← name, same, given, if_false, found, readUploads, vars]
    split
    all_goals
      next read => exact (congrArg (·.1.map .filesTmpNames) read).symm

/-! ## Later calls -/

theorem evalPhase_uploads (phase : RulePhase) (tx : Transaction) (err : Option GoError) :
    (evalPhase host waf phase tx err).1.vars.map .filesTmpNames = tx.vars.map .filesTmpNames :=
  (Engine.eval_sameInput engine_quiet phase tx).map .filesTmpNames (by decide)

theorem processResponse_uploads {name : Bytes} {processor : BodyProcessor}
    (registered : (name, processor) ∈ libraries.processors host) (body : Except GoError Bytes)
    (v : TransactionVariables) :
    (processor.processResponse body v).1.map .filesTmpNames = v.map .filesTmpNames := by
  have stored : ∀ (data : JsonBody.Flat) v, (storeFlat host.toRuntime libraries.tick libraries.address
      .responseArgs data v).map .filesTmpNames = v.map .filesTmpNames := by
    intro data v
    unfold storeFlat
    generalize host.mapOrder libraries.tick 0 data.keys = keys
    induction keys generalizing v with
    | nil => rfl
    | cons key rest ih =>
      rw [List.foldl_cons, ih]
      simp [TransactionVariables.mapSetIndex, TransactionVariables.setMap]
  simp only [BodyLibraries.processors, List.mem_cons, List.not_mem_nil, or_false, Prod.mk.injEq]
    at registered
  rcases registered with ⟨_, rfl⟩ | ⟨_, rfl⟩ | ⟨_, rfl⟩ | ⟨_, rfl⟩ | ⟨_, rfl⟩
  · cases body with
    | error err => rfl
    | ok ss =>
      rw [← stored (JsonBody.readJSON (libraries.parseJSON ss)) v]
      simp [jsonBodyProcessor, TransactionVariables.mapSet, TransactionVariables.setMap]
  all_goals rfl

theorem processResponseBody_uploads (tx : Transaction) :
    (processResponseBody (host.withBodyProcessors libraries) waf tx).1.vars.map .filesTmpNames =
      tx.vars.map .filesTmpNames := by
  unfold processResponseBody
  split
  · rfl
  split
  · rfl
  split
  · rfl
  split
  · exact evalPhase_uploads ..
  dsimp only
  split
  · split
    · exact evalPhase_uploads ..
    · next processor found =>
        obtain ⟨name, registered⟩ := getBodyProcessor_mem found
        split
        all_goals
          next read =>
            rw [evalPhase_uploads]
            exact (congrArg (·.1.map .filesTmpNames) read).symm.trans
              (processResponse_uploads registered _ _)
  · split
    · rfl
    · exact evalPhase_uploads ..

section

variable (late : RulePhase.requestBody ≤ tx.lastPhase)
include late

theorem processBody_uploads (d : Direction) :
    (processBody (host.withBodyProcessors libraries) waf d tx).1.vars.map .filesTmpNames =
      tx.vars.map .filesTmpNames := by
  cases d with
  | response => exact processResponseBody_uploads tx
  | request =>
    have past : tx.lastPhase ≠ .requestHeaders := by
      intro same
      rw [same] at late
      exact absurd late (by decide)
    simp only [processBody, processRequestBody]
    repeat' split
    all_goals rfl

theorem finishWrite_uploads (d : Direction) (runProcessBody : Bool) (written : Nat) :
    (finishWrite (host.withBodyProcessors libraries) waf d runProcessBody written tx).1.vars.map
      .filesTmpNames = tx.vars.map .filesTmpNames := by
  unfold finishWrite
  split
  · exact processBody_uploads late d
  · rfl

theorem storeSlice_uploads (d : Direction) (b : Bytes) (writingBytes : Int)
    (runProcessBody : Bool) :
    (storeSlice (host.withBodyProcessors libraries) waf d b writingBytes runProcessBody tx).1.vars.map
      .filesTmpNames = tx.vars.map .filesTmpNames := by
  unfold storeSlice
  split
  · rfl
  split
  · cases d <;> rfl
  · next buffer _ _ =>
      have same : (tx.setBodyBuffer buffer d).vars = tx.vars := by cases d <;> rfl
      rw [finishWrite_uploads (by cases d <;> exact late), same]

theorem finishCopy_uploads (d : Direction) (runProcessBody : Bool) (written : Nat) :
    (finishCopy (host.withBodyProcessors libraries) waf d runProcessBody written tx).1.vars.map
      .filesTmpNames = tx.vars.map .filesTmpNames := by
  unfold finishCopy
  split
  · split
    · rfl
    · have flagged : RulePhase.requestBody ≤ (tx.flagDataError d).lastPhase := late
      exact finishWrite_uploads flagged d _ _
  · exact finishWrite_uploads late d _ _

theorem storeCopy_uploads (d : Direction) (r : Reader) (writingBytes : Int)
    (runProcessBody : Bool) :
    (storeCopy (host.withBodyProcessors libraries) waf d r writingBytes runProcessBody tx).1.vars.map
      .filesTmpNames = tx.vars.map .filesTmpNames := by
  unfold storeCopy
  split
  · cases d <;> rfl
  · next buffer _ _ =>
      have same : (tx.setBodyBuffer buffer d).vars = tx.vars := by cases d <;> rfl
      rw [finishCopy_uploads (by cases d <;> exact late), same]

end

theorem writeWith_uploads {d : Direction} {len : Option Nat}
    {store : Int → Bool → Transaction → Transaction × Outcome}
    (stored : ∀ n runProcessBody next, next.lastPhase = tx.lastPhase →
      (store n runProcessBody next).1.vars.map .filesTmpNames = next.vars.map .filesTmpNames) :
    (writeWith waf d len store tx).1.vars.map .filesTmpNames = tx.vars.map .filesTmpNames := by
  unfold writeWith
  split
  · rfl
  split
  · rfl
  split
  · rfl
  split
  · rfl
  · rfl
  · exact stored _ _ tx rfl
  · exact stored _ _ (tx.flagDataError d) rfl

theorem step_uploads (late : RulePhase.requestBody ≤ tx.lastPhase) (c : Call) :
    (step (host.withBodyProcessors libraries) waf tx c).vars.map .filesTmpNames =
      tx.vars.map .filesTmpNames := by
  cases c with
  | addRequestHeader key value =>
    have apart : MapField.filesTmpNames ≠ .requestHeaders := by decide
    have header := mapAdd_map (host.withBodyProcessors libraries).toRuntime apart key value tx.vars
    exact (addRequestHeader_map (by decide) key value tx).trans (by rw [header, ite_self])
  | addResponseHeader key value => exact addResponseHeader_map (by decide) key value tx
  | addGetRequestArgument | addPostRequestArgument | addPathRequestArgument
  | addResponseArgument => exact addArgument_map (by decide) ..
  | processConnection | setServerName => rfl
  | processURI uri method httpVersion => exact processURI_map (by decide) uri method httpVersion tx
  | processRequestHeaders =>
    simp only [step, call, processRequestHeaders]
    repeat' split
    any_goals rfl
    exact evalPhase_uploads ..
  | processResponseHeaders code proto =>
    simp only [step, call, processResponseHeaders]
    repeat' split
    any_goals rfl
    exact evalPhase_uploads ..
  | writeBody d b =>
    apply writeWith_uploads
    intro n runProcessBody next same
    exact storeSlice_uploads (same ▸ late) ..
  | readBodyFrom d r =>
    apply writeWith_uploads
    intro n runProcessBody next same
    exact storeCopy_uploads (same ▸ late) ..
  | processBody d => exact processBody_uploads late d
  | processLogging =>
    simp only [step, call, processLogging, writeAuditLog]
    repeat' split
    any_goals rfl
    all_goals exact evalPhase_uploads .logging tx none

theorem run_uploads (late : RulePhase.requestBody ≤ tx.lastPhase) (calls : List Call) :
    (run (host.withBodyProcessors libraries) waf tx calls).vars.map .filesTmpNames =
      tx.vars.map .filesTmpNames := by
  induction calls generalizing tx with
  | nil => rfl
  | cons c rest ih =>
    have later := RulePhase.le_trans late (step_lastPhase (host.withBodyProcessors libraries) waf tx c)
    exact (ih later).trans (step_uploads late c)

theorem processRequestBody_reads (reads : ReadsMultipart host tx) :
    (processRequestBody (host.withBodyProcessors libraries) waf tx).1.vars.map .filesTmpNames =
        (readUploads host waf libraries tx).1.vars.map .filesTmpNames ∧
      (processRequestBody (host.withBodyProcessors libraries) waf tx).1.lastPhase = .requestBody := by
  rw [← prepareRequestBody_uploads reads]
  obtain ⟨running, free, last, access, filled, _⟩ := reads
  have processed : (processRequestBody (host.withBodyProcessors libraries) waf tx).1 =
      (evalPhase (host.withBodyProcessors libraries) waf .requestBody
        (prepareRequestBody (host.withBodyProcessors libraries) waf tx)).1 := by
    simp [processRequestBody, running, free, last, access, filled]
  rw [processed]
  exact ⟨evalPhase_uploads .., eval_lastPhase ..⟩

theorem processorVars_tmpNames (rt : Runtime) :
    (processorVars tx).tmpNames rt = tx.vars.tmpNames rt := by
  unfold processorVars
  split <;> rfl

theorem removedFiles_run (waf : WAF) (libraries : BodyLibraries) (later : List Call)
    (reads : ReadsMultipart host tx) (access : host.disk.hasAccessToFS = true) :
    (run (host.withBodyProcessors libraries) waf
      (processRequestBody (host.withBodyProcessors libraries) waf tx).1 later).removedFiles host =
      (readUploads host waf libraries tx).1.vars.tmpNames host.toRuntime := by
  obtain ⟨stored, last⟩ := processRequestBody_reads reads
  have late : RulePhase.requestBody ≤
      (processRequestBody (host.withBodyProcessors libraries) waf tx).1.lastPhase := by
    rw [last]
    exact RulePhase.le_rfl
  simp only [Transaction.removedFiles, access, if_true]
  apply TransactionVariables.tmpNames_of_map
  exact (run_uploads late later).trans stored

end

/-- Every file created while a request body is processed is removed when the transaction is
closed after any further calls, exactly if every part that a file was created for was read
to its end and written to it. -/
theorem uploads_removed_iff (host : Host) (waf : WAF) (libraries : BodyLibraries)
    (tx : Transaction) (later : List Call)
    (others : ∀ name ∈ tx.vars.tmpNames host.toRuntime, ∀ call,
      libraries.uploads.createTemp call waf.uploadDir ≠ .ok name) :
    (∀ name ∈ uploadedFiles host waf libraries tx,
      name ∈ (run (host.withBodyProcessors libraries) waf
        (processRequestBody (host.withBodyProcessors libraries) waf tx).1 later).removedFiles host) ↔
    (ReadsMultipart host tx →
      Multipart.FilesCopied (libraries.multipartSetup host) waf.uploadDir 0
        (Multipart.partsOf (libraries.multipartSetup host) (tx.requestBodyBuffer.readAll host.disk)
          (contentType host tx))) := by
  by_cases reads : ReadsMultipart host tx
  · have files := Multipart.processRequest_files (libraries.multipartSetup host) waf.uploadDir
      (tx.requestBodyBuffer.readAll host.disk) (contentType host tx) (processorVars tx) (by
        intro name known
        apply others name
        rwa [processorVars_tmpNames] at known)
    simp only [uploadedFiles, reads, if_true, true_implies]
    rw [← files]
    cases access : host.disk.hasAccessToFS with
    | false =>
      have none : (readUploads host waf libraries tx).1.created = [] :=
        Multipart.processRequest_noAccess _ _ access ..
      simp only [none]
      rw [show (Multipart.processRequest _ _ _ _ _).1.created = [] from none]
      simp
    | true =>
      have names := removedFiles_run waf libraries later reads access
      rw [names]
      rfl
  · simp [uploadedFiles, reads]

def oneUpload (readError : Option GoError) : BodyLibraries where
  tick := 0
  address := .literal
  parseJSON := fun _ => .null
  decodeXML := fun _ => .ok []
  multipart := {
    parseMediaType := fun text => .ok {
      mediaType := text
      params := AList.singleton (str "filename") (str "notes.txt") }
    readParts := fun body _ =>
      match body with
      | .ok content => ([{ header := ∅, content, readError }], none)
      | .error err => ([], some err) }
  uploads := {
    createTemp := fun call _ => .ok (str "crzmp" ++ List.replicate call (byte '0'))
    write := fun _ _ => none
    fresh := fun {_ name m n} first second => by
      have same := congrArg List.length (Except.ok.inj (first.trans second.symm))
      simpa using same }

def uploadWAF : WAF := { newWAF [] with requestBodyAccess := true }

def uploadRequest : Transaction :=
  run Host.plain uploadWAF (uploadWAF.newTransaction Host.plain ⟨str "tx", 0⟩ 0 none)
    [.addRequestHeader (.lit "Content-Type") (str "multipart/form-data"), .processRequestHeaders,
      .writeBody .request ⟨str "--b", by decide⟩]

/-- A part that is cut short has left its file behind. -/
theorem upload_cutShort :
    uploadedFiles Host.plain uploadWAF (oneUpload (some (str "unexpected EOF"))) uploadRequest =
        [str "crzmp"] ∧
      (run (Host.plain.withBodyProcessors (oneUpload (some (str "unexpected EOF")))) uploadWAF
        (processRequestBody (Host.plain.withBodyProcessors (oneUpload (some (str "unexpected EOF"))))
          uploadWAF uploadRequest).1 [.processLogging]).removedFiles Host.plain = [] := by
  decide

theorem uploads_removed_whole :
    uploadedFiles Host.plain uploadWAF (oneUpload none) uploadRequest = [str "crzmp"] ∧
      ∀ name ∈ uploadedFiles Host.plain uploadWAF (oneUpload none) uploadRequest,
        name ∈ (run (Host.plain.withBodyProcessors (oneUpload none)) uploadWAF
          (processRequestBody (Host.plain.withBodyProcessors (oneUpload none)) uploadWAF
            uploadRequest).1 [.processLogging]).removedFiles Host.plain := by
  refine ⟨by decide, ?_⟩
  apply (uploads_removed_iff Host.plain uploadWAF (oneUpload none) uploadRequest [.processLogging]
    ?_).mpr
  · intro _
    exact ⟨rfl, trivial⟩
  · have none : uploadRequest.vars.tmpNames Host.plain.toRuntime = [] := by decide
    simp [none]

end Obsidian

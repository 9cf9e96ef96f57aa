import Obsidian.Api
import Obsidian.Data.Multimap

namespace Obsidian

open Obsidian.Data

/-! # Multipart bodies

The body processor for `multipart/form-data` copies every uploaded file into a
temporary file.  The packages `mime` and `mime/multipart` are parameters, and so is the
directory the files are created in.
-/

namespace Multipart

/-- A part as `NextPart` hands it out.  `readError` is what reading its content ends
with, other than its end. -/
structure Part where
  header : Multimap.Lists Bytes Bytes
  content : Bytes
  readError : Option GoError

structure MediaType where
  mediaType : Bytes
  params : AList fun _ : Bytes => Bytes

def MediaType.param (media : MediaType) (name : String) : Bytes :=
  (media.params.lookup (str name)).getD []

structure Library where
  parseMediaType : Bytes → Except GoError MediaType
  /-- The parts of a body, and what `NextPart` returns after them unless it is `io.EOF`. -/
  readParts : (body : Except GoError Bytes) → (boundary : Bytes) → List Part × Option GoError

/-- The directory for uploads during one request: how each call of `os.CreateTemp` ends, and
how writing to the file it created does.  No name is given out twice. -/
structure UploadDir where
  createTemp : (call : Nat) → (storagePath : Bytes) → Except GoError Bytes
  write : (call : Nat) → (content : Bytes) → Option GoError
  fresh : ∀ {storagePath name m n}, createTemp m storagePath = .ok name →
    createTemp n storagePath = .ok name → m = n

structure Setup where
  rt : Runtime
  tick : Nat
  address : Bytes → Addr
  hasAccessToFS : Bool
  library : Library
  dir : UploadDir

/-- What the loop over the parts has done so far: `calls` counts the calls of
`os.CreateTemp`, and `created` has the files that came of them. -/
structure Progress where
  vars : TransactionVariables
  totalSize : Nat
  calls : Nat
  created : List Bytes

def Progress.strictError (s : Progress) : Progress :=
  { s with vars := s.vars.setSingle .multipartStrictError (str "1") }

section

variable (setup : Setup) (storagePath : Bytes)

def disposition (part : Part) : Except GoError MediaType :=
  setup.library.parseMediaType
    (((Multimap.values part.header (str "Content-Disposition")).head?).getD [])

def formName (part : Part) : Bytes :=
  match disposition setup part with
  | .error _ => []
  | .ok media => if media.mediaType = str "form-data" then media.param "name" else []

def originFileName (part : Part) : Bytes :=
  match disposition setup part with
  | .error _ => []
  | .ok media => media.param "filename"

def addPartHeaders (index : Nat) (part : Part) (v : TransactionVariables) :
    TransactionVariables :=
  (setup.rt.mapOrder setup.tick index part.header.keys).foldl (fun v key =>
    (Multimap.values part.header key).foldl (fun v value =>
      v.mapAdd setup.rt .multipartPartHeaders
        ⟨setup.address (formName setup part), formName setup part⟩ (key ++ str ": " ++ value)) v) v

/-- `io.Copy` of the part into the file of a call: what was read before an error is written. -/
def copyError (call : Nat) (part : Part) : Option GoError :=
  (setup.dir.write call part.content).or part.readError

def copyFile (part : Part) (s : Progress) : Progress × Except GoError Nat :=
  if setup.hasAccessToFS then
    match setup.dir.createTemp s.calls storagePath with
    | .error err => ({ s with calls := s.calls + 1 }, .error err)
    | .ok name =>
      let created := { s with calls := s.calls + 1, created := s.created ++ [name] }
      match copyError setup s.calls part with
      | some err => (created, .error err)
      | none =>
        ({ created with vars := s.vars.mapAdd setup.rt .filesTmpNames (.lit "") name },
          .ok part.content.length)
  else
    match part.readError with
    | some err => (s, .error err)
    | none => (s, .ok part.content.length)

def Progress.addSize (s : Progress) (size : Nat) : Progress :=
  { s with
    totalSize := s.totalSize + size
    vars := s.vars.setSingle .filesCombinedSize (itoa (s.totalSize + size : Nat)) }

def addFile (part : Part) (size : Nat) (v : TransactionVariables) : TransactionVariables :=
  let filename := originFileName setup part
  let v := v.mapAdd setup.rt .files (.lit "") filename
  let v := v.mapSetIndex setup.rt .filesSizes ⟨setup.address filename, filename⟩ 0 (itoa size)
  v.mapAdd setup.rt .filesNames (.lit "") (formName setup part)

def processPart (index : Nat) (part : Part) (s : Progress) : Progress × Option GoError :=
  let s := { s with vars := addPartHeaders setup index part s.vars }
  if originFileName setup part ≠ [] then
    match copyFile setup storagePath part s with
    | (s, .error err) => (s.strictError, some err)
    | (s, .ok size) => ({ s with vars := addFile setup part size s.vars }.addSize size, none)
  else
    match part.readError with
    | some err => (s.strictError, some err)
    | none =>
      let name := formName setup part
      let v := s.vars.mapAdd setup.rt .argsPost ⟨setup.address name, name⟩ part.content
      ({ s with vars := v }.addSize part.content.length, none)

def processParts (last : Option GoError) :
    (index : Nat) → List Part → Progress → Progress × Option GoError
  | _, [], s =>
    match last with
    | none => (s, none)
    | some err => (s.strictError, some err)
  | index, part :: rest, s =>
    match processPart setup storagePath index part s with
    | (s, some err) => (s, some err)
    | (s, none) => processParts last (index + 1) rest s

def notMultipart : GoError := str "not a multipart body"

def processRequest (body : Except GoError Bytes) (mime : Bytes) (v : TransactionVariables) :
    Progress × Option GoError :=
  let start : Progress := { vars := v, totalSize := 0, calls := 0, created := [] }
  match setup.library.parseMediaType mime with
  | .error err => (start.strictError, some err)
  | .ok media =>
    if (str "multipart/").isPrefixOf media.mediaType then
      let (parts, last) := setup.library.readParts body (media.param "boundary")
      processParts setup storagePath last 0 parts start
    else (start, some notMultipart)

end

end Multipart

def multipartBodyProcessor (setup : Multipart.Setup) : BodyProcessor where
  processRequest := fun body mime storagePath v =>
    let (s, err) := Multipart.processRequest setup storagePath body mime v
    (s.vars, err)
  processResponse := fun _ v => (v, none)

/-! ## The files left behind -/

def TransactionVariables.tmpNames (rt : Runtime) (v : TransactionVariables) : List Bytes :=
  v.mapGet rt .filesTmpNames []

namespace TransactionVariables

variable (rt : Runtime) (v : TransactionVariables)

theorem tmpNames_of_map {v w : TransactionVariables}
    (same : w.map .filesTmpNames = v.map .filesTmpNames) : w.tmpNames rt = v.tmpNames rt := by
  simp only [tmpNames, mapGet, same]

@[simp] theorem tmpNames_setSingle (field : SingleField) (value : Bytes) :
    (v.setSingle field value).tmpNames rt = v.tmpNames rt := rfl

@[simp] theorem tmpNames_setMap (field : MapField) (data : MapData)
    (other : field ≠ .filesTmpNames) : (v.setMap field data).tmpNames rt = v.tmpNames rt := by
  apply tmpNames_of_map
  simp [setMap, other.symm]

theorem tmpNames_add (name : Bytes) :
    (v.mapAdd rt .filesTmpNames (.lit "") name).tmpNames rt = v.tmpNames rt ++ [name] := by
  have empty : (GoString.lit "").text = [] := by decide
  simp only [tmpNames, mapGet, mapAdd]
  rw [empty]
  simp [setMap, MapData.get, MapData.add, MapData.values]

end TransactionVariables

namespace Multipart

variable (setup : Setup) (storagePath : Bytes)

def partsOf (body : Except GoError Bytes) (mime : Bytes) : List Part :=
  match setup.library.parseMediaType mime with
  | .error _ => []
  | .ok media =>
    if (str "multipart/").isPrefixOf media.mediaType then
      (setup.library.readParts body (media.param "boundary")).1
    else []

def isStored (part : Part) : Bool := originFileName setup part ≠ [] && setup.hasAccessToFS

/-- Going through the parts up to the first that cannot be read or stored, every part for
which a file can be created is read to its end and written to it. -/
def FilesCopied : (calls : Nat) → List Part → Prop
  | _, [] => True
  | calls, part :: rest =>
    if isStored setup part then
      match setup.dir.createTemp calls storagePath with
      | .error _ => True
      | .ok _ => copyError setup calls part = none ∧ FilesCopied (calls + 1) rest
    else part.readError = none → FilesCopied calls rest

theorem tmpNames_addPartHeaders (index : Nat) (part : Part) (v : TransactionVariables) :
    (addPartHeaders setup index part v).tmpNames setup.rt = v.tmpNames setup.rt := by
  apply TransactionVariables.tmpNames_of_map
  unfold addPartHeaders
  generalize setup.rt.mapOrder setup.tick index part.header.keys = keys
  induction keys generalizing v with
  | nil => rfl
  | cons key rest ih =>
    rw [List.foldl_cons, ih]
    generalize Multimap.values part.header key = values
    induction values generalizing v with
    | nil => rfl
    | cons value others inner =>
      rw [List.foldl_cons, inner]
      simp [TransactionVariables.mapAdd, TransactionVariables.setMap]

theorem tmpNames_addFile (part : Part) (size : Nat) (v : TransactionVariables) :
    (addFile setup part size v).tmpNames setup.rt = v.tmpNames setup.rt := by
  simp [addFile, TransactionVariables.mapAdd, TransactionVariables.mapSetIndex]

/-- What one part does to the files: nothing, or one file is created, whose name is kept
unless the part fails. -/
inductive PartFiles (setup : Setup) (storagePath : Bytes) (s next : Progress) (part : Part) (err : Option GoError) : Prop
  | none (created : next.created = s.created)
      (names : next.vars.tmpNames setup.rt = s.vars.tmpNames setup.rt)
      (plain : isStored setup part = false) (calls : next.calls = s.calls)
      (failed : err = Option.none ↔ part.readError = Option.none)
  | refused (created : next.created = s.created)
      (names : next.vars.tmpNames setup.rt = s.vars.tmpNames setup.rt)
      (stored : isStored setup part = true) (failed : err ≠ Option.none)
      (cause : GoError) (refused : setup.dir.createTemp s.calls storagePath = .error cause)
  | kept (name : Bytes) (created : next.created = s.created ++ [name])
      (names : next.vars.tmpNames setup.rt = s.vars.tmpNames setup.rt ++ [name])
      (stored : isStored setup part = true) (calls : next.calls = s.calls + 1)
      (given : setup.dir.createTemp s.calls storagePath = .ok name)
      (copied : copyError setup s.calls part = Option.none) (done : err = Option.none)
  | left (name : Bytes) (created : next.created = s.created ++ [name])
      (names : next.vars.tmpNames setup.rt = s.vars.tmpNames setup.rt)
      (stored : isStored setup part = true)
      (given : setup.dir.createTemp s.calls storagePath = .ok name)
      (cut : copyError setup s.calls part ≠ Option.none) (failed : err ≠ Option.none)

theorem processPart_files (index : Nat) (part : Part) (s : Progress) :
    PartFiles setup storagePath s (processPart setup storagePath index part s).1 part
      (processPart setup storagePath index part s).2 := by
  have headers := tmpNames_addPartHeaders setup index part s.vars
  unfold processPart
  by_cases named : originFileName setup part = []
  · have plain : isStored setup part = false := by simp [isStored, named]
    cases read : part.readError with
    | none =>
      apply PartFiles.none <;> simp [named, read, plain, Progress.addSize, headers,
        TransactionVariables.mapAdd]
    | some err =>
      apply PartFiles.none <;> simp [named, read, plain, Progress.strictError, headers]
  · cases access : setup.hasAccessToFS with
    | false =>
      have plain : isStored setup part = false := by simp [isStored, access]
      cases read : part.readError with
      | none =>
        apply PartFiles.none <;> simp [named, read, plain, access, copyFile, Progress.addSize,
          headers, tmpNames_addFile]
      | some err =>
        apply PartFiles.none <;> simp [named, read, plain, access, copyFile,
          Progress.strictError, headers]
    | true =>
      have stored : isStored setup part = true := by simp [isStored, named, access]
      cases given : setup.dir.createTemp s.calls storagePath with
      | error cause =>
        apply PartFiles.refused _ _ stored _ cause given <;>
          simp [named, access, copyFile, given, Progress.strictError, headers]
      | ok name =>
        cases copied : copyError setup s.calls part with
        | none =>
          apply PartFiles.kept name _ _ stored _ given copied <;>
            simp [named, access, copyFile, given, copied, Progress.addSize, headers,
              tmpNames_addFile, TransactionVariables.tmpNames_add]
        | some err =>
          apply PartFiles.left name _ _ stored given <;>
            simp [named, access, copyFile, given, copied, Progress.strictError, headers]

/-- What the loop does to the files: it keeps the names in `stored`, and forgets those in
`left`. -/
structure LoopFiles (setup : Setup) (storagePath : Bytes) (s next : Progress) (parts : List Part)
    (stored left : List Bytes) : Prop where
  created : next.created = s.created ++ stored ++ left
  names : next.vars.tmpNames setup.rt = s.vars.tmpNames setup.rt ++ stored
  copied : left = [] ↔ FilesCopied setup storagePath s.calls parts
  given : ∀ name ∈ stored ++ left,
    ∃ call, s.calls ≤ call ∧ setup.dir.createTemp call storagePath = .ok name
  apart : ∀ name ∈ left, name ∉ stored

theorem processParts_files (last : Option GoError) (index : Nat) (parts : List Part)
    (s : Progress) : ∃ stored left, LoopFiles setup storagePath s
      (processParts setup storagePath last index parts s).1 parts stored left := by
  induction parts generalizing index s with
  | nil =>
    exists [], []
    cases last <;> constructor <;> simp [processParts, Progress.strictError, FilesCopied]
  | cons part rest ih =>
    have files := processPart_files setup storagePath index part s
    revert files
    simp only [processParts]
    rcases processPart setup storagePath index part s with ⟨next, _ | err⟩ <;> intro files <;>
      dsimp only at files ⊢
    · obtain ⟨stored, left, loop⟩ := ih (index + 1) next
      cases files with
      | none created names plain calls failed =>
        exists stored, left
        have read := failed.mp rfl
        constructor
        · rw [loop.created, created]
        · rw [loop.names, names]
        · rw [loop.copied, calls]
          simp [FilesCopied, plain, read]
        · rw [← calls]
          exact loop.given
        · exact loop.apart
      | refused _ _ _ failed => exact absurd rfl failed
      | kept name created names isStored calls given copied =>
        exists name :: stored, left
        have later : ∀ other ∈ stored ++ left, ∃ call, s.calls + 1 ≤ call ∧
            setup.dir.createTemp call storagePath = .ok other := by
          rw [← calls]
          exact loop.given
        constructor
        · rw [loop.created, created]
          simp
        · rw [loop.names, names]
          simp
        · rw [loop.copied, calls]
          simp [FilesCopied, isStored, given, copied]
        · intro other member
          rcases List.mem_cons.mp member with rfl | member
          · exact ⟨s.calls, Nat.le_refl _, given⟩
          · obtain ⟨call, after, handed⟩ := later other member
            exact ⟨call, by omega, handed⟩
        · intro other member
          obtain ⟨call, after, handed⟩ := later other (List.mem_append_right _ member)
          have different : other ≠ name := by
            rintro rfl
            have same := setup.dir.fresh handed given
            omega
          simp [different, loop.apart other member]
      | left _ _ _ _ _ _ failed => exact absurd rfl failed
    · cases files with
      | none created names plain calls failed =>
        exists [], []
        have read : part.readError ≠ Option.none := fun read => by simpa using failed.mpr read
        constructor <;> simp [created, names, FilesCopied, plain, read]
      | refused created names isStored failed cause refused =>
        exists [], []
        constructor <;> simp [created, names, FilesCopied, isStored, refused]
      | kept _ _ _ _ _ _ _ done => cases done
      | left name created names isStored given cut =>
        exists [], [name]
        constructor
        · simp [created]
        · simp [names]
        · simp [FilesCopied, isStored, given, cut]
        · simpa using ⟨s.calls, Nat.le_refl _, given⟩
        · simp

theorem processParts_noAccess (noAccess : setup.hasAccessToFS = false) (last : Option GoError)
    (index : Nat) (parts : List Part) (s : Progress) :
    (processParts setup storagePath last index parts s).1.created = s.created := by
  have never : ∀ part, isStored setup part = false := fun part => by simp [isStored, noAccess]
  induction parts generalizing index s with
  | nil => cases last <;> rfl
  | cons part rest ih =>
    have files := processPart_files setup storagePath index part s
    have same : (processPart setup storagePath index part s).1.created = s.created := by
      cases files with
      | none created => exact created
      | refused created => exact created
      | kept _ _ _ isStored => simp [never] at isStored
      | left _ _ _ isStored => simp [never] at isStored
    simp only [processParts]
    split
    · next failed => rw [failed] at same; exact same
    · next done =>
        rw [done] at same
        exact (ih _ _).trans same

theorem processRequest_noAccess (noAccess : setup.hasAccessToFS = false)
    (body : Except GoError Bytes) (mime : Bytes) (v : TransactionVariables) :
    (processRequest setup storagePath body mime v).1.created = [] := by
  unfold processRequest
  split
  · rfl
  · dsimp only
    split
    · exact processParts_noAccess setup storagePath noAccess ..
    · rfl

/-- Every file that was created is known by its name afterwards exactly if no file part is cut
short or fails to be written. -/
theorem processRequest_files (body : Except GoError Bytes) (mime : Bytes)
    (v : TransactionVariables)
    (others : ∀ name ∈ v.tmpNames setup.rt, ∀ call, setup.dir.createTemp call storagePath ≠ .ok name) :
    (∀ name ∈ (processRequest setup storagePath body mime v).1.created,
      name ∈ (processRequest setup storagePath body mime v).1.vars.tmpNames setup.rt) ↔
    FilesCopied setup storagePath 0 (partsOf setup body mime) := by
  unfold processRequest partsOf
  cases setup.library.parseMediaType mime with
  | error err => simp [Progress.strictError, FilesCopied]
  | ok media =>
    dsimp only
    split
    · obtain ⟨stored, left, loop⟩ := processParts_files setup storagePath
        (setup.library.readParts body (media.param "boundary")).2 0
        (setup.library.readParts body (media.param "boundary")).1
        { vars := v, totalSize := 0, calls := 0, created := [] }
      rw [loop.created, loop.names, ← loop.copied]
      constructor
      · intro kept
        apply List.eq_nil_iff_forall_not_mem.mpr
        intro name member
        rcases List.mem_append.mp (kept name (by simp [member])) with known | known
        · obtain ⟨call, _, given⟩ := loop.given name (List.mem_append_right _ member)
          exact others name known call given
        · exact loop.apart name member known
      · intro none
        simp +contextual [none]
    · simp [FilesCopied]

end Multipart

end Obsidian

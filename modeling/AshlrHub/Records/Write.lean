import AshlrHub.Lib.Program
import AshlrHub.Js.Json
import AshlrHub.Js.Map

namespace AshlrHub.Records

open Js Lib

/-! The files of a store of immutable private records. -/

structure Codec (R : Type) where
  parse : JsValue → Option R
  serialize : R → JsString
  recordId : R → JsString
  recordFileName : R → JsString
  isRecordFileName : JsString → Bool
  stageToken : R → JsString
  equivalent : R → R → Bool

structure Config where
  maxRecordBytes : ℕ
  hardMaxFiles : ℕ

structure Inode where
  bytes : Bytes
  nlink : ℕ

/-- What happens to records, for the history: a stage came into place, a record's link into
`records/`, a call for a record had `true` from its prepublish check. -/
inductive Event (R : Type) where
  | staged (record : R)
  | visible (record : R)
  | checked (record : R)
deriving DecidableEq

/-- The two directories, the files behind their names, and the history, newest first.  All
files are private to the user and only cooperating writers touch them. -/
structure Store (R : Type) where
  records : JsString → Option ℕ
  staging : JsMap JsString ℕ
  inode : ℕ → Inode
  fresh : ℕ
  history : List (Event R)

def Store.empty {R : Type} : Store R where
  records _ := none
  staging := []
  inode _ := ⟨[], 0⟩
  fresh := 0
  history := []

inductive Path where
  | records (name : JsString)
  | staging (name : JsString)

def fileSystemName (name : JsString) : JsString :=
  utf8Decode (utf8Encode name)

def nameTooLong (name : JsString) : Bool :=
  255 < (utf8Encode name).length

section

variable {R : Type}

section

variable (store : Store R)

def Store.lookup : Path → Option ℕ
  | .records name => store.records name
  | .staging name => store.staging.get? name

def Store.note (event : Event R) : Store R :=
  { store with history := event :: store.history }

def Store.setLinks (ino nlink : ℕ) : Store R :=
  { store with inode := Function.update store.inode ino ⟨(store.inode ino).bytes, nlink⟩ }

def Store.create (name : JsString) : Store R :=
  { store with
    staging := store.staging.set name store.fresh
    inode := Function.update store.inode store.fresh ⟨[], 1⟩
    fresh := store.fresh + 1 }

def Store.append (ino : ℕ) (byte : UInt8) : Store R :=
  { store with
    inode := Function.update store.inode ino
      ⟨(store.inode ino).bytes ++ [byte], (store.inode ino).nlink⟩ }

def Store.remove (path : Path) : Store R :=
  match store.lookup path with
  | none => store
  | some ino =>
      let unlinked := store.setLinks ino ((store.inode ino).nlink - 1)
      match path with
      | .records name => { unlinked with records := Function.update store.records name none }
      | .staging name => { unlinked with staging := store.staging.delete name }

def Store.move (source target : JsString) (ino : ℕ) : Store R :=
  let cleared := store.remove (.staging target)
  { cleared with staging := (cleared.staging.delete source).set target ino }

/-- A file of `staging/` gets a name in `records/` as well. -/
def Store.link (ino : ℕ) (target : JsString) : Store R :=
  let linked := store.setLinks ino ((store.inode ino).nlink + 1)
  { linked with records := Function.update store.records target (some ino) }

/-! File operations.  A program passes through the state behind each of them, and a write
through every beginning of what it writes. -/

/-- What `lstatSync` says of a file. -/
structure Stat where
  ino : ℕ
  nlink : ℕ
  size : ℕ

def existsSync (path : Path) : Program (Store R) Bool :=
  .look fun store => (store.lookup path).isSome

def Store.stat (ino : ℕ) : Stat :=
  ⟨ino, (store.inode ino).nlink, (store.inode ino).bytes.length⟩

end

def lstatSync (path : Path) : Program (Store R) Stat := do
  match ← .look fun store => (store.lookup path).map store.stat with
  | some stat => pure stat
  | none => .throw

/-- `openSync` with `O_CREAT | O_EXCL` -/
def createExclusive (name : JsString) : Program (Store R) ℕ := do
  if ← .look fun store => nameTooLong name || (store.staging.get? name).isSome then
    .throw
  else
    let ino ← .look (·.fresh)
    .step fun store => store.create name
    pure ino

def writeAll (ino : ℕ) : Bytes → Program (Store R) Unit
  | [] => pure ()
  | byte :: bytes => do
      .step fun store => store.append ino byte
      writeAll ino bytes

def renameSync (source target : JsString) (event : Event R) : Program (Store R) Unit := do
  match ← .look fun store => store.staging.get? source with
  | none => .throw
  | some ino => .step fun store => (store.move source target ino).note event

inductive LinkOutcome where
  | linked
  | exist
  | error

/-- `linkSync`, with the error told apart. -/
def linkSync (source target : JsString) (event : Event R) : Program (Store R) LinkOutcome := do
  match ← .look fun store => store.staging.get? source with
  | none => pure .error
  | some ino =>
      if nameTooLong target then
        pure .error
      else if ← .look fun store => (store.records target).isSome then
        pure .exist
      else
        .step fun store => (store.link ino target).note event
        pure .linked

def unlinkSync (path : Path) : Program (Store R) Unit := do
  match ← .look fun store => store.lookup path with
  | none => .throw
  | some _ => .step fun store => store.remove path

end

/-! Writing one immutable record.  `fsync` changes nothing that a crash of the process can
show, so only the steps that change names or bytes stand here. -/

variable {R : Type}

/-! Names. -/

/-- A POSIX file name: `basename(value) === value`. -/
def safePathComponent (value : JsString) : Bool :=
  0 < value.length && value.length ≤ 255 && !value.contains 0x2F && value != js "." &&
    value != js ".." && !value.contains 0

def isAlphanumeric (unit : CodeUnit) : Bool :=
  (0x30 ≤ unit && unit ≤ 0x39) || (0x41 ≤ unit && unit ≤ 0x5A) || (0x61 ≤ unit && unit ≤ 0x7A)

/-- `/^[A-Za-z0-9][A-Za-z0-9._-]{0,127}$/` -/
def safeOpaqueToken : JsString → Bool
  | [] => false
  | first :: rest =>
      isAlphanumeric first && rest.length ≤ 127 &&
        rest.all fun unit => isAlphanumeric unit || (js "._-").contains unit

/-- The names of a record: in `records/`, and in `staging/` whole and while it is written. -/
structure RecordPaths where
  target : JsString
  stage : JsString
  temporary : JsString

def recordPaths (codec : Codec R) (record : R) : Option RecordPaths :=
  let id := codec.recordId record
  let fileName := codec.recordFileName record
  let stageToken := codec.stageToken record
  if !safeOpaqueToken id || !safeOpaqueToken stageToken || !safePathComponent fileName ||
      fileName.head? = some 0x2E || !codec.isRecordFileName fileName then
    none
  else
    let stageName := js "." ++ id ++ js "." ++ stageToken ++ js ".stage"
    if !safePathComponent stageName then none
    else some ⟨fileSystemName fileName, stageName, stageName ++ js ".tmp"⟩

/-! Contents. -/

def isOneLine (text : JsString) : Bool :=
  text.getLast? = some 0x0A && !text.dropLast.contains 0x0A

section

variable (config : Config) (codec : Codec R)

section

variable (record : R)

def canonicalSerializedRecord : Option JsString :=
  let serialized := codec.serialize record
  let bytes := utf8Encode serialized
  if serialized.length < 2 || !isOneLine serialized || config.maxRecordBytes < bytes.length ||
      bytes != utf8Encode (utf8Decode bytes) then
    none
  else
    match (parseJson serialized).bind codec.parse with
    | some parsed => if codec.serialize parsed = serialized then some serialized else none
    | none => none

def recordOfBytes (bytes : Bytes) : Option R :=
  if bytes.length < 2 || config.maxRecordBytes < bytes.length then none
  else
    let text := utf8Decode bytes
    if bytes != utf8Encode text || !isOneLine text then none
    else
      match (parseJson text).bind codec.parse with
      | some record => if codec.serialize record = text then some record else none
      | none => none

def Store.readRecord (store : Store R) (config : Config) (codec : Codec R) (path : Path)
    (expectedLinks : ℕ) : Option R :=
  match store.lookup path with
  | none => none
  | some ino =>
      if (store.inode ino).nlink ≠ expectedLinks then none
      else recordOfBytes config codec (store.inode ino).bytes

def readRecordFile (path : Path) (expectedLinks : ℕ) : Program (Store R) (Option R) :=
  .look fun store => store.readRecord config codec path expectedLinks

def recordsEquivalent (left right : R) : Bool :=
  codec.recordId left = codec.recordId right && codec.equivalent left right

def removeExactFile (path : Path) (identity : Stat) : Program (Store R) Bool :=
  .attempt (do
    let installed ← lstatSync path
    if installed.ino ≠ identity.ino || (installed.nlink ≠ 1 && installed.nlink ≠ 2) then
      pure false
    else
      unlinkSync path
      pure true) false

/-! Recovering what an earlier writer left. -/

inductive Recovery where
  | none
  | recovered
  | conflicted
  | failed
deriving DecidableEq

def recoverTemporary (expected : R) (paths : RecordPaths) :
    Program (Store R) (Option Recovery) := do
  if !(← existsSync (.staging paths.temporary)) then pure none
  else if ← existsSync (.staging paths.stage) then pure (some .failed)
  else
    let temporaryIdentity ← lstatSync (.staging paths.temporary)
    if temporaryIdentity.nlink ≠ 1 then pure (some .failed)
    else
      match ← readRecordFile config codec (.staging paths.temporary) 1 with
      | none =>
          if ← removeExactFile (.staging paths.temporary) temporaryIdentity then
            pure (some .none)
          else
            pure (some .failed)
      | some temporaryRecord =>
          if !recordsEquivalent codec temporaryRecord expected then pure (some .conflicted)
          else
            renameSync paths.temporary paths.stage (.staged temporaryRecord)
            let installedStage ← lstatSync (.staging paths.stage)
            if installedStage.nlink ≠ 1 || installedStage.ino ≠ temporaryIdentity.ino then
              pure (some .failed)
            else
              pure none

/-- The link in `records/` is there, and the stage goes. -/
def finalizeStage (expected : R) (paths : RecordPaths)
    (stagedIdentity : Stat) : Program (Store R) Recovery := do
  let exactStage ← lstatSync (.staging paths.stage)
  let exactTarget ← lstatSync (.records paths.target)
  if exactStage.nlink ≠ 2 || exactTarget.nlink ≠ 2 || exactStage.ino ≠ stagedIdentity.ino ||
      exactStage.ino ≠ exactTarget.ino then
    pure .failed
  else if !(← removeExactFile (.staging paths.stage) exactStage) then pure .failed
  else
    match ← readRecordFile config codec (.records paths.target) 1 with
    | some recovered =>
        pure (if recordsEquivalent codec recovered expected then .recovered else .failed)
    | none => pure .failed

/-- A stage gets its link in `records/` where it has none, and goes. -/
def recoverStage (expected : R) (paths : RecordPaths) : Program (Store R) Recovery := do
  if !(← existsSync (.staging paths.stage)) then pure .none
  else if ← existsSync (.records paths.target) then
    let stagedIdentity ← lstatSync (.staging paths.stage)
    let targetIdentity ← lstatSync (.records paths.target)
    if stagedIdentity.nlink ≠ 2 || targetIdentity.nlink ≠ 2 ||
        stagedIdentity.ino ≠ targetIdentity.ino then
      pure .failed
    else
      match ← readRecordFile config codec (.staging paths.stage) 2 with
      | none => pure .failed
      | some stagedRecord =>
          if !recordsEquivalent codec stagedRecord expected then pure .conflicted
          else finalizeStage config codec expected paths stagedIdentity
  else
    let stagedIdentity ← lstatSync (.staging paths.stage)
    if stagedIdentity.nlink ≠ 1 then pure .failed
    else
      match ← readRecordFile config codec (.staging paths.stage) 1 with
      | none => pure .failed
      | some stagedRecord =>
          if !recordsEquivalent codec stagedRecord expected then pure .conflicted
          else
            match ← linkSync paths.stage paths.target (.visible stagedRecord) with
            | .linked => finalizeStage config codec expected paths stagedIdentity
            | _ => .throw

def recoverInterruptedPublication (expected : R)
    (paths : RecordPaths) : Program (Store R) Recovery :=
  .attempt (do
    match ← recoverTemporary config codec expected paths with
    | some recovery => pure recovery
    | none => recoverStage config codec expected paths) .failed

/-- The records recovered, under their ids; none where the namespace could not be brought in
order. -/
abbrev Recovered (R : Type) := Option (JsMap JsString R)

def endsWith (text suffix : JsString) : Bool :=
  suffix.isSuffixOf text

/-- The entries of `staging/` one after the other. -/
def recoverEntries (config : Config) (codec : Codec R) (recovered : JsMap JsString R) :
    List JsString → Program (Store R) (Recovered R)
  | [] => pure (some recovered)
  | entry :: entries => do
      let isTemporary := endsWith entry (js ".stage.tmp")
      let isStage := !isTemporary && endsWith entry (js ".stage")
      if !safePathComponent entry || entry.head? ≠ some 0x2E || (!isTemporary && !isStage) then
        pure none
      else
        let stat ← lstatSync (.staging entry)
        if stat.nlink ≠ 1 && stat.nlink ≠ 2 then pure none
        else
          match ← readRecordFile config codec (.staging entry) stat.nlink with
          | none =>
              if !isTemporary || stat.nlink ≠ 1 then pure none
              else if !(← removeExactFile (.staging entry) stat) then pure none
              else recoverEntries config codec recovered entries
          | some record =>
              match recordPaths codec record with
              | none => pure none
              | some paths =>
                  if entry ≠ (if isTemporary then paths.temporary else paths.stage) then pure none
                  else
                    match ← recoverInterruptedPublication config codec record paths with
                    | .recovered =>
                        recoverEntries config codec
                          (recovered.set (codec.recordId record) record) entries
                    | .none => recoverEntries config codec recovered entries
                    | _ => pure none

def recoverStagingNamespace : Program (Store R) (Recovered R) :=
  .attempt (do
    let entries ← .look fun store => store.staging.keys.mergeSort fun left right => left ≤ right
    if config.hardMaxFiles + 1 < entries.length then pure none
    else recoverEntries config codec [] entries) none

/-! Publishing. -/

/-- What the `prepublish` function of a call answers the times it is asked. -/
structure Prepublish where
  start : Bool
  recovered : Bool
  commit : Bool

/-- `!options.prepublish || options.prepublish() === true`: a true answer is noted. -/
def allowed : Option Bool → Program (Store R) Bool
  | none => pure true
  | some false => pure false
  | some true => do
      .step fun store => store.note (.checked record)
      pure true

inductive Publication where
  | published
  | exist

variable (paths : RecordPaths)

def writePrivateFileAtomically (bytes : Bytes) : Program (Store R) Unit := do
  let identity ← createExclusive paths.temporary
  writeAll identity bytes
  renameSync paths.temporary paths.stage (.staged record)

def finishPublication (stagedIdentity : Stat) : Program (Store R) Publication := do
  let linkedStage ← lstatSync (.staging paths.stage)
  let targetIdentity ← lstatSync (.records paths.target)
  if linkedStage.nlink ≠ 2 || targetIdentity.nlink ≠ 2 || stagedIdentity.ino ≠ linkedStage.ino ||
      linkedStage.ino ≠ targetIdentity.ino then
    .throw
  else if !(← removeExactFile (.staging paths.stage) linkedStage) then .throw
  else
    let published ← lstatSync (.records paths.target)
    if published.nlink ≠ 1 || targetIdentity.ino ≠ published.ino then .throw
    else pure .published

def linkStage (stagedIdentity : Stat) : Program (Store R) Publication := do
  match ← linkSync paths.stage paths.target (.visible record) with
  | .exist => do
      let _ ← removeExactFile (.staging paths.stage) stagedIdentity
      pure .exist
  | .error => do
      let _ ← removeExactFile (.staging paths.stage) stagedIdentity
      .throw
  | .linked => finishPublication paths stagedIdentity

/-- From the whole stage on.  The `finally` block removes a stage that is not linked. -/
def commitStage (prepublish : Option Bool) : Program (Store R) Publication := do
  let stagedIdentity ← lstatSync (.staging paths.stage)
  if stagedIdentity.nlink ≠ 1 then do
    let _ ← removeExactFile (.staging paths.stage) stagedIdentity
    .throw
  else if !(← allowed record prepublish) then do
    let _ ← removeExactFile (.staging paths.stage) stagedIdentity
    .throw
  else linkStage record paths stagedIdentity

def publishWithoutClobber (serialized : JsString)
    (prepublish : Option Bool) : Program (Store R) Publication := do
  writePrivateFileAtomically record paths (utf8Encode serialized)
  commitStage record paths prepublish

inductive WriteDisposition where
  | recorded
  | replayed
  | conflicted
  | invalid
  | failed
deriving DecidableEq

structure WriteCall (R : Type) where
  record : R
  prepublish : Option Prepublish
  optionsValid : Bool
  codecAvailable : Bool
  directoriesSafe : Bool
  lockAcquired : Bool

def compareExisting : Program (Store R) WriteDisposition := do
  match ← readRecordFile config codec (.records paths.target) 1 with
  | none => pure .failed
  | some existing =>
      pure (if recordsEquivalent codec existing record then .replayed else .conflicted)

def publicationDisposition : Publication → Program (Store R) WriteDisposition
  | .exist => compareExisting config codec record paths
  | .published => do
      match ← readRecordFile config codec (.records paths.target) 1 with
      | some persisted =>
          pure (if recordsEquivalent codec persisted record then .recorded else .failed)
      | none => pure .failed

def publishRecord (serialized : JsString) (prepublish : Option Prepublish) :
    Program (Store R) WriteDisposition := do
  if !(← allowed record (prepublish.map (·.recovered))) then pure .failed
  else
    publicationDisposition config codec record paths
      (← publishWithoutClobber record paths serialized (prepublish.map (·.commit)))

def writeLocked (serialized : JsString) (prepublish : Option Prepublish) :
    Program (Store R) WriteDisposition := do
  if !(← allowed record (prepublish.map (·.start))) then pure .failed
  else
    match ← recoverStagingNamespace config codec with
    | none => pure .failed
    | some recoveredRecords =>
        match recoveredRecords.get? (codec.recordId record) with
        | some recovered =>
            pure (if recordsEquivalent codec recovered record then .recorded else .conflicted)
        | none =>
            match ← recoverInterruptedPublication config codec record paths with
            | .recovered => pure .recorded
            | .conflicted => pure .conflicted
            | .failed => pure .failed
            | .none =>
                if ← existsSync (.records paths.target) then
                  compareExisting config codec record paths
                else
                  publishRecord config codec record paths serialized prepublish

end

def writeImmutablePrivateRecord (call : WriteCall R) : Program (Store R) WriteDisposition :=
  if !call.optionsValid then pure .invalid
  else if !call.codecAvailable then pure .failed
  else
    match canonicalSerializedRecord config codec call.record with
    | none => pure .invalid
    | some serialized =>
        if !call.directoriesSafe then pure .failed
        else
          match recordPaths codec call.record with
          | none => pure .invalid
          | some paths =>
              if !call.lockAcquired then pure .failed
              else
                .attempt (writeLocked config codec call.record paths serialized call.prepublish)
                  .failed

end

end AshlrHub.Records

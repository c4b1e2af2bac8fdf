import AshlrHub.Authority.LedgerCodec

namespace AshlrHub.Authority

open Js

/-! A process's verified view of the ledger file, and how it is brought up to date. -/

structure File where
  identity : ℕ
  ownedPrivate : Bool
  bytes : Bytes

structure Disk where
  ledger : Option File
  anchor : Option File
  marker : Option File

structure BrokenInfo where
  brokenAtSeq : Option ℕ
  reason : JsString
deriving DecidableEq

/-! The small records beside the ledger. -/

inductive SmallRead where
  | missing
  | invalid
  | ok (value : JsValue)

def readSmallPrivateJson (file : Option File) (maxBytes : ℕ) : SmallRead :=
  match file with
  | none => .missing
  | some file =>
      if file.ownedPrivate = false ∨ file.bytes.length > maxBytes then .invalid
      else
        match parseJson (utf8Decode file.bytes) with
        | some value => .ok value
        | none => .invalid

structure AnchorRecord where
  seq : ℕ
  hash : JsString
  at' : JsString
deriving DecidableEq

/-- `throws` is an exception: a well-shaped timestamp that names no date. -/
inductive AnchorRead where
  | missing
  | invalid
  | throws
  | ok (anchor : AnchorRecord)
deriving DecidableEq

def anchorOfMembers (members : List (JsString × JsValue)) : AnchorRead :=
  if exactKeys members [js "v", js "seq", js "hash", js "at"] = false ∨
      (getMember members (js "v")).asSafeInteger ≠ some 1 then .invalid
  else
    match int? (getMember members (js "seq")), (getMember members (js "hash")).asString with
    | some seq, some hash =>
        if sha256HexPattern hash = false then .invalid
        else
          match isIsoInstant (getMember members (js "at")),
              (getMember members (js "at")).asString with
          | none, _ => .throws
          | some true, some at' => .ok ⟨seq, hash, at'⟩
          | _, _ => .invalid
    | _, _ => .invalid

def readAnchor (file : Option File) : AnchorRead :=
  match readSmallPrivateJson file 4096 with
  | .missing => .missing
  | .invalid => .invalid
  | .ok (.obj members) => anchorOfMembers members
  | .ok _ => .invalid

def readBrokenMarker (file : Option File) : Option BrokenInfo :=
  match readSmallPrivateJson file (16 * 1024) with
  | .missing => none
  | .invalid => some ⟨none, js "the ledger was marked broken (marker unreadable)"⟩
  | .ok (.obj members) =>
      let reason :=
        match (getMember members (js "reason")).asString with
        | some reason => reason.take 300
        | none => js "the ledger was marked broken"
      some ⟨int? (getMember members (js "brokenAtSeq")), reason⟩
  | .ok _ => some ⟨none, js "the ledger was marked broken"⟩

/-! Lines of a file. -/

def splitLines : Bytes → List Bytes × Bytes
  | [] => ([], [])
  | byte :: bytes =>
      let (lines, tail) := splitLines bytes
      if byte = 0x0A then ([] :: lines, tail)
      else
        match lines with
        | [] => ([], byte :: tail)
        | line :: lines => ((byte :: line) :: lines, tail)

/-! The verified state. -/

structure ChainState where
  identity : ℕ
  /-- Bytes of complete, verified lines. -/
  verifiedBytes : ℕ
  /-- What the running prefix digest has been fed. -/
  prefixBytes : Bytes
  head : Option LedgerHead
  genesisHash : Option JsString
  /-- Hashes of the most recent entries. -/
  recent : JsMap ℕ JsString
  /-- Seqs whose hash is kept even outside `recent`. -/
  watch : List ℕ
  watched : JsMap ℕ JsString
  index : LedgerAuthorityIndex
  lastFullAt : ℤ

def freshState (identity : ℕ) (watch : List ℕ) (now : ℤ) : ChainState where
  identity := identity
  verifiedBytes := 0
  prefixBytes := []
  head := none
  genesisHash := none
  recent := []
  watch := watch
  watched := []
  index := emptyIndex
  lastFullAt := now

/-- `recent` after one more entry: only the last `recentHashes` stay. -/
def pushRecent (recent : JsMap ℕ JsString) (entry : LedgerEntry) : JsMap ℕ JsString :=
  let recent := recent.set entry.seq entry.hash
  if recentHashes < recent.length ∧ recentHashes ≤ entry.seq then
    recent.delete (entry.seq - recentHashes)
  else recent

section

variable (state : ChainState)

def noteVerified (entry : LedgerEntry) : ChainState :=
  { state with
    index := indexEntry state.index entry
    head := some entry.head
    genesisHash := if entry.seq = 0 then some entry.hash else state.genesisHash
    recent := pushRecent state.recent entry
    watched :=
      if entry.seq ∈ state.watch then state.watched.set entry.seq entry.hash
      else state.watched }

def consumeEntry (entry : LedgerEntry) (line : Bytes) : ChainState :=
  let state := noteVerified state entry
  { state with
    prefixBytes := state.prefixBytes ++ line
    verifiedBytes := state.verifiedBytes + line.length }

def nextSeq (head : Option LedgerHead) : ℕ :=
  match head with
  | none => 0
  | some head => head.seq + 1

inductive PassEnd where
  | ok
  | broken (info : BrokenInfo)
  | throws
deriving DecidableEq

def oversizedInfo (seq : ℕ) : BrokenInfo :=
  ⟨some seq, js "entry " ++ decimal seq ++ js " is larger than " ++
    decimal ledgerMaxLineBytes ++ js " bytes"⟩

/-- One line after `head`. -/
def verifyLine (sha : HashFunction) (head : Option LedgerHead) (line : Bytes) :
    Except PassEnd LedgerEntry :=
  if line.length > ledgerMaxLineBytes then .error (.broken (oversizedInfo (nextSeq head)))
  else
    match checkLine sha (utf8Decode line) (expectedAfter head) with
    | .ok entry => .ok entry
    | .error (.reason text) =>
        .error (.broken ⟨some (nextSeq head),
          js "entry " ++ decimal (nextSeq head) ++ js ": " ++ text⟩)
    | .error .throws => .error .throws

def consumeLines (sha : HashFunction) (state : ChainState) :
    List Bytes → ChainState × PassEnd
  | [] => (state, .ok)
  | line :: lines =>
      match verifyLine sha state.head line with
      | .error stop => (state, stop)
      | .ok entry => consumeLines sha (consumeEntry state entry (line ++ [0x0A])) lines

def consumeBytes (sha : HashFunction) (state : ChainState) (bytes : Bytes) :
    ChainState × PassEnd :=
  consumeLines sha state (splitLines bytes).1

/-- The verified hash of `seq`, when this state still knows it. -/
def knownHash (seq : ℕ) : Option JsString :=
  match state.recent.get? seq with
  | some hash => some hash
  | none => state.watched.get? seq

/-! A process's view, and the synchronisation. -/

structure HighWater where
  seq : ℕ
  hash : JsString
  genesisHash : Option JsString

structure LedgerProcess where
  chain : Option ChainState
  highWater : Option HighWater

def freshProcess : LedgerProcess := ⟨none, none⟩

inductive LedgerReadMode where
  | cached
  | prefixed
  | full
deriving DecidableEq

structure SyncResult where
  process : LedgerProcess
  state : Option ChainState
  broken : Option BrokenInfo

def fullReverifyIntervalMs : ℤ := 60 * 60 * 1000

def anchorFault (anchor : AnchorRead) : Option BrokenInfo :=
  match anchor with
  | .missing => none
  | .invalid | .throws => some ⟨none, js "the ledger anchor is unreadable"⟩
  | .ok anchor =>
      if nextSeq state.head ≤ anchor.seq then
        some ⟨some (nextSeq state.head),
          js "the ledger is shorter than its anchor (anchor at entry " ++
            decimal anchor.seq ++ js ")"⟩
      else
        match knownHash state anchor.seq with
        | none => some ⟨some anchor.seq, js "could not confirm anchor entry " ++ decimal anchor.seq⟩
        | some hash =>
            if hash = anchor.hash then none
            else
              some ⟨some anchor.seq,
                js "entry " ++ decimal anchor.seq ++ js " disagrees with the anchor"⟩

def highWaterFault (head : LedgerHead) (mark : HighWater) : Option BrokenInfo :=
  -- a chain replaced by a signed recovery legitimately restarts at seq 0
  if mark.genesisHash ≠ state.genesisHash ∧ state.index.recovered.isSome then none
  else if head.seq < mark.seq then
    some ⟨some (head.seq + 1),
      js "the ledger got shorter (this process saw entry " ++ decimal mark.seq ++ js ")"⟩
  else
    match knownHash state mark.seq with
    | none => none
    | some hash =>
        if hash = mark.hash then none
        else some ⟨some mark.seq, js "entry " ++ decimal mark.seq ++ js " was rewritten"⟩

def raiseHighWater (head : LedgerHead) (mark : Option HighWater) : HighWater :=
  let reached : HighWater := ⟨head.seq, head.hash, state.genesisHash⟩
  match mark with
  | none => reached
  | some mark =>
      if mark.seq ≤ head.seq ∨ state.genesisHash ≠ mark.genesisHash then reached else mark

def watchList (anchor : AnchorRead) (mark : Option HighWater) : List ℕ :=
  (match anchor with
    | .ok anchor => [anchor.seq]
    | _ => []) ++
  match mark with
  | some mark => [mark.seq]
  | none => []

def addWatch (watch : List ℕ) : ChainState :=
  { state with watch := watch.foldl (fun seqs seq => addToSet seq seqs) state.watch }

def unconfirmable (watch : List ℕ) : Bool :=
  watch.any fun seq => seq < nextSeq state.head && (knownHash state seq).isNone

end

def needsFull (mode : LedgerReadMode) (state : ChainState) (file : File) (watch : List ℕ)
    (now : ℤ) : Bool :=
  mode = .full || state.identity ≠ file.identity ||
    file.bytes.length < state.verifiedBytes ||
    now - state.lastFullAt > fullReverifyIntervalMs || unconfirmable state watch

def syncState (disk : Disk) (process : LedgerProcess)
    (anchor : AnchorRead) (state : ChainState) (stop : PassEnd) : SyncResult :=
  let process := { process with chain := some state }
  match stop with
  | .throws => ⟨process, some state, some ⟨none, js "the ledger could not be read (error)"⟩⟩
  | .broken info => ⟨process, some state, some info⟩
  | .ok =>
      match readBrokenMarker disk.marker with
      | some marker => ⟨process, some state, some marker⟩
      | none =>
          match anchorFault state anchor with
          | some info => ⟨process, some state, some info⟩
          | none =>
              match state.head with
              | none => ⟨process, some state, none⟩
              | some head =>
                  match process.highWater.bind (highWaterFault state head) with
                  | some info => ⟨process, some state, some info⟩
                  | none =>
                      ⟨{ process with
                          highWater := some (raiseHighWater state head process.highWater) },
                        some state, none⟩

def syncChain (sha : HashFunction) (disk : Disk) (mode : LedgerReadMode) (now : ℤ)
    (process : LedgerProcess) : SyncResult :=
  let marker := readBrokenMarker disk.marker
  match readAnchor disk.anchor with
  | .throws => ⟨process, process.chain, some ⟨none, js "the ledger could not be read (error)"⟩⟩
  | anchor =>
  match disk.ledger with
  | none =>
      let process := { process with chain := none }
      match anchor with
      | .ok anchor =>
          ⟨process, none, some (marker.getD ⟨some 0,
            js "the ledger is missing but its anchor records entry " ++ decimal anchor.seq⟩)⟩
      | .invalid => ⟨process, none, some ⟨none, js "the ledger anchor is unreadable"⟩⟩
      | _ =>
          match process.highWater with
          | some mark =>
              ⟨process, none, some ⟨some 0,
                js "the ledger disappeared after this process saw entry " ++ decimal mark.seq⟩⟩
          | none => ⟨process, none, marker⟩
  | some file =>
      if file.ownedPrivate = false then
        ⟨process, process.chain, some ⟨none,
          js "the ledger file is not a private regular file owned by this user"⟩⟩
      else if file.bytes.length > ledgerMaxBytes then
        ⟨process, process.chain, some ⟨none, js "the ledger is larger than the supported maximum"⟩⟩
      else
        let watch := watchList anchor process.highWater
        match process.chain.filter fun state => !needsFull mode state file watch now with
        | none =>
            -- a pass that throws leaves the process with the view it had
            let (state, stop) := consumeBytes sha (freshState file.identity watch now) file.bytes
            match stop with
            | .throws =>
                ⟨process, process.chain, some ⟨none, js "the ledger could not be read (error)"⟩⟩
            | stop => syncState disk process anchor state stop
        | some state =>
            if mode = .prefixed ∧ 0 < state.verifiedBytes ∧
                sha.digest (file.bytes.take state.verifiedBytes) ≠ sha.digest state.prefixBytes then
              ⟨process, some state, some ⟨none,
                js "entries this process already verified were changed in place"⟩⟩
            else
              let state := addWatch state watch
              let (state, stop) := consumeBytes sha state (file.bytes.drop state.verifiedBytes)
              syncState disk process anchor state stop

/-! The two verifiers of the ledger: the snapshot of a process, and the chunked
reader that returns entries. -/

inductive ChainVerdict where
  | ok
  | empty
  | broken
deriving DecidableEq

structure LedgerSnapshot where
  chain : ChainVerdict
  head : Option LedgerHead
  brokenAtSeq : Option ℕ
  reason : Option JsString
  index : LedgerAuthorityIndex
  genesisHash : Option JsString

def snapshotOf (state : Option ChainState) (broken : Option BrokenInfo) : LedgerSnapshot :=
  let index := (state.map ChainState.index).getD emptyIndex
  match broken with
  | some info =>
      ⟨.broken, state.bind ChainState.head, info.brokenAtSeq, some info.reason, index,
        state.bind ChainState.genesisHash⟩
  | none =>
      match state.bind ChainState.head with
      | none => ⟨.empty, none, none, none, index, none⟩
      | some head => ⟨.ok, some head, none, none, index, state.bind ChainState.genesisHash⟩

def ledgerSnapshot (sha : HashFunction) (disk : Disk) (mode : LedgerReadMode) (now : ℤ)
    (process : LedgerProcess) : LedgerSnapshot :=
  let synced := syncChain sha disk mode now process
  snapshotOf synced.state synced.broken

/-! `readLedger`. -/

structure LedgerReadOptions where
  sinceSeq : Option ℕ
  sinceAt : Option JsString
  kinds : Option (List LedgerEventKind)
  repo : Option (Option JsString)
  grantId : Option (Option JsString)
  limit : Option ℕ

def entryMatches (entry : LedgerEntry) (opts : LedgerReadOptions) : Bool :=
  (opts.sinceSeq.all fun seq => seq ≤ entry.seq) &&
    (opts.sinceAt.all fun since => since ≤ entry.at') &&
    (opts.kinds.all fun kinds => entry.kind ∈ kinds) &&
    (opts.repo.all fun repo => entry.repo = repo) &&
    opts.grantId.all fun grantId => entry.grantId = grantId

def pushEntry (opts : LedgerReadOptions) (out : List LedgerEntry) (entry : LedgerEntry) :
    List LedgerEntry :=
  if entryMatches entry opts then
    let out := out ++ [entry]
    match opts.limit with
    | some limit => if limit < out.length then out.drop 1 else out
    | none => out
  else out

structure ReadState where
  head : Option LedgerHead
  recent : JsMap ℕ JsString
  out : List LedgerEntry

def ReadState.push (state : ReadState) (opts : LedgerReadOptions) (entry : LedgerEntry) :
    ReadState :=
  ⟨some entry.head, pushRecent state.recent entry, pushEntry opts state.out entry⟩

def readLines (sha : HashFunction) (opts : LedgerReadOptions) (state : ReadState) :
    List Bytes → ReadState × PassEnd
  | [] => (state, .ok)
  | line :: lines =>
      match verifyLine sha state.head line with
      | .error stop => (state, stop)
      | .ok entry => readLines sha opts (state.push opts entry) lines

def chunkSize : ℕ := 256 * 1024

def readChunks (sha : HashFunction) (opts : LedgerReadOptions) (state : ReadState)
    (carry rest : Bytes) : ReadState × PassEnd :=
  if _ : rest = [] then (state, .ok)
  else
    let split := splitLines (carry ++ rest.take chunkSize)
    match readLines sha opts state split.1 with
    | (state, .ok) =>
        if split.2.length > ledgerMaxLineBytes + 1 then
          (state, .broken ⟨some (nextSeq state.head), js "unterminated oversized entry"⟩)
        else readChunks sha opts state split.2 (rest.drop chunkSize)
    | stopped => stopped
termination_by rest.length
decreasing_by
  have := List.length_pos_of_ne_nil ‹¬rest = []›
  simp only [List.length_drop, chunkSize]
  omega

structure LedgerReadResult where
  entries : List LedgerEntry
  head : Option LedgerHead
  chain : ChainVerdict
  brokenAtSeq : Option ℕ
  reason : Option JsString

def brokenRead (state : ReadState) (info : BrokenInfo) : LedgerReadResult :=
  ⟨state.out, state.head, .broken, info.brokenAtSeq, some info.reason⟩

def emptyRead : ReadState := ⟨none, [], []⟩

def readAnchorFault (state : ReadState) (anchor : AnchorRecord) : Option BrokenInfo :=
  if nextSeq state.head ≤ anchor.seq then
    some ⟨some (nextSeq state.head),
      js "the ledger is shorter than its anchor (anchor at entry " ++ decimal anchor.seq ++ js ")"⟩
  else
    match state.recent.get? anchor.seq with
    | none => none
    | some hash =>
        if hash = anchor.hash then none
        else
          some ⟨some anchor.seq,
            js "entry " ++ decimal anchor.seq ++ js " disagrees with the anchor"⟩

def finishRead (disk : Disk) (state : ReadState) : Option LedgerReadResult :=
  let verdict := if state.head.isSome then ChainVerdict.ok else .empty
  match readAnchor disk.anchor with
  | .throws => none
  | .invalid => some (brokenRead state ⟨none, js "the ledger anchor is unreadable"⟩)
  | .missing => some ⟨state.out, state.head, verdict, none, none⟩
  | .ok anchor =>
      match readAnchorFault state anchor with
      | some info => some (brokenRead state info)
      | none => some ⟨state.out, state.head, verdict, none, none⟩

def readLedger (sha : HashFunction) (disk : Disk) (opts : LedgerReadOptions) :
    Option LedgerReadResult :=
  let marker := readBrokenMarker disk.marker
  match disk.ledger with
  | none =>
      match readAnchor disk.anchor with
      | .throws => none
      | .ok anchor =>
          some (brokenRead emptyRead ⟨some 0,
            js "the ledger is missing but its anchor records entry " ++ decimal anchor.seq⟩)
      | _ =>
          match marker with
          | some info => some (brokenRead emptyRead info)
          | none => some ⟨[], none, .empty, none, none⟩
  | some file =>
      if file.ownedPrivate = false then
        some (brokenRead emptyRead ⟨none,
          js "the ledger file is not a private regular file owned by this user"⟩)
      else
        match readChunks sha opts emptyRead [] file.bytes with
        | (_, .throws) => none
        | (state, .broken info) => some (brokenRead state info)
        | (state, .ok) =>
            match marker with
            | some info => some (brokenRead state info)
            | none => finishRead disk state

end AshlrHub.Authority

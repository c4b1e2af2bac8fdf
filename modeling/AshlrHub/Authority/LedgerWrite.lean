import AshlrHub.Authority.LedgerPass

namespace AshlrHub.Authority

open Js

/-! Appending to the ledger: one entry, and a transaction of appends. -/

/-- The parts of a row that its writer chooses. -/
structure LedgerAppendInput where
  kind : LedgerEventKind
  actor : FleetActor
  grantId : Option JsString
  repo : Option JsString
  data : List (JsString × JsValue)
  distinct : distinctKeys (.obj data) = true

def validateInput (input : LedgerAppendInput) : Option JsString :=
  if input.kind = .ledgerGenesis ∨ input.kind = .ledgerRecovered then
    some (JsEnum.text input.kind ++ js " rows are written by the ledger itself")
  else if (input.grantId.all grantIdPattern) = false then
    some (js "grantId must be 32 lowercase hex or null")
  else if (input.repo.all nameWithOwnerPattern) = false then
    some (js "repo must be a GitHub owner/name or null")
  else none

/-- The time of a new row: never before the previous row's. -/
def nowIso (floor : Option JsString) (now : ℤ) : Option JsString :=
  match toISOString now, floor with
  | none, _ => none
  | some text, none => some text
  | some text, some floor => some (if text < floor then floor else text)

/-- The entry a writer forms after `head`, and the text of its line; none where
`canonicalJson` or `toISOString` throws. -/
def formEntry (sha : HashFunction) (head : Option LedgerHead) (now : ℤ)
    (input : LedgerAppendInput) : Option (LedgerEntry × JsString) := do
  let at' ← nowIso (head.map LedgerHead.at') now
  let prevHash := (head.map LedgerHead.hash).getD ledgerGenesisPrevHash
  let base : LedgerEntry :=
    ⟨nextSeq head, at', input.actor, input.grantId, input.repo, prevHash, input.kind,
      input.data, []⟩
  -- a round trip through JSON, so that fields without a value vanish
  let normalized ← (← parseJson (← (canonicalJson (.obj base.baseMembers)).toOption)).asRecord
  let covered ← (canonicalJson (.obj normalized)).toOption
  let hash := sha.digest (utf8Encode (ledgerHashDomain ++ covered))
  let line ← (canonicalJson (.obj (normalized ++ [(js "hash", .str hash)]))).toOption
  let data ← (getMember normalized (js "data")).asRecord
  return ({ base with data := data, hash := hash }, line)

inductive WriteFate where
  | done
  | beforeWrite
  /-- The file is open, its torn tail is gone, and this many bytes of the line are in it. -/
  | torn (count : ℕ)
  /-- The row is on disk and the anchor is still the old one. -/
  | beforeAnchor
  /-- The anchor is replaced, and what follows fails. -/
  | afterAnchor
deriving DecidableEq

structure WriteStep where
  now : ℤ
  /-- The identity that a newly created file gets. -/
  identity : ℕ
  fate : WriteFate

structure WriteResult where
  disk : Disk
  process : LedgerProcess
  state : ChainState
  entry : Option LedgerEntry

def anchorText (entry : LedgerEntry) : JsString :=
  writeValue (normalize (.obj [(js "v", jsInt 1), (js "seq", jsInt entry.seq),
    (js "hash", .str entry.hash), (js "at", .str entry.at')])) ++ js "\n"

def openLedger (disk : Disk) (state : ChainState) (identity : ℕ) :
    Option (File × ChainState) :=
  match disk.ledger with
  | none =>
      if state.verifiedBytes = 0 then
        some (⟨identity, true, []⟩, { state with identity := identity })
      else none
  | some file =>
      if file.identity = state.identity ∧ file.ownedPrivate = true then some (file, state)
      else none

def writeEntry (sha : HashFunction) (disk : Disk) (process : LedgerProcess)
    (state : ChainState) (step : WriteStep) (input : LedgerAppendInput) : WriteResult :=
  match formEntry sha state.head step.now input with
  | none => ⟨disk, process, state, none⟩
  | some (entry, text) =>
      let line := utf8Encode text
      let bytes := line ++ [0x0A]
      if line.length > ledgerMaxLineBytes ∨
          state.verifiedBytes + bytes.length > ledgerMaxBytes ∨ step.fate = .beforeWrite then
        ⟨disk, process, state, none⟩
      else
        match openLedger disk state step.identity with
        | none => ⟨disk, process, state, none⟩
        | some (file, state) =>
            -- a torn tail was never acknowledged
            let kept := file.bytes.take state.verifiedBytes
            match step.fate with
            | .torn count =>
                ⟨{ disk with ledger := some { file with bytes := kept ++ bytes.take count } },
                  process, state, none⟩
            | fate =>
                let disk := { disk with ledger := some { file with bytes := kept ++ bytes } }
                let state := consumeEntry state entry bytes
                let process : LedgerProcess :=
                  ⟨some state, some ⟨entry.seq, entry.hash, state.genesisHash⟩⟩
                let anchored :=
                  { disk with
                    anchor := some ⟨step.identity, true, utf8Encode (anchorText entry)⟩ }
                match fate with
                | .beforeAnchor => ⟨disk, process, state, none⟩
                | .afterAnchor => ⟨anchored, process, state, none⟩
                | _ => ⟨anchored, process, state, some entry⟩

/-! Transactions. -/

/-- What the surroundings decide about the marker of a broken chain. -/
structure MarkStep where
  detectedAt : ℤ
  pid : ℕ
  identity : ℕ
  written : Bool

def headValue : Option LedgerHead → JsValue
  | none => .null
  | some head =>
      .obj [(js "seq", jsInt head.seq), (js "hash", .str head.hash), (js "at", .str head.at')]

def seqValue : Option ℕ → JsValue
  | none => .null
  | some seq => jsInt seq

def markBroken (disk : Disk) (broken : BrokenInfo) (head : Option LedgerHead)
    (step : MarkStep) : Disk :=
  if (readBrokenMarker disk.marker).isSome ∨ step.written = false then disk
  else
    match (toISOString step.detectedAt).bind fun detectedAt =>
        (canonicalJson (.obj [(js "v", jsInt 1), (js "detectedAt", .str detectedAt),
          (js "brokenAtSeq", seqValue broken.brokenAtSeq), (js "reason", .str broken.reason),
          (js "lastIntactHead", headValue head), (js "pid", jsInt step.pid)])).toOption with
    | some text => { disk with marker := some ⟨step.identity, true, utf8Encode (text ++ js "\n")⟩ }
    | none => disk

structure LedgerTransaction where
  disk : Disk
  process : LedgerProcess
  snapshot : LedgerSnapshot
  state : Option ChainState

def markSynced (disk : Disk) (synced : SyncResult) (mark : MarkStep) : Disk :=
  match synced.broken with
  | some broken => markBroken disk broken (synced.state.bind ChainState.head) mark
  | none => disk

def beginTransaction (sha : HashFunction) (disk : Disk) (now : ℤ) (mark : MarkStep)
    (process : LedgerProcess) : LedgerTransaction :=
  let synced := syncChain sha disk .cached now process
  ⟨markSynced disk synced mark, synced.process, snapshotOf synced.state synced.broken, synced.state⟩

def genesisInput (hostBinding : Option JsString) (actor : FleetActor) :
    LedgerAppendInput where
  kind := .ledgerGenesis
  actor := actor
  grantId := none
  repo := none
  data := [(js "hostBinding", nullable hostBinding)]
  distinct := by
    cases hostBinding <;> rfl

structure AppendStep where
  hostBinding : Option JsString
  createdAt : ℤ
  genesis : WriteStep
  row : WriteStep

def LedgerTransaction.wrote (tx : LedgerTransaction) (result : WriteResult) :
    LedgerTransaction :=
  { tx with disk := result.disk, process := result.process, state := some result.state }

def LedgerTransaction.appendRow (sha : HashFunction) (tx : LedgerTransaction)
    (state : ChainState) (step : WriteStep) (input : LedgerAppendInput) :
    LedgerTransaction × Option LedgerEntry :=
  let result := writeEntry sha tx.disk tx.process state step input
  match result.entry with
  | none => (tx.wrote result, none)
  | some entry =>
      ({ tx.wrote result with snapshot := snapshotOf (some result.state) none }, some entry)

def LedgerTransaction.appendFirst (sha : HashFunction) (tx : LedgerTransaction)
    (state : ChainState) (step : AppendStep) (input : LedgerAppendInput) :
    LedgerTransaction × Option LedgerEntry :=
  let genesis := writeEntry sha tx.disk tx.process state step.genesis
    (genesisInput step.hostBinding .daemon)
  match genesis.entry with
  | none => (tx.wrote genesis, none)
  | some _ => (tx.wrote genesis).appendRow sha genesis.state step.row input

def LedgerTransaction.append (sha : HashFunction) (tx : LedgerTransaction)
    (step : AppendStep) (input : LedgerAppendInput) :
    LedgerTransaction × Option LedgerEntry :=
  if (validateInput input).isSome ∨ tx.snapshot.chain = .broken then (tx, none)
  else
    match tx.state with
    | none =>
        if tx.disk.ledger.isSome then (tx, none)
        else tx.appendFirst sha (freshState 0 [] step.createdAt) step input
    | some state =>
        match state.head with
        | none => tx.appendFirst sha state step input
        | some _ => tx.appendRow sha state step.row input

def LedgerTransaction.appendAll (sha : HashFunction) (tx : LedgerTransaction) :
    List (AppendStep × LedgerAppendInput) → LedgerTransaction × List LedgerEntry
  | [] => (tx, [])
  | (step, input) :: appends =>
      match tx.append sha step input with
      | (tx, none) => (tx, [])
      | (tx, some entry) =>
          let rest := tx.appendAll sha appends
          (rest.1, entry :: rest.2)

/-! What a writer forms. -/

theorem baseMembers_keys (entry : LedgerEntry) :
    entry.baseMembers.map Prod.fst = [js "v", js "seq", js "at", js "actor", js "grantId",
      js "repo", js "prevHash", js "kind", js "data"] := rfl

theorem baseMembers_nodup (entry : LedgerEntry) : (entry.baseMembers.map Prod.fst).Nodup := by
  rw [baseMembers_keys]
  decide +kernel

theorem membersDistinct_base (entry : LedgerEntry) :
    membersDistinct entry.baseMembers = distinctKeys (.obj entry.data) := by
  have nullable : ∀ text, distinctKeys (nullable text) = true := by
    intro text
    cases text <;> rfl
  simp only [LedgerEntry.baseMembers, membersDistinct, nullable, distinctKeys, jsInt,
    Bool.true_and, Bool.and_true]

variable {entry : LedgerEntry}

theorem normalizeMembers_base {data : List (JsString × JsValue)}
    (normal : normalize (.obj entry.data) = .obj data) :
    normalizeMembers entry.baseMembers = { entry with data := data }.baseMembers := by
  have member (key : JsString) (value : JsValue) (members : List (JsString × JsValue))
      (defined : value ≠ .undefined) (same : normalize value = value) :
      normalizeMembers ((key, value) :: members) = (key, value) :: normalizeMembers members := by
    rw [normalizeMembers_cons defined, same]
  have null (text : Option JsString) : nullable text ≠ .undefined := by
    cases text <;> simp [nullable]
  simp only [LedgerEntry.baseMembers]
  rw [member _ _ _ (by simp [jsInt]) rfl, member _ _ _ (by simp [jsInt]) rfl,
    member _ _ _ (by simp) rfl, member _ _ _ (by simp) rfl,
    member _ _ _ (null _) (normalize_nullable _), member _ _ _ (null _) (normalize_nullable _),
    member _ _ _ (by simp) rfl, member _ _ _ (by simp) rfl,
    normalizeMembers_cons (by simp), normal]
  rfl

theorem withoutMember_hash (entry : LedgerEntry) :
    withoutMember entry.members (js "hash") = entry.baseMembers := by
  rw [LedgerEntry.members, withoutMember, List.filter_append]
  have kept : entry.baseMembers.filter (fun member => member.1 ≠ js "hash") =
      entry.baseMembers := by
    rw [List.filter_eq_self]
    intro member present
    have key : member.1 ∈ entry.baseMembers.map Prod.fst := List.mem_map_of_mem present
    rw [baseMembers_keys] at key
    have others : ∀ key ∈ [js "v", js "seq", js "at", js "actor", js "grantId", js "repo",
        js "prevHash", js "kind", js "data"], key ≠ js "hash" := by decide +kernel
    exact decide_eq_true (others _ key)
  rw [kept]
  exact List.append_nil _

theorem data_mem_base (entry : LedgerEntry) :
    (js "data", JsValue.obj entry.data) ∈ entry.baseMembers := by
  simp [LedgerEntry.baseMembers]

variable {now : ℤ} {text : JsString}

/-- What `nowIso` gives is a timestamp, and not before the floor. -/
theorem nowIso_spec {floor : Option JsString} (plain : plainYear now = true)
    (instants : ∀ least ∈ floor, isIsoInstant (.str least) = some true)
    (formed : nowIso floor now = some text) :
    isIsoInstant (.str text) = some true ∧ ∀ least ∈ floor, least ≤ text := by
  unfold nowIso at formed
  split at formed
  · cases formed
  · rename_i formatted
    cases formed
    exact ⟨isIsoInstant_toISOString plain formatted, by simp⟩
  · rename_i read floor formatted
    cases formed
    split_ifs with early
    · exact ⟨instants floor rfl, by simp⟩
    · refine ⟨isIsoInstant_toISOString plain formatted, ?_⟩
      intro least same
      cases same
      exact List.not_lt.mp early

/-- What may be appended after `head`. -/
structure Appendable (head : Option LedgerHead) (now : ℤ) (input : LedgerAppendInput) : Prop where
  plain : plainYear now = true
  seq_safe : (nextSeq head : ℤ) ≤ JsNumber.maxSafeInteger
  instant : ∀ last ∈ head, isIsoInstant (.str last.at') = some true
  grantId : input.grantId.all grantIdPattern = true
  repo : input.repo.all nameWithOwnerPattern = true
  genesis : head = none → input.kind = .ledgerGenesis

theorem eq_ok_of_toOption {x : Except ε α} {a : α} (got : x.toOption = some a) : x = .ok a := by
  cases x with
  | error e => cases got
  | ok b => exact congrArg Except.ok (Option.some.inj got)

theorem expectedAfter_prevHash (head : Option LedgerHead) :
    (expectedAfter head).prevHash = (head.map LedgerHead.hash).getD ledgerGenesisPrevHash := by
  cases head <;> rfl

theorem expectedAfter_minAt (head : Option LedgerHead) :
    (expectedAfter head).minAt = head.map LedgerHead.at' := by
  cases head <;> rfl

structure FormedEntry (sha : HashFunction) (head : Option LedgerHead)
    (input : LedgerAppendInput) (entry : LedgerEntry) : Prop where
  wellFormed : entry.WellFormed sha
  follows : entry.Follows (expectedAfter head)
  kind : entry.kind = input.kind
  grantId : entry.grantId = input.grantId
  repo : entry.repo = input.repo
  data : normalize (.obj input.data) = .obj entry.data

structure FormSteps (sha : HashFunction) (head : Option LedgerHead) (now : ℤ)
    (input : LedgerAppendInput) (entry : LedgerEntry) (text : JsString) : Prop where
  instant : nowIso (head.map LedgerHead.at') now = some entry.at'
  seq : entry.seq = nextSeq head
  actor : entry.actor = input.actor
  grantId : entry.grantId = input.grantId
  repo : entry.repo = input.repo
  prevHash : entry.prevHash = (head.map LedgerHead.hash).getD ledgerGenesisPrevHash
  kind : entry.kind = input.kind
  finite : allFinite (.obj input.data) = true
  data : normalize (.obj input.data) = .obj entry.data
  hash : ledgerEntryHash sha entry.members = some entry.hash
  line : canonicalJson (.obj (sortByKey entry.baseMembers ++ [(js "hash", .str entry.hash)])) =
    .ok text

variable {input : LedgerAppendInput}

theorem formEntry_steps {sha : HashFunction} {head : Option LedgerHead}
    (formed : formEntry sha head now input = some (entry, text)) :
    FormSteps sha head now input entry text := by
  unfold formEntry at formed
  simp only [Option.bind_eq_bind, Option.bind_eq_some_iff] at formed
  obtain ⟨at', timed, first, canonical, parsed, parses, normalized, record, covered, covers,
    line, lines, data, dataOf, same⟩ := formed
  obtain ⟨draft, drafted⟩ : ∃ draft : LedgerEntry, draft = ⟨nextSeq head, at', input.actor,
    input.grantId, input.repo, (head.map LedgerHead.hash).getD ledgerGenesisPrevHash,
    input.kind, input.data, []⟩ := ⟨_, rfl⟩
  rw [← drafted] at canonical
  have draftData : draft.data = input.data := by rw [drafted]
  have canonical := eq_ok_of_toOption canonical
  have distinct : distinctKeys (.obj draft.baseMembers) = true := by
    rw [distinctKeys, membersDistinct_base, draftData, input.distinct]
    simpa using baseMembers_nodup draft
  have finite := (canonicalJson_eq_ok.mp canonical).1
  have dataFinite : allFinite (.obj input.data) = true := by
    rw [allFinite, membersFinite_iff] at finite
    rw [← draftData]
    exact finite _ (data_mem_base draft)
  obtain ⟨normalData, normal⟩ : ∃ data, normalize (.obj input.data) = .obj data :=
    ⟨_, by rw [normalize]⟩
  obtain ⟨read, -, again⟩ := parseJson_canonicalJson distinct canonical
  -- what comes back is the base members in key order, with normal data
  have base : normalize (.obj draft.baseMembers) =
      .obj (sortByKey { draft with data := normalData }.baseMembers) := by
    rw [normalize, normalizeMembers_base (draftData ▸ normal)]
  rw [base] at read again
  obtain rfl : JsValue.obj (sortByKey { draft with data := normalData }.baseMembers) = parsed :=
    Option.some.inj (read.symm.trans parses)
  have record : sortByKey { draft with data := normalData }.baseMembers = normalized := by
    simpa [JsValue.asRecord] using record
  rw [← record] at covers lines dataOf
  have keys := baseMembers_nodup { draft with data := normalData }
  have sameData : normalData = data := by
    rw [getMember_of_mem (nodup_sortByKey.mpr keys)
      (mem_sortByKey.mpr (data_mem_base { draft with data := normalData }))] at dataOf
    simpa [JsValue.asRecord] using dataOf
  obtain ⟨formedEntry, formedText⟩ := Prod.mk.inj (Option.some.inj same)
  have final : entry = { draft with
      data := normalData, hash := sha.digest (utf8Encode (ledgerHashDomain ++ covered)) } := by
    rw [← formedEntry, drafted, sameData]
  have baseOf : entry.baseMembers = { draft with data := normalData }.baseMembers := by
    rw [final]
    rfl
  rw [← baseOf] at covers lines keys
  have hashed : ledgerEntryHash sha entry.members = some entry.hash := by
    rw [ledgerEntryHash, withoutMember_hash, canonicalJson_perm (perm_sortByKey _).symm keys,
      eq_ok_of_toOption covers, final]
  have written := eq_ok_of_toOption lines
  rw [show sha.digest (utf8Encode (ledgerHashDomain ++ covered)) = entry.hash by rw [final],
    formedText] at written
  rw [drafted] at final
  exact
    { instant := by rw [final]; exact timed
      seq := by rw [final]
      actor := by rw [final]
      grantId := by rw [final]
      repo := by rw [final]
      prevHash := by rw [final]
      kind := by rw [final]
      finite := dataFinite
      data := by rw [final]; exact normal
      hash := hashed
      line := written }

theorem formEntry_spec {sha : HashFunction} {head : Option LedgerHead}
    (appendable : Appendable head now input)
    (formed : formEntry sha head now input = some (entry, text)) :
    FormedEntry sha head input entry ∧ text = entryText entry := by
  have steps := formEntry_steps formed
  obtain ⟨instant, later⟩ := nowIso_spec appendable.plain (by
    intro least floor
    obtain ⟨last, present, rfl⟩ := Option.map_eq_some_iff.mp floor
    exact appendable.instant last present) steps.instant
  have wellFormed : entry.WellFormed sha :=
    { seq_safe := by
        rw [steps.seq]
        exact appendable.seq_safe
      instant := instant
      grantId := by
        rw [steps.grantId]
        simpa [Option.all_eq_true] using appendable.grantId
      repo := by
        rw [steps.repo]
        simpa [Option.all_eq_true] using appendable.repo
      data_json := by
        rw [← steps.data]
        exact isJson_normalize _ steps.finite input.distinct (by simp)
      data_normal := by
        rw [← steps.data]
        exact normalize_normalize _
      hash := steps.hash }
  have follows : entry.Follows (expectedAfter head) :=
    { seq := by rw [steps.seq, expectedAfter_seq]
      prevHash := by rw [steps.prevHash, expectedAfter_prevHash]
      instant := by
        rw [expectedAfter_minAt]
        exact later
      genesis := by
        intro first
        cases head with
        | none =>
            rw [steps.kind]
            exact appendable.genesis rfl
        | some head => cases first }
  refine ⟨⟨wellFormed, follows, steps.kind, steps.grantId, steps.repo, steps.data⟩, ?_⟩
  -- the hash member comes last, and the canonical text sorts it in
  have members : (sortByKey entry.baseMembers ++ [(js "hash", JsValue.str entry.hash)]).Perm
      entry.members := (perm_sortByKey entry.baseMembers).append_right _
  have text := steps.line
  rw [canonicalJson_perm members, canonicalJson_of_isJson (entry_isJson wellFormed)] at text
  · exact (Except.ok.inj text).symm
  · rw [(members.map Prod.fst).nodup_iff]
    exact entry_keys_nodup entry

theorem nowIso_some (floor : Option JsString) (time : isTime now = true) :
    ∃ text, nowIso floor now = some text := by
  unfold nowIso toISOString
  rw [if_pos time]
  cases floor with
  | none => exact ⟨_, rfl⟩
  | some floor => exact ⟨_, rfl⟩

theorem allFinite_nullable (text : Option JsString) : allFinite (nullable text) = true := by
  cases text <;> rfl

theorem allFinite_jsInt {n : ℤ} (bound : |n| ≤ JsNumber.maxSafeInteger) :
    allFinite (jsInt n) = true :=
  (allFinite_of_isJson _ (isJson_jsInt bound)).1

theorem membersFinite_base (seq : (entry.seq : ℤ) ≤ JsNumber.maxSafeInteger)
    (finite : allFinite (.obj entry.data) = true) : membersFinite entry.baseMembers = true := by
  have one : allFinite (jsInt 1) = true := allFinite_jsInt (by decide)
  have seq : allFinite (jsInt entry.seq) = true := allFinite_jsInt (by
    rw [abs_of_nonneg (by omega)]
    exact seq)
  have text : ∀ text, allFinite (.str text) = true := fun _ => rfl
  simp only [LedgerEntry.baseMembers, membersFinite, one, seq, text, allFinite_nullable, finite,
    Bool.and_self]

theorem formEntry_some (sha : HashFunction) (head : Option LedgerHead) (time : isTime now = true)
    (seq : (nextSeq head : ℤ) ≤ JsNumber.maxSafeInteger)
    (finite : allFinite (.obj input.data) = true) :
    ∃ entry text, formEntry sha head now input = some (entry, text) := by
  obtain ⟨at', timed⟩ := nowIso_some (head.map LedgerHead.at') time
  obtain ⟨draft, drafted⟩ : ∃ draft : LedgerEntry, draft = ⟨nextSeq head, at', input.actor,
    input.grantId, input.repo, (head.map LedgerHead.hash).getD ledgerGenesisPrevHash,
    input.kind, input.data, []⟩ := ⟨_, rfl⟩
  have baseFinite : membersFinite draft.baseMembers = true :=
    membersFinite_base (by rw [drafted]; exact seq) (by rw [drafted]; exact finite)
  have distinct : distinctKeys (.obj draft.baseMembers) = true := by
    rw [distinctKeys, membersDistinct_base, drafted]
    simpa [input.distinct] using baseMembers_nodup _
  have canonical : canonicalJson (.obj draft.baseMembers) =
      .ok (writeValue (normalize (.obj draft.baseMembers))) :=
    canonicalJson_eq_ok.mpr ⟨baseFinite, by simp, rfl⟩
  obtain ⟨read, json, -⟩ := parseJson_canonicalJson distinct canonical
  obtain ⟨normalData, normal⟩ : ∃ data, normalize (.obj draft.data) = .obj data :=
    ⟨_, by rw [normalize]⟩
  rw [normalize, normalizeMembers_base normal] at read json
  have covers := canonicalJson_of_isJson json
  have lines (hash : JsString) := canonicalJson_eq_ok.mpr
    (⟨by
      rw [allFinite, membersFinite_iff]
      intro member present
      rcases List.mem_append.mp present with base | last
      · exact membersFinite_iff.mp (allFinite_of_isJson _ json).1 member base
      · obtain rfl := List.mem_singleton.mp last
        rfl, by simp, rfl⟩ : allFinite
          (.obj (sortByKey { draft with data := normalData }.baseMembers
          ++ [(js "hash", .str hash)])) = true ∧ _ ∧ _ = _)
  have data : getMember (sortByKey { draft with data := normalData }.baseMembers) (js "data") =
      .obj normalData :=
    getMember_of_mem (nodup_sortByKey.mpr (baseMembers_nodup _))
      (mem_sortByKey.mpr (data_mem_base { draft with data := normalData }))
  unfold formEntry
  simp only [timed, Option.bind_eq_bind, Option.bind_some]
  rw [← drafted, canonical]
  simp only [Except.toOption, Option.bind_some, normalize, normalizeMembers_base normal, read,
    JsValue.asRecord, covers, lines, data]
  exact ⟨_, _, rfl⟩

/-- Every row that can be formed is verified behind its predecessor, as the row it is. -/
theorem formEntry_verified (sha : HashFunction) {head : Option LedgerHead} {now : ℤ}
    {input : LedgerAppendInput} (appendable : Appendable head now input) (time : isTime now = true)
    (finite : allFinite (.obj input.data) = true) :
    ∃ entry text, formEntry sha head now input = some (entry, text) ∧
      checkLine sha text (expectedAfter head) = .ok entry ∧ entry.kind = input.kind ∧
        entry.grantId = input.grantId ∧ entry.repo = input.repo ∧
          normalize (.obj input.data) = .obj entry.data := by
  obtain ⟨entry, text, made⟩ := formEntry_some sha head time appendable.seq_safe finite
  obtain ⟨formed, rfl⟩ := formEntry_spec appendable made
  exact ⟨entry, _, made, checkLine_entryText formed.wellFormed formed.follows, formed.kind,
    formed.grantId, formed.repo, formed.data⟩

theorem formEntry_verified_genesis : ∃ first text second next,
    formEntry sha256 none 0 (genesisInput none .daemon) = some (first, text) ∧
      checkLine sha256 text (expectedAfter none) = .ok first ∧
      formEntry sha256 (some first.head) 0 { genesisInput none .daemon with kind := .note } =
          some (second, next) ∧
        checkLine sha256 next (expectedAfter (some first.head)) = .ok second := by
  have appendable : Appendable none 0 (genesisInput none .daemon) :=
    ⟨by decide, by decide, nofun, rfl, rfl, fun _ => rfl⟩
  obtain ⟨first, text, formed, verified, -⟩ :=
    formEntry_verified sha256 appendable (by decide) rfl
  have row : (formEntry sha256 none 0 (genesisInput none .daemon)).map
      (fun made => (made.1.seq, made.1.at')) = some (0, js "1970-01-01T00:00:00.000Z") := by
    decide +kernel
  rw [formed, Option.map_some, Option.some_inj, Prod.mk.injEq] at row
  have behind :
      Appendable (some first.head) 0 { genesisInput none .daemon with kind := .note } := by
    refine ⟨by decide, ?_, ?_, rfl, rfl, nofun⟩
    · change ((first.seq + 1 : ℕ) : ℤ) ≤ _
      rw [row.1]
      decide
    · rintro _ ⟨⟩
      change isIsoInstant (.str first.at') = _
      rw [row.2]
      decide +kernel
  obtain ⟨second, next, made, stands, -⟩ := formEntry_verified sha256 behind (by decide) rfl
  exact ⟨first, text, second, next, formed, verified, made, stands⟩

end AshlrHub.Authority

import AshlrHub.Authority.LedgerAppend
import AshlrHub.Lib.Run

namespace AshlrHub.Authority

open Js Lib

/-! The Autonomy switch in `clamp.json`, and the calls that move it. -/

/-- `AUTONOMY_SWITCH_RANK` -/
def AutonomySwitch.rank : AutonomySwitch → ℕ
  | .off => 0
  | .propose => 1
  | .autonomous => 2

structure ClampState where
  switch : AutonomySwitch
  updatedAt : JsString
  updatedBy : JsString
  reason : JsString

def ClampState.off : ClampState :=
  ⟨.off, js "1970-01-01T00:00:00.000Z", js "daemon", js "no switch set yet"⟩

inductive ClampRead where
  | default
  | ok (clamp : ClampState)
  | invalid (reason : JsString)

def ClampRead.clamp : ClampRead → ClampState
  | .ok clamp => clamp
  | _ => .off

def clampReasonMax : ℕ := 300

def readClamp (file : Option File) : ClampRead :=
  match file with
  | none => .default
  | some file =>
      if file.ownedPrivate = false ∨ file.bytes.length > 16 * 1024 then
        .invalid (js "clamp.json is not a private file owned by you")
      else
        match parseJson (utf8Decode file.bytes) with
        | none | some .null => .invalid (js "clamp.json is not valid JSON")
        | some value =>
            -- only an object has these properties, and only null throws when read
            let member := getMember (value.asRecord.getD [])
            match JsEnum.ofValue (member (js "switch")) with
            | none => .invalid (js "clamp.json does not hold a known switch position")
            | some switch =>
                if (member (js "v")).asSafeInteger ≠ some 1 then
                  .invalid (js "clamp.json does not hold a known switch position")
                else
                  .ok
                    { switch := switch
                      updatedAt := (member (js "updatedAt")).asString.getD ClampState.off.updatedAt
                      updatedBy := (member (js "updatedBy")).asString.getD (js "daemon")
                      reason :=
                        ((member (js "reason")).asString.map (List.take clampReasonMax)).getD [] }

def storedSwitch (file : Option File) : AutonomySwitch :=
  (readClamp file).clamp.switch

/-- A state as `setAutonomySwitch` forms it: every text in it is short. -/
structure NextClamp extends ClampState where
  updatedAt_short : updatedAt.length ≤ 27
  updatedBy_short : updatedBy.length ≤ 27
  reason_short : reason.length ≤ clampReasonMax

def ClampState.members (clamp : ClampState) : List (JsString × JsValue) :=
  [(js "v", jsInt 1), (js "switch", .str (JsEnum.text clamp.switch)),
    (js "updatedAt", .str clamp.updatedAt), (js "updatedBy", .str clamp.updatedBy),
    (js "reason", .str clamp.reason)]

/-- The file that `writeClamp` leaves; none where `canonicalJson` throws. -/
def writeClamp (identity : ℕ) (next : ClampState) : Option File :=
  match canonicalJson (.obj next.members) with
  | .ok text => some ⟨identity, true, utf8Encode (text ++ js "\n")⟩
  | .error _ => none

/-! What a caller asks for. -/

/-- The units that `\s` matches, and that `trim` strips. -/
def isJsSpace (unit : CodeUnit) : Bool :=
  (0x09 ≤ unit && unit ≤ 0x0D) || unit = 0x20 || unit = 0xA0 || unit = 0x1680 ||
    (0x2000 ≤ unit && unit ≤ 0x200A) || unit = 0x2028 || unit = 0x2029 || unit = 0x202F ||
    unit = 0x205F || unit = 0x3000 || unit = 0xFEFF

def collapseSpace (inSpace : Bool) : JsString → JsString
  | [] => []
  | unit :: rest =>
      if isJsSpace unit then
        if inSpace then collapseSpace true rest else 0x20 :: collapseSpace true rest
      else unit :: collapseSpace false rest

def trim (text : JsString) : JsString :=
  ((text.dropWhile isJsSpace).reverse.dropWhile isJsSpace).reverse

/-- `scrub` is `scrubSecrets`, which blanks out what looks like a credential. -/
def cleanReason (scrub : JsString → JsString) (reason : JsString) : JsString :=
  let cleaned := (scrub (trim (collapseSpace false reason))).take clampReasonMax
  if cleaned = [] then js "no reason given" else cleaned

structure SwitchChangeRequest where
  /-- The `to` of the request, which the call checks. -/
  target : JsString
  actor : FleetActor
  reason : JsString
  /-- Highest position reachable without a new grant. -/
  cap : AutonomySwitch

inductive SwitchChangeCode where
  | grantRequired
  | ledger
  | storage
  | invalid
deriving DecidableEq

inductive SwitchChangeResult where
  | ok (current target : AutonomySwitch) (changed ledgered : Bool)
  | refused (code : SwitchChangeCode) (reason : JsString) (current cap : AutonomySwitch)
deriving DecidableEq

/-- The parts of a call that its later steps use. -/
structure SwitchChange where
  current : AutonomySwitch
  target : AutonomySwitch
  actor : FleetActor
  cap : AutonomySwitch
  next : NextClamp
  stores : next.switch = target

inductive SwitchCall where
  /-- A lowering acts first. -/
  | lowering (change : SwitchChange) (lowers : change.target.rank ≤ change.current.rank)
  | lowered (change : SwitchChange) (lowers : change.target.rank ≤ change.current.rank)
  /-- A raise records first. -/
  | raising (change : SwitchChange) (raises : change.current.rank < change.target.rank)
  | recorded (change : SwitchChange) (raises : change.current.rank < change.target.rank)
  | returned (result : SwitchChangeResult)
  /-- The clock shows no time that has a text. -/
  | threw

/-! The steps of `setAutonomySwitch`. -/

theorem length_cleanReason_le (scrub : JsString → JsString) (reason : JsString) :
    (cleanReason scrub reason).length ≤ clampReasonMax := by
  unfold cleanReason
  dsimp only
  split
  · decide
  · exact List.length_take_le _ _

theorem length_toISOString_le {now : ℤ} {text : JsString}
    (formatted : toISOString now = some text) :
    text.length ≤ 27 := by
  unfold toISOString at formatted
  split_ifs at formatted
  obtain rfl := Option.some.inj formatted
  have year : (yearText (Instant.ofTime now).year).length ≤ 7 := by
    unfold yearText
    split_ifs
    · simp [pad4, pad3, pad2]
    · have sign : (js "-").length = 1 := by decide
      simp [pad6, pad4, pad3, pad2, sign]
    · have sign : (js "+").length = 1 := by decide
      simp [pad6, pad4, pad3, pad2, sign]
  have tail : (Instant.ofTime now).tailText.length = 20 := by
    have units : (js "-").length = 1 ∧ (js "T").length = 1 ∧ (js ":").length = 1 ∧
        (js ".").length = 1 ∧ (js "Z").length = 1 := by decide
    simp [Instant.tailText, pad3, pad2, units]
  rw [List.length_append]
  omega

theorem length_actor_le (actor : FleetActor) : (JsEnum.text actor).length ≤ 27 := by
  cases actor <;> decide

def nextClamp (target : AutonomySwitch) (actor : FleetActor) {now : ℤ} {updatedAt : JsString}
    (formatted : toISOString now = some updatedAt) (scrub : JsString → JsString)
    (reason : JsString) : NextClamp where
  switch := target
  updatedAt := updatedAt
  updatedBy := JsEnum.text actor
  reason := cleanReason scrub reason
  updatedAt_short := length_toISOString_le formatted
  updatedBy_short := length_actor_le actor
  reason_short := length_cleanReason_le scrub reason

def grantRequiredReason (cap : AutonomySwitch) : JsString :=
  if cap = .off then
    js "No active standing grant allows autonomy — approve a grant with Touch ID first."
  else
    js "The installed grant allows at most \"" ++ JsEnum.text cap ++
      js "\" — approving more needs a new grant (Touch ID)."

def beginSwitch (scrub : JsString → JsString) (clamp : Option File) (now : ℤ)
    (req : SwitchChangeRequest) : SwitchCall :=
  let current := storedSwitch clamp
  match JsEnum.ofText req.target with
  | none =>
      .returned (.refused .invalid
        (js "unknown switch position \"" ++ req.target ++ js "\"") current req.cap)
  | some target =>
      match formatted : toISOString now with
      | none => .threw
      | some _ =>
          let change : SwitchChange :=
            { current := current
              target := target
              actor := req.actor
              cap := req.cap
              next := nextClamp target req.actor formatted scrub req.reason
              stores := rfl }
          if lowers : target.rank ≤ current.rank then .lowering change lowers
          else if req.cap.rank < target.rank then
            .returned (.refused .grantRequired (grantRequiredReason req.cap) current req.cap)
          else .raising change (Nat.not_le.mp lowers)

def SwitchChange.row (change : SwitchChange) : LedgerAppendInput where
  kind := .switchChanged
  actor := change.actor
  grantId := none
  repo := none
  data := [(js "from", .str (JsEnum.text change.current)),
    (js "to", .str (JsEnum.text change.target)),
    (js "requested", .str (JsEnum.text change.target)), (js "reason", .str change.next.reason)]
  distinct := by
    have keys : [js "from", js "to", js "requested", js "reason"].Nodup := by decide +kernel
    rw [distinctKeys, Bool.and_eq_true]
    exact ⟨decide_eq_true keys, rfl⟩

structure RowTimes where
  hostBinding : Option JsString
  genesis : ℤ
  row : ℤ

def appendedRows (sha : HashFunction) (entries : List LedgerEntry) (times : RowTimes)
    (input : LedgerAppendInput) : Option (List LedgerEntry) :=
  if (validateInput input).isSome then none
  else
    match lastHead none entries with
    | none => do
        let genesis ← formEntry sha none times.genesis (genesisInput times.hostBinding .daemon)
        let row ← formEntry sha (some genesis.1.head) times.row input
        return [genesis.1, row.1]
    | some head => do
        let row ← formEntry sha (some head) times.row input
        return [row.1]

structure SwitchWorld where
  clamp : Option File
  entries : List LedgerEntry
  calls : ℕ → Option SwitchCall

def SwitchWorld.put (world : SwitchWorld) (id : ℕ) (call : SwitchCall) : SwitchWorld :=
  { world with calls := Function.update world.calls id (some call) }

inductive WriteOutcome where
  | done (identity : ℕ)
  | failed (message : JsString)

inductive AppendOutcome where
  | appended (times : RowTimes)
  | refused (reason : JsString)

inductive SwitchEvent where
  | read (id : ℕ) (req : SwitchChangeRequest) (now : ℤ)
  | write (id : ℕ) (outcome : WriteOutcome)
  | append (id : ℕ) (outcome : AppendOutcome)
  /-- Another writer's row. -/
  | otherRow (entry : LedgerEntry)

def storageReason (message : JsString) : JsString :=
  js "could not write the switch: " ++ message

def SwitchCall.written : SwitchCall → Option SwitchCall
  | .lowering change lowers =>
      if change.target = change.current then
        some (.returned (.ok change.current change.target false true))
      else some (.lowered change lowers)
  | .recorded change _ => some (.returned (.ok change.current change.target true true))
  | _ => none

def SwitchCall.writes : SwitchCall → Option SwitchChange
  | .lowering change _ | .recorded change _ => some change
  | _ => none

def SwitchCall.appends : SwitchCall → Option SwitchChange
  | .lowered change _ | .raising change _ => some change
  | _ => none

def SwitchCall.appended : SwitchCall → Option SwitchCall
  | .lowered change _ => some (.returned (.ok change.current change.target true true))
  | .raising change raises => some (.recorded change raises)
  | _ => none

def SwitchCall.unrecorded (reason : JsString) : SwitchCall → Option SwitchCall
  | .lowered change _ => some (.returned (.ok change.current change.target true false))
  | .raising change _ =>
      some (.returned (.refused .ledger
        (js "not raised — the ledger refused the record: " ++ reason) change.current change.cap))
  | _ => none

def SwitchWorld.next (sha : HashFunction) (scrub : JsString → JsString) (world : SwitchWorld) :
    SwitchEvent → Option SwitchWorld
  | .read id req now =>
      match world.calls id with
      | some _ => none
      | none => some (world.put id (beginSwitch scrub world.clamp now req))
  | .write id (.done identity) => do
      let call ← world.calls id
      let change ← call.writes
      let file ← writeClamp identity change.next.toClampState
      return { world with clamp := some file }.put id (← call.written)
  | .write id (.failed message) => do
      let change ← (← world.calls id).writes
      return world.put id
        (.returned (.refused .storage (storageReason message) change.current change.cap))
  | .append id (.appended times) => do
      let call ← world.calls id
      let change ← call.appends
      let rows ← appendedRows sha world.entries times change.row
      return { world with entries := world.entries ++ rows }.put id (← call.appended)
  | .append id (.refused reason) => do
      return world.put id (← (← world.calls id).unrecorded reason)
  | .otherRow entry =>
      if entry.kind = .switchChanged then none
      else some { world with entries := world.entries ++ [entry] }

def newSwitchWorld : SwitchWorld := ⟨none, [], fun _ => none⟩

def SwitchWorld.after (sha : HashFunction) (scrub : JsString → JsString) (world : SwitchWorld) :
    List SwitchEvent → Option SwitchWorld
  | [] => some world
  | event :: events => do (← world.next sha scrub event).after sha scrub events

/-- The `to` of the last row that moved the switch, off before any. -/
def recordedSwitch (entries : List LedgerEntry) : AutonomySwitch :=
  ((entries.foldl indexEntry emptyIndex).lastSwitch.map Prod.fst).getD .off

/-! What a write and an append leave. -/

theorem clampMembers_nodup (clamp : ClampState) : (clamp.members.map Prod.fst).Nodup := by
  change [js "v", js "switch", js "updatedAt", js "updatedBy", js "reason"].Nodup
  decide +kernel

theorem clampMembers_isJson (clamp : ClampState) : (JsValue.obj clamp.members).isJson = true := by
  have one : (jsInt 1).isJson = true := isJson_jsInt (by decide)
  refine isJson_obj.mpr ⟨clampMembers_nodup clamp, ?_⟩
  simp only [ClampState.members, List.forall_mem_cons, one, true_and]
  exact ⟨rfl, rfl, rfl, rfl, by simp⟩

theorem normalize_clampMembers (clamp : ClampState) :
    normalize (.obj clamp.members) = .obj (sortByKey clamp.members) := by
  rw [normalize]
  rfl

theorem membersLength_clamp (next : NextClamp) :
    membersLength next.toClampState.members ≤ 3000 := by
  have one : (writeValue (jsInt 1)).length ≤ 16 :=
    @length_writeValue_jsInt_le 1 (by decide)
  have switch : (JsEnum.text next.switch).length ≤ 10 := by
    cases next.switch <;> decide
  have switchText := length_writeValue_str_le (JsEnum.text next.switch)
  have updatedAt := length_writeValue_str_le next.updatedAt
  have updatedBy := length_writeValue_str_le next.updatedBy
  have reason := length_writeValue_str_le next.reason
  have updatedAtShort := next.updatedAt_short
  have updatedByShort := next.updatedBy_short
  have reasonShort : next.reason.length ≤ 300 := next.reason_short
  have keys : (js "v").length = 1 ∧ (js "switch").length = 6 ∧ (js "updatedAt").length = 9 ∧
      (js "updatedBy").length = 9 ∧ (js "reason").length = 6 := by decide
  simp only [membersLength, ClampState.members, List.map_cons, List.map_nil, List.sum_cons,
    List.sum_nil, keys]
  omega

theorem storedSwitch_writeClamp {identity : ℕ} {next : NextClamp} {file : File}
    (written : writeClamp identity next.toClampState = some file) :
    storedSwitch (some file) = next.switch := by
  have json := clampMembers_isJson next.toClampState
  have sorted : (JsValue.obj (sortByKey next.toClampState.members)).isJson = true := by
    obtain ⟨finite, distinct⟩ := allFinite_of_isJson _ json
    rw [← normalize_clampMembers]
    exact isJson_normalize _ finite distinct (by simp)
  rw [writeClamp, canonicalJson_of_isJson json, normalize_clampMembers] at written
  obtain rfl := Option.some.inj written
  have newline : (js "\n").length = 1 := by decide
  have object := length_writeValue_obj_le (sortByKey next.toClampState.members)
  rw [membersLength_perm (perm_sortByKey next.toClampState.members)] at object
  have members := membersLength_clamp next
  have small := length_utf8Encode_le
    (writeValue (.obj (sortByKey next.toClampState.members)) ++ js "\n")
  rw [List.length_append, newline] at small
  have decoded : utf8Decode (utf8Encode
      (writeValue (.obj (sortByKey next.toClampState.members)) ++ js "\n")) =
        writeValue (.obj (sortByKey next.toClampState.members)) ++ js "\n" :=
    utf8Decode_utf8Encode (wellFormed_append (printable_writeValue _).formed (by decide))
  have parsed : parseJson (writeValue (.obj (sortByKey next.toClampState.members)) ++ js "\n") =
      some (.obj (sortByKey next.toClampState.members)) :=
    parseJson_writeValue_append sorted newline_ends (by decide)
  have member {key : JsString} {value : JsValue} (present : (key, value) ∈ next.members) :
      getMember (sortByKey next.toClampState.members) key = value :=
    getMember_of_mem (nodup_sortByKey.mpr (clampMembers_nodup _)) (mem_sortByKey.mpr present)
  have v : getMember (sortByKey next.toClampState.members) (js "v") = jsInt 1 :=
    member (by simp [ClampState.members])
  have switch : getMember (sortByKey next.toClampState.members) (js "switch") =
      .str (JsEnum.text next.switch) := member (by simp [ClampState.members])
  have one : (jsInt 1).asSafeInteger = some 1 := asSafeInteger_jsInt (by decide)
  rw [storedSwitch, readClamp]
  dsimp only
  rw [if_neg (by simp only [Bool.true_eq_false, false_or]; omega), decoded, parsed]
  simp only [JsValue.asRecord, Option.getD_some, switch, JsEnum.ofValue_str, v, one, ne_eq,
    not_true_eq_false, if_false]
  rfl

variable {entry : LedgerEntry}

theorem recordedSwitch_otherRow {entries : List LedgerEntry} (other : entry.kind ≠ .switchChanged) :
    recordedSwitch (entries ++ [entry]) = recordedSwitch entries := by
  have kept (index : LedgerAuthorityIndex) : (indexEntry index entry).lastSwitch =
    index.lastSwitch := by
    unfold indexEntry
    split
    case h_7 kind => exact absurd kind other
    all_goals first | rfl | (split <;> rfl) | (unfold indexRollout; split <;> rfl)
  rw [recordedSwitch, recordedSwitch, List.foldl_append, List.foldl_cons, List.foldl_nil, kept]

variable {change : SwitchChange}

/-- The `to` that a switch row was formed from reads back from its data. -/
theorem target_of_row {data : List (JsString × JsValue)}
    (normal : normalize (.obj change.row.data) = .obj data) :
    getMember data (js "to") = .str (JsEnum.text change.target) :=
  getMember_normalized change.row.distinct normal
    (show (js "to", .str (JsEnum.text change.target)) ∈ _ by simp [SwitchChange.row]) rfl

theorem recordedSwitch_switched {entries : List LedgerEntry}
    {target : AutonomySwitch} (kind : entry.kind = .switchChanged)
    (moved : getMember entry.data (js "to") = .str (JsEnum.text target)) :
    recordedSwitch (entries ++ [entry]) = target := by
  rw [recordedSwitch, List.foldl_append, List.foldl_cons, List.foldl_nil, indexEntry, kind]
  dsimp only
  rw [moved, JsEnum.ofValue_str]
  rfl

theorem recordedSwitch_row {sha : HashFunction} {head : Option LedgerHead} {now : ℤ}
    {text : JsString} (entries : List LedgerEntry)
    (formed : formEntry sha head now change.row = some (entry, text)) :
    recordedSwitch (entries ++ [entry]) = change.target := by
  have steps := formEntry_steps formed
  exact recordedSwitch_switched steps.kind (target_of_row steps.data)

theorem recordedSwitch_appendedRows {sha : HashFunction} {entries rows : List LedgerEntry}
    {times : RowTimes} (appended : appendedRows sha entries times change.row = some rows) :
    recordedSwitch (entries ++ rows) = change.target := by
  unfold appendedRows at appended
  split_ifs at appended
  split at appended
  · simp only [Option.bind_eq_bind, Option.bind_eq_some_iff] at appended
    obtain ⟨genesis, -, row, formed, same⟩ := appended
    obtain rfl := Option.some.inj same
    have last := recordedSwitch_row (entries ++ [genesis.1]) formed
    rwa [List.append_assoc] at last
  · simp only [Option.bind_eq_bind, Option.bind_eq_some_iff] at appended
    obtain ⟨row, formed, same⟩ := appended
    obtain rfl := Option.some.inj same
    exact recordedSwitch_row entries formed

end AshlrHub.Authority

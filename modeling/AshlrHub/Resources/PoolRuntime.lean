import AshlrHub.Resources.PoolPolicy
import AshlrHub.Universe.Artifacts
import AshlrHub.Lib.Fallible

namespace AshlrHub.Resources

open Js Artifacts

/-! What the pool ledger holds, and its JSON. -/

inductive ResourceTaskStatus where
  | reserved
  | completed
  | failed
  | timedOut
  | cancelled
  | uncertain
deriving DecidableEq

inductive ResourceUsageScope where
  | codexTurn
  | claudeMainLoop
  | localChatCompletion
deriving DecidableEq

structure ResourceExecutionMeasurement where
  durationMs : Option Double
  usageScope : Option ResourceUsageScope

structure ResourceNativeProcessDiagnostic where
  exitCode : Option ℕ
  signal : Option JsString
  stderrPresent : Bool
  outputTruncated : Bool

/-- Historical host provenance. -/
structure ResourceTaskOrigin where
  universeId : JsString
  runId : JsString
  variantId : JsString

structure ResourceTaskReceipt where
  id : JsString
  taskDigest : JsString
  poolDigest : JsString
  workerId : JsString
  capacityKey : JsString
  status : ResourceTaskStatus
  startedAt : JsString
  finishedAt : Option JsString
  outputDigest : Option JsString
  inputTokens : Option ℕ
  outputTokens : Option ℕ
  reason : JsString
  origin : Option ResourceTaskOrigin
  execution : Option ResourceExecutionMeasurement
  nativeProcess : Option ResourceNativeProcessDiagnostic

structure ResourcePoolAllocation where
  ceilingPercent : Fin 101
  revision : ℕ
  updatedAt : JsString

structure ResourceWorkerAccess where
  pausedWorkerIds : List JsString
  revision : ℕ
  updatedAt : JsString

structure ResourceQuotaScopeExclusion where
  capacityKey : JsString
  quotaScope : ResourceQuotaScope
deriving DecidableEq

structure ResourceQuotaScopeAccess where
  exclusions : List ResourceQuotaScopeExclusion
  revision : ℕ
  updatedAt : JsString

structure ResourcePoolState where
  poolDigest : JsString
  observations : List ResourceObservation
  attempts : List ResourceTaskReceipt
  allocation : Option ResourcePoolAllocation
  workerAccess : Option ResourceWorkerAccess
  quotaScopeAccess : Option ResourceQuotaScopeAccess
  configurationHistory : Option JsValue
  pendingEvolution : Option JsString

/-! JSON. -/

def ResourceQuotaScope.text : ResourceQuotaScope → JsString
  | .codexGeneralV1 => js "codex-general-v1"
  | .codexSparkV1 => js "codex-spark-v1"

def ResourceHealth.text : ResourceHealth → JsString
  | .ready => js "ready"
  | .unavailable => js "unavailable"

def ResourceTaskStatus.text : ResourceTaskStatus → JsString
  | .reserved => js "reserved"
  | .completed => js "completed"
  | .failed => js "failed"
  | .timedOut => js "timed-out"
  | .cancelled => js "cancelled"
  | .uncertain => js "uncertain"

def ResourceUsageScope.text : ResourceUsageScope → JsString
  | .codexTurn => js "codex-turn"
  | .claudeMainLoop => js "claude-main-loop"
  | .localChatCompletion => js "local-chat-completion"

def double (value : Double) : JsValue := .num (.finite value)

def ResourceQuotaWindow.json (window : ResourceQuotaWindow) : JsValue :=
  .obj ([(js "id", .str window.id), (js "usedPercent", nullable double window.usedPercent),
    (js "resetsAt", nullable .str window.resetsAt)] ++
    if window.limitReached then [(js "limitReached", .bool true)] else [])

def ResourceObservation.json (observation : ResourceObservation) : JsValue :=
  .obj ([(js "workerId", .str observation.workerId),
    (js "observedAt", .str observation.observedAt),
    (js "expiresAt", .str observation.expiresAt),
    (js "health", .str observation.health.text),
    (js "windows", .arr (observation.windows.map (·.json))),
    (js "retryAfter", nullable .str observation.retryAfter)] ++
    optional (js "updatedAt") .str observation.updatedAt)

def ResourceExecutionMeasurement.json (execution : ResourceExecutionMeasurement) : JsValue :=
  .obj [(js "schemaVersion", jsInt 1), (js "scope", .str (js "worker-execution")),
    (js "durationMs", nullable double execution.durationMs),
    (js "usageScope", nullable (fun scope => .str scope.text) execution.usageScope)]

def ResourceNativeProcessDiagnostic.json (diagnostic : ResourceNativeProcessDiagnostic) :
    JsValue :=
  .obj [(js "schemaVersion", jsInt 1), (js "scope", .str (js "native-process")),
    (js "exitCode", nullable (fun code => jsInt (Int.ofNat code)) diagnostic.exitCode),
    (js "signal", nullable .str diagnostic.signal),
    (js "stderrPresent", .bool diagnostic.stderrPresent),
    (js "outputTruncated", .bool diagnostic.outputTruncated)]

def ResourceTaskOrigin.identity (origin : ResourceTaskOrigin) : List (JsString × JsValue) :=
  [(js "universeId", .str origin.universeId), (js "runId", .str origin.runId),
    (js "variantId", .str origin.variantId)]

def ResourceTaskOrigin.json (origin : ResourceTaskOrigin) : JsValue :=
  .obj ((js "kind", .str (js "universe-generation")) :: origin.identity)

def ResourceTaskReceipt.json (receipt : ResourceTaskReceipt) : JsValue :=
  .obj ([(js "schemaVersion", jsInt 1), (js "id", .str receipt.id),
    (js "taskDigest", .str receipt.taskDigest), (js "poolDigest", .str receipt.poolDigest),
    (js "workerId", .str receipt.workerId), (js "capacityKey", .str receipt.capacityKey),
    (js "status", .str receipt.status.text), (js "startedAt", .str receipt.startedAt),
    (js "finishedAt", nullable .str receipt.finishedAt),
    (js "outputDigest", nullable .str receipt.outputDigest),
    (js "inputTokens", nullable count receipt.inputTokens),
    (js "outputTokens", nullable count receipt.outputTokens),
    (js "reason", .str receipt.reason), (js "verifiedAccepted", .bool false)] ++
    (optional (js "origin") (·.json) receipt.origin ++
      (optional (js "execution") (·.json) receipt.execution ++
        optional (js "nativeProcess") (·.json) receipt.nativeProcess)))

def ResourcePoolAllocation.json (allocation : ResourcePoolAllocation) : JsValue :=
  .obj [(js "ceilingPercent", count allocation.ceilingPercent),
    (js "revision", count allocation.revision), (js "updatedAt", .str allocation.updatedAt)]

def ResourceWorkerAccess.json (access : ResourceWorkerAccess) : JsValue :=
  .obj [(js "pausedWorkerIds", .arr (access.pausedWorkerIds.map .str)),
    (js "revision", count access.revision), (js "updatedAt", .str access.updatedAt)]

def ResourceQuotaScopeExclusion.json (row : ResourceQuotaScopeExclusion) : JsValue :=
  .obj [(js "capacityKey", .str row.capacityKey), (js "quotaScope", .str row.quotaScope.text)]

def ResourceQuotaScopeAccess.json (access : ResourceQuotaScopeAccess) : JsValue :=
  .obj [(js "exclusions", .arr (access.exclusions.map (·.json))),
    (js "revision", count access.revision), (js "updatedAt", .str access.updatedAt)]

def ResourcePoolState.json (state : ResourcePoolState) : JsValue :=
  .obj ([(js "schemaVersion", jsInt (if state.configurationHistory.isSome then 2 else 1)),
    (js "poolDigest", .str state.poolDigest),
    (js "observations", .arr (state.observations.map (·.json))),
    (js "attempts", .arr (state.attempts.map (·.json)))] ++
    (optional (js "allocation") (·.json) state.allocation ++
      (optional (js "workerAccess") (·.json) state.workerAccess ++
        (optional (js "quotaScopeAccess") (·.json) state.quotaScopeAccess ++
          (optional (js "configurationHistory") id state.configurationHistory ++
            optional (js "pendingEvolution")
              (fun planDigest => .obj [(js "planDigest", .str planDigest)])
              state.pendingEvolution)))))

open Authority Lib

/-! The pool ledger and its transactions. -/

def maxStateBytes : ℕ := 4 * 1024 * 1024

def maxAttempts : ℕ := 4096

/-- `RESOURCE_OBSERVATION_OVERFLOW` -/
def observationOverflow : JsString := js "hub_observation_overflow"

inductive PoolError where
  | boundedLedger
  | configurationHistory
  | activeConfiguration
  | ledger
  | evolutionBarrier
  | evolutionPending
  | observations
  | unavailableWorkers
  | admissionEvidence
  | assignment
  | capacity
  | settlementCapacity
  | identityConflict
  | cancelled
  | assignmentChanged
  | settlementEvidence
  | allocationConflict
  | workerAccessConflict
  | quotaScopeConflict
  | unknownWorker
  | invalidRequest

/-- The parts of the host that the ledger takes as they are: the hash, the order of keys that
`localeCompare` gives, and the check of a configuration history. -/
structure PoolHost where
  digest : JsString → JsString
  keysInOrder : JsString → JsString → Bool
  configurationHistory : JsValue → Option (List (JsString × ResourcePool × List ResourceBinding))

/-! Checks of a ledger. -/

def validCount (n : ℕ) : Bool := (n : ℤ) ≤ JsNumber.maxSafeInteger

def validTokens : Option ℕ → Option ℕ → Bool
  | none, none => true
  | some input, some output => validCount (input + output)
  | _, _ => false

/-- `/^[a-z0-9-]{1,120}$/` -/
def validReason (reason : JsString) : Bool :=
  1 ≤ reason.length && reason.length ≤ 120 &&
    reason.all fun unit => isLowerAlphanumeric unit || unit = 0x2D

/-- `/^[a-zA-Z0-9][a-zA-Z0-9._-]{0,63}$/` -/
def validIdentity (text : JsString) : Bool := keyIdPattern text

section

variable (host : PoolHost)

/-- `resourceGenerationTaskId` -/
def generationTaskId (origin : ResourceTaskOrigin) : JsString :=
  let identityDigest := host.digest (canonical host.keysInOrder (.obj origin.identity))
  js "u-" ++ identityDigest.take 30 ++ js "-" ++ (identityDigest.drop 30).take 30

def validTaskOrigin (taskId : JsString) (origin : ResourceTaskOrigin) : Bool :=
  validIdentity origin.universeId && validIdentity origin.runId && validIdentity origin.variantId &&
    generationTaskId host origin = taskId

def maxExecutionDurationMs : ℚ := 86400000

def validExecution (execution : ResourceExecutionMeasurement) : Bool :=
  execution.durationMs.all (percent · maxExecutionDurationMs)

/-- `RESOURCE_NATIVE_PROCESS_SIGNALS` -/
def nativeProcessSignals : List JsString :=
  [js "SIGABRT", js "SIGALRM", js "SIGBUS", js "SIGCHLD", js "SIGCONT", js "SIGFPE", js "SIGHUP",
    js "SIGILL", js "SIGINT", js "SIGIO", js "SIGIOT", js "SIGKILL", js "SIGPIPE", js "SIGPOLL",
    js "SIGPROF", js "SIGPWR", js "SIGQUIT", js "SIGSEGV", js "SIGSTKFLT", js "SIGSTOP",
    js "SIGSYS", js "SIGTERM", js "SIGTRAP", js "SIGTSTP", js "SIGTTIN", js "SIGTTOU",
    js "SIGUNUSED", js "SIGURG", js "SIGUSR1", js "SIGUSR2", js "SIGVTALRM", js "SIGWINCH",
    js "SIGXCPU", js "SIGXFSZ", js "SIGBREAK", js "SIGINFO", js "SIGLOST"]

def validNativeProcess (diagnostic : ResourceNativeProcessDiagnostic) : Bool :=
  diagnostic.exitCode.all (· ≤ 255) && diagnostic.signal.all nativeProcessSignals.contains &&
    (diagnostic.exitCode.isNone || diagnostic.signal.isNone)

def validNativeProcessForReceipt (status : ResourceTaskStatus) (provider : ResourceProvider)
    (diagnostic : ResourceNativeProcessDiagnostic) : Bool :=
  validNativeProcess diagnostic && provider ≠ .local &&
    match status with
    | .completed =>
        diagnostic.exitCode = some 0 && diagnostic.signal.isNone && !diagnostic.outputTruncated
    | .timedOut => diagnostic.exitCode.isNone
    | .cancelled => diagnostic.exitCode.isNone
    | .uncertain => diagnostic.exitCode.isNone
    | .failed => true
    | .reserved => false

/-- `resourceUsageScopeForProvider` -/
def usageScopeForProvider : ResourceProvider → ResourceUsageScope
  | .codex => .codexTurn
  | .claude => .claudeMainLoop
  | .local => .localChatCompletion

def checkedRow (poolDigest : JsString) (bindings : List ResourceBinding)
    (receipt : ResourceTaskReceipt) : Bool :=
  identifier receipt.id && receipt.origin.all (validTaskOrigin host receipt.id) &&
    sha256HexPattern receipt.taskDigest && receipt.poolDigest = poolDigest &&
    bindings.contains ⟨receipt.workerId, receipt.capacityKey⟩ &&
    isCanonicalInstant receipt.startedAt &&
    receipt.finishedAt.all (fun finished =>
      isCanonicalInstant finished && receipt.startedAt ≤ finished) &&
    receipt.outputDigest.all sha256HexPattern &&
    validTokens receipt.inputTokens receipt.outputTokens && validReason receipt.reason &&
    receipt.execution.all fun execution =>
      validExecution execution && receipt.status ≠ .reserved &&
        (execution.usageScope.isNone || receipt.inputTokens.isSome)

section

variable (pool : ResourcePool)

def checkedSettled (receipt : ResourceTaskReceipt) : Bool :=
  match pool.worker? receipt.workerId with
  | none => false
  | some worker =>
      receipt.nativeProcess.all (validNativeProcessForReceipt receipt.status worker.provider) &&
        receipt.execution.all (fun execution =>
          execution.usageScope.all (· = usageScopeForProvider worker.provider)) &&
        receipt.finishedAt.isSome &&
        (receipt.status ≠ .completed || receipt.outputDigest.isSome)

def checkedReceipt (poolDigest : JsString) (bindings : List ResourceBinding)
    (pool : ResourcePool) (receipt : ResourceTaskReceipt) : Bool :=
  checkedRow host poolDigest bindings receipt &&
    if receipt.status = .reserved then
      receipt.finishedAt.isNone && receipt.outputDigest.isNone && receipt.inputTokens.isNone &&
        receipt.nativeProcess.isNone
    else checkedSettled pool receipt

def validRevision (revision : ℕ) : Bool := 1 ≤ revision && validCount revision

def checkedAllocation (allocation : ResourcePoolAllocation) : Bool :=
  validRevision allocation.revision && isCanonicalInstant allocation.updatedAt

/-- `validateUnavailableResourceWorkerIds` -/
def validWorkerIds (ids : List JsString) : Bool :=
  ids.length ≤ pool.workers.length && ids.all (pool.workers.map (·.id)).contains && ids.Nodup

def checkedWorkerAccess (access : ResourceWorkerAccess) : Bool :=
  validRevision access.revision && isCanonicalInstant access.updatedAt &&
    validWorkerIds pool access.pausedWorkerIds

/-- `validateResourceQuotaScopeExclusions` -/
def validExclusions (bindings : List ResourceBinding)
    (rows : List ResourceQuotaScopeExclusion) : Bool :=
  (utf8Encode (writeValue (.arr (rows.map (·.json))))).length ≤ 16 * 1024 && rows.Nodup &&
    rows.all fun row =>
      identifier row.capacityKey && bindings.any fun binding =>
        binding.capacityKey = row.capacityKey && pool.workers.any fun worker =>
          worker.id = binding.workerId && worker.quotaScope = some row.quotaScope

def checkedQuotaScopeAccess (bindings : List ResourceBinding)
    (access : ResourceQuotaScopeAccess) : Bool :=
  validRevision access.revision && isCanonicalInstant access.updatedAt &&
    validExclusions pool bindings access.exclusions

end

structure PoolScope where
  pool : ResourcePool
  bindings : List ResourceBinding
  poolDigest : JsString
  poolValid : validateResourcePool pool = true
  bindingsValid : validateResourceBindings pool bindings = true

/-- `Buffer.from(canonical(state) + '\n').length` -/
def stateBytes (state : ResourcePoolState) : ℕ :=
  (utf8Encode (canonical host.keysInOrder state.json ++ js "\n")).length

def configurations (scope : PoolScope) (state : ResourcePoolState) :
    Except PoolError (List (JsString × ResourcePool × List ResourceBinding)) :=
  match state.configurationHistory with
  | none => .ok [(scope.poolDigest, scope.pool, scope.bindings)]
  | some value =>
      match host.configurationHistory value with
      | none => .error .configurationHistory
      | some history =>
          if history.getLast?.map (·.1) = some scope.poolDigest then .ok history
          else .error .activeConfiguration

def checkedAttempts (history : List (JsString × ResourcePool × List ResourceBinding))
    (attempts : List ResourceTaskReceipt) : Bool :=
  attempts.length ≤ maxAttempts && (attempts.map (·.id)).Nodup &&
    attempts.all fun row =>
      match history.find? fun snapshot => snapshot.1 = row.poolDigest with
      | none => false
      | some snapshot => checkedReceipt host snapshot.1 snapshot.2.2 snapshot.2.1 row

/-- The arrays that `canonicalResourceLedgerJson` counts. -/
def boundedContainers (state : ResourcePoolState) : Bool :=
  state.attempts.length ≤ maxAttempts && state.observations.length ≤ maxAttempts &&
    state.workerAccess.all (·.pausedWorkerIds.length ≤ maxAttempts) &&
    state.quotaScopeAccess.all (·.exclusions.length ≤ maxAttempts)

/-- `decodeResourcePoolState` on what a writer of the ledger left. -/
def decodeResourcePoolState (scope : PoolScope) (state : ResourcePoolState) :
    Except PoolError ResourcePoolState := do
  if maxStateBytes < stateBytes host state || !boundedContainers state then throw .boundedLedger
  let history ← configurations host scope state
  if state.poolDigest ≠ scope.poolDigest || !state.allocation.all checkedAllocation ||
      !state.workerAccess.all (checkedWorkerAccess scope.pool) ||
      !state.quotaScopeAccess.all (checkedQuotaScopeAccess scope.pool scope.bindings) ||
      !checkedAttempts host history state.attempts then throw .ledger
  if !state.pendingEvolution.all sha256HexPattern then throw .evolutionBarrier
  if state.pendingEvolution.isSome then throw .evolutionPending
  if !validateResourceObservations scope.pool state.observations then throw .observations
  pure state

/-- `loadState`: no file is the empty ledger. -/
def loadState (scope : PoolScope) : Option ResourcePoolState → Except PoolError ResourcePoolState
  | none => .ok ⟨scope.poolDigest, [], [], none, none, none, none, none⟩
  | some state => decodeResourcePoolState host scope state

/-- `writeState` -/
def writeState (state : ResourcePoolState) : Except PoolError ResourcePoolState :=
  if maxStateBytes < stateBytes host state then .error .capacity else .ok state

end

def transaction {α : Type} (host : PoolHost) (scope : PoolScope)
    (change : ResourcePoolState → Except PoolError (ResourcePoolState × α))
    (stored : Option ResourcePoolState) : Except PoolError (ResourcePoolState × α) := do
  let state ← loadState host scope stored
  let (changed, result) ← change state
  if !validateResourceObservations scope.pool changed.observations then throw .observations
  let written ← writeState host changed
  pure (written, result)

/-! What an answer says. -/

variable {host : PoolHost} {scope : PoolScope}

variable {state : ResourcePoolState}

theorem writeState_ok {written : ResourcePoolState} :
    writeState host state = .ok written ↔ stateBytes host state ≤ maxStateBytes ∧ state =
    written := by
  unfold writeState
  split_ifs with large
  · exact ⟨fun answered => (by cases answered), fun both => absurd both.1 (not_le.mpr large)⟩
  · exact ⟨fun answered => ⟨not_lt.mp large, Except.ok.inj answered⟩,
      fun both => congrArg Except.ok both.2⟩

theorem transaction_ok {α : Type}
    {change : ResourcePoolState → Except PoolError (ResourcePoolState × α)}
    {stored : Option ResourcePoolState} {result : α} :
    transaction host scope change stored = .ok (state, result) ↔
      ∃ loaded, loadState host scope stored = .ok loaded ∧ change loaded = .ok (state, result) ∧
        validateResourceObservations scope.pool state.observations = true ∧
        stateBytes host state ≤ maxStateBytes := by
  unfold transaction
  dsimp only
  rw [bind_eq_ok]
  refine exists_congr fun loaded => and_congr_right fun _ => ?_
  rw [bind_eq_ok]
  simp only [Prod.exists, refuse_eq_ok, bind_eq_ok, writeState_ok, pure_eq_ok, Prod.mk.injEq,
    Bool.not_eq_true', Bool.not_eq_false]
  constructor
  · rintro ⟨_, _, changed, valid, _, ⟨small, rfl⟩, rfl, rfl⟩
    exact ⟨changed, valid, small⟩
  · rintro ⟨changed, valid, small⟩
    exact ⟨_, _, changed, valid, _, ⟨small, rfl⟩, rfl, rfl⟩

theorem decodeResourcePoolState_ok {found : ResourcePoolState}
    (decoded : decodeResourcePoolState host scope state = .ok found) :
    state = found ∧ stateBytes host state ≤ maxStateBytes ∧
      (∃ history, configurations host scope state = .ok history ∧
        checkedAttempts host history state.attempts = true) ∧
      validateResourceObservations scope.pool state.observations = true := by
  unfold decodeResourcePoolState at decoded
  simp only [refuse_eq_ok, bind_eq_ok, pure_eq_ok, Bool.or_eq_true, not_or, Bool.not_eq_true',
    Bool.not_eq_false, decide_eq_true_eq, not_lt] at decoded
  obtain ⟨⟨small, _⟩, history, configured, ⟨_, checked⟩, _, _, valid, same⟩ := decoded
  exact ⟨same, small, ⟨history, configured, checked⟩, valid⟩

def storedAttempts (stored : Option ResourcePoolState) : List ResourceTaskReceipt :=
  (stored.map (·.attempts)).getD []

theorem loadState_attempts {stored : Option ResourcePoolState}
    (loaded : loadState host scope stored = .ok state) :
      state.attempts = storedAttempts stored := by
  cases stored with
  | none =>
      cases loaded
      rfl
  | some found =>
      unfold loadState at loaded
      obtain ⟨rfl, _⟩ := decodeResourcePoolState_ok loaded
      rfl

end AshlrHub.Resources

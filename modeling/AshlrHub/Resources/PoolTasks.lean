import AshlrHub.Resources.PoolAdmission
import AshlrHub.Lib.Run

namespace AshlrHub.Resources

open Js Artifacts Authority Lib

/-! The transactions of `runResourceTask` and of the policy writers. -/

/-! Room for what outstanding receipts will bring. -/

/-- The widest a number gets: seventeen digits behind `0.00000`. -/
def widestNumber : Double where
  val := nearestDouble (10000000000000002 / 10 ^ 22)
  isDouble := isDouble_nearestDouble _
  finite := by
    have nonneg : (0 : ℚ) ≤ nearestDouble (10000000000000002 / 10 ^ 22) :=
      nearestDouble_nonneg (by norm_num)
    have one : nearestDouble (1 : ℚ) = 1 :=
      nearestDouble_of_isDouble (by simpa using @isDouble_intCast 1 (by norm_num))
    have small : nearestDouble (10000000000000002 / 10 ^ 22) ≤ nearestDouble (1 : ℚ) :=
      nearestDouble_mono (by norm_num)
    rw [abs_of_nonneg nonneg]
    rw [one] at small
    exact small.trans_lt (one_lt_pow₀ one_lt_two (by norm_num))

/-- `new Date(8_640_000_000_000_000).toISOString()` -/
def widestDate : JsString := js "+275760-09-13T00:00:00.000Z"

example : toISOString 8640000000000000 = some widestDate := by decide +kernel

def quotaDate : JsString := js "9999-12-31T23:59:59.999Z"

def longestSignal : JsString :=
  nativeProcessSignals.foldl
    (fun longest signal => if longest.length < signal.length then signal else longest) []

def providerOf (pool : ResourcePool) (workerId : JsString) : ResourceProvider :=
  ((pool.worker? workerId).map (·.provider)).getD .local

def widestReceipt (pool : ResourcePool) (receipt : ResourceTaskReceipt) : ResourceTaskReceipt :=
  if receipt.status ≠ .reserved then receipt
  else
    let provider := providerOf pool receipt.workerId
    { receipt with
      status := .completed
      finishedAt := some widestDate
      outputDigest := some (List.replicate 64 0x30)
      inputTokens := some JsNumber.maxSafeInteger.toNat
      outputTokens := some JsNumber.maxSafeInteger.toNat
      reason := List.replicate 120 0x78
      execution := some ⟨some widestNumber, some (usageScopeForProvider provider)⟩
      nativeProcess :=
        if provider = .local then receipt.nativeProcess
        else some ⟨none, some longestSignal, false, false⟩ }

/-- `String(index).padStart(64, '0')` -/
def paddedIndex (index : ℕ) : JsString :=
  List.replicate (64 - (decimal index).length) 0x30 ++ decimal index

def widestObservation (worker : ResourceWorker) : ResourceObservation where
  workerId := worker.id
  observedAt := quotaDate
  expiresAt := quotaDate
  updatedAt := some quotaDate
  health := .unavailable
  retryAfter := some quotaDate
  windows := (List.range maxObservationWindows).map fun index =>
    ⟨paddedIndex index, some widestNumber, some quotaDate, false⟩

def settlementEnvelope (pool : ResourcePool) (state : ResourcePoolState) : ResourcePoolState :=
  { state with
    attempts := state.attempts.map (widestReceipt pool)
    observations := pool.workers.map widestObservation }

section

variable (host : PoolHost)

def settlementHeadroom (pool : ResourcePool) (state : ResourcePoolState) : Bool :=
  stateBytes host (settlementEnvelope pool state) ≤ maxStateBytes

def outstandingKnown (pool : ResourcePool) (state : ResourcePoolState) : Bool :=
  state.attempts.all fun row => row.status ≠ .reserved || (pool.worker? row.workerId).isSome

def requireResourcePoolSettlementHeadroom (pool : ResourcePool)
    (state : ResourcePoolState) : Except PoolError Unit :=
  if !outstandingKnown pool state then .error .unknownWorker
  else if settlementHeadroom host pool state then .ok ()
  else .error .settlementCapacity

/-! Admission. -/

structure ResourceTask where
  id : JsString
  allowedWorkerIds : List JsString
  prompt : JsString
  cwd : JsString
  timeoutMs : ℕ
  maxOutputTokens : ℕ
  readOnly : Bool

def ResourceTask.json (task : ResourceTask) : JsValue :=
  .obj [(js "schemaVersion", jsInt 1), (js "id", .str task.id),
    (js "allowedWorkerIds", .arr (task.allowedWorkerIds.map .str)),
    (js "prompt", .str task.prompt), (js "cwd", .str task.cwd),
    (js "timeoutMs", count task.timeoutMs), (js "maxOutputTokens", count task.maxOutputTokens),
    (js "mode", .str (if task.readOnly then js "read-only" else js "workspace-write"))]

/-- `validateResourceTask`, but for the working directory. -/
def validateResourceTask (task : ResourceTask) : Bool :=
  identifier task.id && 1 ≤ task.allowedWorkerIds.length && task.allowedWorkerIds.all identifier &&
    task.allowedWorkerIds.Nodup && !task.prompt.all isSpaceOrBreak && !task.prompt.contains 0 &&
    (utf8Encode task.prompt).length ≤ 1048576 &&
    (1 ≤ task.timeoutMs && task.timeoutMs ≤ 900000) &&
    (1 ≤ task.maxOutputTokens && task.maxOutputTokens ≤ 16384)

structure AdmissionEvidence where
  observations : List ResourceObservation
  gates : AdmissionGates

/-- What an invocation brings to the ledger, and the times at which it looks at the clock. -/
structure TaskRequest where
  task : ResourceTask
  observations : List ResourceObservation
  gates : AdmissionGates
  evidence : Option AdmissionEvidence
  /-- The signal came while the evidence was read. -/
  aborted : Bool
  mergeMs : ℤ
  evidenceMs : ℤ
  planMs : ℤ
  startedMs : ℤ

def validGates (pool : ResourcePool) (gates : AdmissionGates) : Bool :=
  validWorkerIds pool gates.unavailableWorkerIds &&
    validWorkerIds pool gates.quotaUnavailableWorkerIds

def waitable : ResourceExclusionReason → Bool
  | .workerNotAllowed => true
  | .concurrencyExhausted => true
  | .operatorTaskCapReached => true
  | .operatorQuotaScopeExcluded => true
  | _ => false

variable (scope : PoolScope)

section

variable (request : TaskRequest) (state : ResourcePoolState)

/-- `freshAdmission` -/
def freshAdmission (evidence : AdmissionEvidence) :
    Except PoolError (ResourcePoolState × AdmissionGates) := do
  if !validateResourceObservations scope.pool evidence.observations then throw .observations
  if !validGates scope.pool evidence.gates then throw .unavailableWorkers
  let currentPlan ← plan { state with observations := evidence.observations } scope
    request.task.allowedWorkerIds request.evidenceMs evidence.gates
  let refused := currentPlan.exclusions.filter fun exclusion => !exclusion.reasons.all waitable
  pure ({ state with
      observations := mergeResourceObservations host request.evidenceMs state.observations
        evidence.observations },
    ⟨request.gates.unavailableWorkerIds ++ evidence.gates.unavailableWorkerIds,
      request.gates.quotaUnavailableWorkerIds ++ evidence.gates.quotaUnavailableWorkerIds ++
        refused.map (·.workerId)⟩)

inductive Admission where
  | replayed (receipt : ResourceTaskReceipt)
  | waiting
  | reserved (receipt : ResourceTaskReceipt)

def taskDigest (task : ResourceTask) : JsString :=
  host.digest (canonical host.keysInOrder task.json)

def reservation (task : ResourceTask)
    (binding : ResourceBinding) (startedAt : JsString) : ResourceTaskReceipt where
  id := task.id
  taskDigest := taskDigest host task
  poolDigest := scope.poolDigest
  workerId := binding.workerId
  capacityKey := binding.capacityKey
  status := .reserved
  startedAt := startedAt
  finishedAt := none
  outputDigest := none
  inputTokens := none
  outputTokens := none
  reason := js "task-reserved"
  origin := none
  execution := none
  nativeProcess := none

def reserveSelected (selected : JsString) : Except PoolError (ResourcePoolState × Admission) :=
  if maxAttempts ≤ state.attempts.length then .error .capacity
  else
    match scope.bindings.find? fun row => row.workerId = selected, toISOString request.startedMs
      with
    | some binding, some startedAt => do
        let receipt := reservation host scope request.task binding startedAt
        let reserved := { state with attempts := state.attempts ++ [receipt] }
        requireResourcePoolSettlementHeadroom host scope.pool reserved
        pure (reserved, .reserved receipt)
    | _, _ => .error .assignment

def readEvidence : Except PoolError (ResourcePoolState × AdmissionGates) :=
  match request.evidence with
  | none => .ok (state, request.gates)
  | some evidence => do
      let fresh ← freshAdmission host scope request state evidence
      if request.aborted then throw .cancelled
      pure fresh

def assign (gated : ResourcePoolState × AdmissionGates) :
    Except PoolError (ResourcePoolState × Admission) := do
  let assignment ← plan gated.1 scope request.task.allowedWorkerIds request.planMs gated.2
  match assignment.selectedWorkerId with
  | none => pure (gated.1, .waiting)
  | some selected => reserveSelected host scope request gated.1 selected

def admitRequest : Except PoolError (ResourcePoolState × Admission) :=
  let merged := { state with
    observations := mergeResourceObservations host request.mergeMs state.observations
      request.observations }
  match merged.attempts.find? fun row => row.id = request.task.id with
  | some previous =>
      if previous.taskDigest ≠ taskDigest host request.task then .error .identityConflict
      else .ok (merged, .replayed previous)
  | none => readEvidence host scope request merged >>= assign host scope request

def acceptedRequest : Bool :=
  validGates scope.pool request.gates && validateResourceTask request.task &&
    request.task.allowedWorkerIds.all (scope.pool.workers.map (·.id)).contains &&
    validateResourceObservations scope.pool request.observations

end

/-! Settlement. -/

structure ResourceWorkerResult where
  status : ResourceTaskStatus
  ended : status ≠ .reserved
  output : JsString
  inputTokens : Option ℕ
  outputTokens : Option ℕ
  usageScope : Option ResourceUsageScope
  reason : JsString
  nativeProcess : Option ResourceNativeProcessDiagnostic
  observation : Option ResourceObservation
  dispatchAllowed : Bool
  elapsed : Double
  finishedMs : ℤ
  mergeMs : ℤ

/-- `validResourceExecutionDuration(elapsed) ? elapsed : null` -/
def measuredDuration (elapsed : Double) : Option Double :=
  if percent elapsed maxExecutionDurationMs then some elapsed else none

def knownUsage (result : ResourceWorkerResult) : Option (ℕ × ℕ) :=
  match result.inputTokens, result.outputTokens with
  | some input, some output => if validCount (input + output) then some (input, output) else none
  | _, _ => none

def settledReceipt (reserved : ResourceTaskReceipt)
    (result : ResourceWorkerResult) : ResourceTaskReceipt :=
  { reserved with
    status := result.status
    finishedAt := toISOString (max result.finishedMs (dateMs reserved.startedAt))
    outputDigest := if result.output = [] then none else some (host.digest result.output)
    inputTokens := (knownUsage result).map (·.1)
    outputTokens := (knownUsage result).map (·.2)
    reason := result.reason
    nativeProcess := result.nativeProcess <|> reserved.nativeProcess
    execution :=
      if result.dispatchAllowed then some ⟨measuredDuration result.elapsed, result.usageScope⟩
      else reserved.execution }

def settle (reserved receipt : ResourceTaskReceipt)
    (result : ResourceWorkerResult) (state : ResourcePoolState) :
    Except PoolError (ResourcePoolState × Unit) :=
  match state.attempts.findIdx? fun row => row.id = reserved.id with
  | none => .error .assignmentChanged
  | some index =>
      if (state.attempts[index]?).map (fun row => canonical host.keysInOrder row.json) ≠
          some (canonical host.keysInOrder reserved.json) then .error .assignmentChanged
      else if !result.observation.all fun row => validateResourceObservations scope.pool [row] then
        .error .observations
      else
        .ok ({ state with
          observations :=
            match result.observation with
            | none => state.observations
            | some row => mergeResourceObservations host result.mergeMs state.observations [row]
          attempts := state.attempts.set index receipt }, ())

/-! Policy. -/

def revisionOf (revision : Option ℕ) : ℕ := revision.getD 0

/-- `setResourcePoolAllocation`: no check of the room that is left. -/
def setResourcePoolAllocation (ceilingPercent : Fin 101) (expectedRevision : ℕ) (now : JsString)
    (state : ResourcePoolState) : Except PoolError (ResourcePoolState × Unit) :=
  if revisionOf (state.allocation.map (·.revision)) ≠ expectedRevision then
    .error .allocationConflict
  else
    .ok ({ state with allocation := some ⟨ceilingPercent, expectedRevision + 1, now⟩ }, ())

def setResourceWorkerAccess (pausedWorkerIds : List JsString)
    (expectedRevision : ℕ) (now : JsString) (state : ResourcePoolState) :
    Except PoolError (ResourcePoolState × Unit) :=
  if revisionOf (state.workerAccess.map (·.revision)) ≠ expectedRevision then
    .error .workerAccessConflict
  else
    let changed := { state with
      workerAccess := some ⟨pausedWorkerIds.insertionSort (· ≤ ·), expectedRevision + 1, now⟩ }
    (requireResourcePoolSettlementHeadroom host scope.pool changed).map fun _ => (changed, ())

def setResourceQuotaScopeAccess
    (exclusions : List ResourceQuotaScopeExclusion) (expectedRevision : ℕ) (now : JsString)
    (state : ResourcePoolState) : Except PoolError (ResourcePoolState × Unit) :=
  if revisionOf (state.quotaScopeAccess.map (·.revision)) ≠ expectedRevision then
    .error .quotaScopeConflict
  else
    let changed := { state with
      quotaScopeAccess := some ⟨exclusions.insertionSort fun first second =>
          if first.capacityKey ≠ second.capacityKey then
            host.keysInOrder first.capacityKey second.capacityKey
          else host.keysInOrder first.quotaScope.text second.quotaScope.text,
        expectedRevision + 1, now⟩ }
    (requireResourcePoolSettlementHeadroom host scope.pool changed).map fun _ => (changed, ())

end

def acceptedRevision (expectedRevision : ℕ) : Bool :=
  (expectedRevision : ℤ) < JsNumber.maxSafeInteger

/-! Runs of a pool: calls that take the ledger one at a time, and processes that end anywhere. -/

variable {host : PoolHost} {scope : PoolScope}

inductive PoolCall where
  | runResourceTask (request : TaskRequest)
  | settlement (reserved : ResourceTaskReceipt) (result : ResourceWorkerResult)
  | setResourcePoolAllocation (ceilingPercent : Fin 101) (expectedRevision : ℕ) (nowMs : ℤ)
  | setResourceWorkerAccess (pausedWorkerIds : List JsString) (expectedRevision : ℕ) (nowMs : ℤ)
  | setResourceQuotaScopeAccess (exclusions : List ResourceQuotaScopeExclusion)
      (expectedRevision : ℕ) (nowMs : ℤ)

/-- `runResourceTask` up to its reservation. -/
def reserveTask (host : PoolHost) (scope : PoolScope) (request : TaskRequest)
    (stored : Option ResourcePoolState) : Except PoolError (ResourcePoolState × Admission) :=
  if acceptedRequest scope request then transaction host scope (admitRequest host scope request)
    stored
  else .error .invalidRequest

/-- `runResourceTask` behind its worker. -/
def settleTask (host : PoolHost) (scope : PoolScope) (reserved : ResourceTaskReceipt)
    (result : ResourceWorkerResult) (stored : Option ResourcePoolState) :
    Except PoolError (ResourcePoolState × Unit) :=
  let receipt := settledReceipt host reserved result
  if checkedReceipt host scope.poolDigest scope.bindings scope.pool receipt then
    transaction host scope (settle host scope reserved receipt result) stored
  else .error .settlementEvidence

/-- A policy writer: its arguments are checked, then the ledger is changed at a time. -/
def writePolicy (host : PoolHost) (scope : PoolScope) (accepted : Bool) (nowMs : ℤ)
    (change : JsString → ResourcePoolState → Except PoolError (ResourcePoolState × Unit))
    (stored : Option ResourcePoolState) : Except PoolError (ResourcePoolState × Unit) :=
  match toISOString nowMs with
  | none => .error .invalidRequest
  | some now => if accepted then transaction host scope (change now) stored else .error
    .invalidRequest

def PoolCall.apply (host : PoolHost) (scope : PoolScope) (stored : Option ResourcePoolState) :
    PoolCall → Except PoolError (ResourcePoolState × Option ResourceTaskReceipt)
  | .runResourceTask request =>
      (reserveTask host scope request stored).map fun (state, admission) =>
        match admission with
        | .reserved receipt => (state, some receipt)
        | _ => (state, none)
  | .settlement reserved result =>
      (settleTask host scope reserved result stored).map fun (state, _) => (state, none)
  | .setResourcePoolAllocation ceilingPercent expectedRevision nowMs =>
      (writePolicy host scope (acceptedRevision expectedRevision) nowMs
        (Resources.setResourcePoolAllocation ceilingPercent expectedRevision) stored).map
          fun (state, _) => (state, none)
  | .setResourceWorkerAccess pausedWorkerIds expectedRevision nowMs =>
      (writePolicy host scope
        (acceptedRevision expectedRevision && validWorkerIds scope.pool pausedWorkerIds) nowMs
        (Resources.setResourceWorkerAccess host scope pausedWorkerIds expectedRevision) stored).map
          fun (state, _) => (state, none)
  | .setResourceQuotaScopeAccess exclusions expectedRevision nowMs =>
      (writePolicy host scope
        (acceptedRevision expectedRevision && validExclusions scope.pool scope.bindings exclusions)
        nowMs (Resources.setResourceQuotaScopeAccess host scope exclusions expectedRevision)
        stored).map fun (state, _) => (state, none)

structure PoolSystem where
  ledger : Option ResourcePoolState
  outstanding : List ResourceTaskReceipt
  reservedIds : List JsString

namespace PoolSystem

def start : PoolSystem := ⟨none, [], []⟩

def attempts (system : PoolSystem) : List ResourceTaskReceipt :=
  storedAttempts system.ledger

def leave (system : PoolSystem) (id : JsString) : PoolSystem :=
  { system with outstanding := system.outstanding.filter fun row => row.id ≠ id }

end PoolSystem

inductive PoolEvent where
  | answered (call : PoolCall)
  | crashedBefore (call : PoolCall)
  | crashedBehind (call : PoolCall)
  | exited (reserved : ResourceTaskReceipt)

def PoolSystem.called (system : PoolSystem) : PoolCall → PoolSystem
  | .settlement reserved _ => system.leave reserved.id
  | _ => system

def PoolSystem.durable (system : PoolSystem) (state : ResourcePoolState) :
    Option ResourceTaskReceipt → PoolSystem
  | none => { system with ledger := some state }
  | some receipt =>
      { system with ledger := some state, reservedIds := system.reservedIds ++ [receipt.id] }

def PoolSystem.after (host : PoolHost) (scope : PoolScope) (system : PoolSystem) :
    PoolEvent → PoolSystem
  | .answered call =>
      match call.apply host scope system.ledger with
      | .error _ => system.called call
      | .ok (state, receipt) =>
          let next := (system.called call).durable state receipt
          { next with outstanding := next.outstanding ++ receipt.toList }
  | .crashedBefore call => system.called call
  | .crashedBehind call =>
      match call.apply host scope system.ledger with
      | .error _ => system.called call
      | .ok (state, receipt) => (system.called call).durable state receipt
  | .exited reserved => system.leave reserved.id

/-- The clock does not go back while a call looks at it. -/
def TaskRequest.Forward (request : TaskRequest) : Prop :=
  request.mergeMs ≤ request.evidenceMs ∧ request.evidenceMs ≤ request.planMs ∧
    request.planMs ≤ request.startedMs

def PoolCall.Enabled (system : PoolSystem) : PoolCall → Prop
  | .runResourceTask request => request.Forward
  | .settlement reserved _ => reserved ∈ system.outstanding
  | _ => True

def PoolEvent.Enabled (system : PoolSystem) : PoolEvent → Prop
  | .answered call => call.Enabled system
  | .crashedBefore call => call.Enabled system
  | .crashedBehind call => call.Enabled system
  | .exited reserved => reserved ∈ system.outstanding

def PoolStep (host : PoolHost) (scope : PoolScope) (system : PoolSystem) (event : PoolEvent)
    (next : PoolSystem) : Prop :=
  event.Enabled system ∧ system.after host scope event = next

end AshlrHub.Resources

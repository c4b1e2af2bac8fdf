import AshlrHub.Resources.PoolRuntime

namespace AshlrHub.Resources

open Js Artifacts Authority

/-! Observations, the plan over a ledger, and what writes the ledger. -/

/-! Merging observations. -/

def ResourceObservation.capturedAt (observation : ResourceObservation) : JsString :=
  observation.updatedAt.getD observation.observedAt

/-- A reading that may replace a known one: new, complete and not yet over. -/
def fullyFresh (nowMs : ℤ) (before item : ResourceObservation) : Bool :=
  before.capturedAt < item.capturedAt && item.observedAt = item.capturedAt &&
    nowMs < dateMs item.expiresAt

def mergeWindows (nowMs : ℤ) (fresh : Bool) (item : ResourceObservation)
    (before : List ResourceQuotaWindow) :
    JsMap JsString ResourceQuotaWindow × Bool :=
  before.foldl
    (fun (windows, retained) window =>
      let replacement := windows.get? window.id
      let freshRecovery := fresh && replacement.any fun other =>
        other.usedPercent.isSome && other.resetsAt.any fun resets => nowMs < dateMs resets
      let raised := replacement.any fun other => other.usedPercent.any fun used =>
        window.usedPercent.all fun known => known.val < used.val
      if freshRecovery || raised then (windows, retained)
      else (windows.set window.id window, true))
    (item.windows.foldl (fun windows window => windows.set window.id window) [], false)

def fullerFirst (left right : ResourceQuotaWindow) : Bool :=
  let used (window : ResourceQuotaWindow) : ℚ := (window.usedPercent.map (·.val)).getD (-1)
  if used left ≠ used right then used right < used left else left.id ≤ right.id

def overflowWindow : ResourceQuotaWindow :=
  ⟨observationOverflow, some (wholePercent 100), none, false⟩

def mergeObservation (nowMs : ℤ) (before item : ResourceObservation) : ResourceObservation :=
  let fresh := fullyFresh nowMs before item
  let (windows, kept) := mergeWindows nowMs fresh item before.windows
  let overflow := maxObservationWindows < windows.length ||
    before.windows.any fun window => window.id = observationOverflow
  let retained := kept || overflow
  let bounded :=
    if overflow then
      (((windows.map (·.2)).filter fun window => window.id ≠ observationOverflow).insertionSort
        fun left right => fullerFirst left right).take (maxObservationWindows - 1) ++
          [overflowWindow]
    else windows.map (·.2)
  { item with
    health :=
      if overflow || (!fresh && before.health = .unavailable) then .unavailable else item.health
    windows := bounded
    updatedAt := some item.capturedAt
    observedAt :=
      if retained && before.observedAt < item.observedAt then before.observedAt
      else item.observedAt
    expiresAt :=
      if retained && before.expiresAt < item.expiresAt then before.expiresAt else item.expiresAt
    retryAfter := latest (before.retryAfter.toList ++ item.retryAfter.toList) }

/-- `mergeResourceObservations` -/
def mergeResourceObservations (host : PoolHost) (nowMs : ℤ)
    (previous incoming : List ResourceObservation) : List ResourceObservation :=
  let start : JsMap JsString ResourceObservation :=
    previous.foldl (fun merged item => merged.set item.workerId item) []
  (incoming.foldl
    (fun merged item =>
      match merged.get? item.workerId with
      | none => merged.set item.workerId item
      | some before =>
          if item.capturedAt < before.capturedAt || (item.capturedAt = before.capturedAt &&
              canonical host.keysInOrder item.json = canonical host.keysInOrder before.json) then
            merged
          else merged.set item.workerId (mergeObservation nowMs before item)) start).map (·.2)

/-! The plan over a ledger. -/

def ResourceTaskStatus.terminal : ResourceTaskStatus → Bool
  | .completed => true
  | .failed => true
  | .timedOut => true
  | .cancelled => true
  | _ => false

def applyCeiling (ceiling : Option (Fin 101)) (pool : ResourcePool) : ResourcePool :=
  match ceiling with
  | none => pool
  | some ceiling =>
      { pool with
        workers := pool.workers.map fun worker =>
          if worker.provider = .local then worker
          else
            { worker with
              reservePercent := if ceiling = 0 then wholePercent 0 else wholePercent (100 - ceiling)
              allowUnknownQuota :=
                if ceiling < 100 then some false else worker.allowUnknownQuota } }

section

variable (attempts : List ResourceTaskReceipt)

def attemptsOf (capacityKey : JsString) : List ResourceTaskReceipt :=
  attempts.filter fun row => row.capacityKey = capacityKey

def activeCount (capacityKey : JsString) : ℕ :=
  ((attemptsOf attempts capacityKey).filter fun row => !row.status.terminal).length

def recentAttempts (capacityKey : JsString) (nowMs : ℤ) (windowMs : ℕ) : List ResourceTaskReceipt :=
  (attemptsOf attempts capacityKey).filter fun row => nowMs - windowMs < dateMs row.startedAt

def nextEligibleAt (recent : List ResourceTaskReceipt) (windowMs : ℕ) : Option JsString :=
  (recent.map fun row => dateMs row.startedAt).min?.bind fun first =>
    toISOString (first + windowMs)

/-- A failure that says something of the account: not a host's veto before any contact. -/
def providerFailure (row : ResourceTaskReceipt) : Bool :=
  (row.status = .failed || row.status = .timedOut) &&
    !(row.status = .failed && row.reason = js "worker-dispatch-precondition-failed" &&
      row.execution.isNone && row.nativeProcess.isNone && row.outputDigest.isNone &&
      row.inputTokens.isNone && row.outputTokens.isNone)

def cooldown : Option JsString :=
  ((attempts.filter providerFailure).filterMap fun row => row.finishedAt.map dateMs).max?.bind
    fun last => toISOString (last + 60000)

end

def replaceObservation (workerId : JsString)
    (change : Option ResourceObservation → ResourceObservation)
    (observations : List ResourceObservation) : List ResourceObservation :=
  if observations.any fun row => row.workerId = workerId then
    observations.map fun row => if row.workerId = workerId then change (some row) else row
  else observations ++ [change none]

def syntheticObservation (workerId : JsString) (nowMs : ℤ) (health : ResourceHealth)
    (retryAfter : Option JsString) : ResourceObservation :=
  ⟨workerId, (toISOString nowMs).getD [], (toISOString (nowMs + 1000)).getD [], none, health, [],
    retryAfter⟩

section

variable (state : ResourcePoolState)

def shareEvidence (pool : ResourcePool)
    (bindings : List ResourceBinding) (nowMs : ℤ) (binding : ResourceBinding)
    (worker : ResourceWorker) (observations : List ResourceObservation) :
    List ResourceObservation :=
  let aliases := (bindings.filter (·.capacityKey = binding.capacityKey)).map (·.workerId)
  let shared := state.observations.filter fun row => aliases.contains row.workerId
  let hard := shared.find? fun row => row.health = .unavailable ||
    ((pool.worker? row.workerId).any (sharesResourceQuota worker) &&
      row.windows.any worker.exhausted)
  let retryAfter := latest (shared.filterMap (·.retryAfter))
  let retry := latest
    (retryAfter.toList ++ (cooldown (attemptsOf state.attempts binding.capacityKey)).toList)
  match hard with
  | some hard =>
      replaceObservation worker.id (fun current =>
        { current.getD hard with
          workerId := worker.id
          windows := (current.map (·.windows)).getD []
          health := .unavailable
          retryAfter := (retry <|> hard.retryAfter) }) observations
  | none =>
      if retry.any fun time => nowMs < dateMs time then
        replaceObservation worker.id (fun current =>
          match current with
          | some current => { current with retryAfter := retry }
          | none => syntheticObservation worker.id nowMs .ready retry) observations
      else observations

/-- The workers whose quota a ceiling makes unusable: not fresh, or not known. -/
def unknownUnderCeiling (nowMs : ℤ) (worker : ResourceWorker) : Bool :=
  worker.provider ≠ .local &&
    match state.observations.find? fun row => row.workerId = worker.id with
    | none => true
    | some row =>
        nowMs < dateMs row.observedAt || row.updatedAt.any (fun time => nowMs < dateMs time) ||
          dateMs row.expiresAt ≤ nowMs || row.windows.isEmpty || row.windows.any fun window =>
            window.usedPercent.isNone || window.resetsAt.all fun resets => dateMs resets ≤ nowMs

/-- `expandResourceQuotaDenials` -/
def expandQuotaDenials (pool : ResourcePool) (bindings : List ResourceBinding)
    (ids : List JsString) : List JsString :=
  ids ++ ids.flatMap fun source =>
    (pool.workers.filter fun target =>
      (pool.worker? source).any (sharesResourceQuota · target) &&
        bindings.any fun row => row.workerId = target.id &&
          (bindings.find? (·.workerId = source)).any (·.capacityKey = row.capacityKey)).map (·.id)

/-- `excludedResourceQuotaScopeWorkerIds` -/
def excludedWorkerIds (pool : ResourcePool) (bindings : List ResourceBinding)
    (exclusions : List ResourceQuotaScopeExclusion) : List JsString :=
  (pool.workers.filter fun worker => bindings.any fun binding => binding.workerId = worker.id &&
    exclusions.any fun row => row.capacityKey = binding.capacityKey &&
      worker.quotaScope.all (· = row.quotaScope)).map (·.id)

structure AdmissionGates where
  unavailableWorkerIds : List JsString
  quotaUnavailableWorkerIds : List JsString

def planInput (scope : PoolScope) (allowedWorkerIds : List JsString)
    (nowMs : ℤ) (gates : AdmissionGates) : ResourceAssignmentInput :=
  let ceiling := state.allocation.map (·.ceilingPercent)
  let pool := applyCeiling ceiling scope.pool
  let bound := scope.bindings.filterMap fun binding =>
    (pool.worker? binding.workerId).map fun worker => (binding, worker)
  let shared := bound.foldl
    (fun observations (binding, worker) =>
      shareEvidence state pool scope.bindings nowMs binding worker observations)
    state.observations
  let unavailable := gates.unavailableWorkerIds ++
    (state.workerAccess.map (·.pausedWorkerIds)).getD [] ++
    if ceiling = some 0 then (pool.workers.filter (·.provider ≠ .local)).map (·.id) else []
  let quotaUnavailable := gates.quotaUnavailableWorkerIds ++
    if ceiling.any (· < 100) then
      (pool.workers.filter (unknownUnderCeiling state nowMs)).map (·.id)
    else []
  let unavailableCapacities :=
    (scope.bindings.filter fun row => unavailable.contains row.workerId).map (·.capacityKey)
  let denied := expandQuotaDenials pool scope.bindings quotaUnavailable
  let vetoed := scope.bindings.foldl
    (fun observations binding =>
      if unavailableCapacities.contains binding.capacityKey || denied.contains binding.workerId then
        replaceObservation binding.workerId (fun current =>
          match current with
          | some current => { current with health := .unavailable }
          | none => syntheticObservation binding.workerId nowMs .unavailable none) observations
      else observations) shared
  { pool
    observations := vetoed
    allowedWorkerIds
    activeCounts := bound.foldl
      (fun counts (binding, worker) =>
        counts.set worker.id (activeCount state.attempts binding.capacityKey)) []
    taskReservationCounts := bound.foldl
      (fun counts (binding, worker) =>
        let recent := recentAttempts state.attempts binding.capacityKey nowMs worker.taskWindowMs
        counts.set worker.id ⟨recent.length, nextEligibleAt recent worker.taskWindowMs⟩) []
    nowMs
    quotaScopeExcludedWorkerIds := excludedWorkerIds pool scope.bindings
      ((state.quotaScopeAccess.map (·.exclusions)).getD []) }

/-- `plan` -/
def plan (scope : PoolScope) (allowedWorkerIds : List JsString)
    (nowMs : ℤ) (gates : AdmissionGates) : Except PoolError ResourceAssignmentPlan :=
  match planResourceAssignment (planInput state scope allowedWorkerIds nowMs gates) with
  | none => .error .assignment
  | some assignment => .ok assignment

end

end AshlrHub.Resources

import AshlrHub.Authority.Patterns
import AshlrHub.Js.Map
import AshlrHub.Js.Object

namespace AshlrHub.Resources

open Js Authority

/-! Task admission of a resource pool: one task, one decision. -/

inductive ResourceProvider where
  | codex
  | claude
  | local
deriving DecidableEq

inductive ResourceQuotaScope where
  | codexGeneralV1
  | codexSparkV1
deriving DecidableEq

structure ResourceWorker where
  id : JsString
  provider : ResourceProvider
  model : JsString
  quotaScope : Option ResourceQuotaScope
  maxConcurrent : ℕ
  reservePercent : Double
  maxTasksPerWindow : ℕ
  taskWindowMs : ℕ
  priority : ℕ
  allowUnknownQuota : Option Bool

structure ResourcePool where
  id : JsString
  workers : List ResourceWorker

structure ResourceBinding where
  workerId : JsString
  capacityKey : JsString
deriving DecidableEq

structure ResourceQuotaWindow where
  id : JsString
  usedPercent : Option Double
  resetsAt : Option JsString
  /-- Present means true: the provider flagged the limit. -/
  limitReached : Bool

inductive ResourceHealth where
  | ready
  | unavailable
deriving DecidableEq

structure ResourceObservation where
  workerId : JsString
  observedAt : JsString
  expiresAt : JsString
  updatedAt : Option JsString
  health : ResourceHealth
  windows : List ResourceQuotaWindow
  retryAfter : Option JsString

/-! Checks. -/

def isLowerAlphanumeric (unit : CodeUnit) : Bool :=
  isDigit unit || isLower unit

/-- `ID`: `/^[a-z0-9][a-z0-9_-]{0,63}$/` -/
def identifier (text : JsString) : Bool :=
  headThenUpTo isLowerAlphanumeric
    (fun unit => isLowerAlphanumeric unit || (js "_-").contains unit) 63 text

/-- A canonical instant of the years `0000` to `9999`. -/
def timestamp (text : JsString) : Bool :=
  isoInstantPattern text && isCanonicalInstant text

def percent (value : Double) (high : ℚ) : Bool :=
  0 ≤ value.val && value.val ≤ high

instance percentNeZero : NeZero 101 := ⟨by decide⟩

def wholePercent (n : Fin 101) : Double where
  val := (n : ℕ)
  isDouble := by
    have small := n.isLt
    apply @isDouble_intCast (n : ℕ)
    rw [abs_of_nonneg (by omega)]
    omega
  finite := by
    have bound : ((n : ℕ) : ℚ) < 2 ^ 7 := by
      calc ((n : ℕ) : ℚ) ≤ 100 := by exact_mod_cast Nat.le_of_lt_succ n.isLt
        _ < 2 ^ 7 := by norm_num
    rw [abs_of_nonneg (by positivity)]
    exact bound.trans_le (pow_le_pow_right₀ one_le_two (by norm_num))

def maxObservationWindows : ℕ := 8

def maxObservationAgeMs : ℤ := 300000

/-- `GENERAL_MODELS` -/
def generalModels : List JsString :=
  [js "gpt-6-astra", js "gpt-5.6-sol", js "gpt-5.6-terra", js "gpt-5.6-luna"]

def validQuotaScope (provider : ResourceProvider) (model : JsString) : ResourceQuotaScope → Bool
  | .codexGeneralV1 => provider = .codex && generalModels.contains model
  | .codexSparkV1 => provider = .codex && model = js "gpt-5.3-codex-spark"

section

variable (worker : ResourceWorker)

/-- `resourceQuotaBuckets`: the one bucket of the scope. -/
def resourceQuotaBucket : Option JsString :=
  worker.quotaScope.map fun scope =>
    if scope = .codexSparkV1 then js "codex_bengalfox" else js "codex"

def sharesResourceQuota (left right : ResourceWorker) : Bool :=
  match resourceQuotaBucket left, resourceQuotaBucket right with
  | some first, some second => first = second
  | _, _ => true

def isSpaceOrBreak (unit : CodeUnit) : Bool :=
  [0x09, 0x0A, 0x0B, 0x0C, 0x0D, 0x20, 0xA0, 0x1680, 0x2000, 0x2001, 0x2002, 0x2003, 0x2004,
    0x2005, 0x2006, 0x2007, 0x2008, 0x2009, 0x200A, 0x2028, 0x2029, 0x202F, 0x205F, 0x3000,
    0xFEFF].contains unit

/-- A model's name: something visible, and no control character. -/
def validModel (text : JsString) : Bool :=
  text.length ≤ 160 && !text.all isSpaceOrBreak && text.all fun unit => 32 ≤ unit && unit ≠ 127

def validWorker : Bool :=
  identifier worker.id && validModel worker.model &&
    (1 ≤ worker.maxConcurrent && worker.maxConcurrent ≤ 16) && percent worker.reservePercent 99 &&
    (1 ≤ worker.maxTasksPerWindow && worker.maxTasksPerWindow ≤ 10000) &&
    (1000 ≤ worker.taskWindowMs && worker.taskWindowMs ≤ 604800000) && worker.priority ≤ 100 &&
    worker.quotaScope.all fun scope => validQuotaScope worker.provider worker.model scope

variable (pool : ResourcePool)

def validateResourcePool : Bool :=
  identifier pool.id && 1 ≤ pool.workers.length && pool.workers.length ≤ 1048576 &&
    (pool.workers.map (·.id)).Nodup && pool.workers.all validWorker

def ResourcePool.worker? (id : JsString) : Option ResourceWorker :=
  pool.workers.find? fun worker => worker.id = id

theorem worker?_id {pool : ResourcePool} {id : JsString} {worker : ResourceWorker}
    (found : pool.worker? id = some worker) : worker ∈ pool.workers ∧ worker.id = id := by
  have named := List.find?_some found
  exact ⟨List.mem_of_find?_eq_some found, of_decide_eq_true named⟩

theorem worker?_of_mem {pool : ResourcePool} (once : (pool.workers.map (·.id)).Nodup)
    {worker : ResourceWorker} (known : worker ∈ pool.workers) :
    pool.worker? worker.id = some worker := by
  cases found : pool.worker? worker.id with
  | none => exact absurd rfl (of_decide_eq_false (eq_false_of_ne_true
      (List.find?_eq_none.mp found worker known)))
  | some other =>
      obtain ⟨member, same⟩ := worker?_id found
      rw [List.inj_on_of_nodup_map once member known same]

def sameBounds (left right : ResourceWorker) : Bool :=
  left.provider = right.provider && left.maxConcurrent = right.maxConcurrent &&
    left.maxTasksPerWindow = right.maxTasksPerWindow && left.taskWindowMs = right.taskWindowMs

def validateResourceBindings (bindings : List ResourceBinding) : Bool :=
  bindings.length = pool.workers.length && (bindings.map (·.workerId)).Nodup &&
    bindings.all (fun row => identifier row.capacityKey && (pool.worker? row.workerId).isSome) &&
    bindings.all fun left => bindings.all fun right => left.capacityKey ≠ right.capacityKey ||
      (pool.worker? left.workerId).all fun worker =>
        (pool.worker? right.workerId).all (sameBounds worker)

def validWindow (bucket : Option JsString) (window : ResourceQuotaWindow) : Bool :=
  identifier window.id && window.usedPercent.all (percent · 100) && window.resetsAt.all timestamp &&
    (!window.limitReached || window.usedPercent.any fun used => used.val = 100) &&
    bucket.all fun bucket =>
      window.id = js "codex_" ++ bucket ++ js "_primary" ||
        window.id = js "codex_" ++ bucket ++ js "_secondary"

def dateMs (text : JsString) : ℤ := (dateParse text).getD 0

def validObservation (observation : ResourceObservation) : Bool :=
  match pool.worker? observation.workerId with
  | none => false
  | some worker =>
      identifier observation.workerId && timestamp observation.observedAt &&
        timestamp observation.expiresAt && observation.observedAt < observation.expiresAt &&
        dateMs observation.expiresAt - dateMs observation.observedAt ≤ maxObservationAgeMs &&
        observation.updatedAt.all (fun updated =>
          timestamp updated && observation.observedAt ≤ updated) &&
        observation.windows.length ≤ maxObservationWindows && observation.retryAfter.all timestamp
          &&
        (observation.windows.map (·.id)).Nodup &&
        observation.windows.all (validWindow (resourceQuotaBucket worker))

def validateResourceObservations (observations : List ResourceObservation) : Bool :=
  observations.length ≤ pool.workers.length && (observations.map (·.workerId)).Nodup &&
    observations.all (validObservation pool)

/-! The plan. -/

inductive ResourceExclusionReason where
  | workerNotAllowed
  | workerUnavailable
  | providerRetryAfter
  | observationMissing
  | observationFuture
  | observationStale
  | quotaWindowsMissing
  | quotaWindowUnknown
  | quotaWindowResetPassed
  | quotaReserveReached
  | concurrencyExhausted
  | operatorTaskCapReached
  | operatorQuotaScopeExcluded
deriving DecidableEq

structure ResourceTaskReservationCount where
  count : ℕ
  nextEligibleAt : Option JsString

structure ResourceAssignmentInput where
  pool : ResourcePool
  observations : List ResourceObservation
  allowedWorkerIds : List JsString
  activeCounts : JsMap JsString ℕ
  taskReservationCounts : JsMap JsString ResourceTaskReservationCount
  nowMs : ℤ
  quotaScopeExcludedWorkerIds : List JsString

structure ResourceAssignmentCandidate where
  worker : ResourceWorker
  operatorCapped : Bool
  usedPercent : Option Double
  activeCount : ℕ
  taskReservationCount : ℕ
  pressure : ℚ

structure ResourceAssignmentExclusion where
  workerId : JsString
  reasons : List ResourceExclusionReason
  nextEligibleAt : Option JsString

structure ResourceAssignmentPlan where
  selectedWorkerId : Option JsString
  candidates : List ResourceAssignmentCandidate
  exclusions : List ResourceAssignmentExclusion

/-- The first of the texts in code unit order: `.sort()[0]`. -/
def earliest (texts : List JsString) : Option JsString :=
  (texts.insertionSort (· ≤ ·)).head?

/-- The last of the texts in code unit order: `.sort().at(-1)`. -/
def latest (texts : List JsString) : Option JsString :=
  (texts.insertionSort (· ≤ ·)).getLast?

/-- `100 - worker.reservePercent` -/
def ResourceWorker.usable : ℚ :=
  nearestDouble (100 - worker.reservePercent.val)

def ResourceWorker.exhausted (window : ResourceQuotaWindow) : Bool :=
  window.usedPercent.any fun used => worker.usable ≤ used.val

def reasonIf (met : Bool) (reason : ResourceExclusionReason) : List ResourceExclusionReason :=
  if met then [reason] else []

def freshness (nowMs : ℤ) : Option ResourceObservation → List ResourceExclusionReason
  | none => [.observationMissing]
  | some observed => reasonIf (dateMs observed.expiresAt ≤ nowMs) .observationStale

def quotaUnknown (nowMs : ℤ) (observed : Option ResourceObservation) :
    List ResourceExclusionReason :=
  let windows := (observed.map (·.windows)).getD []
  freshness nowMs observed ++
    (reasonIf windows.isEmpty .quotaWindowsMissing ++
      windows.flatMap fun window =>
        reasonIf (window.usedPercent.isNone || window.resetsAt.isNone) .quotaWindowUnknown ++
          reasonIf (window.resetsAt.any fun resets => dateMs resets ≤ nowMs)
            .quotaWindowResetPassed)

def quotaReasons (nowMs : ℤ) (worker : ResourceWorker) (observed : Option ResourceObservation) :
    List ResourceExclusionReason :=
  if worker.provider = .local then freshness nowMs observed
  else
    reasonIf (observed.any fun row => row.windows.any worker.exhausted) .quotaReserveReached ++
      if worker.allowUnknownQuota = some true then [] else quotaUnknown nowMs observed

def exclusionReasons (input : ResourceAssignmentInput) (worker : ResourceWorker)
    (observed : Option ResourceObservation) (count tasks : ℕ) : List ResourceExclusionReason :=
  List.flatten [
    reasonIf (input.quotaScopeExcludedWorkerIds.contains worker.id) .operatorQuotaScopeExcluded,
    reasonIf (worker.maxConcurrent ≤ count) .concurrencyExhausted,
    reasonIf (worker.maxTasksPerWindow ≤ tasks) .operatorTaskCapReached,
    reasonIf (observed.any (·.health = .unavailable)) .workerUnavailable,
    reasonIf (observed.any fun row => row.retryAfter.any fun time => input.nowMs < dateMs time)
      .providerRetryAfter,
    reasonIf (observed.any fun row => input.nowMs < dateMs row.observedAt ||
      row.updatedAt.any fun time => input.nowMs < dateMs time) .observationFuture,
    quotaReasons input.nowMs worker observed]

def retryTimes (input : ResourceAssignmentInput) (worker : ResourceWorker)
    (observed : Option ResourceObservation) (tasks : ResourceTaskReservationCount) :
    List JsString :=
  (if worker.maxTasksPerWindow ≤ tasks.count then
    tasks.nextEligibleAt.toList.filter fun time => input.nowMs < dateMs time else []) ++
  (observed.bind (·.retryAfter)).toList.filter fun time => input.nowMs < dateMs time

def largest (values : List ℚ) : ℚ := values.foldl max 0

def pressure (count tasks : ℕ) (usedPercent : Option Double) : ℚ :=
  largest [nearestDouble (count / worker.maxConcurrent),
    nearestDouble (tasks / worker.maxTasksPerWindow),
    (usedPercent.map fun used => nearestDouble (used.val / worker.usable)).getD 0]

end

def fullestWindow (windows : List ResourceQuotaWindow) : Option Double :=
  (windows.filterMap (·.usedPercent)).foldl
    (fun fullest used =>
      match fullest with
      | none => some used
      | some other => if other.val < used.val then some used else some other) none

def assess (input : ResourceAssignmentInput) (worker : ResourceWorker) :
    ResourceAssignmentCandidate ⊕ ResourceAssignmentExclusion :=
  if !input.allowedWorkerIds.contains worker.id then
    .inr ⟨worker.id, [.workerNotAllowed], none⟩
  else
    let observed := input.observations.find? fun row => row.workerId = worker.id
    let count := (input.activeCounts.get? worker.id).getD 0
    let tasks := (input.taskReservationCounts.get? worker.id).getD ⟨0, none⟩
    let reasons := exclusionReasons input worker observed count tasks.count
    if reasons ≠ [] then
      .inr ⟨worker.id, reasons.eraseDups,
        if input.quotaScopeExcludedWorkerIds.contains worker.id then none
        else earliest (retryTimes input worker observed tasks)⟩
    else
      let unknown := worker.provider ≠ .local ∧ quotaUnknown input.nowMs observed ≠ []
      let usedPercent :=
        if worker.provider = .local ∨ unknown then none
        else fullestWindow ((observed.map (·.windows)).getD [])
      .inl ⟨worker, unknown, usedPercent, count, tasks.count,
        pressure worker count tasks.count usedPercent⟩

def preferred (left right : ResourceAssignmentCandidate) : Bool :=
  if left.worker.priority ≠ right.worker.priority then right.worker.priority < left.worker.priority
  else if left.pressure ≠ right.pressure then left.pressure < right.pressure
  else left.worker.id ≤ right.worker.id

def maxPlanMs : ℤ := 253402300799999

def planResourceAssignment (input : ResourceAssignmentInput) : Option ResourceAssignmentPlan :=
  let known := input.pool.workers.map (·.id)
  if !(0 ≤ input.nowMs && input.nowMs ≤ maxPlanMs) || !validateResourcePool input.pool ||
      !validateResourceObservations input.pool input.observations ||
      !(input.allowedWorkerIds.Nodup && input.allowedWorkerIds.all known.contains) ||
      !(input.quotaScopeExcludedWorkerIds.Nodup &&
        input.quotaScopeExcludedWorkerIds.all known.contains) ||
      !input.activeCounts.keys.all known.contains ||
      !input.taskReservationCounts.keys.all known.contains ||
      !input.taskReservationCounts.all (fun row => row.2.nextEligibleAt.all timestamp) then
    none
  else
    let assessed := input.pool.workers.map (assess input)
    let candidates := (assessed.filterMap Sum.getLeft?).insertionSort fun left right =>
      preferred left right
    some ⟨candidates.head?.map (·.worker.id), candidates, assessed.filterMap Sum.getRight?⟩

end AshlrHub.Resources

import AshlrHub.Resources.SupervisorState

namespace AshlrHub.Supervisor

open Js Artifacts Authority Resources Universe

/-! The supervisor's transitions.  Each is one turn of the event loop; a task that returns is
settled and leaves `active` in the same turn. -/

structure Epoch where
  poolDigest : JsString
  scopeDigest : JsString
  workerIds : List JsString

structure SupervisorHost where
  /-- `localeCompare` on keys. -/
  keysInOrder : JsString → JsString → Bool
  workspace : JsString
  epoch : Epoch
  epochs : List Epoch
  maxParallel : ℕ
  maxQueued : ℕ

/-- `active` holds the rows that `start` was called with. -/
structure ResourcePoolSupervisor where
  state : DurableState
  active : List DurableJob

/-- A time that a `Date` can hold. -/
abbrev Clock := { now : ℤ // isTime now = true }

abbrev Attempts :=
  { attempts : List ResourceTaskReceipt // ∀ receipt ∈ attempts, validReason receipt.reason = true }

inductive Hold where
  | hostExecutionStopped
  | projectNotEnabled
  | projectDirectoryUnavailable
  | poolEvolutionReenrollmentRequired

def Hold.text : Hold → JsString
  | .hostExecutionStopped => js "host-execution-stopped"
  | .projectNotEnabled => js "project-not-enabled"
  | .projectDirectoryUnavailable => js "project-directory-unavailable"
  | .poolEvolutionReenrollmentRequired => js "pool-evolution-reenrollment-required"

def DurableState.job? (state : DurableState) (id : JsString) : Option DurableJob :=
  state.jobs.find? (·.id = id)

def notAJob : Thrown := .supervisor .notFound (js "Resource task unavailable")

def identityMismatch : Thrown := .supervisor .conflict (js "Task receipt identity mismatch")

section

variable (host : SupervisorHost)

/-! Writing the state. -/

def persist (next : DurableState) (supervisor : ResourcePoolSupervisor) :
    Except Thrown ResourcePoolSupervisor :=
  if maxStateBytes < (stateFile host.keysInOrder next).length then .error stateCapacityReached
  else .ok { supervisor with state := next }

section

variable (now : Clock)

/-- `new Date(Math.max(Date.now(), Date.parse(updatedAt))).toISOString()` -/
def touched (updatedAt : JsString) : Except Thrown JsString :=
  match (dateParse updatedAt).bind fun last => toISOString (max now.val last) with
  | some instant => .ok instant
  | none => .error .invalidTime

def replaceJob (id : JsString) (row : DurableJob) : List DurableJob → List DurableJob
  | [] => []
  | job :: jobs => if job.id = id then row :: jobs else job :: replaceJob id row jobs

def update (id : JsString) (patch : DurableJob → DurableJob)
    (supervisor : ResourcePoolSupervisor) : Except Thrown ResourcePoolSupervisor :=
  match supervisor.state.job? id with
  | none => .error (.supervisor .notFound (js "Resource supervisor job unavailable"))
  | some job => do
      let instant ← touched now job.updatedAt
      let jobs := replaceJob id { patch job with updatedAt := instant } supervisor.state.jobs
      persist host { supervisor.state with jobs := jobs } supervisor

/-! Evidence of the pool's ledger. -/

def originFor (state : DurableState) (job : DurableJob) : Except Thrown Epoch :=
  let id := if state.schemaVersion = 5 then job.originPoolDigest.or state.originPoolDigest
    else some host.epoch.poolDigest
  match id.bind fun id => host.epochs.find? (·.poolDigest = id) with
  | some epoch => .ok epoch
  | none => .error (.supervisor .unavailable (js "Console task origin unavailable"))

def receiptFor (state : DurableState) (job : DurableJob) (attempts : Attempts) :
    Except Thrown (Option ResourceTaskReceipt) :=
  match attempts.val.find? (·.id = job.id) with
  | none => .ok none
  | some receipt => do
      if receipt.taskDigest ≠ job.taskDigest then throw identityMismatch
      let origin ← originFor host state job
      if receipt.poolDigest ≠ origin.poolDigest ∨ receipt.workerId ∉ job.allowedWorkerIds then
        throw identityMismatch
      return some receipt

/-! The course of a task. -/

def closedRow (receipt : Option ResourceTaskReceipt) (reason : JsString) (row : DurableJob) :
    DurableJob :=
  { row with
    state := if receipt.any (·.status.terminal) then .settled else .unresolved
    workerId := receipt.map (·.workerId)
    outcome := receipt.map (·.status)
    reason := some ((receipt.map (·.reason)).getD reason)
    input := none }

def dropContext (history : Option TaskHistory) (row : DurableJob) : DurableJob :=
  if history.isSome then row else row.withoutContext

def capture (receipt : Option ResourceTaskReceipt) (output : Option JsString)
    (retained : Option (Option TaskHistory)) : Option (Option TaskHistory) :=
  match retained.join, output with
  | some history, some text =>
      if receipt.any (·.status = .completed) then
        some (some ⟨history.prompt, some (boundedOutput text maxHistoryOutputBytes)⟩)
      else retained
  | _, _ => retained

def settle (job : DurableJob) (receipt : Option ResourceTaskReceipt)
    (reason : JsString) (output : Option JsString) (supervisor : ResourcePoolSupervisor) :
    Except Thrown ResourcePoolSupervisor :=
  update host now job.id (fun row =>
    { dropContext row.history (closedRow receipt reason row) with
      retained := capture receipt output row.retained }) supervisor

def holdJob (job : DurableJob) (hold : Hold) (supervisor : ResourcePoolSupervisor) :
    Except Thrown ResourcePoolSupervisor :=
  if job.reason = some hold.text then .ok supervisor
  else update host now job.id (fun row => { row with reason := some hold.text }) supervisor

/-- `start`, up to its first await. -/
def start (job : DurableJob) (supervisor : ResourcePoolSupervisor) :
    Except Thrown ResourcePoolSupervisor := do
  if job.input.isNone then throw (.error (js "Queued task input unavailable"))
  let dispatching ← update host now job.id (fun row =>
    { row with state := .dispatching, reason := some (js "dispatch-requested"),
               workerId := none }) supervisor
  return { dispatching with active := job :: dispatching.active }

/-- What `pump` does about one queued job; `hold` is what `projectHold` and the host's veto say. -/
def pump (id : JsString) (attempts : Attempts) (hold : Option Hold)
    (supervisor : ResourcePoolSupervisor) : Except Thrown ResourcePoolSupervisor :=
  match supervisor.state.job? id with
  | none => .ok supervisor
  | some job =>
      if supervisor.state.paused ∨ host.maxParallel ≤ supervisor.active.length ∨
        job.state ≠ .queued then .ok supervisor
      else
        match receiptFor host supervisor.state job attempts with
        | .error thrown =>
            if thrown = identityMismatch then
              settle host now job none (js "task-identity-conflict") none supervisor
            else .error thrown
        | .ok (some receipt) =>
            settle host now job (some receipt) (js "existing-receipt-unresolved") none supervisor
        | .ok none => do
            let origin ← originFor host supervisor.state job
            if origin.poolDigest ≠ host.epoch.poolDigest then
              holdJob host now job .poolEvolutionReenrollmentRequired supervisor
            else
              match hold with
              | some hold => holdJob host now job hold supervisor
              | none => start host now job supervisor

/-- The end of `start`: a reservation that is already there names the worker. -/
def reserved (now : Clock) (id : JsString) (attempts : Attempts)
    (supervisor : ResourcePoolSupervisor) : Except Thrown ResourcePoolSupervisor :=
  match supervisor.active.find? (·.id = id) with
  | none => .ok supervisor
  | some job =>
      match receiptFor host supervisor.state job attempts with
      | .error thrown => if thrown = identityMismatch then .ok supervisor else .error thrown
      | .ok none => .ok supervisor
      | .ok (some receipt) =>
          if receipt.status = .reserved then
            update host now id (fun row => { row with workerId := some receipt.workerId })
              supervisor
          else .ok supervisor

inductive TaskResult where
  | unserved (aborted : Bool) (hold : Option Hold)
  | served (attempts : Attempts) (output : Option JsString)
  | failed (attempts : Attempts)

/-- The task goes back to the queue, or ends where it was asked to. -/
def unservedRow (aborted : Bool) (hold : Option Hold) (job row : DurableJob) : DurableJob :=
  let answered :=
    { row with
      state := if aborted then .cancelled else .queued
      outcome := if aborted then some .cancelled else none
      workerId := none
      input := if aborted then none else job.input
      reason := some ((hold.map (·.text)).getD (js "no-eligible-capacity")) }
  if aborted then dropContext job.history answered else answered

def settleFailed (job : DurableJob) (attempts : Attempts)
    (supervisor : ResourcePoolSupervisor) : Except Thrown ResourcePoolSupervisor :=
  match receiptFor host supervisor.state job attempts with
  | .ok receipt =>
      settle host now job receipt (js "dispatch-settlement-unavailable") none supervisor
  | .error thrown =>
      if thrown = identityMismatch then
        settle host now job none (js "task-identity-conflict") none supervisor
      else .error thrown

def settleResult (job : DurableJob) (result : TaskResult)
    (supervisor : ResourcePoolSupervisor) : Except Thrown ResourcePoolSupervisor :=
  match result with
  | .unserved aborted hold => update host now job.id (unservedRow aborted hold job) supervisor
  | .served attempts output =>
      match receiptFor host supervisor.state job attempts with
      | .ok (some receipt) =>
          settle host now job (some receipt) (js "settlement-unavailable") output supervisor
      | _ => settleFailed host now job attempts supervisor
  | .failed attempts => settleFailed host now job attempts supervisor

/-- The handlers of the task's promise, the last of which takes it out of `active`. -/
def finish (id : JsString) (result : TaskResult)
    (supervisor : ResourcePoolSupervisor) : Except Thrown ResourcePoolSupervisor :=
  match supervisor.active.find? (·.id = id) with
  | none => .ok supervisor
  | some job => do
      let settled ← settleResult host now job result supervisor
      return { settled with active := settled.active.filter (·.id ≠ id) }

/-! Calls. -/

def cancel (id : JsString) (supervisor : ResourcePoolSupervisor) :
    Except Thrown ResourcePoolSupervisor :=
  match supervisor.state.job? id with
  | none => .error notAJob
  | some job =>
      if job.state = .queued then
        update host now id (fun row => dropContext job.history
          { row with state := .cancelled, outcome := some .cancelled, input := none,
                     reason := some (js "queued-task-cancelled") }) supervisor
      else if supervisor.active.any (·.id = id) then
        update host now id (fun row =>
          { row with reason := some (js "cancellation-requested") }) supervisor
      else if job.state = .dispatching ∨ job.state = .unresolved then
        .error (.supervisor .conflict (js "Resource task is not owned by this console"))
      else .ok supervisor

def setPaused (paused : Bool) (supervisor : ResourcePoolSupervisor) :
    Except Thrown ResourcePoolSupervisor :=
  if supervisor.state.paused = paused then .ok supervisor
  else persist host { supervisor.state with paused := paused } supervisor

def deleteHistory (id : JsString) (supervisor : ResourcePoolSupervisor) :
    Except Thrown ResourcePoolSupervisor :=
  match supervisor.state.job? id with
  | none => .error notAJob
  | some job =>
      if job.state ≠ .settled ∧ job.state ≠ .cancelled then
        .error (.supervisor .conflict
          (js "Task history can be deleted only after terminal settlement"))
      else if job.history.isSome then
        update host now id (fun row => { row.withoutContext with retained := some none }) supervisor
      else .ok supervisor

/-! A new owner of the state. -/

def recoverJob (state : DurableState) (attempts : Attempts) (job : DurableJob) :
    Except Thrown DurableJob :=
  if !job.state.pending then .ok job
  else
    match receiptFor host state job attempts with
    | .error thrown =>
        if thrown = identityMismatch then do
          let instant ← touched now job.updatedAt
          return { dropContext job.history (closedRow none (js "task-identity-conflict") job) with
                   updatedAt := instant }
        else .error thrown
    | .ok receipt =>
        if job.state = .queued ∧ receipt.isNone then .ok job
        else do
          let instant ← touched now job.updatedAt
          return { dropContext job.history
                     (closedRow receipt (js "previous-dispatch-unresolved") job) with
                   updatedAt := instant }

/-- `createResourcePoolSupervisor` over a state with the projects it is configured with. -/
def restart (attempts : Attempts) (supervisor : ResourcePoolSupervisor) :
    Except Thrown ResourcePoolSupervisor := do
  if supervisor.state.schemaVersion ≠ 1 then assertStateHeadroom host.keysInOrder supervisor.state
  let jobs ← supervisor.state.jobs.mapM (recoverJob host now supervisor.state attempts)
  persist host { supervisor.state with jobs := jobs } { supervisor with active := [] }

end

end

/-! Submissions: the checks of a new task, and the row that is admitted for it. -/

/-- `MAX_RESOURCE_SUPERVISOR_JOBS` -/
def maxJobs : ℕ := 256

/-- `MAX_RESOURCE_CONVERSATION_BYTES` -/
def maxConversationBytes : ℕ := 256 * 1024

def maxPromptBytes : ℕ := 32 * 1024

def invalidTask : Thrown := .supervisor .invalidInput (js "Invalid resource console task")

section

variable (host : SupervisorHost)

/-! Inputs. -/

def projectWorkspace (projects : Option (List ResourceConsoleProjectBinding))
    (projectId : Option JsString) : Option JsString :=
  match projectId with
  | none => some host.workspace
  | some id =>
      if id = js "default" then some host.workspace
      else ((projects.getD []).find? (·.id = id)).map (·.workspace)

def runtimeTask (input : ResourceConsoleTaskInput) (prompt cwd : JsString) : ResourceTask where
  id := input.id
  allowedWorkerIds := input.allowedWorkerIds
  prompt := prompt
  cwd := cwd
  timeoutMs := input.timeoutMs
  maxOutputTokens := input.maxOutputTokens
  readOnly := input.readOnly

def validParent (id : JsString) (parent : ResourceConsoleParent) : Bool :=
  identifier parent.taskId && sha256HexPattern parent.expectedTranscriptDigest && parent.taskId ≠ id

/-- `taskInput`: the default project is left out of what is kept. -/
def taskInput (workerIds : List JsString) (projects : Option (List ResourceConsoleProjectBinding))
    (value : ResourceConsoleTaskInput) : Except Thrown ResourceConsoleTaskInput :=
  let projectId := value.projectId.filter (· ≠ js "default")
  match projectWorkspace host projects projectId with
  | none => .error invalidTask
  | some cwd =>
      if value.projectId.all identifier && (utf8Encode value.prompt).length ≤ maxPromptBytes &&
          value.parent.all (validParent value.id) &&
          validateResourceTask (runtimeTask value value.prompt cwd) &&
          value.allowedWorkerIds.all workerIds.contains then
        .ok { value with projectId := projectId }
      else .error invalidTask

/-! Conversations. -/

/-- `resourceConsoleConversationPrompt` -/
def conversationPrompt (prompt : JsString) (context : List ResourceConsoleContextTurn) :
    JsString :=
  canonical host.keysInOrder (.obj [(js "schemaVersion", count 1),
    (js "kind", .str (js "resource-console-conversation")), (js "context", contextJson context),
    (js "request", .str prompt)])

/-- `resourceConsoleTranscriptDigest` -/
def transcriptDigest (scopeDigest : JsString) (job : DurableJob) (history : TaskHistory)
    (context : Option (List ResourceConsoleContextTurn)) : JsString :=
  digestOf host.keysInOrder (.obj [
    (js "domain", .str (js "ashlr-resource-console-transcript-v1")),
    (js "scopeDigest", .str scopeDigest), (js "taskId", .str job.id),
    (js "taskDigest", .str job.taskDigest), (js "outcome", outcomeJson job.outcome),
    (js "parent", nullable (·.json) job.parent), (js "prompt", .str history.prompt),
    (js "output", nullable (·.json) history.output),
    (js "context", contextJson (context.getD []))])

def submissionDigestFor (scopeDigest : JsString) (input : ResourceConsoleTaskInput) : JsString :=
  digestOf host.keysInOrder (.obj [
    (js "domain", .str (js "ashlr-resource-console-submission-v1")),
    (js "scopeDigest", .str scopeDigest), (js "input", input.json)])

def validTurnOutcome (outcome : Option ResourceTaskStatus) : Bool :=
  outcome.all (·.terminal)

def validTurn (turn : ResourceConsoleContextTurn) : Bool :=
  identifier turn.taskId && !turn.prompt.all isSpaceOrBreak && !turn.prompt.contains 0 &&
    (utf8Encode turn.prompt).length ≤ maxPromptBytes && validTurnOutcome turn.outcome

def validTurnOutput (turn : ResourceConsoleContextTurn) : Bool :=
  turn.output.all fun output =>
    (utf8Encode output.text).length ≤ maxHistoryOutputBytes && turn.outcome = some .completed

/-- `validateResourceConsoleContext` -/
def validateContext (context : List ResourceConsoleContextTurn) (taskId parentId : JsString) :
    Except Thrown (List ResourceConsoleContextTurn) := do
  if context.isEmpty ∨ 255 < context.length then
    throw (.error (js "Invalid flat conversation context"))
  let _ ← context.foldlM (fun ids turn => do
    if !validTurn turn ∨ turn.taskId ∈ ids then throw (.error (js "Invalid conversation turn"))
    if !validTurnOutput turn then throw (.error (js "Invalid conversation output"))
    return turn.taskId :: ids) [taskId]
  if (context.getLast?.map (·.taskId)) ≠ some parentId then
    throw (.error (js "Conversation parent does not match context"))
  return context

def contextFor (state : DurableState) (input : ResourceConsoleTaskInput)
    (reference : ResourceConsoleParent) : Except Thrown (List ResourceConsoleContextTurn) :=
  match state.job? reference.taskId with
  | none => .error (.supervisor .notFound (js "Parent transcript is unavailable or deleted"))
  | some parent =>
      match parent.history with
      | none => .error (.supervisor .notFound (js "Parent transcript is unavailable or deleted"))
      | some history => do
          if parent.projectId ≠ input.projectId then
            throw (.supervisor .conflict (js "Follow-up must remain in its parent project"))
          if parent.state ≠ .settled ∧ parent.state ≠ .cancelled then
            throw (.supervisor .conflict (js "Parent task has not reached terminal settlement"))
          let origin ← originFor host state parent
          let earlier := parent.continuation.bind (·.context)
          if transcriptDigest host origin.scopeDigest parent history earlier ≠
              reference.expectedTranscriptDigest then
            throw (.supervisor .conflict
              (js "Parent transcript changed; refresh before continuing"))
          validateContext (earlier.getD [] ++
            [⟨parent.id, history.prompt, history.output, parent.outcome⟩]) input.id parent.id

/-- `taskFor` -/
def taskFor (projects : Option (List ResourceConsoleProjectBinding))
    (input : ResourceConsoleTaskInput) (context : Option (List ResourceConsoleContextTurn)) :
    Except Thrown ResourceTask := do
  let prompt ← match input.parent, context with
    | none, _ => .ok input.prompt
    | some _, none =>
        .error (.supervisor .unavailable (js "Accepted conversation context is unavailable"))
    | some _, some context =>
        let prompt := conversationPrompt host input.prompt context
        if maxConversationBytes < (utf8Encode prompt).length then
          .error (.supervisor .capacity (js "Conversation context exceeds the 256 KiB limit"))
        else .ok prompt
  match projectWorkspace host projects input.projectId with
  | none => .error (.supervisor .invalidInput (js "Unknown resource project"))
  | some cwd => .ok (runtimeTask input prompt cwd)

/-! The call. -/

def resubmit (state : DurableState) (previous : DurableJob) (epoch : Epoch)
    (input : ResourceConsoleTaskInput) : Except Thrown Unit := do
  if previous.projectId ≠ input.projectId then
    throw (.supervisor .conflict (js "Resource task project already set"))
  match previous.continuation with
  | some continuation =>
      if input.parent.isNone ∨
          continuation.submissionDigest ≠ submissionDigestFor host epoch.scopeDigest input then
        throw (.supervisor .conflict (js "Resource conversation identity already used"))
  | none =>
      if input.parent.isSome then
        throw (.supervisor .conflict (js "Resource task identity already used"))
      let task ← taskFor host state.projects input none
      if previous.taskDigest ≠ digestOf host.keysInOrder task.json then
        throw (.supervisor .conflict (js "Resource task identity already used"))
      if previous.retained.isSome ≠ input.retainHistory then
        throw (.supervisor .conflict (js "Resource task retention consent already set"))

def newJob (state : DurableState) (now : JsString) (input : ResourceConsoleTaskInput)
    (taskDigest : JsString) (context : Option (List ResourceConsoleContextTurn)) :
    DurableJob where
  id := input.id
  state := .queued
  enqueuedAt := now
  updatedAt := now
  allowedWorkerIds := input.allowedWorkerIds
  readOnly := input.readOnly
  workerId := none
  outcome := none
  reason := none
  taskDigest := taskDigest
  input := some input
  projectId := input.projectId
  originPoolDigest := if state.schemaVersion = 5 then some host.epoch.poolDigest else none
  continuation := input.parent.map fun parent =>
    ⟨parent, submissionDigestFor host host.epoch.scopeDigest input, context⟩
  retained := if input.retainHistory then some (some ⟨input.prompt, none⟩) else none

def withJob (state : DurableState) (input : ResourceConsoleTaskInput) (job : DurableJob) :
    DurableState :=
  { state with
    schemaVersion :=
      if 4 ≤ state.schemaVersion then state.schemaVersion
      else if input.parent.isSome then 3
      else if state.schemaVersion = 1 ∧ input.retainHistory then 2
      else state.schemaVersion
    jobs := state.jobs ++ [job] }

def admission (now : Clock) (hold : Option Hold) (attempts : Attempts)
    (input : ResourceConsoleTaskInput) (state : DurableState) : Except Thrown DurableState := do
  match hold with
  | some hold => throw (.supervisor .unavailable hold.text)
  | none => pure ()
  if maxJobs ≤ state.jobs.length ∨
      host.maxQueued ≤ (state.jobs.filter (·.state = .queued)).length then
    throw (.supervisor .capacity (js "Resource supervisor history or queue capacity reached"))
  let context ← input.parent.mapM (contextFor host state input)
  let task ← taskFor host state.projects input context
  let taskDigest := digestOf host.keysInOrder task.json
  if (attempts.val.find? (·.id = input.id)).any fun receipt =>
      receipt.taskDigest ≠ taskDigest ∨ receipt.poolDigest ≠ host.epoch.poolDigest then
    throw (.supervisor .conflict (js "Resource task identity already used"))
  match toISOString now.val with
  | none => throw .invalidTime
  | some instant => return withJob state input (newJob host state instant input taskDigest context)

def submit (now : Clock) (hold : Option Hold) (attempts : Attempts)
    (value : ResourceConsoleTaskInput) (supervisor : ResourcePoolSupervisor) :
    Except Thrown ResourcePoolSupervisor :=
  match supervisor.state.job? value.id with
  | some previous => do
      let epoch ← originFor host supervisor.state previous
      let input ← taskInput host epoch.workerIds supervisor.state.projects value
      resubmit host supervisor.state previous epoch input
      return supervisor
  | none => do
      let input ← taskInput host host.epoch.workerIds supervisor.state.projects value
      let next ← admission host now hold attempts input supervisor.state
      assertStateHeadroom host.keysInOrder next
      persist host next supervisor

end

end AshlrHub.Supervisor

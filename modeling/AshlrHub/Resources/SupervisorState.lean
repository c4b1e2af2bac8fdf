import AshlrHub.Resources.PoolTasks
import AshlrHub.Universe.CanonicalBytes

namespace AshlrHub.Supervisor

open Js Artifacts Resources

/-! The durable state of the console's supervisor, and the room it keeps for its jobs. -/

structure ResourceConsoleParent where
  taskId : JsString
  expectedTranscriptDigest : JsString

/-- The input of a task as `taskInput` hands it on: consent is there or not, and the default
project is left out. -/
structure ResourceConsoleTaskInput where
  id : JsString
  prompt : JsString
  allowedWorkerIds : List JsString
  readOnly : Bool
  timeoutMs : ℕ
  maxOutputTokens : ℕ
  retainHistory : Bool
  parent : Option ResourceConsoleParent
  projectId : Option JsString

structure CapturedOutput where
  text : JsString
  truncated : Bool

structure ResourceConsoleContextTurn where
  taskId : JsString
  prompt : JsString
  output : Option CapturedOutput
  outcome : Option ResourceTaskStatus

structure TaskHistory where
  prompt : JsString
  output : Option CapturedOutput

/-- What a follow-up carries. -/
structure Continuation where
  parent : ResourceConsoleParent
  submissionDigest : JsString
  context : Option (List ResourceConsoleContextTurn)

inductive JobState where
  | queued
  | dispatching
  | settled
  | cancelled
  | unresolved
deriving DecidableEq

/-- `retained` is there for a task with consent, also when its text has been deleted. -/
structure DurableJob where
  id : JsString
  state : JobState
  enqueuedAt : JsString
  updatedAt : JsString
  allowedWorkerIds : List JsString
  readOnly : Bool
  workerId : Option JsString
  outcome : Option ResourceTaskStatus
  reason : Option JsString
  taskDigest : JsString
  input : Option ResourceConsoleTaskInput
  projectId : Option JsString
  originPoolDigest : Option JsString
  continuation : Option Continuation
  retained : Option (Option TaskHistory)

section

variable (job : DurableJob)

def DurableJob.history : Option TaskHistory :=
  job.retained.join

def DurableJob.parent : Option ResourceConsoleParent :=
  job.continuation.map (·.parent)

/-- The job with `context: null`. -/
def DurableJob.withoutContext : DurableJob :=
  { job with continuation := job.continuation.map fun continuation =>
      { continuation with context := none } }

def JobState.pending : JobState → Bool
  | .queued => true
  | .dispatching => true
  | _ => false

structure ResourceConsoleProjectBinding where
  id : JsString
  label : JsString
  workspace : JsString
  dev : JsString
  ino : JsString

structure DurableState where
  schemaVersion : ℕ
  scopeDigest : JsString
  paused : Bool
  jobs : List DurableJob
  projects : Option (List ResourceConsoleProjectBinding)
  originPoolDigest : Option JsString

/-! JSON. -/

def JobState.text : JobState → JsString
  | .queued => js "queued"
  | .dispatching => js "dispatching"
  | .settled => js "settled"
  | .cancelled => js "cancelled"
  | .unresolved => js "unresolved"

def modeText (readOnly : Bool) : JsString :=
  if readOnly then js "read-only" else js "workspace-write"

def outcomeJson (outcome : Option ResourceTaskStatus) : JsValue :=
  nullable (fun status => .str status.text) outcome

def ResourceConsoleParent.json (parent : ResourceConsoleParent) : JsValue :=
  .obj [(js "taskId", .str parent.taskId),
    (js "expectedTranscriptDigest", .str parent.expectedTranscriptDigest)]

def ResourceConsoleTaskInput.json (input : ResourceConsoleTaskInput) : JsValue :=
  .obj ([(js "id", .str input.id), (js "prompt", .str input.prompt),
    (js "allowedWorkerIds", texts input.allowedWorkerIds),
    (js "mode", .str (modeText input.readOnly)), (js "timeoutMs", count input.timeoutMs),
    (js "maxOutputTokens", count input.maxOutputTokens)] ++
    ((if input.retainHistory then [(js "retainHistory", .bool true)] else []) ++
      (optional (js "parent") (·.json) input.parent ++
        optional (js "projectId") .str input.projectId)))

def CapturedOutput.json (output : CapturedOutput) : JsValue :=
  .obj [(js "text", .str output.text), (js "truncated", .bool output.truncated)]

def ResourceConsoleContextTurn.json (turn : ResourceConsoleContextTurn) : JsValue :=
  .obj [(js "taskId", .str turn.taskId), (js "prompt", .str turn.prompt),
    (js "output", nullable (·.json) turn.output), (js "outcome", outcomeJson turn.outcome)]

def TaskHistory.json (history : TaskHistory) : JsValue :=
  .obj [(js "prompt", .str history.prompt), (js "output", nullable (·.json) history.output)]

def contextJson (context : List ResourceConsoleContextTurn) : JsValue :=
  .arr (context.map (·.json))

def Continuation.members (continuation : Continuation) : List (JsString × JsValue) :=
  [(js "parent", continuation.parent.json),
    (js "submissionDigest", .str continuation.submissionDigest),
    (js "context", nullable contextJson continuation.context)]

def retainedMembers (history : Option TaskHistory) : List (JsString × JsValue) :=
  [(js "retainHistory", .bool true), (js "history", nullable (·.json) history)]

def DurableJob.json : JsValue :=
  .obj ([(js "id", .str job.id), (js "state", .str job.state.text),
    (js "enqueuedAt", .str job.enqueuedAt), (js "updatedAt", .str job.updatedAt),
    (js "allowedWorkerIds", texts job.allowedWorkerIds), (js "mode", .str (modeText job.readOnly)),
    (js "workerId", nullable .str job.workerId), (js "outcome", outcomeJson job.outcome),
    (js "reason", nullable .str job.reason), (js "taskDigest", .str job.taskDigest),
    (js "input", nullable (·.json) job.input)] ++
    (optional (js "projectId") .str job.projectId ++
      (optional (js "originPoolDigest") .str job.originPoolDigest ++
        (((job.continuation.map (·.members)).getD []) ++
          ((job.retained.map retainedMembers).getD [])))))

def ResourceConsoleProjectBinding.json (binding : ResourceConsoleProjectBinding) : JsValue :=
  .obj [(js "id", .str binding.id), (js "label", .str binding.label),
    (js "workspace", .str binding.workspace), (js "dev", .str binding.dev),
    (js "ino", .str binding.ino)]

def DurableState.json (state : DurableState) : JsValue :=
  .obj ([(js "schemaVersion", count state.schemaVersion),
    (js "scopeDigest", .str state.scopeDigest), (js "paused", .bool state.paused),
    (js "jobs", .arr (state.jobs.map (·.json)))] ++
    (optional (js "projects") (fun projects => .arr (projects.map (·.json))) state.projects ++
      optional (js "originPoolDigest") .str state.originPoolDigest))

/-! Room. -/

inductive ResourceSupervisorErrorCode where
  | invalidInput
  | conflict
  | capacity
  | unavailable
  | notFound
deriving DecidableEq

/-- What a call of the supervisor throws: its own error, a plain one, or the `RangeError` of a
time that has no ISO text. -/
inductive Thrown where
  | supervisor (code : ResourceSupervisorErrorCode) (message : JsString)
  | error (message : JsString)
  | invalidTime
deriving DecidableEq

def stateCapacityReached : Thrown :=
  .supervisor .capacity (js "Resource supervisor state capacity reached")

/-- `MAX_STATE_BYTES` -/
def maxStateBytes : ℕ := 4 * 1024 * 1024

/-- `MAX_HISTORY_OUTPUT_BYTES` -/
def maxHistoryOutputBytes : ℕ := 64 * 1024

/-- `canonical(state) + '\n'`, as bytes. -/
def stateFile (keysInOrder : JsString → JsString → Bool) (state : DurableState) : Bytes :=
  utf8Encode (canonical keysInOrder state.json ++ js "\n")

def envelopeJob : DurableJob :=
  match job.input with
  | none => job
  | some _ =>
      { job with
        state := .dispatching
        workerId := some (List.replicate 64 0x77)
        outcome := some .completed
        reason := some (List.replicate 120 0x72)
        updatedAt := js "+275760-09-13T00:00:00.000Z"
        retained := job.retained.map (Option.map fun history =>
          { history with output := some ⟨[], false⟩ }) }

def futureOutputBytes : ℕ :=
  if job.input.isSome && job.history.isSome then 6 * maxHistoryOutputBytes else 0

end

def envelope (state : DurableState) : DurableState :=
  { state with paused := false, jobs := state.jobs.map envelopeJob }

def headroomBytes (keysInOrder : JsString → JsString → Bool) (next : DurableState) : ℕ :=
  (stateFile keysInOrder (envelope next)).length + (next.jobs.map futureOutputBytes).sum

def assertStateHeadroom (keysInOrder : JsString → JsString → Bool) (next : DurableState) :
    Except Thrown Unit :=
  if maxStateBytes < headroomBytes keysInOrder next then .error stateCapacityReached
  else .ok ()

/-! Captured output. -/

def continues (byte : UInt8) : Bool :=
  byte.toNat &&& 0xC0 = 0x80

def characterEnd (bytes : Bytes) : ℕ → ℕ
  | 0 => 0
  | last + 1 => if (bytes[last + 1]?).any continues then characterEnd bytes last else last + 1

def boundedOutput (text : JsString) (maximum : ℕ) : CapturedOutput :=
  let bytes := utf8Encode text
  let last := characterEnd bytes (min bytes.length maximum)
  ⟨utf8Decode (bytes.take last), last < bytes.length⟩

end AshlrHub.Supervisor

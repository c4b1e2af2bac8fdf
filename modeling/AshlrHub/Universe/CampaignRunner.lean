import AshlrHub.Lib.Run
import AshlrHub.Universe.CampaignHistory

namespace AshlrHub.Campaign

open Js Lib Universe

/-! Sessions and controls over one ledger, a reading or an append at a time. -/

/-- What the evidence of the Universe says beside the ledger, at a reading. -/
structure CampaignEvidence where
  nowMs : ℤ
  stagnantGenerations : ℕ
  usageComplete : Bool
  reportedTokens : Option ℕ

def campaignBudgetLimit (folded : Folded) (evidence : CampaignEvidence) :
    Option (SettledState × JsString) :=
  let budget := folded.created.definition.budget
  if folded.deadlineAt.any fun deadlineAt =>
      (dateParse deadlineAt).any fun deadline => deadline ≤ evidence.nowMs then
    some (.completed, js "Campaign duration budget exhausted")
  else if budget.maxGenerations ≤ folded.steps.length then
    some (.completed, js "Campaign generation budget exhausted")
  else if budget.maxStagnantGenerations ≤ evidence.stagnantGenerations then
    some (.completed, js "Campaign measured-improvement stagnation limit reached")
  else
    budget.maxReportedTokens.bind fun maxReportedTokens =>
      if evidence.usageComplete = false then
        some (.failed,
          js "Model usage is unavailable; the token-budgeted campaign cannot make another request")
      else if evidence.reportedTokens.any fun reported => maxReportedTokens ≤ reported then
        some (.completed, js "Campaign observed-token threshold reached")
      else none

def beforeStart (folded : Folded) (state : SettledState) : SettledState :=
  if folded.created.definition.measureSeed ∧ folded.seedMeasured = false ∧ state = .completed then
    .paused
  else state

inductive SessionEnding (folded : Folded) : SettledState → JsString → Prop
  | stopAcknowledged (asked : folded.state = .stopRequested) :
      SessionEnding folded .stopped (js "Acknowledged owner control")
  | pauseAcknowledged (asked : folded.state = .pauseRequested) :
      SessionEnding folded .paused (js "Acknowledged owner control")
  | cancelled : SessionEnding folded .paused (js "Campaign paused by caller cancellation")
  | deadline : SessionEnding folded .completed (js "Campaign duration budget exhausted")
  | exhausted {evidence : CampaignEvidence} {state : SettledState} {reason : JsString}
      (limit : campaignBudgetLimit folded evidence = some (state, reason)) :
      SessionEnding folded state reason
  | interleaved :
      SessionEnding folded .failed
        (js "Unexpected Universe generation interleaving; campaign reservation scope changed")
  | requests :
      SessionEnding folded .completed (js "Campaign model-request reservation budget exhausted")
  | generationFailed :
      SessionEnding folded .failed (js "Universe generation failed; inspect its durable evidence")
  | generationInterrupted :
      SessionEnding folded .interrupted
        (js "Universe generation interrupted before campaign completion")
  | resourceAttention :
      SessionEnding folded .paused
        (js "Resource generation requires attention; inspect task evidence before resuming")
  | localAttention :
      SessionEnding folded .paused
        (js "Local generation did not receive a completion; inspect the local service before resuming")
  | seedHeld {reason : JsString} : SessionEnding folded .paused reason

/-- Where `runCampaignWithLease` is.  A checkpoint is the digest of the records that an append
expects, where there is one; what is in the `catch` is not caught again. -/
inductive RunnerPhase where
  | admitted
  | viewed (view : List CampaignEvent) (checkpoint : Option JsString)
  | recovered (checkpoint : Option JsString)
  | starting (deadlineAt : Option JsString) (checkpoint : Option JsString)
  | session
  | dispatching (row : CampaignStep)
  /-- In `settle`, before its reading. -/
  | finishing (requested : SettledState) (reason : JsString)
      (checkpoint dispatchId : Option JsString) (inCatch : Bool)
  /-- In `settle`, behind its reading. -/
  | settling (selected : SettledState) (reason : JsString)
      (checkpoint dispatchId : Option JsString) (inCatch : Bool)
  | settled (inCatch : Bool)
  | caught (checkpoint dispatchId : Option JsString)

def RunnerPhase.inTry : RunnerPhase → Bool
  | .finishing _ _ _ _ inCatch => !inCatch
  | .settling _ _ _ _ inCatch => !inCatch
  | .settled inCatch => !inCatch
  | .caught _ _ => false
  | _ => true

/-- The holder of the Universe's execution lease. -/
structure Runner where
  process : CampaignOwner
  dispatchId : Option JsString
  /-- The caller gave an identity to expect, so that appends before the start are checked. -/
  expecting : Bool
  phase : RunnerPhase

def startDeadline (created : CampaignCreation) (known : Option JsString) (atTime : JsString) :
    Option JsString :=
  known.or (deadlineFrom created atTime)

/-- What `settle` appends over a state that is not terminal. -/
def selected (state : CampaignState) (requested : SettledState) : SettledState :=
  match state with
  | .stopRequested => .stopped
  | .pauseRequested => .paused
  | _ => requested

def selectedReason (state : CampaignState) (reason : JsString) : JsString :=
  match state with
  | .stopRequested => js "Stopped by owner"
  | .pauseRequested => js "Paused by owner"
  | _ => reason

def interruption : JsString :=
  js "Recovered a campaign owner interruption without replaying reserved work"

def Reads (host : CampaignHost) (ledger : Option (List CampaignEvent))
    (records : List CampaignEvent) (folded : Folded) : Prop :=
  ledger = some records ∧ foldCampaignEvents host records = .ok folded

def resumable (state : CampaignState) : Bool :=
  state = .running || Folded.startable state

inductive RunnerStep (host : CampaignHost) (runner : Runner)
    (ledger : Option (List CampaignEvent)) :
    Option (List CampaignEvent) → RunnerPhase → Prop
  | view {records : List CampaignEvent} {folded : Folded} (phase : runner.phase = .admitted)
      (read : Reads host ledger records folded)
      (unused : ∀ session ∈ sessionsOf records, runner.dispatchId.isSome = true →
        session.dispatchId ≠ runner.dispatchId) :
      RunnerStep host runner ledger ledger
        (.viewed records (if runner.expecting then some (recordsDigest host records) else none))
  | acknowledge {records : List CampaignEvent} {checkpoint : Option JsString} {folded : Folded}
      (phase : runner.phase = .viewed records checkpoint)
      (folds : foldCampaignEvents host records = .ok folded)
      (asked : folded.state = .stopRequested ∨ folded.state = .pauseRequested) :
      RunnerStep host runner ledger ledger
        (.finishing (selected folded.state .paused) (js "Acknowledged pending owner control")
          checkpoint none false)
  | cancel {records : List CampaignEvent} {checkpoint : Option JsString} {folded : Folded}
      (phase : runner.phase = .viewed records checkpoint)
      (folds : foldCampaignEvents host records = .ok folded)
      (resumes : resumable folded.state = true) :
      RunnerStep host runner ledger ledger
        (.finishing .paused (js "Campaign paused by caller cancellation") checkpoint none false)
  | unresolved {records : List CampaignEvent} {checkpoint : Option JsString} {folded : Folded}
      (phase : runner.phase = .viewed records checkpoint)
      (folds : foldCampaignEvents host records = .ok folded)
      (resumes : resumable folded.state = true)
      (unmeasured : folded.seedEvaluation.isSome = true ∧ folded.seedMeasured = false) :
      RunnerStep host runner ledger ledger
        (.finishing .paused
          (js "Seed evaluation requires attention; its intent is never replayed") checkpoint none
          false)
  | recover {records published : List CampaignEvent} {checkpoint : Option JsString}
      {folded : Folded} {atTime : JsString} (phase : runner.phase = .viewed records checkpoint)
      (folds : foldCampaignEvents host records = .ok folded) (running : folded.state = .running)
      (appended : appendCampaignEvent host ledger
        ⟨atTime, .settled ⟨.interrupted, interruption, none⟩⟩ checkpoint = .ok published) :
      RunnerStep host runner ledger (some published)
        (.recovered (checkpoint.map fun _ => recordsDigest host published))
  | pass {records : List CampaignEvent} {checkpoint : Option JsString} {folded : Folded}
      (phase : runner.phase = .viewed records checkpoint)
      (folds : foldCampaignEvents host records = .ok folded)
      (startable : Folded.startable folded.state = true) :
      RunnerStep host runner ledger ledger (.recovered checkpoint)
  | exhausted {records : List CampaignEvent} {checkpoint : Option JsString} {folded : Folded}
      {evidence : CampaignEvidence} {state : SettledState} {reason : JsString}
      (phase : runner.phase = .recovered checkpoint) (read : Reads host ledger records folded)
      (limit : campaignBudgetLimit folded evidence = some (state, reason)) :
      RunnerStep host runner ledger ledger
        (.finishing (beforeStart folded state) reason checkpoint none false)
  | ready {records : List CampaignEvent} {checkpoint : Option JsString} {folded : Folded}
      {evidence : CampaignEvidence} (phase : runner.phase = .recovered checkpoint)
      (read : Reads host ledger records folded)
      (unlimited : campaignBudgetLimit folded evidence = none) :
      RunnerStep host runner ledger ledger (.starting folded.deadlineAt checkpoint)
  | start {records published : List CampaignEvent} {known checkpoint : Option JsString}
      {created : CampaignCreation} {atTime deadlineAt : JsString}
      (phase : runner.phase = .starting known checkpoint) (held : ledger = some records)
      (registered : Registered records created)
      (deadline : startDeadline created known atTime = some deadlineAt)
      (appended : appendCampaignEvent host ledger
        ⟨atTime, .started ⟨deadlineAt, runner.process, runner.dispatchId⟩⟩ checkpoint =
          .ok published) :
      RunnerStep host runner ledger (some published) .session
  | seedIntent {published : List CampaignEvent} {atTime checkpoint : JsString}
      {intent : UniverseCampaignSeedIntent} (phase : runner.phase = .session)
      (appended : appendCampaignEvent host ledger ⟨atTime, .seedEvaluationIntent intent⟩
        (some checkpoint) = .ok published) :
      RunnerStep host runner ledger (some published) .session
  | seedResult {published : List CampaignEvent} {atTime checkpoint : JsString}
      {result : UniverseCampaignSeedResult} (phase : runner.phase = .session)
      (appended : appendCampaignEvent host ledger ⟨atTime, .seedEvaluationResult result⟩
        (some checkpoint) = .ok published) :
      RunnerStep host runner ledger (some published) .session
  | plan {records : List CampaignEvent} {folded : Folded} {row : CampaignStep}
      (phase : runner.phase = .session) (read : Reads host ledger records folded)
      (ordinal : row.ordinal = folded.steps.length + 1)
      (available : folded.reserved + row.reservedModelRequests ≤
        folded.created.definition.budget.maxModelRequests) :
      RunnerStep host runner ledger ledger (.dispatching row)
  | dispatch {published : List CampaignEvent} {atTime : JsString} {row : CampaignStep}
      (phase : runner.phase = .dispatching row)
      (appended : appendCampaignEvent host ledger ⟨atTime, .step row⟩ none = .ok published) :
      RunnerStep host runner ledger (some published) .session
  | finish {records : List CampaignEvent} {folded : Folded} {state : SettledState}
      {reason : JsString} (phase : runner.phase = .session)
      (read : Reads host ledger records folded) (ending : SessionEnding folded state reason) :
      RunnerStep host runner ledger ledger (.finishing state reason none runner.dispatchId false)
  | select {records : List CampaignEvent} {folded : Folded} {requested : SettledState}
      {reason : JsString} {checkpoint dispatchId : Option JsString} {inCatch : Bool}
      (phase : runner.phase = .finishing requested reason checkpoint dispatchId inCatch)
      (read : Reads host ledger records folded) (live : terminalCampaign folded.state = false) :
      RunnerStep host runner ledger ledger
        (.settling (selected folded.state requested) (selectedReason folded.state reason) checkpoint
          dispatchId inCatch)
  | settle {published : List CampaignEvent} {atTime : JsString} {state : SettledState}
      {reason : JsString} {checkpoint dispatchId : Option JsString} {inCatch : Bool}
      (phase : runner.phase = .settling state reason checkpoint dispatchId inCatch)
      (appended : appendCampaignEvent host ledger ⟨atTime, .settled ⟨state, reason, dispatchId⟩⟩
        checkpoint = .ok published) :
      RunnerStep host runner ledger (some published) (.settled inCatch)
  /-- Anything in the `try` may throw. -/
  | throw {checkpoint dispatchId : Option JsString} (inTry : runner.phase.inTry = true) :
      RunnerStep host runner ledger ledger (.caught checkpoint dispatchId)
  | fail {reason : JsString} {checkpoint dispatchId : Option JsString}
      (phase : runner.phase = .caught checkpoint dispatchId) :
      RunnerStep host runner ledger ledger (.finishing .failed reason checkpoint dispatchId true)

/-! Controls. -/

/-- Where `requestUniverseCampaignControl` is. -/
inductive ControlPhase where
  | asked
  /-- It saw a pause, and looks for a recorded one. -/
  | observing
  /-- Its readings leave the request to be made. -/
  | considered
  /-- The request is appended, and these are the records behind it. -/
  | requested (records : List CampaignEvent)
  /-- The owner it saw is gone: it goes on to settle. -/
  | settling (records : List CampaignEvent)

structure Control where
  process : CampaignOwner
  action : ControlAction
  phase : ControlPhase

def controlSettlement : ControlAction → CampaignSettlement
  | .stop => ⟨.stopped, js "Stopped by owner", none⟩
  | .pause => ⟨.paused, js "Paused by owner", none⟩

/-- `campaignOwnerAlive`: some process has the owner's id. -/
def campaignOwnerAlive (alive : List CampaignOwner) (owner : CampaignOwner) : Bool :=
  alive.any fun process => process.pid = owner.pid

def CampaignKind.action? : CampaignKind → Option ControlAction
  | .control action => some action
  | _ => none

def pauseRecorded (records : List CampaignEvent) : Bool :=
  let since := records.reverse.takeWhile fun event => event.kind.session?.isNone
  (since.findSome? fun event => event.kind.action?) = some .pause

def requestable (folded : Folded) (action : ControlAction) : Bool :=
  !terminalCampaign folded.state && folded.state ≠ .stopRequested &&
    !(action = .pause && folded.state = .pauseRequested)

/-! The system. -/

structure CampaignSystem where
  ledger : Option (List CampaignEvent)
  alive : List CampaignOwner
  /-- Every process so far: its id with its start is never used again. -/
  born : List CampaignOwner
  runner : Option Runner
  controls : List Control

def CampaignSystem.start : CampaignSystem := ⟨none, [], [], none, []⟩

inductive CampaignLabel where
  | created
  | born (process : CampaignOwner)
  | died (process : CampaignOwner)
  | acquired (process : CampaignOwner)
  | ran (process : CampaignOwner)
  | left
  | asked (process : CampaignOwner)
  | considered (control : Control)
  | observed (control : Control)
  | requested (control : Control)
  | seen (control : Control)
  | controlSettled (control : Control) (records : List CampaignEvent)
  | dropped (control : Control)

inductive CampaignSystemStep (host : CampaignHost) (system : CampaignSystem) :
    CampaignLabel → CampaignSystem → Prop
  | created {creation : CampaignCreation} {atTime : JsString} {published : List CampaignEvent}
      (new : system.ledger = none)
      (appended : appendCampaignEvent host system.ledger ⟨atTime, .created creation⟩ none =
        .ok published) :
      CampaignSystemStep host system .created { system with ledger := some published }
  | born {process : CampaignOwner} (new : process ∉ system.born) :
      CampaignSystemStep host system (.born process)
        { system with alive := process :: system.alive, born := process :: system.born }
  | died {process : CampaignOwner} (alive : process ∈ system.alive) :
      CampaignSystemStep host system (.died process)
        { system with
          alive := system.alive.filter fun other => other ≠ process
          runner := system.runner.filter fun runner => runner.process ≠ process
          controls := system.controls.filter fun control => control.process ≠ process }
  | acquired {process : CampaignOwner} {dispatchId : Option JsString} {expecting : Bool}
      (free : system.runner = none) (alive : process ∈ system.alive) :
      CampaignSystemStep host system (.acquired process)
        { system with runner := some ⟨process, dispatchId, expecting, .admitted⟩ }
  | ran {runner : Runner} {ledger : Option (List CampaignEvent)} {phase : RunnerPhase}
      (holds : system.runner = some runner)
      (step : RunnerStep host runner system.ledger ledger phase) :
      CampaignSystemStep host system (.ran runner.process)
        { system with ledger := ledger, runner := some { runner with phase := phase } }
  | left : CampaignSystemStep host system .left { system with runner := none }
  | asked {process : CampaignOwner} {action : ControlAction} (alive : process ∈ system.alive) :
      CampaignSystemStep host system (.asked process)
        { system with controls := ⟨process, action, .asked⟩ :: system.controls }
  | considered {front back : List Control} {control : Control} {records : List CampaignEvent}
      {folded : Folded} (calls : system.controls = front ++ control :: back)
      (phase : control.phase = .asked) (read : Reads host system.ledger records folded)
      (requestable : requestable folded control.action = true) :
      CampaignSystemStep host system (.considered control)
        { system with
          controls := front ++ { control with
            phase := if control.action = .pause ∧ folded.state = .settled .paused then .observing
              else .considered } :: back }
  | observed {front back : List Control} {control : Control} {records : List CampaignEvent}
      {folded : Folded} (calls : system.controls = front ++ control :: back)
      (phase : control.phase = .observing) (read : Reads host system.ledger records folded)
      (unrecorded : ¬ (folded.state = .settled .paused ∧ pauseRecorded records = true)) :
      CampaignSystemStep host system (.observed control)
        { system with controls := front ++ { control with phase := .considered } :: back }
  | requested {front back : List Control} {control : Control} {atTime : JsString}
      {published : List CampaignEvent} (calls : system.controls = front ++ control :: back)
      (phase : control.phase = .considered)
      (appended : appendCampaignEvent host system.ledger ⟨atTime, .control control.action⟩ none =
        .ok published) :
      CampaignSystemStep host system (.requested control)
        { system with
          ledger := some published
          controls := front ++ { control with phase := .requested published } :: back }
  /-- The owner of the records is looked for, and is gone. -/
  | seen {front back : List Control} {control : Control} {records : List CampaignEvent}
      {folded : Folded} (calls : system.controls = front ++ control :: back)
      (phase : control.phase = .requested records)
      (folds : foldCampaignEvents host records = .ok folded)
      (gone : ∀ owner, folded.owner = some owner → campaignOwnerAlive system.alive owner = false) :
      CampaignSystemStep host system (.seen control)
        { system with controls := front ++ { control with phase := .settling records } :: back }
  | controlSettled {front back : List Control} {control : Control} {atTime : JsString}
      {records published : List CampaignEvent} (calls : system.controls = front ++ control :: back)
      (phase : control.phase = .settling records)
      (appended : appendCampaignEvent host system.ledger
        ⟨atTime, .settled (controlSettlement control.action)⟩ none = .ok published) :
      CampaignSystemStep host system (.controlSettled control records)
        { system with ledger := some published, controls := front ++ back }
  /-- A call answers or throws. -/
  | dropped {front back : List Control} {control : Control}
      (calls : system.controls = front ++ control :: back) :
      CampaignSystemStep host system (.dropped control) { system with controls := front ++ back }

end AshlrHub.Campaign

import AshlrHub.Lib.Fallible
import AshlrHub.Universe.Campaign

namespace AshlrHub.Campaign

open Js Artifacts Authority Lib Universe

/-! The campaign's ledger: how a history folds, and what may be appended to it. -/

inductive HistoryError where
  | invalidSequence
  | terminalExtended
  | startedInvalid
  | seedUnresolved
  | dispatchReused
  | deadlineReset
  /-- `toISOString` of a deadline that is no time. -/
  | deadlineUnwritable
  | seedIntentMismatch
  | seedResultMismatch
  | dispatchExceeds
  | stopReplaced
  | completionUnmeasured
  | settlementMismatch
  | controlIgnored
  | definitionReplaced

def HistoryError.message : HistoryError → JsString
  | .invalidSequence => js "Campaign event sequence contains invalid records, duplicates, or gaps"
  | .terminalExtended => js "Campaign terminal history cannot be extended"
  | .startedInvalid => js "Campaign session started from an invalid state"
  | .seedUnresolved => js "Campaign seed evaluation requires resolution, not replay"
  | .dispatchReused => js "Campaign dispatch identity cannot be reused"
  | .deadlineReset => js "Campaign deadline cannot be reset on resume"
  | .deadlineUnwritable => js "Invalid time value"
  | .seedIntentMismatch =>
      js "Campaign seed evaluation intent does not match its initial owned session"
  | .seedResultMismatch => js "Campaign seed evaluation result does not match its unsettled intent"
  | .dispatchExceeds => js "Campaign dispatch exceeds its identity or reserved budget"
  | .stopReplaced => js "A stop request cannot be replaced"
  | .completionUnmeasured => js "Campaign cannot complete without a measured seed evaluator"
  | .settlementMismatch => js "Campaign settlement dispatch identity does not match its session"
  | .controlIgnored => js "Campaign settlement ignored a durable control request"
  | .definitionReplaced => js "Campaign definition cannot be replaced"

inductive CampaignState where
  | ready
  | running
  | pauseRequested
  | stopRequested
  | settled (state : SettledState)
deriving DecidableEq

def terminalCampaign : CampaignState → Bool
  | .settled .stopped => true
  | .settled .completed => true
  | .settled .failed => true
  | _ => false

structure UniverseCampaignSeedEvaluation where
  intent : UniverseCampaignSeedIntent
  result : Option UniverseCampaignSeedResult

structure Folded where
  created : CampaignCreation
  state : CampaignState
  reason : Option JsString
  owner : Option CampaignOwner
  startedAt : Option JsString
  deadlineAt : Option JsString
  finishedAt : Option JsString
  steps : List CampaignStep
  reserved : ℕ
  activeDispatchId : Option JsString
  dispatches : List JsString
  sessionSequence : Option ℕ
  sessionStartedAt : Option JsString
  seedEvaluation : Option UniverseCampaignSeedEvaluation

def Folded.start (created : CampaignCreation) : Folded where
  created := created
  state := .ready
  reason := none
  owner := none
  startedAt := none
  deadlineAt := none
  finishedAt := none
  steps := []
  reserved := 0
  activeDispatchId := none
  dispatches := []
  sessionSequence := none
  sessionStartedAt := none
  seedEvaluation := none

namespace Folded

section

variable (folded : Folded)

def seedMeasured : Bool :=
  folded.seedEvaluation.any fun evaluation =>
    evaluation.result.any fun result => result.status = .measured

def startable : CampaignState → Bool
  | .ready => true
  | .settled .paused => true
  | .settled .interrupted => true
  | _ => false

def fixDeadline (atTime : JsString) : Except HistoryError Folded :=
  if folded.startedAt.isSome then .ok folded
  else
    match (dateParse atTime).bind fun start =>
      toISOString (start + (folded.created.definition.budget.maxDurationMs : ℤ)) with
    | none => .error .deadlineUnwritable
    | some deadlineAt => .ok { folded with startedAt := some atTime, deadlineAt := some deadlineAt }

def foldStarted (event : CampaignEvent) (session : CampaignSession) : Except HistoryError Folded :=
  if startable folded.state = false then .error .startedInvalid
  else if folded.seedEvaluation.isSome ∧ folded.seedMeasured = false then .error .seedUnresolved
  else if ∃ dispatch ∈ session.dispatchId, dispatch ∈ folded.dispatches then .error .dispatchReused
  else
    folded.fixDeadline event.atTime >>= fun folded =>
      if some session.deadlineAt ≠ folded.deadlineAt then .error .deadlineReset
      else .ok { folded with
        activeDispatchId := session.dispatchId
        dispatches := folded.dispatches ++ session.dispatchId.toList
        state := .running
        owner := some session.owner
        reason := none
        finishedAt := none
        sessionSequence := some event.sequence
        sessionStartedAt := some event.atTime }

def pinned (intent : UniverseCampaignSeedIntent) : Bool :=
  intent.definitionDigest = folded.created.definitionDigest &&
    intent.manifestDigest = folded.created.manifestDigest &&
    intent.comparatorDigest = folded.created.comparatorDigest

def foldSeedIntent (intent : UniverseCampaignSeedIntent) : Except HistoryError Folded :=
  if folded.created.definition.measureSeed = false ∨ folded.seedEvaluation.isSome ∨
      folded.steps ≠ [] ∨ folded.state ≠ .running ∨ folded.owner.isNone ∨
      some intent.sessionSequence ≠ folded.sessionSequence ∨
      (folded.sessionStartedAt.all fun startedAt => intent.startedAt < startedAt) ∨
      some intent.deadlineAt ≠ folded.deadlineAt ∨ folded.pinned intent = false then
    .error .seedIntentMismatch
  else .ok { folded with seedEvaluation := some ⟨intent, none⟩ }

def underWay : CampaignState → Bool
  | .running => true
  | .pauseRequested => true
  | .stopRequested => true
  | _ => false

def foldSeedResult (host : CampaignHost) (folded : Folded) (result : UniverseCampaignSeedResult) :
    Except HistoryError Folded :=
  match folded.seedEvaluation with
  | none => .error .seedResultMismatch
  | some evaluation =>
      if evaluation.result.isSome ∨ folded.owner.isNone ∨ underWay folded.state = false ∨
          some evaluation.intent.sessionSequence ≠ folded.sessionSequence ∨
          result.intentDigest ≠ digestOf host.keysInOrder evaluation.intent.json ∨
          result.finishedAt < evaluation.intent.startedAt ∨
          (result.status = .measured ∧ (folded.state ≠ .running ∨
            folded.deadlineAt.all fun deadlineAt => deadlineAt ≤ result.finishedAt)) then
        .error .seedResultMismatch
      else .ok { folded with seedEvaluation := some { evaluation with result := some result } }

def foldStep (row : CampaignStep) : Except HistoryError Folded :=
  if folded.state ≠ .running ∨ folded.owner.isNone ∨
      (folded.created.definition.measureSeed = true ∧ folded.seedMeasured = false) ∨
      row.ordinal ≠ folded.steps.length + 1 ∨ row.runId ∈ folded.steps.map (·.runId) ∨
      folded.created.definition.budget.maxGenerations < row.ordinal ∨
      folded.created.definition.budget.maxModelRequests <
        folded.reserved + row.reservedModelRequests then .error .dispatchExceeds
  else .ok { folded with
    steps := folded.steps ++ [row]
    reserved := folded.reserved + row.reservedModelRequests }

def foldControl (action : ControlAction) : Except HistoryError Folded :=
  if folded.state = .stopRequested then .error .stopReplaced
  else
    match action with
    | .stop => .ok { folded with
        state := .stopRequested
        reason := some (js "Stop requested by owner") }
    | .pause => .ok { folded with
        state := .pauseRequested
        reason := some (js "Pause requested by owner") }

def foldSettled (event : CampaignEvent) (settlement : CampaignSettlement) :
    Except HistoryError Folded :=
  if settlement.state = .completed ∧ folded.created.definition.measureSeed = true ∧
      folded.seedMeasured = false then .error .completionUnmeasured
  else if settlement.dispatchId ≠ none ∧ settlement.dispatchId ≠ folded.activeDispatchId then
    .error .settlementMismatch
  else if (folded.state = .stopRequested ∧ settlement.state ≠ .stopped) ∨
      (folded.state = .pauseRequested ∧ settlement.state ≠ .paused ∧
        settlement.state ≠ .stopped) then .error .controlIgnored
  else .ok { folded with
    state := .settled settlement.state
    reason := some settlement.reason
    owner := none
    finishedAt := some event.atTime
    activeDispatchId := none }

end

def foldEvent (host : CampaignHost) (folded : Folded) (event : CampaignEvent) :
    Except HistoryError Folded :=
  if terminalCampaign folded.state then .error .terminalExtended
  else
    match event.kind with
    | .created _ => .error .definitionReplaced
    | .started session => folded.foldStarted event session
    | .seedEvaluationIntent intent => folded.foldSeedIntent intent
    | .seedEvaluationResult result => foldSeedResult host folded result
    | .step row => folded.foldStep row
    | .control action => folded.foldControl action
    | .settled settlement => folded.foldSettled event settlement

end Folded

def validFrom (host : CampaignHost) : ℕ → List CampaignEvent → Bool
  | _, [] => true
  | index, event :: events =>
      event.sequence = index && parseEvent host event && validFrom host (index + 1) events

def foldCampaignEvents (host : CampaignHost) (records : List CampaignEvent) :
    Except HistoryError Folded :=
  match records with
  | [] => .error .invalidSequence
  | first :: rest =>
      match first.kind with
      | .created created =>
          if validFrom host 0 records then rest.foldlM (Folded.foldEvent host)
            (Folded.start created)
          else .error .invalidSequence
      | _ => .error .invalidSequence

/-! Appending. -/

inductive CampaignError where
  | history (refusal : HistoryError)
  | invalidCheckpoint
  /-- `CampaignControlConflictError` -/
  | controlConflict
  | capacityExhausted

def CampaignError.message : CampaignError → JsString
  | .history refusal => refusal.message
  | .invalidCheckpoint => js "Invalid campaign control checkpoint"
  | .controlConflict => js "Campaign controls changed after execution admission"
  | .capacityExhausted => js "Campaign evidence capacity exhausted"

def readCampaignEvents (host : CampaignHost) (ledger : Option (List CampaignEvent)) :
    Except CampaignError (List CampaignEvent) :=
  match ledger with
  | none => .ok []
  | some records => ((foldCampaignEvents host records).mapError .history).map fun _ => records

def recordsDigest (host : CampaignHost) (records : List CampaignEvent) : JsString :=
  digestOf host.keysInOrder (.arr (records.map (·.json)))

def CampaignEventInput.event (input : CampaignEventInput) (records : List CampaignEvent) :
    CampaignEvent :=
  ⟨recordId records.length, records.length, input.atTime, input.kind⟩

def appendCampaignEvent (host : CampaignHost) (ledger : Option (List CampaignEvent))
    (input : CampaignEventInput) (expectedRecordsDigest : Option JsString) :
    Except CampaignError (List CampaignEvent) := do
  if expectedRecordsDigest.any fun digest => !sha256HexPattern digest then throw .invalidCheckpoint
  let records ← readCampaignEvents host ledger
  if expectedRecordsDigest.any fun digest => digest ≠ recordsDigest host records then
    throw .controlConflict
  if maxEvents ≤ records.length then throw .capacityExhausted
  let _ ← (foldCampaignEvents host (records ++ [input.event records])).mapError .history
  pure (records ++ [input.event records])

end AshlrHub.Campaign

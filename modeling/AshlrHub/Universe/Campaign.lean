import AshlrHub.Js.RegExp
import AshlrHub.Universe.Artifacts

namespace AshlrHub.Campaign

open Js Artifacts Authority Universe

/-! What a campaign records, its JSON, and which records parse. -/

structure CampaignBudget where
  maxGenerations : ℕ
  maxDurationMs : ℕ
  maxModelRequests : ℕ
  maxStagnantGenerations : ℕ
  maxReportedTokens : Option ℕ
deriving DecidableEq

structure UniverseCampaignDefinition where
  id : JsString
  universeId : JsString
  budget : CampaignBudget
  feedback : Bool
  /-- There with `true` or not at all. -/
  measureSeed : Bool
deriving DecidableEq

structure CampaignOwner where
  pid : ℕ
  startRef : JsString
deriving DecidableEq

structure UniverseCampaignSeedIntent where
  id : JsString
  sessionSequence : ℕ
  definitionDigest : JsString
  manifestDigest : JsString
  comparatorDigest : JsString
  seedArtifactDigest : JsString
  startedAt : JsString
  deadlineAt : JsString

inductive SeedStatus where
  | measured
  | failed
  | timedOut
  | cancelled
deriving DecidableEq

inductive ProcessGroupSettlement where
  | notStarted
  | groupExitConfirmed
deriving DecidableEq

inductive SeedReason where
  | evaluatorFailed
  | evaluatorInvalidResult
  | evaluationCancelled
  | evaluationTimedOut
  | integrityChanged
deriving DecidableEq

structure UniverseCampaignSeedResult where
  intentDigest : JsString
  status : SeedStatus
  finishedAt : JsString
  durationMs : Double
  processGroupSettlement : ProcessGroupSettlement
  measurement : Option JsValue
  reason : Option SeedReason

inductive ControlAction where
  | pause
  | stop
deriving DecidableEq

inductive SettledState where
  | paused
  | stopped
  | completed
  | interrupted
  | failed
deriving DecidableEq

structure CampaignCreation where
  definition : UniverseCampaignDefinition
  definitionDigest : JsString
  manifestDigest : JsString
  comparatorDigest : JsString

structure CampaignSession where
  deadlineAt : JsString
  owner : CampaignOwner
  dispatchId : Option JsString

structure CampaignStep where
  ordinal : ℕ
  runId : JsString
  generation : ℕ
  variantIds : List JsString
  reservedModelRequests : ℕ

structure CampaignSettlement where
  state : SettledState
  reason : JsString
  dispatchId : Option JsString

inductive CampaignKind where
  | created (creation : CampaignCreation)
  | started (session : CampaignSession)
  | seedEvaluationIntent (evaluation : UniverseCampaignSeedIntent)
  | seedEvaluationResult (evaluation : UniverseCampaignSeedResult)
  | step (step : CampaignStep)
  | control (action : ControlAction)
  | settled (settlement : CampaignSettlement)

structure CampaignEventInput where
  atTime : JsString
  kind : CampaignKind

structure CampaignEvent where
  id : JsString
  sequence : ℕ
  atTime : JsString
  kind : CampaignKind

/-! JSON. -/

def SeedStatus.text : SeedStatus → JsString
  | .measured => js "measured"
  | .failed => js "failed"
  | .timedOut => js "timed-out"
  | .cancelled => js "cancelled"

def ProcessGroupSettlement.text : ProcessGroupSettlement → JsString
  | .notStarted => js "not-started"
  | .groupExitConfirmed => js "group-exit-confirmed"

def SeedReason.text : SeedReason → JsString
  | .evaluatorFailed => js "evaluator-failed"
  | .evaluatorInvalidResult => js "evaluator-invalid-result"
  | .evaluationCancelled => js "evaluation-cancelled"
  | .evaluationTimedOut => js "evaluation-timed-out"
  | .integrityChanged => js "integrity-changed"

def ControlAction.text : ControlAction → JsString
  | .pause => js "pause"
  | .stop => js "stop"

def SettledState.text : SettledState → JsString
  | .paused => js "paused"
  | .stopped => js "stopped"
  | .completed => js "completed"
  | .interrupted => js "interrupted"
  | .failed => js "failed"

def UniverseCampaignDefinition.json (definition : UniverseCampaignDefinition) : JsValue :=
  .obj ([(js "schemaVersion", count 1), (js "id", .str definition.id),
    (js "universeId", .str definition.universeId),
    (js "budget", .obj [(js "maxGenerations", count definition.budget.maxGenerations),
      (js "maxDurationMs", count definition.budget.maxDurationMs),
      (js "maxModelRequests", count definition.budget.maxModelRequests),
      (js "maxStagnantGenerations", count definition.budget.maxStagnantGenerations),
      (js "maxReportedTokens", nullable count definition.budget.maxReportedTokens)]),
    (js "feedback", .bool definition.feedback)] ++
      if definition.measureSeed then [(js "measureSeed", .bool true)] else [])

def UniverseCampaignSeedIntent.json (intent : UniverseCampaignSeedIntent) : JsValue :=
  .obj [(js "schemaVersion", count 1), (js "id", .str intent.id),
    (js "sessionSequence", count intent.sessionSequence),
    (js "definitionDigest", .str intent.definitionDigest),
    (js "manifestDigest", .str intent.manifestDigest),
    (js "comparatorDigest", .str intent.comparatorDigest),
    (js "seedArtifactDigest", .str intent.seedArtifactDigest),
    (js "context", .str (js "campaign-seed-v1")), (js "startedAt", .str intent.startedAt),
    (js "deadlineAt", .str intent.deadlineAt)]

def UniverseCampaignSeedResult.json (result : UniverseCampaignSeedResult) : JsValue :=
  .obj [(js "schemaVersion", count 1), (js "intentDigest", .str result.intentDigest),
    (js "status", .str result.status.text), (js "finishedAt", .str result.finishedAt),
    (js "durationMs", .num (.finite result.durationMs)),
    (js "processGroupSettlement", .str result.processGroupSettlement.text),
    (js "measurement", nullable id result.measurement),
    (js "reason", nullable (fun reason => .str reason.text) result.reason)]

def CampaignKind.members : CampaignKind → List (JsString × JsValue)
  | .created creation =>
      [(js "kind", .str (js "created")), (js "definition", creation.definition.json),
        (js "definitionDigest", .str creation.definitionDigest),
        (js "manifestDigest", .str creation.manifestDigest),
        (js "comparatorDigest", .str creation.comparatorDigest)]
  | .started session =>
      [(js "kind", .str (js "started")), (js "deadlineAt", .str session.deadlineAt),
        (js "owner", .obj [(js "pid", count session.owner.pid),
          (js "startRef", .str session.owner.startRef)])] ++
        optional (js "dispatchId") .str session.dispatchId
  | .seedEvaluationIntent evaluation =>
      [(js "kind", .str (js "seed-evaluation-intent")), (js "evaluation", evaluation.json)]
  | .seedEvaluationResult evaluation =>
      [(js "kind", .str (js "seed-evaluation-result")), (js "evaluation", evaluation.json)]
  | .step row =>
      [(js "kind", .str (js "step")), (js "ordinal", count row.ordinal),
        (js "runId", .str row.runId), (js "generation", count row.generation),
        (js "variantIds", texts row.variantIds),
        (js "reservedModelRequests", count row.reservedModelRequests)]
  | .control action => [(js "kind", .str (js "control")), (js "action", .str action.text)]
  | .settled settlement =>
      [(js "kind", .str (js "settled")), (js "state", .str settlement.state.text),
        (js "reason", .str settlement.reason)] ++
        optional (js "dispatchId") .str settlement.dispatchId

def CampaignEvent.json (event : CampaignEvent) : JsValue :=
  .obj ([(js "id", .str event.id), (js "sequence", count event.sequence),
    (js "at", .str event.atTime)] ++ event.kind.members)

/-! Which records parse. -/

def maxEvents : ℕ := 2048

def maxSafeInteger : ℕ := 9007199254740991

structure CampaignHost where
  keysInOrder : JsString → JsString → Bool
  parseEvaluation : JsString → Option JsValue

def within (n low high : ℕ) : Bool :=
  low ≤ n && n ≤ high

def validateUniverseCampaignDefinition (definition : UniverseCampaignDefinition) : Bool :=
  idPattern definition.id && idPattern definition.universeId &&
    within definition.budget.maxGenerations 1 128 &&
    within definition.budget.maxDurationMs 1 86400000 &&
    within definition.budget.maxModelRequests 0 8192 &&
    within definition.budget.maxStagnantGenerations 1 128 &&
    definition.budget.maxReportedTokens.all fun tokens => within tokens 1 maxSafeInteger

def validSeedIntent (intent : UniverseCampaignSeedIntent) : Bool :=
  uuidPattern intent.id && within intent.sessionSequence 1 (maxEvents - 1) &&
    [intent.definitionDigest, intent.manifestDigest, intent.comparatorDigest,
      intent.seedArtifactDigest].all sha256HexPattern &&
    iso intent.startedAt && iso intent.deadlineAt && intent.startedAt < intent.deadlineAt

def CampaignHost.reads (host : CampaignHost) (measurement : JsValue) : Bool :=
  (host.parseEvaluation (canonical host.keysInOrder measurement)).any fun read =>
    canonical host.keysInOrder read = canonical host.keysInOrder measurement

def validSeedResult (host : CampaignHost) (result : UniverseCampaignSeedResult) : Bool :=
  sha256HexPattern result.intentDigest && iso result.finishedAt &&
    0 ≤ result.durationMs.val && result.durationMs.val ≤ 86400000 &&
    match result.status with
    | .measured =>
        result.processGroupSettlement = .groupExitConfirmed && result.reason.isNone &&
          result.measurement.any host.reads
    | .cancelled => result.measurement.isNone && result.reason = some .evaluationCancelled
    | .timedOut => result.measurement.isNone && result.reason = some .evaluationTimedOut
    | .failed =>
        result.measurement.isNone && (result.reason = some .evaluatorFailed ||
          result.reason = some .evaluatorInvalidResult || result.reason = some .integrityChanged)

/-- `!reason.trim()` -/
def blank (text : JsString) : Bool :=
  text.all (RegExp.inRanges RegExp.spaceRanges)

def CampaignKind.valid (host : CampaignHost) (sequence : ℕ) (atTime : JsString) :
    CampaignKind → Bool
  | .created creation =>
      validateUniverseCampaignDefinition creation.definition && sequence = 0 &&
        creation.definitionDigest = digestOf host.keysInOrder creation.definition.json &&
        sha256HexPattern creation.manifestDigest && sha256HexPattern creation.comparatorDigest
  | .started session =>
      session.dispatchId.all uuidPattern && iso session.deadlineAt &&
        within session.owner.pid 1 2147483647 && within session.owner.startRef.length 1 64
  | .seedEvaluationIntent evaluation => validSeedIntent evaluation && evaluation.startedAt = atTime
  | .seedEvaluationResult evaluation =>
      validSeedResult host evaluation && evaluation.finishedAt = atTime
  | .step row =>
      within row.ordinal 1 128 && uuidPattern row.runId && within row.generation 1 10000 &&
        within row.variantIds.length 1 64 && row.variantIds.all idPattern &&
        decide row.variantIds.Nodup && row.reservedModelRequests ≤ row.variantIds.length
  | .control _ => true
  | .settled settlement =>
      settlement.dispatchId.all uuidPattern && !blank settlement.reason &&
        settlement.reason.length ≤ 1024 && !settlement.reason.contains 0

def parseEvent (host : CampaignHost) (event : CampaignEvent) : Bool :=
  event.sequence < maxEvents && event.id = recordId event.sequence && iso event.atTime &&
    event.kind.valid host event.sequence event.atTime

end AshlrHub.Campaign

import AshlrHub.Js.Decimal
import AshlrHub.Js.Map
import AshlrHub.Universe.Manifest

namespace AshlrHub.Universe

open Js

/-! The evidence of a universe: its records, and what a reader projects from them. Scores and the
differences between them are exact. -/

structure UniverseArtifact where
  path : JsString
  digest : JsString
  revision : JsString
deriving DecidableEq

inductive GenerationProvider where
  | localOpenAiCompatible
  | resourcePool
deriving DecidableEq

inductive ResourceDispatch where
  | notStarted
  | withheld
  | settled
  | replayed
  | unavailable
deriving DecidableEq

structure ResourceEvidence where
  dispatch : ResourceDispatch
  taskStatus : Option JsString
deriving DecidableEq

structure UniverseGenerationReceipt where
  provider : GenerationProvider
  requestStarted : Bool
  /-- Input and output tokens, where they are reported. -/
  usage : Option (ℕ × ℕ)
  resource : Option ResourceEvidence
  /-- The canonical text of the other fields, which only the generation's evidence reads. -/
  others : JsString
deriving DecidableEq

inductive TrialStatus where
  | passed
  | failed
  | timedOut
  | cancelled
deriving DecidableEq

structure UniverseTrial where
  id : JsString
  variantId : JsString
  niche : JsString
  parentTrialId : Option JsString
  status : TrialStatus
  score : Option ℚ
  metrics : List (JsString × ℚ)
  artifact : Option UniverseArtifact
  durationMs : ℚ
  delta : Option ℚ
  selected : Bool
  generation : Option UniverseGenerationReceipt
  /-- The canonical text of the diagnostics. -/
  diagnostics : Option JsString
  error : Option JsString
deriving DecidableEq

structure UniverseGenerationUsage where
  trials : ℕ
  requestsStarted : ℕ
  reportedRequests : ℕ
  /-- Attempts and reported attempts, where a resource has been used. -/
  resources : Option (ℕ × ℕ)
  /-- Input and output tokens, where all of them are reported. -/
  tokens : Option (ℕ × ℕ)
deriving DecidableEq

inductive RunStatus where
  | running
  | completed
  | interrupted
  | failed
deriving DecidableEq

structure UniverseRun where
  id : JsString
  universeId : JsString
  generation : ℕ
  manifestDigest : JsString
  comparatorDigest : JsString
  startedAt : JsString
  finishedAt : Option JsString
  status : RunStatus
  trials : List UniverseTrial
  durationMs : ℚ
  tokensUsed : Option ℕ
  generationUsage : Option UniverseGenerationUsage
  /-- The canonical text of the campaign. -/
  campaign : Option JsString
  feedbackEnabled : Bool
  feedbackVersion : Option ℕ
  /-- The canonical text of the seed context. -/
  seedContext : Option JsString
  error : Option JsString

structure UniverseElite where
  niche : JsString
  variantId : JsString
  trialId : JsString
  runId : JsString
  generation : ℕ
  score : ℚ
  metrics : List (JsString × ℚ)
  artifact : UniverseArtifact
  comparatorDigest : JsString

structure ManifestRecord where
  manifest : UniverseManifest
  manifestDigest : JsString
  comparatorDigest : JsString
  seedArtifact : UniverseArtifact
  /-- `manifest.seed.revision` -/
  seedRevision : JsString

structure StartRecord where
  run : UniverseRun
  ownerPid : ℕ
  ownerStart : JsString

inductive UniverseRecord where
  | manifest (record : ManifestRecord)
  | start (record : StartRecord)
  | trial (runId : JsString) (trial : UniverseTrial)
  | final (run : UniverseRun)

def UniverseRecord.id : UniverseRecord → JsString
  | .manifest _ => js "manifest"
  | .start record => record.run.id ++ js ".start"
  | .trial runId measured => runId ++ js ".trial." ++ measured.id
  | .final run => run.id ++ js ".final"

/-! What a generation has used. -/

def maxSafeInteger : ℕ := 2 ^ 53 - 1

structure GenerationResources where
  tokensUsed : Option ℕ
  generationUsage : Option UniverseGenerationUsage
deriving DecidableEq

def isRequest (receipt : UniverseGenerationReceipt) : Bool :=
  receipt.provider = .localOpenAiCompatible && receipt.requestStarted

def isAttempt (receipt : UniverseGenerationReceipt) : Bool :=
  receipt.provider = .resourcePool &&
    !receipt.resource.any fun resource =>
      resource.dispatch = .notStarted || resource.dispatch = .withheld

def isReportedAttempt (receipt : UniverseGenerationReceipt) : Bool :=
  isAttempt receipt && receipt.usage.isSome &&
    receipt.resource.any fun resource => resource.dispatch = .settled &&
      resource.taskStatus ≠ some (js "uncertain") && resource.taskStatus ≠ some (js "reserved")

def generationResources (trials : List UniverseTrial) (recordingComplete : Bool) :
    GenerationResources :=
  let receipts := trials.filterMap (·.generation)
  if receipts = [] then ⟨none, none⟩
  else
    let requests := receipts.filter isRequest
    let reported := requests.filter fun receipt => receipt.usage.isSome
    let resources := receipts.filter fun receipt => receipt.provider = .resourcePool
    let attempts := receipts.filter isAttempt
    let resourceReported := receipts.filter isReportedAttempt
    let measured := (reported ++ resourceReported).filterMap (·.usage)
    let input := (measured.map Prod.fst).sum
    let output := (measured.map Prod.snd).sum
    let complete := recordingComplete && 0 < requests.length + attempts.length &&
      reported.length = requests.length && resourceReported.length = attempts.length &&
      input + output ≤ maxSafeInteger
    { tokensUsed := if complete then some (input + output) else none
      generationUsage := some
        { trials := receipts.length
          requestsStarted := requests.length
          reportedRequests := reported.length
          resources := if resources = [] then none
            else some (attempts.length, resourceReported.length)
          tokens := if complete then some (input, output) else none } }

/-! What a record is after it has been read. -/

structure UniverseTrial.Valid (trial : UniverseTrial) : Prop where
  scored : trial.status = .passed → trial.score.isSome
  archived : trial.status = .passed → trial.artifact.isSome
  passed : trial.selected → trial.status = .passed

def resourceEvidenceMatches (run : UniverseRun) (trials : List UniverseTrial) : Bool :=
  generationResources trials (run.status = .completed) = ⟨run.tokensUsed, run.generationUsage⟩

structure UniverseRun.Valid (run : UniverseRun) : Prop where
  generation : 1 ≤ run.generation
  trials : ∀ trial ∈ run.trials, trial.Valid
  distinct : (run.trials.map (·.id)).Nodup
  resources : resourceEvidenceMatches run run.trials

def UniverseRecord.Valid : UniverseRecord → Prop
  | .manifest _ => True
  | .start record => record.run.Valid ∧ record.run.status = .running ∧ record.run.trials = []
  | .trial _ measured => measured.Valid ∧ measured.selected = false
  | .final run => run.Valid ∧ run.status ≠ .running ∧ run.finishedAt.isSome

structure EvidenceLedger where
  records : List UniverseRecord
  distinct : (records.map (·.id)).Nodup
  valid : ∀ record ∈ records, record.Valid

def readRecords (ledger : EvidenceLedger) : List UniverseRecord :=
  ledger.records.mergeSort fun a b => a.id ≤ b.id

/-! Selection. -/

def multiplier : MetricDirection → ℚ
  | .maximize => 1
  | .minimize => -1

def improvement (metric : UniverseMetric) (elite : UniverseElite) (score : ℚ) : ℚ :=
  multiplier metric.direction * (score - elite.score)

def isCandidate (niche : JsString) (trial : UniverseTrial) : Bool :=
  trial.niche = niche && trial.status = .passed && trial.score.isSome

section

variable (manifest : UniverseManifest)

/-- `findIndex`, -1 where there is none -/
def variantIndex (variantId : JsString) : ℤ :=
  match manifest.variants.findIdx? fun variant => variant.id = variantId with
  | some index => index
  | none => -1

def compareCandidates (a b : UniverseTrial) : ℚ :=
  let byScore := multiplier manifest.metric.direction * (b.score.getD 0 - a.score.getD 0)
  if byScore ≠ 0 then byScore
  else variantIndex manifest a.variantId - variantIndex manifest b.variantId

def winnerOf (trials : List UniverseTrial)
    (previous : Option UniverseElite) (niche : JsString) : Option ℕ :=
  let candidates := (trials.zipIdx.filter fun entry => isCandidate niche entry.1).insertionSort
    fun a b => compareCandidates manifest a.1 b.1 ≤ 0
  match candidates.head?, previous with
  | none, _ => none
  | some (_, index), none => some index
  | some (best, index), some elite =>
      let delta := improvement manifest.metric elite (best.score.getD 0)
      if 0 < delta ∧ manifest.metric.minImprovement ≤ delta then some index else none

def selectNiche (prior : List UniverseElite)
    (trials : List UniverseTrial) (niche : JsString) : List UniverseTrial :=
  let previous := prior.find? fun elite => elite.niche = niche
  let winner := winnerOf manifest trials previous niche
  trials.zipIdx.map fun (trial, index) =>
    if isCandidate niche trial then
      { trial with
        delta := previous.map fun elite =>
          improvement manifest.metric elite (trial.score.getD 0)
        selected := trial.selected || winner = some index }
    else trial

def selectWinners (trials : List UniverseTrial) (prior : List UniverseElite) : List UniverseTrial :=
  (manifest.variants.map (·.niche)).eraseDups.foldl (selectNiche manifest prior) trials

/-! The projection. -/

abbrev Elites := JsMap JsString UniverseElite

section

variable (records : List UniverseRecord)

def trialsOf (runId : JsString) : List UniverseTrial :=
  records.filterMap fun
    | .trial owner trial => if owner = runId then some trial else none
    | _ => none

def finalOf (runId : JsString) : Option UniverseRun :=
  records.findSome? fun
    | .final run => if run.id = runId then some run else none
    | _ => none

def startsOf : List StartRecord :=
  (records.filterMap fun
    | .start record => some record
    | _ => none).insertionSort fun a b => a.run.generation ≤ b.run.generation

def manifestOf : Option ManifestRecord :=
  records.findSome? fun
    | .manifest record => some record
    | _ => none

end

def UniverseTrial.unselected (trial : UniverseTrial) : UniverseTrial :=
  { trial with selected := false, delta := none }

structure UniverseRun.SameRun (first second : UniverseRun) : Prop where
  fields : second = { first with trials := second.trials }
  trials : first.trials.Perm second.trials
  completed : first.status = .completed → second.trials = first.trials

structure UniverseReading where
  directory : JsString
  manifestInScope : ManifestRecord → Bool
  comparatorFault : ManifestRecord → Option JsString
  alive : StartRecord → Bool
  seedContext : UniverseRun → ManifestRecord → Option JsString
  generationFault : ManifestRecord → List UniverseRun → List UniverseElite → UniverseRun →
    UniverseVariant → UniverseTrial → Option JsString
  artifactFault : UniverseElite → Option JsString
  fault_order : ∀ stored first second elites run variant trial,
    List.Forall₂ UniverseRun.SameRun first second →
      generationFault stored first elites run variant trial =
        generationFault stored second elites run variant trial

structure ProjectionState where
  runs : List UniverseRun
  elites : Elites
  activeRun : Option UniverseRun

def finalDiffers (started run : UniverseRun) (trials : List UniverseTrial) : Bool :=
  run.universeId ≠ started.universeId || run.generation ≠ started.generation ||
    run.manifestDigest ≠ started.manifestDigest ||
    run.comparatorDigest ≠ started.comparatorDigest || run.startedAt ≠ started.startedAt ||
    run.campaign ≠ started.campaign || run.feedbackEnabled ≠ started.feedbackEnabled ||
    run.feedbackVersion ≠ started.feedbackVersion || run.seedContext ≠ started.seedContext ||
    !resourceEvidenceMatches run trials || run.trials.length ≠ trials.length ||
    run.trials.any fun trial => !trials.any fun raw => trial.unselected = raw.unselected

def unfinishedRun (reading : UniverseReading) (start : StartRecord)
    (trials : List UniverseTrial) : UniverseRun :=
  let resources := generationResources trials false
  { start.run with
    trials
    tokensUsed := resources.tokensUsed
    generationUsage := resources.generationUsage
    status := if reading.alive start then .running else .interrupted
    error := if reading.alive start then start.run.error
      else some (js "Run owner exited before writing final evidence") }

def readRun (reading : UniverseReading) (records : List UniverseRecord) (start : StartRecord) :
    Except JsString UniverseRun :=
  let trials := trialsOf records start.run.id
  match finalOf records start.run.id with
  | none => .ok (unfinishedRun reading start trials)
  | some run =>
      if finalDiffers start.run run trials then
        .error (js "Final run does not match durable trial evidence")
      else .ok run

def expectedTrials (run : UniverseRun) (prior : List UniverseElite) : List UniverseTrial :=
  let cleared := run.trials.map (·.unselected)
  if run.status = .completed then selectWinners manifest cleared prior else cleared

end

def eliteList (elites : Elites) : List UniverseElite :=
  elites.map Prod.snd

section

variable (reading : UniverseReading)

def checkTrial (stored : ManifestRecord) (state : ProjectionState)
    (run : UniverseRun) (trial : UniverseTrial) : Except JsString Unit :=
  match stored.manifest.variants.find? fun variant => variant.id = trial.variantId with
  | none => .error (js "Trial variant or lineage does not match the manifest and prior archive")
  | some variant => do
      if variant.niche ≠ trial.niche ∨
          trial.parentTrialId ≠ (state.elites.get? trial.niche).map (·.trialId) then
        throw (js "Trial variant or lineage does not match the manifest and prior archive")
      if trial.artifact.any fun artifact =>
          artifact.path ≠ reading.directory ++ js "/artifacts/" ++ run.id ++ js "/" ++ trial.id ||
            artifact.revision ≠ stored.seedRevision then
        throw (js "Trial artifact path is outside its exact archive slot")
      if variant.generation.isSome then
        match reading.generationFault stored state.runs (eliteList state.elites)
            { run with trials := [] } variant trial with
        | some fault => throw fault
        | none => pure ()
      else if trial.generation.isSome then
        throw (js "Command trial cannot claim model generation usage")

def eliteFrom (run : UniverseRun) (trial : UniverseTrial) : Option UniverseElite :=
  match trial.score, trial.artifact with
  | some score, some artifact =>
      if run.status = .completed ∧ trial.selected then
        some
          { niche := trial.niche
            variantId := trial.variantId
            trialId := trial.id
            runId := run.id
            generation := run.generation
            score
            metrics := trial.metrics
            artifact
            comparatorDigest := run.comparatorDigest }
      else none
  | _, _ => none

def archiveRun (elites : Elites) (run : UniverseRun) : Elites :=
  run.trials.foldl (fun elites trial =>
    match eliteFrom run trial with
    | some elite => elites.set trial.niche elite
    | none => elites) elites

def projectRun (stored : ManifestRecord)
    (records : List UniverseRecord) (state : ProjectionState) (start : StartRecord) :
    Except JsString ProjectionState := do
  if start.run.universeId ≠ stored.manifest.id ∨ start.run.manifestDigest ≠ stored.manifestDigest ∨
      start.run.comparatorDigest ≠ stored.comparatorDigest then
    throw (js "Run comparator does not match Universe")
  if start.run.seedContext.isSome ∧ reading.seedContext start.run stored ≠ start.run.seedContext
    then
    throw (js "Run seed context differs from its measured campaign evidence")
  let run ← readRun reading records start
  let expected := expectedTrials stored.manifest run (eliteList state.elites)
  if run.trials.map (fun trial => (trial.selected, trial.delta)) ≠
      expected.map (fun trial => (trial.selected, trial.delta)) then
    throw (js "Archived selection does not follow the pinned metric")
  run.trials.forM (checkTrial reading stored state run)
  pure
    { runs := state.runs ++ [run]
      elites := archiveRun state.elites run
      activeRun := if run.status = .running then some run else state.activeRun }

def isOrphan (starts : List StartRecord) : UniverseRecord → Bool
  | .trial runId _ => !starts.any fun start => start.run.id = runId
  | .final run => !starts.any fun start => start.run.id = run.id
  | _ => false

structure UniverseSummary where
  manifest : UniverseManifest
  manifestDigest : JsString
  comparatorDigest : JsString
  runs : List UniverseRun
  elites : List UniverseElite
  activeRun : Option UniverseRun
  healthy : Bool
  reasons : List JsString

def summarize (stored : ManifestRecord) (state : ProjectionState) : UniverseSummary :=
  let reasons := (reading.comparatorFault stored).toList ++
    (eliteList state.elites).filterMap reading.artifactFault
  { manifest := stored.manifest
    manifestDigest := stored.manifestDigest
    comparatorDigest := stored.comparatorDigest
    runs := state.runs
    elites := if reasons = [] then eliteList state.elites else []
    activeRun := state.activeRun
    healthy := reasons.isEmpty
    reasons }

def projectUniverse (records : List UniverseRecord) : Except JsString UniverseSummary := do
  let some stored := manifestOf records | throw (js "Universe manifest missing")
  if !reading.manifestInScope stored then throw (js "Universe comparator scope changed")
  let starts := startsOf records
  if starts.map (·.run.generation) ≠ (List.range starts.length).map (· + 1) then
    throw (js "Universe generation sequence contains a duplicate or gap")
  let state ← starts.foldlM (projectRun reading stored records) ⟨[], [], none⟩
  if records.any (isOrphan starts) then throw (js "Orphaned Universe evidence")
  pure (summarize reading stored state)

end

end AshlrHub.Universe

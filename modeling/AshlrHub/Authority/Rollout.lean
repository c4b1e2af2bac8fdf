import AshlrHub.Authority.StandingGrant
import AshlrHub.Authority.LedgerWrite

namespace AshlrHub.Authority

open Js

/-! The rollout ladder: where a grant stands on it, what the evidence of the current stage
says, and the one move that is due. -/

structure RolloutPositionInternal where
  stageIndex : ℕ
  stageId : JsString
  enteredAt : JsString
  /-- Evidence counts rows after this one. -/
  entrySeq : ℕ
deriving DecidableEq

def rolloutPositionFor (grant : StandingGrantV1) (index : LedgerAuthorityIndex) :
    Option RolloutPositionInternal :=
  match index.accepted.get? grant.grantId with
  | none => none
  | some accepted =>
      let first := grant.stages.head?.map fun stage =>
        ⟨0, stage.id, accepted.at', accepted.seq⟩
      match index.rollout.get? grant.grantId with
      | none => first
      | some moved =>
          if moved.entrySeq < accepted.seq then first
          else
            match grant.stages[moved.stageIndex]? with
            | none => none
            | some stage =>
                if stage.id = moved.stageId then
                  some ⟨moved.stageIndex, moved.stageId, moved.enteredAt, moved.entrySeq⟩
                else none

def hourMs : ℤ := 60 * 60 * 1000

/-- `REVERT_SETTLE_MS` -/
def revertSettleMs : ℤ := 90 * 60 * 1000

/-- `EVIDENCE_UNKNOWN_HOLD_MS` -/
def evidenceUnknownHoldMs : ℤ := 24 * 60 * 60 * 1000

/-- `Math.floor((100 * numerator) / denominator)` -/
def pct (numerator denominator : ℕ) : ℕ :=
  100 * numerator / denominator

section Evidence

def stageRows (position : RolloutPositionInternal) (evidence : List LedgerEvidenceRow) :
    List LedgerEvidenceRow :=
  evidence.filter fun row => position.entrySeq < row.seq

variable (rows : List LedgerEvidenceRow)

def rowsOf (kind : LedgerEvidenceKind) : List LedgerEvidenceRow :=
  rows.filter fun row => row.kind = kind

def evidenceUnknownHolding (nowMs : ℤ) : ℕ :=
  (rowsOf rows .sandboxEvidenceUnknown).countP fun row =>
    match dateParse row.at' with
    | none => true
    | some atMs => nowMs - atMs < evidenceUnknownHoldMs

def stageLandingIds : List JsString :=
  ((rowsOf rows .mergeLanded).filterMap (·.landingId)).foldl (fun set id => addToSet id set) []

def chargedHere (landingIds : List JsString) (row : LedgerEvidenceRow) : Bool :=
  match row.revertsLandingId with
  | none | some [] => true
  | some id => landingIds.contains id

def chargedReverts : List LedgerEvidenceRow :=
  (rowsOf rows .revertLanded).filter (chargedHere (stageLandingIds rows))

def enterVerdict (landingIds : List JsString) (verdicts : JsMap JsString (Verdict × JsString))
    (row : LedgerEvidenceRow) : JsMap JsString (Verdict × JsString) :=
  match row.landingId, row.verdict with
  | some id, some verdict =>
      if row.kind = .postMergeResult ∧ id ∈ landingIds then verdicts.set id (verdict, row.at')
      else verdicts
  | _, _ => verdicts

def stageVerdicts : JsMap JsString (Verdict × JsString) :=
  rows.foldl (enterVerdict (stageLandingIds rows)) []

def settles (row : LedgerEvidenceRow) : Option JsString :=
  match row.kind with
  | .revertLanded => row.revertsLandingId
  | .revertFailed => row.landingId
  | _ => none

def settled : List JsString :=
  rows.filterMap settles

def settling (nowMs : ℤ) (entry : JsString × Verdict × JsString) : Bool :=
  entry.2.1 = .red && !(settled rows).contains entry.1 &&
    match dateParse entry.2.2 with
    | none => false
    | some redMs => nowMs - redMs < revertSettleMs

def revertsSettling (nowMs : ℤ) : ℕ :=
  (stageVerdicts rows).countP (settling rows nowMs)

def verdictCount (verdict : Verdict) : ℕ :=
  (stageVerdicts rows).countP fun entry => entry.2.1 = verdict

def completedWatches : ℕ :=
  verdictCount rows .green + verdictCount rows .red

def pendingWatches : ℕ :=
  (stageLandingIds rows).countP fun id => !(stageVerdicts rows).has id

def postMergeGreenPct : Option ℕ :=
  if 0 < completedWatches rows then
    some (pct (verdictCount rows .green) (completedWatches rows))
  else none

def revertRatePct : Option ℕ :=
  let merges := (rowsOf rows .mergeLanded).length
  let reverts := (chargedReverts rows).length
  if 0 < merges then some (min 100 (pct reverts merges))
  else if 0 < reverts then some 100
  else none

end Evidence

structure RolloutEvidence where
  hoursInStage : ℚ
  merges : ℕ
  postMergeGreenPct : Option ℕ
  revertRatePct : Option ℕ
  sandboxViolations : ℕ
  reserveBreaches : ℕ

/-- Why a stage regresses. -/
inductive RolloutBreach where
  | sandboxViolations (count : ℕ)
  | reserveBreaches (count : ℕ)
  | revertRate (percent limit : ℕ)

def plural (count : ℕ) (ending : JsString) : JsString :=
  if count = 1 then [] else ending

def RolloutBreach.text (stageId : JsString) : RolloutBreach → JsString
  | .sandboxViolations count =>
      decimal count ++ js " sandbox violation" ++ plural count (js "s") ++ js " in stage " ++
        stageId
  | .reserveBreaches count =>
      decimal count ++ js " reserve breach" ++ plural count (js "es") ++ js " in stage " ++ stageId
  | .revertRate percent limit =>
      js "revert rate " ++ decimal percent ++ js "% in stage " ++ stageId ++ js " is above its " ++
        decimal limit ++ js "% limit"

inductive UnmetCriterion where
  | merges (count minimum : ℕ) (landed : Bool)
  | noWatchFinished
  | postMergeGreen (percent minimum : ℕ)
  | watchesRunning (count : ℕ)
  | revertsSettling (count : ℕ)
  | revertRate (percent limit : ℕ)
  | hours (spent minimum : ℕ)
  | sandboxViolations (count : ℕ)
  | reserveBreaches (count : ℕ)
  | evidenceUnknown (count : ℕ)

def UnmetCriterion.text : UnmetCriterion → JsString
  | .merges count minimum landed =>
      decimal count ++ js " of " ++ decimal minimum ++
        if landed then js " merges" else js " would-merge digests"
  | .noWatchFinished => js "no post-merge watch has finished yet"
  | .postMergeGreen percent minimum =>
      js "post-merge green " ++ decimal percent ++ js "% (needs " ++ decimal minimum ++ js "%)"
  | .watchesRunning count =>
      decimal count ++ js " post-merge watch" ++ plural count (js "es") ++ js " still running"
  | .revertsSettling count =>
      decimal count ++ js " revert" ++ plural count (js "s") ++ js " of a red merge still landing"
  | .revertRate percent limit =>
      js "revert rate " ++ decimal percent ++ js "% (max " ++ decimal limit ++ js "%)"
  | .hours spent minimum => decimal spent ++ js " h of " ++ decimal minimum ++ js " h"
  | .sandboxViolations count =>
      decimal count ++ js " sandbox violation" ++ plural count (js "s") ++ js " (0 allowed)"
  | .reserveBreaches count =>
      decimal count ++ js " reserve breach" ++ plural count (js "es") ++ js " (0 allowed)"
  | .evidenceUnknown count =>
      decimal count ++ js " run" ++ plural count (js "s") ++
        js " with unknown sandbox evidence in the last 24 h"

structure RolloutProgress where
  stageId : JsString
  stageIndex : ℕ
  stageCount : ℕ
  enteredAt : JsString
  evidence : RolloutEvidence
  criteria : RolloutCriteria
  nextStageId : Option JsString
  met : Bool
  unmet : List UnmetCriterion

inductive RolloutDecision where
  | advance
  | regress
  | hold
deriving DecidableEq

structure RolloutEvaluation where
  progress : RolloutProgress
  decision : RolloutDecision
  breach : Option RolloutBreach
  pendingWatches : ℕ

section Evaluation

variable (stage : RolloutStage) (rows : List LedgerEvidenceRow)

def stageMerges : Bool :=
  stage.repos.any fun repo => repo.stage = .merge

def mergeCount : ℕ :=
  if stageMerges stage then (rowsOf rows .mergeLanded).length
  else (rowsOf rows .gateWouldMerge).length

def revertRateBreach : Option ℕ :=
  (revertRatePct rows).filter fun percent => stage.criteria.maxRevertRatePct < percent

def rolloutBreach : Option RolloutBreach :=
  let violations := (rowsOf rows .sandboxViolation).length
  let breaches := (rowsOf rows .reserveBreach).length
  if 0 < violations then some (.sandboxViolations violations)
  else if 0 < breaches then some (.reserveBreaches breaches)
  else (revertRateBreach stage rows).map (.revertRate · stage.criteria.maxRevertRatePct)

def unmetWatches : List UnmetCriterion :=
  let minimum := stage.criteria.minPostMergeGreenPct
  if 0 < minimum then
    (match postMergeGreenPct rows with
      | none => if 0 < stage.criteria.minMerges then [.noWatchFinished] else []
      | some percent => if percent < minimum then [.postMergeGreen percent minimum] else []) ++
      (if 0 < pendingWatches rows then [.watchesRunning (pendingWatches rows)] else [])
  else []

def elapsedMs (position : RolloutPositionInternal) (nowMs : ℤ) : ℤ :=
  max 0 (nowMs - (dateParse position.enteredAt).getD nowMs)

def stageTenths (position : RolloutPositionInternal) (nowMs : ℤ) : ℕ :=
  (elapsedMs position nowMs / (hourMs / 10)).toNat

def unmetCriteria (position : RolloutPositionInternal) (nowMs : ℤ) : List UnmetCriterion :=
  let criteria := stage.criteria
  let violations := (rowsOf rows .sandboxViolation).length
  let breaches := (rowsOf rows .reserveBreach).length
  let unknown := evidenceUnknownHolding rows nowMs
  let reverting := revertsSettling rows nowMs
  (if mergeCount stage rows < criteria.minMerges then
      [.merges (mergeCount stage rows) criteria.minMerges (stageMerges stage)] else []) ++
    unmetWatches stage rows ++
    (if 0 < reverting then [.revertsSettling reverting] else []) ++
    (match revertRateBreach stage rows with
      | none => []
      | some percent => [.revertRate percent criteria.maxRevertRatePct]) ++
    (if elapsedMs position nowMs < criteria.minHours * hourMs then
      [.hours (stageTenths position nowMs / 10) criteria.minHours] else []) ++
    (if 0 < violations then [.sandboxViolations violations] else []) ++
    (if 0 < breaches then [.reserveBreaches breaches] else []) ++
    -- never a breach: unknown evidence is the absence of proof that there was none
    (if 0 < unknown then [.evidenceUnknown unknown] else [])

end Evaluation

def evaluateRollout (grant : StandingGrantV1) (position : RolloutPositionInternal)
    (evidence : List LedgerEvidenceRow) (nowMs : ℤ) : Option RolloutEvaluation :=
  match grant.stages[position.stageIndex]? with
  | none => none
  | some stage =>
      let rows := stageRows position evidence
      let breach := rolloutBreach stage rows
      let unmet := unmetCriteria stage rows position nowMs
      let last := grant.stages.length - 1 ≤ position.stageIndex
      some
        { progress :=
            { stageId := stage.id
              stageIndex := position.stageIndex
              stageCount := grant.stages.length
              enteredAt := position.enteredAt
              evidence :=
                { hoursInStage := nearestDouble (stageTenths position nowMs / 10)
                  merges := mergeCount stage rows
                  postMergeGreenPct := postMergeGreenPct rows
                  revertRatePct := revertRatePct rows
                  sandboxViolations := (rowsOf rows .sandboxViolation).length
                  reserveBreaches := (rowsOf rows .reserveBreach).length }
              criteria := stage.criteria
              nextStageId :=
                if last then none else grant.stages[position.stageIndex + 1]?.map (·.id)
              met := unmet = []
              unmet := unmet }
          decision :=
            if breach.isSome then .regress
            else if unmet = [] ∧ ¬ last then .advance
            else .hold
          breach := breach
          pendingWatches := pendingWatches rows }

structure RolloutStepResult where
  decision : RolloutDecision
  fromStageId : JsString
  toStageId : JsString
  evaluation : RolloutEvaluation

def optionalInt : Option ℕ → JsValue
  | none => .null
  | some n => jsInt n

def RolloutEvidence.members (evidence : RolloutEvidence) : List (JsString × JsValue) :=
  [(js "hoursInStage", .num (.ofRat evidence.hoursInStage)), (js "merges", jsInt evidence.merges),
    (js "postMergeGreenPct", optionalInt evidence.postMergeGreenPct),
    (js "revertRatePct", optionalInt evidence.revertRatePct),
    (js "sandboxViolations", jsInt evidence.sandboxViolations),
    (js "reserveBreaches", jsInt evidence.reserveBreaches)]

section Step

variable (grant : StandingGrantV1) (position : RolloutPositionInternal)
  (evaluation : RolloutEvaluation) (toIndex : ℕ) (target : RolloutStage)

def advancedRow : LedgerAppendInput where
  kind := .rolloutAdvanced
  actor := .daemon
  grantId := some grant.grantId
  repo := none
  data :=
    [(js "grantId", .str grant.grantId), (js "fromStageId", .str position.stageId),
      (js "toStageId", .str target.id), (js "toStageIndex", jsInt toIndex),
      (js "evidence", .obj evaluation.progress.evidence.members)]
  distinct := by
    cases green : evaluation.progress.evidence.postMergeGreenPct <;>
      cases rate : evaluation.progress.evidence.revertRatePct <;>
        simp only [RolloutEvidence.members, green, rate] <;> rfl

def regressedRow : LedgerAppendInput where
  kind := .rolloutRegressed
  actor := .daemon
  grantId := some grant.grantId
  repo := none
  data :=
    [(js "grantId", .str grant.grantId), (js "fromStageId", .str position.stageId),
      (js "toStageId", .str target.id), (js "toStageIndex", jsInt toIndex),
      (js "breach", .str ((evaluation.breach.map (RolloutBreach.text position.stageId)).getD
        (js "breach"))),
      (js "evidence", .obj evaluation.progress.evidence.members)]
  distinct := by
    cases green : evaluation.progress.evidence.postMergeGreenPct <;>
      cases rate : evaluation.progress.evidence.revertRatePct <;>
        simp only [RolloutEvidence.members, green, rate] <;> rfl

end Step

def stepRolloutUnderLock (snapshot : LedgerSnapshot) (grant : StandingGrantV1) (nowMs : ℤ) :
    Option (RolloutStepResult × Option LedgerAppendInput) := do
  guard (snapshot.chain ≠ .broken)
  let position ← rolloutPositionFor grant snapshot.index
  let evaluation ← evaluateRollout grant position snapshot.index.evidence nowMs
  match evaluation.decision with
  | .hold => return (⟨.hold, position.stageId, position.stageId, evaluation⟩, none)
  | .advance =>
      let toIndex := position.stageIndex + 1
      let target ← grant.stages[toIndex]?
      return (⟨.advance, position.stageId, target.id, evaluation⟩,
        some (advancedRow grant position evaluation toIndex target))
  | .regress =>
      -- a breach on the first rung re-enters it
      let toIndex := position.stageIndex - 1
      let target ← grant.stages[toIndex]?
      return (⟨.regress, position.stageId, target.id, evaluation⟩,
        some (regressedRow grant position evaluation toIndex target))

end AshlrHub.Authority

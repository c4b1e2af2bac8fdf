import AshlrHub.Routing.Policy

namespace AshlrHub.Authority

open Js Routing

/-! The vocabulary of a standing grant, and of the policy in force under it. -/

/-- `GRANT_ENGINES` -/
inductive GrantEngine where
  | local
  | grokCli
  | claudeCli
  | codex
  | devin
deriving DecidableEq

inductive SeatRole where
  | producer
  | judge
  | leader
deriving DecidableEq

structure EffectiveSeatPolicy where
  seatId : SeatId
  enabled : Bool
  reserveFloorPercent : Percent
  /-- None is no session ceiling. -/
  maxSessionWindowPercent : Option Percent
  roles : List SeatRole

structure EffectiveSpendPolicy where
  maxMode : BudgetMode
  meteredUsdPerDay : ℚ
  /-- A seat absent here is unusable by autonomy. -/
  seats : JsMap SeatId EffectiveSeatPolicy

def localSeatWildcard : SeatId :=
  ⟨js "local", spelled_local⟩

def standingSeatFor {α : Type} (seats : JsMap SeatId α) (seatId : SeatId) : Option α :=
  match seats.get? seatId with
  | some exact => some exact
  | none => if engineOfSeatId seatId = .local then seats.get? localSeatWildcard else none

def fleetEngineOfSeat (seatId : SeatId) : Option GrantEngine :=
  match engineOfSeatId seatId with
  | .claudeApi => none
  | .local => some .local
  | .grok => some .grokCli
  | .codex => some .codex
  | .devin => some .devin
  | .claude => some .claudeCli

/-! The signed grant: repositories, caps, spend, engines, Leader, and the rollout ladder. -/

inductive RepoStage where
  | propose
  | merge
deriving DecidableEq

/-- `REPO_STAGE_RANK` -/
def RepoStage.rank : RepoStage → ℕ
  | .propose => 0
  | .merge => 1

inductive RepoEnforcement where
  | server
  | local
deriving DecidableEq

inductive MergeRisk where
  | low
  | medium
deriving DecidableEq

/-- `MERGE_RISK_RANK` -/
def MergeRisk.rank : MergeRisk → ℕ
  | .low => 0
  | .medium => 1

inductive SelfRepoMode where
  | proposeOnly
  | mergeNonAuthority
deriving DecidableEq

inductive LeaderGrantClass where
  | a
  | b
deriving DecidableEq

structure StandingGrantRepo where
  /-- GitHub `owner/name`. -/
  nameWithOwner : JsString
  /-- The most this repo may ever reach under the grant. -/
  stage : RepoStage
  enforcement : RepoEnforcement
  maxRisk : MergeRisk
  maxMergesPerDay : ℕ
deriving DecidableEq

structure StandingGrantMerge where
  /-- The marker `operator-signed`; absent retains the legacy volume limits. -/
  volumePolicy : Bool
  maxFiles : ℕ
  maxLines : ℕ
  selfRepo : SelfRepoMode
deriving DecidableEq

structure StandingGrantSeat where
  enabled : Bool
  reserveFloorPercent : ℕ
  /-- None is no session ceiling. -/
  maxSessionWindowPercent : Option ℕ
  roles : List SeatRole
deriving DecidableEq

structure StandingGrantSpend where
  maxMode : BudgetMode
  meteredUsdPerDay : ℕ
  /-- A seat absent here is unusable by autonomy. -/
  seats : JsMap SeatId StandingGrantSeat
deriving DecidableEq

structure StandingGrantLeader where
  classes : List LeaderGrantClass
  vetoMinutes : ℕ
deriving DecidableEq

structure RolloutCriteria where
  minMerges : ℕ
  /-- green / (green + red) over the completed post-merge watches. -/
  minPostMergeGreenPct : ℕ
  /-- reverts / merges in the stage. -/
  maxRevertRatePct : ℕ
  minHours : ℕ
deriving DecidableEq

structure RolloutStageRepo where
  nameWithOwner : JsString
  stage : RepoStage
deriving DecidableEq

/-- One rung of the ladder. -/
structure RolloutStage where
  id : JsString
  repos : List RolloutStageRepo
  engines : List GrantEngine
  maxRisk : MergeRisk
  maxFiles : ℕ
  maxLines : ℕ
  maxMergesPerRepoPerDay : ℕ
  leaderClasses : List LeaderGrantClass
  criteria : RolloutCriteria
deriving DecidableEq

structure StandingWebsitePublication where
  profileDigest : JsString
deriving DecidableEq

/-- A standing grant, without its version `v: 1` and the literal `rollout.autoAdvance: true`. -/
structure StandingGrantV1 where
  grantId : JsString
  grantSeq : ℕ
  keyId : JsString
  issuedAt : JsString
  expiresAt : JsString
  hostBinding : JsString
  authoritySurfaceDigest : JsString
  repos : List StandingGrantRepo
  merge : StandingGrantMerge
  spend : StandingGrantSpend
  engines : List GrantEngine
  leader : StandingGrantLeader
  /-- Lets the goal conductors run live. -/
  conductorGoals : Bool
  /-- `rollout.stages`: the first is where the grant starts. -/
  stages : List RolloutStage
  websitePublication : Option StandingWebsitePublication
deriving DecidableEq

end AshlrHub.Authority

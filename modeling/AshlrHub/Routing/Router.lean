import AshlrHub.Routing.Headroom

namespace AshlrHub.Routing

open Js

/-! How near the work of a seat is to a reset that the provider reported. -/

inductive Admission where
  | eligible
  | held
  | unknown
deriving DecidableEq

inductive ResetKind where
  | fixedPeriod
  | weeklyDeadline
  | rollingRelease
  | balance
  | unknown
deriving DecidableEq

inductive ResetPlan where
  | pro
  | max
  | plus
deriving DecidableEq

structure ResetProvenance where
  kind : ResetKind
  resetAt : Option JsString
  source : Option JsString
  plan : Option ResetPlan
  windowDurationMins : Option ℕ
  startsAt : Option JsString

inductive OpportunityKind where
  | beforeReset
  | ordinary
  | held
  | unknown
deriving DecidableEq

structure ObservedPercentiles where
  p25 : ℚ
  p75 : ℚ

inductive ForecastFit where
  | likelyBeforeReset
  | uncertain
  | unlikelyBeforeReset
  | unknown

structure AccountSchedulingView where
  admission : Admission
  reset : ResetProvenance
  opportunity : OpportunityKind
  forecastDuration : Option ObservedPercentiles

/-- A date alone never proves expiry. -/
def validResetProvenance (value : ResetProvenance) : Bool :=
  let weeklySource :=
    (value.source = some (js "claude-native-usage-report") &&
        (value.plan = some .pro || value.plan = some .max) && value.windowDurationMins.isNone) ||
      (value.source = some (js "codex-native-rate-limits") &&
        (value.plan = some .plus || value.plan = some .pro) &&
        value.windowDurationMins = some 10080)
  let endsLater := value.startsAt.any fun start => value.resetAt.any fun stop => start < stop
  value.resetAt.all isCanonicalInstant && value.startsAt.all isCanonicalInstant &&
    (value.kind ≠ .fixedPeriod || (endsLater && value.source.any (· ≠ []))) &&
    (value.kind ≠ .weeklyDeadline ||
      (value.resetAt.isSome && value.startsAt.isNone && weeklySource)) &&
    !(value.kind = .balance && value.resetAt.isSome)

def hasResetDeadline (reset : ResetProvenance) : Bool :=
  reset.kind = .fixedPeriod || reset.kind = .weeklyDeadline

/-- `Date.parse` of the reset -/
def ResetProvenance.time (reset : ResetProvenance) : Option ℤ :=
  reset.resetAt.bind dateParse

def forecastFit (duration : Option ObservedPercentiles) (reset : ResetProvenance) (nowMs : ℤ) :
    ForecastFit :=
  match duration, reset.time with
  | some duration, some time =>
      if time - nowMs ≤ 0 then .unknown
      else if duration.p75 ≤ time - nowMs then .likelyBeforeReset
      else if (time - nowMs : ℚ) < duration.p25 then .unlikelyBeforeReset
      else .uncertain
  | _, _ => .unknown

def opportunityPriority (view : AccountSchedulingView) (nowMs : ℤ) : ℚ :=
  if view.admission ≠ .eligible ∨ view.opportunity ≠ .beforeReset then 0
  else if !hasResetDeadline view.reset || !validResetProvenance view.reset then 0
  else
    match view.forecastDuration, view.reset.time with
    | some duration, some time =>
        let remaining : ℚ := time - nowMs
        if duration.p75 ≤ 0 ∨ remaining ≤ 0 then 0
        else
          let proximity := 1 / (1 + remaining / duration.p75)
          match forecastFit view.forecastDuration view.reset nowMs with
          | .likelyBeforeReset => 1 + proximity
          | .uncertain => proximity
          | _ => 0
    | _, _ => 0

theorem time_of_opportunityPriority {view : AccountSchedulingView} {nowMs : ℤ}
    (ahead : 0 < opportunityPriority view nowMs) : ∃ time, view.reset.time = some time := by
  unfold opportunityPriority at ahead
  split_ifs at ahead with held deadline
  · exact absurd ahead (lt_irrefl 0)
  · exact absurd ahead (lt_irrefl 0)
  · cases found : view.reset.time with
    | some time => exact ⟨time, rfl⟩
    | none =>
        rw [found] at ahead
        cases duration : view.forecastDuration <;> simp [duration] at ahead

open Authority

/-! Which seats a request may use. -/

inductive RoutingTask where
  | code
  | review
  | plan
  | bulk
  | leader
deriving DecidableEq

inductive RoutingDifficulty where
  | low
  | medium
  | high
deriving DecidableEq

structure RoutingRequest where
  task : RoutingTask
  difficulty : RoutingDifficulty
  /-- Fleet work, to which reserves apply, or the operator's own request. -/
  autonomous : Bool
  contextTokens : Option ℚ

/-- `Partial<RouterWeights>` -/
structure PartialWeights where
  lambdaCost : Option JsNumber
  lambdaPressure : Option JsNumber
  lambdaLatency : Option JsNumber

inductive ResourceTier where
  | elite
  | fast
  | free
deriving DecidableEq

structure RouteOptions where
  nowMs : ℤ
  readingMaxAgeMs : Option ℤ
  weights : PartialWeights
  explicitTiers : JsMap SeatId ResourceTier
  scheduling : Option (JsMap SeatId AccountSchedulingView)
  advisorySeatId : Option JsString

def RouteOptions.view (opts : RouteOptions) (seatId : SeatId) : Option AccountSchedulingView :=
  opts.scheduling.bind (·.get? seatId)

structure Verdict where
  capacity : SeatCapacity
  /-- The place in the caller's list. -/
  index : ℕ
  headroom : Option SeatHeadroom
  eligible : Bool
  details : List SeatReasonKind
  nextEligibleAt : Option JsString

/-- `ROUTER_CONTEXT_FIT_FRACTION` -/
def routerContextFitFraction : ℚ := nearestDouble (8 / 10)

section Verdicts

variable (dateParse : JsString → Option ℤ)

section

variable (capacity : SeatCapacity)

def interactiveVerdict (nowMs maxAge : ℤ) : Verdict :=
  let facts := assessSeat dateParse capacity
    ⟨capacity.seatId, none, true, percent 0 zero_inside, none, none⟩ nowMs maxAge
  let details :=
    (if capacity.signedOut then [.signedOut] else []) ++
      (if capacity.reachable = some false ∧ capacity.signedOut = false then [.unreachable]
        else []) ++
      if facts.exhausted then facts.spentDetails else []
  { capacity := capacity
    index := 0
    headroom := some facts.headroom
    eligible := details.isEmpty
    details := details
    nextEligibleAt := if facts.exhausted then facts.reopensAt else none }

def autonomousVerdict (policy : BudgetPolicy) (nowMs maxAge : ℤ) : Verdict :=
  let seatPolicy := effectiveSeatPolicy policy capacity.seatId capacity.engine
  let assessed := assessSeat dateParse capacity seatPolicy nowMs maxAge
  let eligible := assessed.headroom.eligibleForAutonomy
  { capacity := capacity
    index := 0
    headroom := some assessed.headroom
    eligible := eligible
    details := if eligible then [] else assessed.details
    nextEligibleAt := if eligible then none else assessed.reopensAt }

def fits (contextTokens : Option ℚ) : Bool :=
  match contextTokens, capacity.contextWindow with
  | some tokens, some window =>
      tokens ≤ 0 || tokens ≤ nearestDouble (window * routerContextFitFraction)
  | _, _ => true

def applyFit (verdict : Verdict) (contextTokens : Option ℚ) : Verdict :=
  if fits verdict.capacity contextTokens then verdict
  else { verdict with
    eligible := false
    details := verdict.details ++ [.context]
    nextEligibleAt := none }

def refusedVerdict (reason : SeatReasonKind) : Verdict :=
  ⟨capacity, 0, none, false, [reason], none⟩

def runsInOwnLane : Bool :=
  capacity.engine = .devin &&
    !(capacity.seatId.text = js "devin-cli" && capacity.free && capacity.costBasis = some .free)

end

def routeVerdict (req : RoutingRequest) (policy : BudgetPolicy) (opts : RouteOptions)
    (capacity : SeatCapacity) : Verdict :=
  let maxAge := opts.readingMaxAgeMs.getD headroomReadingMaxAgeMs
  let verdict :=
    if capacity.engine = .claudeApi ∨ capacity.seatId.lower = claudeApiSeatId then
      refusedVerdict capacity .grant
    else if req.autonomous ∧ runsInOwnLane capacity then refusedVerdict capacity .lane
    else
      applyFit
        (if req.autonomous then autonomousVerdict dateParse capacity policy opts.nowMs maxAge
          else interactiveVerdict dateParse capacity opts.nowMs maxAge)
        req.contextTokens
  if req.autonomous ∧ verdict.eligible ∧
      (opts.view capacity.seatId).map (·.admission) = some .unknown then
    { verdict with eligible := false, details := verdict.details ++ [.unknownUsage] }
  else verdict

def routeVerdicts (req : RoutingRequest) (capacity : List SeatCapacity) (policy : BudgetPolicy)
    (opts : RouteOptions) : List Verdict :=
  capacity.zipIdx.map fun (seat, index) =>
    { routeVerdict dateParse req policy opts seat with index := index }

end Verdicts

theorem routeVerdict_eligible {dateParse : JsString → Option ℤ} {req : RoutingRequest}
    (autonomous : req.autonomous = true) (policy : BudgetPolicy) (opts : RouteOptions)
    (capacity : SeatCapacity) :
    (routeVerdict dateParse req policy opts capacity).eligible = true ↔
      ¬ (capacity.engine = .claudeApi ∨ capacity.seatId.lower = claudeApiSeatId) ∧
        runsInOwnLane capacity = false ∧ fits capacity req.contextTokens = true ∧
        (opts.view capacity.seatId).map (·.admission) ≠ some .unknown ∧
        (assessSeat dateParse capacity
          (effectiveSeatPolicy policy capacity.seatId capacity.engine) opts.nowMs
          (opts.readingMaxAgeMs.getD headroomReadingMaxAgeMs)).headroom.eligibleForAutonomy =
            true := by
  unfold routeVerdict
  by_cases refused : capacity.engine = .claudeApi ∨ capacity.seatId.lower = claudeApiSeatId
  · simp [refused, refusedVerdict]
  · cases lane : runsInOwnLane capacity with
    | true => simp [refused, autonomous, refusedVerdict]
    | false =>
        cases fit : fits capacity req.contextTokens with
        | false => simp [refused, autonomous, applyFit, autonomousVerdict, fit]
        | true =>
            simp only [refused, autonomous, applyFit, autonomousVerdict]
            generalize assessSeat dateParse capacity
              (effectiveSeatPolicy policy capacity.seatId capacity.engine) opts.nowMs
              (opts.readingMaxAgeMs.getD headroomReadingMaxAgeMs) = assessed
            by_cases unknown : (opts.view capacity.seatId).map (·.admission) = some .unknown
            · cases assessed.headroom.eligibleForAutonomy <;> simp [unknown, fit]
            · simp [unknown, fit]

end AshlrHub.Routing

import AshlrHub.Lib.Sorting
import AshlrHub.Routing.Router

namespace AshlrHub.Routing

open Js Authority Lib

/-! The order of the seats that a request may use. -/

inductive RankAxis where
  | tier
  | cost

structure RankOrder where
  axis : RankAxis
  order : List ResourceTier

/-- `QUALITY_FIRST` -/
def qualityFirst : List ResourceTier := [.elite, .fast, .free]

/-- `CHEAP_FIRST` -/
def cheapFirst : List ResourceTier := qualityFirst.reverse

def tierPreference (mode : BudgetMode) (req : RoutingRequest) : RankOrder :=
  let quality : RankOrder := ⟨.tier, qualityFirst⟩
  let cheap : RankOrder := ⟨.cost, cheapFirst⟩
  let difficulty :=
    if req.task = .leader ∧ req.difficulty ≠ .high then .high else req.difficulty
  if !req.autonomous then quality
  else if req.task = .bulk ∨ difficulty = .low then cheap
  else if mode = .reserve then
    if difficulty = .high then ⟨.tier, [.fast, .elite, .free]⟩ else cheap
  else if difficulty = .medium then
    if mode = .allIn then ⟨.tier, [.fast, .elite, .free]⟩ else ⟨.cost, [.fast, .free, .elite]⟩
  else quality

structure RouterWeights where
  lambdaCost : ℚ
  lambdaPressure : ℚ
  lambdaLatency : ℚ

/-- `DEFAULT_ROUTER_WEIGHTS` -/
def defaultRouterWeights : RouterWeights := ⟨1, 1, 1 / 4⟩

def routerLambdaMax : ℚ := 10

def pick (weight : Option JsNumber) (default : ℚ) : ℚ :=
  match weight with
  | some (.finite value) => if 0 ≤ value.val then min value.val routerLambdaMax else default
  | _ => default

def resolveWeights (weights : PartialWeights) : RouterWeights :=
  ⟨pick weights.lambdaCost defaultRouterWeights.lambdaCost,
    pick weights.lambdaPressure defaultRouterWeights.lambdaPressure,
    pick weights.lambdaLatency defaultRouterWeights.lambdaLatency⟩

/-- `COST_BASIS_RANK` -/
def costBasisRank : CostBasis → ℚ
  | .free => 0
  | .subscription => 0
  | .credits => 1
  | .perToken => 1

def marginalCost (capacity : SeatCapacity) : ℚ :=
  if capacity.free then costBasisRank .free
  else (capacity.costBasis.map costBasisRank).getD (1 / 2)

def pressureScale : ℚ := 1 / 2

def marginalCostScale : ℚ := 1 / 10

def windowlessHeadroom : ℚ := 50

def seatScore (v : Verdict) (position : ℤ) (w : RouterWeights) : ℚ :=
  let left := (v.headroom.bind (·.autonomyHeadroomPercent)).getD
    (if v.capacity.windowless then windowlessHeadroom else -1)
  position + w.lambdaPressure * pressureScale * (100 - left) / 101 +
    w.lambdaCost * marginalCostScale * marginalCost v.capacity

def position (rankOrder : RankOrder) (opts : RouteOptions) (capacity : SeatCapacity) : ℤ :=
  match (opts.explicitTiers.get? capacity.seatId).bind rankOrder.order.idxOf? with
  | none => 0
  | some index => index - 1

def scoreEpsilon : ℚ := 1 / 10 ^ 9

def compareIds (a b : JsString) : ℚ :=
  if a < b then -1 else if b < a then 1 else 0

/-- Scores first; a difference within the tolerance leaves it to the caller's order. -/
def compareScores (score : Verdict → ℚ) : Comparator Verdict :=
  fun a b =>
    let diff := score a - score b
    if scoreEpsilon < |diff| then diff
    else if a.index ≠ b.index then (a.index : ℚ) - b.index
    else compareIds a.capacity.seatId.text b.capacity.seatId.text

abbrev Ranked := Verdict × ℕ

section

variable (opts : RouteOptions)

def opportunityOf (row : Ranked) : ℚ :=
  ((opts.view row.1.capacity.seatId).map fun view => opportunityPriority view opts.nowMs).getD 0

def resetTimeOf (row : Ranked) : Option ℤ :=
  (opts.view row.1.capacity.seatId).bind (·.reset.time)

/-- `Number(seatId === options.advisorySeatId)` -/
def advised (row : Ranked) : ℚ :=
  if opts.advisorySeatId.any fun id => id ≠ [] && row.1.capacity.seatId.text = id then 1 else 0

def earlierReset (a b : Ranked) : ℚ :=
  if 0 < opportunityOf opts a then
    match resetTimeOf opts a, resetTimeOf opts b with
    | some aTime, some bTime => aTime - bTime
    | _, _ => 0
  else 0

def compareOpportunities : Comparator Ranked :=
  fun a b =>
    let ap := opportunityOf opts a
    let bp := opportunityOf opts b
    let advice := advised opts b - advised opts a
    let earlier := earlierReset opts a b
    if ap ≠ bp then bp - ap
    else if advice ≠ 0 then advice
    else if earlier ≠ 0 then earlier
    else (a.2 : ℚ) - b.2

end

/-- Put the ordered members of a group in the places that its members held. -/
def place {α : Type} (inGroup : α → Bool) : List α → List α → List α
  | _, [] => []
  | [], rows => rows
  | next :: later, row :: rows =>
      if inGroup row then next :: place inGroup later rows
      else row :: place inGroup (next :: later) rows

section Sorted

variable (sorting : SortAlgorithm)

def regroup (groupOf : Verdict → ℤ) (opts : RouteOptions) (ranked : List Verdict) :
    List Verdict :=
  let keys := (ranked.map groupOf).eraseDups
  let rows := keys.foldl
    (fun rows key =>
      let inGroup := fun row : Ranked => decide (groupOf row.1 = key)
      place inGroup (sorting.sort (compareOpportunities opts) (rows.filter inGroup)) rows)
    ranked.zipIdx
  rows.map Prod.fst

/-- `score.get(v)` -/
def scoreOf (rankOrder : RankOrder) (w : RouterWeights) (opts : RouteOptions) (v : Verdict) : ℚ :=
  seatScore v (position rankOrder opts v.capacity) w

def rank (verdicts : List Verdict) (rankOrder : RankOrder) (w : RouterWeights)
    (opts : RouteOptions) : List Verdict :=
  let ranked := sorting.sort (compareScores (scoreOf rankOrder w opts)) verdicts
  if opts.scheduling.isNone then ranked
  else regroup sorting (fun v => position rankOrder opts v.capacity) opts ranked

structure SeatExclusion where
  seatId : SeatId
  details : List SeatReasonKind
  nextEligibleAt : Option JsString

structure SeatDecision where
  seatId : Option SeatId
  candidates : List SeatId
  exclusions : List SeatExclusion
  mode : BudgetMode

def routeSeat (dateParse : JsString → Option ℤ) (req : RoutingRequest)
    (capacity : List SeatCapacity) (policy : BudgetPolicy) (opts : RouteOptions) : SeatDecision :=
  let verdicts := routeVerdicts dateParse req capacity policy opts
  let eligible := rank sorting (verdicts.filter (·.eligible)) (tierPreference policy.mode req)
    (resolveWeights opts.weights) opts
  let exclusions := sorting.sort (fun a b => compareIds a.seatId.text b.seatId.text)
    ((verdicts.filter fun v => !v.eligible).map fun v =>
      SeatExclusion.mk v.capacity.seatId v.details v.nextEligibleAt)
  { seatId := eligible.head?.map (·.capacity.seatId)
    candidates := eligible.map (·.capacity.seatId)
    exclusions := exclusions
    mode := policy.mode }

end Sorted

/-! Ranking keeps the seats. -/

theorem place_length {α : Type} (inGroup : α → Bool) : (ordered rows : List α) →
    ordered.length = (rows.filter inGroup).length →
      (place inGroup ordered rows).Perm (ordered ++ rows.filter fun row => !inGroup row)
  | [], [], _ => by simp [place]
  | next :: later, [], same => by simp at same
  | [], row :: rows, same => by
      have none : (row :: rows).filter inGroup = [] := List.length_eq_zero_iff.mp same.symm
      have all : ((row :: rows).filter fun row => !inGroup row) = row :: rows := by
        rw [List.filter_eq_nil_iff] at none
        rw [List.filter_eq_self]
        intro other member
        simpa using none other member
      have kept : place inGroup [] (row :: rows) = row :: rows := rfl
      rw [kept, all, List.nil_append]
  | next :: later, row :: rows, same => by
      rw [place]
      cases member : inGroup row with
      | true =>
          rw [List.filter_cons_of_pos member, List.length_cons, List.length_cons,
            Nat.add_right_cancel_iff] at same
          rw [if_pos rfl, List.filter_cons_of_neg (by simp [member]), List.cons_append]
          exact (place_length inGroup later rows same).cons next
      | false =>
          rw [List.filter_cons_of_neg (by simp [member])] at same
          rw [if_neg Bool.false_ne_true, List.filter_cons_of_pos (by simp [member])]
          exact ((place_length inGroup (next :: later) rows same).cons row).trans
            List.perm_middle.symm

theorem place_perm {α : Type} {inGroup : α → Bool} {ordered rows : List α}
    (members : ordered.Perm (rows.filter inGroup)) : (place inGroup ordered rows).Perm rows :=
  (place_length inGroup ordered rows members.length_eq).trans
    ((members.append_right _).trans (List.filter_append_perm inGroup rows))

section Sorted

variable (sorting : SortAlgorithm)

theorem regroup_perm (groupOf : Verdict → ℤ) (opts : RouteOptions) (ranked : List Verdict) :
    (regroup sorting groupOf opts ranked).Perm ranked := by
  have keeps : ∀ (keys : List ℤ) (rows : List Ranked), (keys.foldl (fun rows key =>
      place (fun row : Ranked => decide (groupOf row.1 = key))
        (sorting.sort (compareOpportunities opts)
          (rows.filter fun row => decide (groupOf row.1 = key))) rows) rows).Perm rows := by
    intro keys
    induction keys with
    | nil => exact fun rows => List.Perm.refl rows
    | cons key keys ih => exact fun rows => (ih _).trans (place_perm (sorting.perm _ _))
  have image := (keeps (ranked.map groupOf).eraseDups ranked.zipIdx).map Prod.fst
  rw [List.zipIdx_map_fst] at image
  exact image

theorem rank_perm (verdicts : List Verdict) (rankOrder : RankOrder) (w : RouterWeights)
    (opts : RouteOptions) : (rank sorting verdicts rankOrder w opts).Perm verdicts := by
  unfold rank
  have sorted := sorting.perm (compareScores (scoreOf rankOrder w opts)) verdicts
  dsimp only
  split_ifs
  · exact sorted
  · exact (regroup_perm sorting _ opts _).trans sorted

end Sorted

end AshlrHub.Routing

import AshlrHub.Routing.Ranking

namespace AshlrHub.Routing

open Js Authority Lib

/-! When the comparison of scores orders the candidates. -/

/-- Two scores further apart than the tolerance with a third within it of both, the seats
being listed the other way round. -/
def Straddled (score : Verdict → ℚ) (candidates : List Verdict) : Prop :=
  ∃ low ∈ candidates, ∃ middle ∈ candidates, ∃ high ∈ candidates,
    scoreEpsilon < score high - score low ∧ |score middle - score low| ≤ scoreEpsilon ∧
      |score high - score middle| ≤ scoreEpsilon ∧
      high.index < middle.index ∧ middle.index < low.index

def Placed (candidates : List Verdict) : Prop :=
  ∀ a ∈ candidates, ∀ b ∈ candidates, a.index = b.index → a = b

theorem scoreEpsilon_pos : 0 < scoreEpsilon := by
  unfold scoreEpsilon
  norm_num

theorem compareIds_self (id : JsString) : compareIds id id = 0 := by
  rw [compareIds, if_neg (List.lt_irrefl id), if_neg (List.lt_irrefl id)]

theorem compareIds_swap (a b : JsString) : compareIds b a = -compareIds a b := by
  unfold compareIds
  by_cases less : a < b
  · rw [if_neg (List.lt_asymm less), if_pos less, if_pos less, neg_neg]
  · by_cases more : b < a
    · rw [if_pos more, if_neg less, if_pos more]
    · rw [if_neg less, if_neg more, if_neg more, if_neg less, neg_zero]

section Scores

variable {score : Verdict → ℚ} {candidates : List Verdict}

theorem compareScores_swap (a b : Verdict) :
    compareScores score b a = -compareScores score a b := by
  unfold compareScores
  dsimp only
  rw [abs_sub_comm (score b), compareIds_swap]
  by_cases apart : scoreEpsilon < |score a - score b|
  · rw [if_pos apart, if_pos apart, neg_sub]
  · rw [if_neg apart, if_neg apart]
    by_cases same : a.index = b.index
    · rw [if_neg (not_not.mpr same.symm), if_neg (not_not.mpr same)]
    · rw [if_pos (Ne.symm same), if_pos same, neg_sub]

variable {a b : Verdict}

theorem compareScores_nonpos (placed : Placed candidates) (inA : a ∈ candidates)
    (inB : b ∈ candidates) :
    compareScores score a b ≤ 0 ↔ scoreEpsilon < score b - score a ∨
      |score a - score b| ≤ scoreEpsilon ∧ a.index ≤ b.index := by
  have positive := scoreEpsilon_pos
  unfold compareScores
  dsimp only
  split_ifs with apart other
  · rw [or_iff_left fun near => absurd near.1 (not_le.mpr apart)]
    cases lt_abs.mp apart with
    | inl above => exact iff_of_false (by linarith) (by linarith)
    | inr below => exact iff_of_true (by linarith) (by linarith)
  · have near := not_lt.mp apart
    rw [or_iff_right fun far => apart (far.trans_le ((le_abs_self _).trans (abs_sub_comm _ _).le)),
      and_iff_right near, sub_nonpos, Nat.cast_le]
  · have same := placed a inA b inB (not_not.mp other)
    rw [same, compareIds_self]
    exact iff_of_true le_rfl (.inr ⟨by rw [sub_self, abs_zero]; exact positive.le, le_rfl⟩)

theorem compareScores_neg_of_near (near : |score a - score b| ≤ scoreEpsilon)
    (listed : a.index < b.index) : compareScores score a b < 0 := by
  unfold compareScores
  dsimp only
  rw [if_neg (not_lt.mpr near), if_pos listed.ne, sub_neg, Nat.cast_lt]
  exact listed

theorem compareScores_consistent (placed : Placed candidates)
    (apart : ¬ Straddled score candidates) : Consistent (compareScores score) candidates where
  flips := by
    intro a _ b _
    rw [compareScores_swap a b, neg_pos]
  trans := by
    intro a inA b inB c inC ab bc
    rw [compareScores_nonpos placed inA inB] at ab
    rw [compareScores_nonpos placed inB inC] at bc
    rw [compareScores_nonpos placed inA inC]
    have positive := scoreEpsilon_pos
    by_cases far : scoreEpsilon < score c - score a
    · exact .inl far
    · refine .inr ?_
      rw [not_lt] at far
      -- each of the four ways to come from `a` over `b` to `c`
      rcases ab with less | ⟨near, order⟩ <;> rcases bc with less' | ⟨near', order'⟩
      · linarith
      · have close : |score c - score a| ≤ scoreEpsilon := by
          rw [abs_le] at near' ⊢
          constructor <;> linarith
        rw [abs_sub_comm]
        refine ⟨close, not_lt.mp fun back => ?_⟩
        rcases order'.eq_or_lt with same | before
        · rw [placed b inB c inC same] at less
          linarith
        · exact apart ⟨a, inA, c, inC, b, inB, less, close, near', before, back⟩
      · have close : |score c - score a| ≤ scoreEpsilon := by
          rw [abs_le] at near ⊢
          constructor <;> linarith
        rw [abs_sub_comm]
        refine ⟨close, not_lt.mp fun back => ?_⟩
        rcases order.eq_or_lt with same | before
        · rw [← placed a inA b inB same] at less'
          linarith
        · exact apart ⟨b, inB, a, inA, c, inC, less', near, close, back, before⟩
      · refine ⟨?_, order.trans order'⟩
        by_contra beyond
        rw [not_le, lt_abs] at beyond
        have above : scoreEpsilon < score a - score c := by
          rcases beyond with above | below
          · exact above
          · linarith
        rcases order.eq_or_lt with same | before
        · rw [← placed a inA b inB same] at near'
          linarith [(abs_le.mp near').2]
        · rcases order'.eq_or_lt with same | before'
          · rw [placed b inB c inC same] at near
            linarith [(abs_le.mp near).2]
          · rw [abs_sub_comm] at near near'
            exact apart ⟨c, inC, b, inB, a, inA, above, by rwa [abs_sub_comm],
              by rwa [abs_sub_comm], before, before'⟩

theorem not_straddled_of_strictWeakOrder
    (order : StrictWeakOrder (fun a b => compareScores score a b < 0) candidates) :
    ¬ Straddled score candidates := by
  rintro ⟨low, inLow, middle, inMiddle, high, inHigh, far, nearLow, nearHigh, first, second⟩
  have before := order.trans high inHigh middle inMiddle low inLow
    (compareScores_neg_of_near nearHigh first) (compareScores_neg_of_near nearLow second)
  have above : compareScores score high low = score high - score low :=
    if_pos (far.trans_le (le_abs_self _))
  have positive := scoreEpsilon_pos
  rw [above] at before
  linarith

theorem compareScores_apart (placed : Placed candidates) (inA : a ∈ candidates)
    (inB : b ∈ candidates) (tie : compareScores score a b = 0) : a = b := by
  have back : compareScores score b a = 0 := by
    rw [compareScores_swap, tie, neg_zero]
  have ab := (compareScores_nonpos placed inA inB).mp tie.le
  have ba := (compareScores_nonpos placed inB inA).mp back.le
  have positive := scoreEpsilon_pos
  apply placed a inA b inB
  rcases ab with less | ⟨near, order⟩ <;> rcases ba with less' | ⟨near', order'⟩
  · linarith
  · linarith [(abs_le.mp near').2]
  · linarith [(abs_le.mp near).2]
  · exact le_antisymm order order'

end Scores

/-! The second sort compares one key after another. -/

def timeKey (opts : RouteOptions) (row : Ranked) : ℚ :=
  if 0 < opportunityOf opts row then ((resetTimeOf opts row).getD 0 : ℤ) else 0

variable {opts : RouteOptions}

theorem resetTimeOf_of_opportunity {row : Ranked}
    (ahead : 0 < opportunityOf opts row) : ∃ time, resetTimeOf opts row = some time := by
  unfold opportunityOf at ahead
  unfold resetTimeOf
  cases found : opts.view row.1.capacity.seatId with
  | none =>
      rw [found] at ahead
      exact absurd ahead (lt_irrefl (0 : ℚ))
  | some view =>
      rw [found] at ahead
      exact time_of_opportunityPriority ahead

theorem earlierReset_eq {a b : Ranked} (level : opportunityOf opts a = opportunityOf opts b) :
    earlierReset opts a b = timeKey opts a - timeKey opts b := by
  unfold earlierReset timeKey
  rw [← level]
  split_ifs with ahead
  · obtain ⟨aTime, aFound⟩ := resetTimeOf_of_opportunity ahead
    obtain ⟨bTime, bFound⟩ := resetTimeOf_of_opportunity (level ▸ ahead)
    rw [aFound, bFound, Option.getD_some, Option.getD_some]
  · rw [sub_zero]

theorem compareOpportunities_eq (opts : RouteOptions) :
    compareOpportunities opts =
      Comparator.thenBy (fun a b => -opportunityOf opts a - -opportunityOf opts b)
        (Comparator.thenBy (fun a b => -advised opts a - -advised opts b)
          (Comparator.thenBy (fun a b => timeKey opts a - timeKey opts b)
            fun a b => (a.2 : ℚ) - b.2)) := by
  funext a b
  unfold compareOpportunities Comparator.thenBy
  simp only [ne_eq, ite_not, neg_sub_neg]
  by_cases level : opportunityOf opts a = opportunityOf opts b
  · rw [if_pos level, if_pos (sub_eq_zero.mpr level.symm), earlierReset_eq level]
  · rw [if_neg level, if_neg fun tie => level (sub_eq_zero.mp tie).symm]

theorem compareOpportunities_consistent (opts : RouteOptions) (rows : List Ranked) :
    Consistent (compareOpportunities opts) rows := by
  rw [compareOpportunities_eq]
  exact (Consistent.ofKey _ rows).thenBy
    ((Consistent.ofKey _ rows).thenBy
      ((Consistent.ofKey _ rows).thenBy (Consistent.ofKey (fun row : Ranked => (row.2 : ℚ)) rows)))

theorem compareOpportunities_apart {ranked : List Verdict} {a b : Ranked}
    (inA : a ∈ ranked.zipIdx) (inB : b ∈ ranked.zipIdx) (tie : compareOpportunities opts a b = 0) :
    a = b := by
  rw [compareOpportunities_eq, Comparator.thenBy_eq_zero, Comparator.thenBy_eq_zero,
    Comparator.thenBy_eq_zero] at tie
  have same : a.2 = b.2 := by
    exact_mod_cast sub_eq_zero.mp tie.2.2.2
  rw [List.mem_zipIdx_iff_getElem?] at inA inB
  rw [same, inB, Option.some_inj] at inA
  exact Prod.ext inA.symm same

theorem regroup_eq (first second : SortAlgorithm) (groupOf : Verdict → ℤ) (opts : RouteOptions)
    (ranked : List Verdict) :
    regroup first groupOf opts ranked = regroup second groupOf opts ranked := by
  unfold regroup
  dsimp only
  congr 1
  have agree : ∀ (keys : List ℤ) (rows : List Ranked), rows ⊆ ranked.zipIdx →
      keys.foldl (fun rows key => place (fun row : Ranked => decide (groupOf row.1 = key))
        (first.sort (compareOpportunities opts)
          (rows.filter fun row => decide (groupOf row.1 = key))) rows) rows =
      keys.foldl (fun rows key => place (fun row : Ranked => decide (groupOf row.1 = key))
        (second.sort (compareOpportunities opts)
          (rows.filter fun row => decide (groupOf row.1 = key))) rows) rows := by
    intro keys
    induction keys with
    | nil => exact fun _ _ => rfl
    | cons key keys ih =>
        intro rows within
        have same := first.sort_eq second
          (compareOpportunities_consistent opts
            (rows.filter fun row => decide (groupOf row.1 = key)))
          (fun a inA b inB tie => compareOpportunities_apart
            (within (List.mem_of_mem_filter inA)) (within (List.mem_of_mem_filter inB)) tie)
          (List.Perm.refl _)
        rw [List.foldl_cons, List.foldl_cons, same]
        exact ih _ fun row member => within ((place_perm (second.perm _ _)).subset member)
  exact agree _ _ (List.Subset.refl _)

/-! The ranking of a request's candidates. -/

section Ranking

variable (dateParse : JsString → Option ℤ) (req : RoutingRequest) (capacity : List SeatCapacity)
  (policy : BudgetPolicy) (opts : RouteOptions)

def candidatesOf : List Verdict :=
  (routeVerdicts dateParse req capacity policy opts).filter (·.eligible)

theorem candidatesOf_placed : Placed (candidatesOf dateParse req capacity policy opts) := by
  intro a inA b inB same
  have read : ∀ v ∈ candidatesOf dateParse req capacity policy opts, ∃ seat,
      capacity[v.index]? = some seat ∧
        v = { routeVerdict dateParse req policy opts seat with index := v.index } := by
    intro v member
    obtain ⟨⟨seat, index⟩, inside, rfl⟩ := List.mem_map.mp (List.mem_of_mem_filter member)
    exact ⟨seat, List.mem_zipIdx_iff_getElem?.mp inside, rfl⟩
  obtain ⟨seat, found, made⟩ := read a inA
  obtain ⟨other, also, remade⟩ := read b inB
  rw [same, also, Option.some_inj] at found
  rw [made, remade, same, found]

/-- The comparison is a strict weak order, and neither the order of the candidates nor the
algorithm changes the ranking or the chosen seat, exactly where no candidate straddles. -/
theorem routeSeat_ranking_iff :
    let candidates := candidatesOf dateParse req capacity policy opts
    let rankOrder := tierPreference policy.mode req
    let weights := resolveWeights opts.weights
    let score := scoreOf rankOrder weights opts
    (StrictWeakOrder (fun a b => compareScores score a b < 0) candidates ∧
      ∀ (first second : SortAlgorithm) (listed : List Verdict), listed.Perm candidates →
        rank first listed rankOrder weights opts = rank second candidates rankOrder weights opts ∧
        (routeSeat first dateParse req capacity policy opts).seatId =
          (rank second listed rankOrder weights opts).head?.map (·.capacity.seatId)) ↔
      ¬ Straddled score candidates := by
  intro candidates rankOrder weights score
  constructor
  · exact fun holds => not_straddled_of_strictWeakOrder holds.1
  · intro apart
    have placed := candidatesOf_placed dateParse req capacity policy opts
    have consistent := compareScores_consistent placed apart
    have agree : ∀ (first second : SortAlgorithm) (listed : List Verdict),
        listed.Perm candidates → rank first listed rankOrder weights opts =
          rank second candidates rankOrder weights opts := by
      intro first second listed same
      have sorted := first.sort_eq second consistent
        (fun a inA b inB tie => compareScores_apart placed inA inB tie) same
      unfold rank
      dsimp only
      rw [sorted]
      split_ifs
      · rfl
      · exact regroup_eq first second _ opts _
    refine ⟨consistent.strictWeakOrder, fun first second listed same => ⟨?_, ?_⟩⟩
    · exact agree first second listed same
    · have chosen : (routeSeat first dateParse req capacity policy opts).seatId =
          (rank first candidates rankOrder weights opts).head?.map (·.capacity.seatId) := rfl
      rw [chosen, agree second first listed same]

end Ranking

/-! Three seats without windows, each a little cheaper than the one before. -/

def dearSeat : SeatCapacity where
  seatId := ⟨js "claude", spelled_claude⟩
  engine := .claude
  free := false
  windows := []
  signedOut := false
  reachable := none
  contextWindow := none
  observedAt := none
  spentTodayUsd := none
  costBasis := some .perToken
  windowless := false

def threeSeats : List SeatCapacity :=
  [dearSeat, { dearSeat with costBasis := none }, { dearSeat with costBasis := some .subscription }]

def ownRequest : RoutingRequest := ⟨.code, .medium, false, none⟩

def balancedPolicy : BudgetPolicy := ⟨.balanced, [], js "1970-01-01T00:00:00.000Z", none⟩

/-- Half the whole cost term is then three quarters of the tolerance. -/
def smallWeight : Double where
  val := 2 ^ (-26 : ℤ)
  isDouble := ⟨1, -26, by norm_num, by norm_num, by norm_num⟩
  finite := by
    have small : |(2 : ℚ) ^ (-26 : ℤ)| ≤ 1 := by norm_num
    exact small.trans_lt (one_lt_pow₀ one_lt_two (by decide))

def costOnly : RouteOptions := ⟨0, none, ⟨some (.finite smallWeight), none, none⟩, [], none, none⟩

def costScore : Verdict → ℚ :=
  scoreOf (tierPreference .balanced ownRequest) (resolveWeights costOnly.weights) costOnly

def costCandidates (capacity : List SeatCapacity) : List Verdict :=
  candidatesOf (fun _ => none) ownRequest capacity balancedPolicy costOnly

def costRoute (capacity : List SeatCapacity) : Option SeatId :=
  (routeSeat mergeSorting (fun _ => none) ownRequest capacity balancedPolicy costOnly).seatId

theorem costOnly_candidates : (costCandidates threeSeats).map (fun v => (v.index, costScore v)) =
    [(0, 1 / 2 + 2 ^ (-26 : ℤ) / 10), (1, 1 / 2 + 2 ^ (-26 : ℤ) / 20), (2, 1 / 2)] := by
  decide +kernel

/-- The first stands before the second and the second before the third, by the list; but the
third stands before the first, by its score. -/
theorem compareScores_cycle : ¬ StrictWeakOrder (fun a b => compareScores costScore a b < 0)
    (costCandidates threeSeats) := by
  intro order
  have rows := costOnly_candidates
  obtain ⟨dear, _, members, dearRow, rest⟩ := List.map_eq_cons_iff.mp rows
  obtain ⟨middle, _, rfl, middleRow, rest⟩ := List.map_eq_cons_iff.mp rest
  obtain ⟨cheap, _, rfl, cheapRow, -⟩ := List.map_eq_cons_iff.mp rest
  rw [Prod.mk.injEq] at dearRow middleRow cheapRow
  rw [members] at order
  refine not_straddled_of_strictWeakOrder order ⟨cheap, by simp, middle, by simp, dear, by simp, ?_⟩
  rw [dearRow.1, dearRow.2, middleRow.1, middleRow.2, cheapRow.1, cheapRow.2]
  unfold scoreEpsilon
  norm_num [abs_le]

theorem costRoute_of_sorted {capacity : List SeatCapacity}
    (sorted : (costCandidates capacity).Pairwise
      fun a b => decide (compareScores costScore a b ≤ 0) = true) :
    costRoute capacity = (costCandidates capacity).head?.map (·.capacity.seatId) :=
  congrArg (fun ranked => ranked.head?.map (·.capacity.seatId)) (List.mergeSort_of_pairwise sorted)

def tiedSeat : SeatCapacity :=
  { dearSeat with seatId := ⟨js "codex", spelled_codex⟩, engine := .codex }

/-- Of two seats with one score the caller's list chooses; and three seats may stand in a
cycle. -/
theorem ranking_follows_list :
    costRoute [dearSeat, tiedSeat] = some dearSeat.seatId ∧
    costRoute [tiedSeat, dearSeat] = some tiedSeat.seatId ∧
    ¬ StrictWeakOrder (fun a b => compareScores costScore a b < 0) (costCandidates threeSeats) := by
  refine ⟨?_, ?_, compareScores_cycle⟩
  · rw [costRoute_of_sorted (by decide +kernel)]
    decide +kernel
  · rw [costRoute_of_sorted (by decide +kernel)]
    decide +kernel

end AshlrHub.Routing

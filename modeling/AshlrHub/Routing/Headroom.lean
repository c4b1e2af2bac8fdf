import AshlrHub.Routing.Policy

namespace AshlrHub.Routing

open Js Authority

/-! Live headroom: how much of a seat autonomy may still use under its budget policy. -/

def minus (a b : ℚ) : ℚ :=
  nearestDouble (a - b)

theorem minus_mono {a b c d : ℚ} (low : a ≤ c) (high : d ≤ b) : minus a b ≤ minus c d :=
  nearestDouble_mono (by linarith)

def sessionWindowMaxMs : ℤ := 5 * 60 * 60000 + 15 * 60000

def headroomReadingMaxAgeMs : ℤ := 15 * 60000

structure CapacityWindow where
  id : JsString
  /-- None is no signal, not zero. -/
  usedPercent : Option ℚ
  resetsAt : Option JsString
  limitReached : Bool

inductive CostBasis where
  | subscription
  | credits
  | perToken
  | free
deriving DecidableEq

structure SeatCapacity where
  seatId : SeatId
  engine : BudgetEngine
  free : Bool
  windows : List CapacityWindow
  signedOut : Bool
  reachable : Option Bool
  contextWindow : Option ℚ
  observedAt : Option JsString
  spentTodayUsd : Option ℚ
  costBasis : Option CostBasis
  /-- The provider exposes no usage window by design. -/
  windowless : Bool

inductive SeatWindowClass where
  | session
  | weekly
  | model
deriving DecidableEq

inductive SeatReasonKind where
  | headroom
  | switchedOff
  | signedOut
  | unreachable
  | spent
  | reserve
  | sessionCeiling
  | unknownUsage
  | spendCap
  | modelWindow
  | context
  | grant
  | lane

inductive BindingWindow where
  | session
  | weekly
deriving DecidableEq

structure SeatHeadroom where
  seatId : SeatId
  sessionUsedPercent : Option ℚ
  weeklyUsedPercent : Option ℚ
  bindingWindow : Option BindingWindow
  autonomyHeadroomPercent : Option ℚ
  resetAt : Option JsString
  eligibleForAutonomy : Bool

structure SeatAssessment where
  headroom : SeatHeadroom
  reopensAt : Option JsString
  exhausted : Bool
  unknownUsage : Bool
  details : List SeatReasonKind
  spentDetails : List SeatReasonKind

section Readings

-- `Date.parse`, whose reading of texts other than ISO ones is the engine's own
variable (dateParse : JsString → Option ℤ)

/-- `Date.parse` of a text that may be missing; an empty one counts as missing. -/
def parseAt (text : Option JsString) : Option ℤ :=
  (text.filter (· ≠ [])).bind dateParse

def resetDistanceMs (window : CapacityWindow) (nowMs : ℤ) : Option ℤ :=
  (parseAt dateParse window.resetsAt).map (· - nowMs)

def classifyWindow (engine : BudgetEngine) (window : CapacityWindow) (nowMs : ℤ) :
    SeatWindowClass :=
  let id := window.id
  let distance := resetDistanceMs dateParse window nowMs
  let far := distance.any (sessionWindowMaxMs < ·)
  let near := distance.any (· ≤ sessionWindowMaxMs)
  if engine = .claude ∧ id = js "five_hour" then .session
  else if engine = .claude ∧ id = js "seven_day" then .weekly
  else if engine = .claude ∧ (js "seven_day_").isPrefixOf id then .model
  else if engine = .grok then .weekly
  else if engine = .codex ∧ (js "_secondary").isSuffixOf id then .weekly
  else if engine = .codex ∧ (js "_primary").isSuffixOf id then
    if far then .weekly else .session
  else if near then .session else .weekly

def isSpent (window : CapacityWindow) : Bool :=
  window.limitReached || window.usedPercent.any (100 ≤ ·)

def peak (windows : List CapacityWindow) : Option (CapacityWindow × ℚ) :=
  windows.foldl
    (fun best window =>
      match window.usedPercent, best with
      | none, _ => best
      | some used, none => some (window, used)
      | some used, some (_, most) => if most < used then some (window, used) else best)
    none

def lastReset (windows : List CapacityWindow) : Option JsString :=
  let resets := windows.map fun window =>
    window.resetsAt.bind fun text => (parseAt dateParse (some text)).map fun at' => (text, at')
  if resets.any Option.isNone then none
  else
    ((resets.filterMap id).foldl
      (fun latest reset =>
        match latest with
        | none => some reset
        | some last => if last.2 < reset.2 then some reset else latest)
      none).map Prod.fst

/-- What the readings of a paid seat say, whatever its policy. -/
structure Readings where
  sessionPeak : Option (CapacityWindow × ℚ)
  weeklyPeak : Option (CapacityWindow × ℚ)
  /-- There is no long window, so the short one carries the reserve too. -/
  noWeekly : Bool
  spentWindows : List CapacityWindow
  hasReading : Bool
  stale : Bool
  nullWindow : Bool
  spentModelWindows : ℕ

def Readings.exhausted (readings : Readings) : Bool :=
  !readings.spentWindows.isEmpty

def Readings.unknownUsage (readings : Readings) : Bool :=
  !readings.hasReading || readings.stale || readings.nullWindow

def readingsOf (capacity : SeatCapacity) (nowMs maxAge : ℤ) : Readings :=
  let classOf := fun window => classifyWindow dateParse capacity.engine window nowMs
  let account := capacity.windows.filter (classOf · ≠ .model)
  let sessionWindows := account.filter (classOf · = .session)
  let weeklyWindows := account.filter (classOf · = .weekly)
  let age := (parseAt dateParse capacity.observedAt).map (nowMs - ·)
  { sessionPeak := peak sessionWindows
    weeklyPeak := peak weeklyWindows
    noWeekly := weeklyWindows.isEmpty
    spentWindows := account.filter isSpent
    hasReading := (peak sessionWindows).isSome || (peak weeklyWindows).isSome
    stale := !age.any (· ≤ maxAge)
    nullWindow := account.any fun window => window.usedPercent.isNone && !window.limitReached
    spentModelWindows := (capacity.windows.filter (classOf · = .model)).countP isSpent }

section

variable (policy : SeatBudgetPolicy)

def reserveCeiling : ℚ :=
  minus 100 policy.reservePercent

def sessionCeiling : ℚ :=
  (policy.maxSessionWindowPercent.getD (percent 100 hundred_inside)).1

def sessionLimitIsReserve (noWeekly : Bool) : Bool :=
  noWeekly && reserveCeiling policy < sessionCeiling policy

def sessionLimit (noWeekly : Bool) : ℚ :=
  if sessionLimitIsReserve policy noWeekly then reserveCeiling policy else sessionCeiling policy

def weeklyRoom (readings : Readings) : Option ℚ :=
  readings.weeklyPeak.map fun top => minus (reserveCeiling policy) top.2

def sessionRoom (readings : Readings) : Option ℚ :=
  readings.sessionPeak.map fun top => minus (sessionLimit policy readings.noWeekly) top.2

def bindingRoom (readings : Readings) : Option (BindingWindow × ℚ) :=
  match weeklyRoom policy readings, sessionRoom policy readings with
  | some weekly, none => some (.weekly, weekly)
  | some weekly, some session =>
      if weekly ≤ session then some (.weekly, weekly) else some (.session, session)
  | none, some session => some (.session, session)
  | none, none => none

def overUsd (spentTodayUsd : Option ℚ) : Bool :=
  policy.dailyUsdCap.any fun cap => spentTodayUsd.all (cap ≤ ·)

end

/-- `Math.round` -/
def round (q : ℚ) : ℤ :=
  ⌊q + 1 / 2⌋

def assessPaid (capacity : SeatCapacity) (policy : SeatBudgetPolicy) (nowMs maxAge : ℤ) :
    SeatAssessment :=
  let readings := readingsOf dateParse capacity nowMs maxAge
  let binding := bindingRoom policy readings
  let bindingTop := binding.bind fun pair =>
    match pair.1 with
    | .weekly => readings.weeklyPeak
    | .session => readings.sessionPeak
  let overCap := overUsd policy capacity.spentTodayUsd
  let ceilingBlocked :=
    !readings.exhausted && !readings.unknownUsage && binding.any fun pair => pair.2 ≤ 0
  let bySession := binding.any fun pair =>
    pair.1 = .session && !sessionLimitIsReserve policy readings.noWeekly
  let spentDetails := readings.spentWindows.map fun _ => SeatReasonKind.spent
  let eligible := policy.enabled && !capacity.signedOut && !readings.exhausted &&
    !readings.unknownUsage && !overCap && binding.any fun pair => 0 < pair.2
  let blockers :=
    (if policy.enabled then [] else [.switchedOff]) ++
      (if capacity.signedOut then [.signedOut] else []) ++ spentDetails ++
      (if readings.unknownUsage then [.unknownUsage] else []) ++
      (if overCap then [.spendCap] else []) ++
      (if ceilingBlocked then [if bySession then .sessionCeiling else .reserve] else []) ++
      List.replicate readings.spentModelWindows SeatReasonKind.modelWindow
  let reopensAt :=
    if ceilingBlocked then bindingTop.bind fun top => top.1.resetsAt
    else if readings.exhausted then lastReset dateParse readings.spentWindows else none
  { headroom :=
      { seatId := capacity.seatId
        sessionUsedPercent := readings.sessionPeak.map Prod.snd
        weeklyUsedPercent := readings.weeklyPeak.map Prod.snd
        bindingWindow := binding.map Prod.fst
        autonomyHeadroomPercent := binding.map fun pair => max 0 (round pair.2)
        resetAt := bindingTop.bind fun top => top.1.resetsAt
        eligibleForAutonomy := eligible }
    reopensAt :=
      if !policy.enabled || capacity.signedOut || readings.unknownUsage || overCap then none
      else reopensAt
    exhausted := readings.exhausted
    unknownUsage := readings.unknownUsage
    details := if eligible then .headroom :: blockers else blockers
    spentDetails := spentDetails }

def assessFree (capacity : SeatCapacity) (policy : SeatBudgetPolicy) : SeatAssessment :=
  let reachable : Bool := capacity.reachable ≠ some false
  let eligible := policy.enabled && reachable
  { headroom :=
      { seatId := capacity.seatId
        sessionUsedPercent := none
        weeklyUsedPercent := none
        bindingWindow := none
        autonomyHeadroomPercent := if reachable then some 100 else none
        resetAt := none
        eligibleForAutonomy := eligible }
    reopensAt := none
    exhausted := false
    unknownUsage := false
    details :=
      (if policy.enabled then [] else [.switchedOff]) ++
        (if reachable then [] else [.unreachable]) ++ if eligible then [.headroom] else []
    spentDetails := [] }

def assessUncommissioned (capacity : SeatCapacity) : SeatAssessment :=
  { headroom :=
      { seatId := capacity.seatId
        sessionUsedPercent := none
        weeklyUsedPercent := none
        bindingWindow := none
        autonomyHeadroomPercent := none
        resetAt := none
        eligibleForAutonomy := false }
    reopensAt := none
    exhausted := false
    unknownUsage := true
    details := [.grant]
    spentDetails := [] }

def assessSeat (capacity : SeatCapacity) (policy : SeatBudgetPolicy) (nowMs maxAge : ℤ) :
    SeatAssessment :=
  if capacity.engine = .claudeApi ∨ capacity.seatId.lower = claudeApiSeatId then
    assessUncommissioned capacity
  else if capacity.free then assessFree capacity policy
  else assessPaid dateParse capacity policy nowMs maxAge

end Readings

/-! A tighter policy leaves no more room. -/

variable {tight loose : SeatBudgetPolicy}

section

variable (tightens : tight.Tightens loose)
include tightens

theorem SeatBudgetPolicy.Tightens.reserveCeiling :
    reserveCeiling tight ≤ reserveCeiling loose :=
  minus_mono le_rfl tightens.reserve

theorem SeatBudgetPolicy.Tightens.sessionCeiling :
    sessionCeiling tight ≤ sessionCeiling loose := by
  unfold Routing.sessionCeiling
  cases bounded : loose.maxSessionWindowPercent with
  | none => exact (tight.maxSessionWindowPercent.getD (percent 100 hundred_inside)).2.2
  | some bound =>
      obtain ⟨cap, present, le⟩ := tightens.session bound bounded
      rw [present]
      exact le

theorem SeatBudgetPolicy.Tightens.sessionLimit (noWeekly : Bool) :
    sessionLimit tight noWeekly ≤ sessionLimit loose noWeekly := by
  have reserve := tightens.reserveCeiling
  have session := tightens.sessionCeiling
  unfold Routing.sessionLimit sessionLimitIsReserve
  cases noWeekly with
  | false => simpa using session
  | true =>
      simp only [Bool.true_and, decide_eq_true_eq]
      split_ifs <;> linarith

end

theorem bindingRoom_pos {policy : SeatBudgetPolicy} {readings : Readings} :
    (bindingRoom policy readings).any (fun pair => 0 < pair.2) = true ↔
      (readings.weeklyPeak.isSome ∨ readings.sessionPeak.isSome) ∧
        (∀ top ∈ readings.weeklyPeak, 0 < minus (reserveCeiling policy) top.2) ∧
        ∀ top ∈ readings.sessionPeak, 0 < minus (sessionLimit policy readings.noWeekly) top.2 := by
  unfold bindingRoom weeklyRoom sessionRoom
  cases readings.weeklyPeak with
  | none => cases readings.sessionPeak <;> simp
  | some weekly =>
      cases readings.sessionPeak with
      | none => simp
      | some session =>
          simp only [Option.map_some]
          split_ifs with order
          · simpa using fun positive : 0 < _ => positive.trans_le order
          · simpa using fun positive : 0 < _ => positive.trans (not_le.mp order)

theorem overUsd_of_tightens (tightens : tight.Tightens loose) {spent : Option ℚ}
    (under : overUsd tight spent = false) : overUsd loose spent = false := by
  unfold overUsd at under ⊢
  cases bounded : loose.dailyUsdCap with
  | none => rfl
  | some bound =>
      obtain ⟨cap, present, le⟩ := tightens.usd bound bounded
      rw [present] at under
      cases spent with
      | none => simp at under
      | some spent =>
          simp only [Option.any_some, Option.all_some, decide_eq_false_iff_not, not_le] at under ⊢
          exact under.trans_le le

theorem assessSeat_eligible {dateParse : JsString → Option ℤ} {capacity : SeatCapacity}
    {nowMs maxAge : ℤ} (tightens : tight.Tightens loose)
    (eligible : (assessSeat dateParse capacity tight nowMs maxAge).headroom.eligibleForAutonomy =
      true) :
    (assessSeat dateParse capacity loose nowMs maxAge).headroom.eligibleForAutonomy = true := by
  unfold assessSeat at eligible ⊢
  split_ifs at eligible ⊢ with refused free
  · exact eligible
  · simp only [assessFree, Bool.and_eq_true] at eligible ⊢
    exact ⟨tightens.enabled eligible.1, eligible.2⟩
  · simp only [assessPaid, Bool.and_eq_true, Bool.not_eq_true'] at eligible ⊢
    obtain ⟨⟨⟨⟨⟨enabled, signedIn⟩, unspent⟩, known⟩, under⟩, room⟩ := eligible
    refine ⟨⟨⟨⟨⟨tightens.enabled enabled, signedIn⟩, unspent⟩, known⟩,
      overUsd_of_tightens tightens under⟩, ?_⟩
    obtain ⟨reading, weekly, session⟩ := bindingRoom_pos.mp room
    refine bindingRoom_pos.mpr ⟨reading, fun top present => ?_, fun top present => ?_⟩
    · exact (weekly top present).trans_le (minus_mono tightens.reserveCeiling le_rfl)
    · exact (session top present).trans_le (minus_mono (tightens.sessionLimit _) le_rfl)

end AshlrHub.Routing

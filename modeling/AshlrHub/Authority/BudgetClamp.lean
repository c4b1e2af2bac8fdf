import AshlrHub.Authority.StandingGrant
import AshlrHub.Routing.Router

namespace AshlrHub.Authority

open Js Routing

/-! The operator's budget, clamped to the grant. -/

def clampMode (mode maxMode : BudgetMode) : BudgetMode :=
  if mode.rank ≤ maxMode.rank then mode else maxMode

def minDefined {α : Type} [LinearOrder α] : Option α → Option α → Option α
  | none, other => other
  | cap, none => cap
  | some cap, some other => some (min cap other)

def clampSeat (spend : EffectiveSpendPolicy) (seatId : SeatId) (current : SeatBudgetPolicy) :
    SeatBudgetPolicy :=
  match standingSeatFor spend.seats seatId, fleetEngineOfSeat seatId with
  | some granted, some _ =>
      { seatId := seatId
        resetSpending := current.resetSpending
        enabled := current.enabled && granted.enabled
        reservePercent := max current.reservePercent granted.reserveFloorPercent
        maxSessionWindowPercent :=
          minDefined current.maxSessionWindowPercent granted.maxSessionWindowPercent
        dailyUsdCap := current.dailyUsdCap.map (min · spend.meteredUsdPerDay) }
  | _, _ => { current with seatId := seatId, enabled := false }

def clampedIds (policy : BudgetPolicy) (spend : EffectiveSpendPolicy)
    (knownSeatIds : List SeatId) : List SeatId :=
  policy.seats.keys ++ spend.seats.keys ++ knownSeatIds

def clampBudgetPolicy (policy : BudgetPolicy) (spend : EffectiveSpendPolicy)
    (knownSeatIds : List SeatId) : BudgetPolicy :=
  let modeClamped := { policy with mode := clampMode policy.mode spend.maxMode }
  let seatOf := fun seatId =>
    clampSeat spend seatId (effectiveSeatPolicy modeClamped seatId (engineOfSeatId seatId))
  { modeClamped with
    seats := (clampedIds policy spend knownSeatIds).foldl
      (fun seats seatId => seats.set seatId (seatOf seatId)) [] }

theorem get?_foldl_set {α β : Type} [DecidableEq α] (value : α → β) (keys : List α)
    (map : JsMap α β) (key : α) :
    (keys.foldl (fun map key => map.set key (value key)) map).get? key =
      if key ∈ keys then some (value key) else map.get? key := by
  induction keys generalizing map with
  | nil => simp
  | cons first keys ih =>
      rw [List.foldl_cons, ih, JsMap.get?_set]
      by_cases later : key ∈ keys
      · simp [later]
      · by_cases same : key = first
        · simp [same]
        · simp [later, same]

variable {policy : BudgetPolicy} {spend : EffectiveSpendPolicy} {seatId : SeatId}

theorem effectiveSeatPolicy_clamped {knownSeatIds : List SeatId}
    (covered : seatId ∈ clampedIds policy spend knownSeatIds) (engine : BudgetEngine) :
    effectiveSeatPolicy (clampBudgetPolicy policy spend knownSeatIds) seatId engine =
      clampSeat spend seatId
        (effectiveSeatPolicy { policy with mode := clampMode policy.mode spend.maxMode } seatId
          (engineOfSeatId seatId)) := by
  have stored : (clampBudgetPolicy policy spend knownSeatIds).seats.get? seatId =
      some (clampSeat spend seatId
        (effectiveSeatPolicy { policy with mode := clampMode policy.mode spend.maxMode } seatId
          (engineOfSeatId seatId))) := by
    rw [clampBudgetPolicy, get?_foldl_set, if_pos covered]
  rw [effectiveSeatPolicy_stored stored]
  unfold clampSeat
  split <;> rfl

theorem minDefined_le_left {α : Type} [LinearOrder α] (cap other : Option α) :
    CapAtMost (minDefined cap other) cap := by
  cases cap with
  | none => simp [CapAtMost]
  | some cap =>
      cases other with
      | none => exact .refl _
      | some other => simp [CapAtMost, minDefined]

theorem clampSeat_tightens (spend : EffectiveSpendPolicy) (seatId : SeatId)
    (current : SeatBudgetPolicy) : (clampSeat spend seatId current).Tightens current := by
  unfold clampSeat
  split
  · refine ⟨?_, le_max_left _ _, minDefined_le_left _ _, ?_⟩
    · simp +contextual
    · intro bound present
      have capped : current.dailyUsdCap = some bound := present
      exact ⟨min bound spend.meteredUsdPerDay, by simp [capped], min_le_left _ _⟩
  · exact ⟨by simp, le_rfl, .refl _, .refl _⟩

/-! When the clamp widens a seat: one that the policy does not store, whose default in
the clamped mode leaves more than its default before. -/

def grantedSeat (spend : EffectiveSpendPolicy) (seatId : SeatId) : Option EffectiveSeatPolicy :=
  if (fleetEngineOfSeat seatId).isSome then standingSeatFor spend.seats seatId else none

structure DefaultCovered (policy : BudgetPolicy) (spend : EffectiveSpendPolicy)
    (seatId : SeatId) (engine : BudgetEngine) : Prop where
  enabled : (∃ granted ∈ grantedSeat spend seatId, granted.enabled = true) →
    (modeDefaults (clampMode policy.mode spend.maxMode) (engineOfSeatId seatId)).enabled = true →
      (modeDefaults policy.mode engine).enabled = true
  reserve : (modeDefaults policy.mode engine).reservePercent ≤
      (modeDefaults (clampMode policy.mode spend.maxMode) (engineOfSeatId seatId)).reservePercent ∨
    ∃ granted ∈ grantedSeat spend seatId,
      (modeDefaults policy.mode engine).reservePercent ≤ granted.reserveFloorPercent
  session : ∀ bound ∈ (modeDefaults policy.mode engine).maxSessionWindowPercent,
    (∃ cap ∈ (modeDefaults (clampMode policy.mode spend.maxMode)
      (engineOfSeatId seatId)).maxSessionWindowPercent, cap ≤ bound) ∨
    ∃ granted ∈ grantedSeat spend seatId, ∃ cap ∈ granted.maxSessionWindowPercent, cap ≤ bound

theorem clampSeat_granted {granted : EffectiveSeatPolicy}
    (named : grantedSeat spend seatId = some granted) (current : SeatBudgetPolicy) :
    clampSeat spend seatId current =
      { seatId := seatId
        resetSpending := current.resetSpending
        enabled := current.enabled && granted.enabled
        reservePercent := max current.reservePercent granted.reserveFloorPercent
        maxSessionWindowPercent :=
          minDefined current.maxSessionWindowPercent granted.maxSessionWindowPercent
        dailyUsdCap := current.dailyUsdCap.map (min · spend.meteredUsdPerDay) } := by
  unfold grantedSeat at named
  split_ifs at named with lane
  obtain ⟨engine, found⟩ := Option.isSome_iff_exists.mp lane
  rw [clampSeat, named, found]

theorem clampSeat_ungranted (unnamed : grantedSeat spend seatId = none)
    (current : SeatBudgetPolicy) :
    clampSeat spend seatId current = { current with seatId := seatId, enabled := false } := by
  unfold grantedSeat at unnamed
  unfold clampSeat
  split_ifs at unnamed with lane
  · rw [unnamed]
  · rw [Option.not_isSome_iff_eq_none.mp lane]
    cases standingSeatFor spend.seats seatId <;> rfl

theorem capAtMost_minDefined {α : Type} [LinearOrder α] {cap other loose : Option α} :
    CapAtMost (minDefined cap other) loose ↔
      ∀ bound ∈ loose, (∃ low ∈ cap, low ≤ bound) ∨ ∃ low ∈ other, low ≤ bound := by
  cases cap with
  | none => simp [minDefined, CapAtMost]
  | some cap =>
      cases other with
      | none | some other => simp [minDefined, CapAtMost]

theorem clampSeat_default_iff {engine : BudgetEngine} :
    (clampSeat spend seatId (defaultSeatPolicy (clampMode policy.mode spend.maxMode) seatId
      (engineOfSeatId seatId))).Tightens (defaultSeatPolicy policy.mode seatId engine) ↔
      DefaultCovered policy spend seatId engine := by
  cases named : grantedSeat spend seatId with
  | none =>
      rw [clampSeat_ungranted named]
      constructor
      · intro tightens
        exact ⟨by simp [named], .inl tightens.reserve, fun bound present =>
          .inl (tightens.session bound present)⟩
      · intro covered
        have reserve := covered.reserve
        have session := covered.session
        rw [named] at reserve session
        refine ⟨by simp, ?_, fun bound present => ?_, by simp [CapAtMost]⟩
        · exact reserve.resolve_right (by simp)
        · exact (session bound present).resolve_right (by simp)
  | some granted =>
      rw [clampSeat_granted named]
      constructor
      · intro tightens
        refine ⟨?_, ?_, fun bound present => ?_⟩
        · rintro ⟨other, present, on⟩ start
          obtain rfl := Option.some.inj (named.symm.trans present)
          exact tightens.enabled (Bool.and_eq_true_iff.mpr ⟨start, on⟩)
        · rcases le_max_iff.mp tightens.reserve with start | floor
          · exact .inl start
          · exact .inr ⟨granted, named, floor⟩
        · rcases capAtMost_minDefined.mp tightens.session bound present with start | other
          · exact .inl start
          · exact .inr ⟨granted, named, other⟩
      · intro covered
        have reserve := covered.reserve
        have session := covered.session
        rw [named] at reserve session
        refine ⟨?_, le_max_iff.mpr ?_, capAtMost_minDefined.mpr fun bound present => ?_,
          by simp [CapAtMost]⟩
        · intro on
          obtain ⟨start, granting⟩ := Bool.and_eq_true_iff.mp on
          exact covered.enabled ⟨granted, named, granting⟩ start
        · simpa using reserve
        · rcases session bound present with start | ⟨other, same, cap⟩
          · exact .inl start
          · obtain rfl := Option.some.inj same
            exact .inr cap

theorem defaultCovered_spelled_iff :
    DefaultCovered policy spend seatId (engineOfSeatId seatId) ↔
      ¬ (policy.mode = .allIn ∧ spend.maxMode = .balanced ∧ engineOfSeatId seatId = .codex ∧
        ∃ granted ∈ grantedSeat spend seatId, granted.enabled = true) := by
  constructor
  · rintro covered ⟨mode, maxMode, codex, granted⟩
    have := covered.enabled granted
    rw [mode, maxMode, codex] at this
    exact absurd (this rfl) (by decide)
  · intro kept
    have le : (clampMode policy.mode spend.maxMode).rank ≤ policy.mode.rank := by
      unfold clampMode
      split_ifs with within
      · exact le_rfl
      · exact (not_le.mp within).le
    obtain ⟨enabled, reserve, session⟩ := modeDefaults_mono le (engineOfSeatId seatId)
    refine ⟨fun granted start => enabled start ?_, .inl reserve, fun bound present =>
      .inl (session bound present)⟩
    rintro ⟨low, high, codex⟩
    refine kept ⟨high, ?_, codex, granted⟩
    rw [clampMode, high] at low
    split_ifs at low
    exact low

def ClampCovers (policy : BudgetPolicy) (spend : EffectiveSpendPolicy) (seatId : SeatId)
    (engine : BudgetEngine) : Prop :=
  (policy.seats.get? seatId).isSome = true ∨ DefaultCovered policy spend seatId engine

theorem tightens_iff {knownSeatIds : List SeatId}
    (covered : seatId ∈ clampedIds policy spend knownSeatIds) (engine : BudgetEngine) :
    (effectiveSeatPolicy (clampBudgetPolicy policy spend knownSeatIds) seatId engine).Tightens
      (effectiveSeatPolicy policy seatId engine) ↔ ClampCovers policy spend seatId engine := by
  rw [effectiveSeatPolicy_clamped covered, ClampCovers]
  cases found : policy.seats.get? seatId with
  | some stored =>
      rw [effectiveSeatPolicy_stored found, effectiveSeatPolicy_stored (by exact found)]
      simpa using clampSeat_tightens spend seatId { stored with seatId := seatId }
  | none =>
      rw [effectiveSeatPolicy_default found, effectiveSeatPolicy_default (by exact found)]
      simpa using clampSeat_default_iff

/-- A seat the clamp covers keeps its limits, and is eligible only where it was, exactly
when it is stored or its default is covered; by the engine its id spells, exactly but
where a grant that allows balanced meets a native seat under all-in. -/
theorem clampBudgetPolicy_tightens_iff (dateParse : JsString → Option ℤ) (policy : BudgetPolicy)
    (spend : EffectiveSpendPolicy) (knownSeatIds : List SeatId) {seatId : SeatId}
    (covered : seatId ∈ clampedIds policy spend knownSeatIds) (engine : BudgetEngine) :
    let clamped := clampBudgetPolicy policy spend knownSeatIds
    (((effectiveSeatPolicy clamped seatId engine).Tightens
        (effectiveSeatPolicy policy seatId engine) ∧
      ∀ req opts capacity, req.autonomous = true → capacity.seatId = seatId →
        capacity.engine = engine →
          (routeVerdict dateParse req clamped opts capacity).eligible = true →
            (routeVerdict dateParse req policy opts capacity).eligible = true) ↔
      ClampCovers policy spend seatId engine) ∧
    (engine = engineOfSeatId seatId → (ClampCovers policy spend seatId engine ↔
      ¬ (policy.seats.get? seatId = none ∧ policy.mode = .allIn ∧ spend.maxMode = .balanced ∧
        engineOfSeatId seatId = .codex ∧
          ∃ granted ∈ grantedSeat spend seatId, granted.enabled = true))) := by
  intro clamped
  refine ⟨⟨fun both => (tightens_iff covered engine).mp both.1, fun keeps => ?_⟩, ?_⟩
  · have tightens := (tightens_iff covered engine).mpr keeps
    refine ⟨tightens, ?_⟩
    rintro req opts capacity autonomous rfl rfl eligible
    rw [routeVerdict_eligible autonomous] at eligible ⊢
    obtain ⟨commissioned, lane, fit, known, assessed⟩ := eligible
    exact ⟨commissioned, lane, fit, known, assessSeat_eligible tightens assessed⟩
  · rintro rfl
    rw [ClampCovers, defaultCovered_spelled_iff]
    cases found : policy.seats.get? seatId <;> simp

/-! A grant that allows balanced, over an all-in budget that stores nothing. -/

def codexSeat : SeatId := ⟨js "codex", spelled_codex⟩

def allInBudget : BudgetPolicy :=
  ⟨.allIn, [], js "1970-01-01T00:00:00.000Z", none⟩

def balancedSpend : EffectiveSpendPolicy :=
  ⟨.balanced, 0, [(codexSeat, ⟨codexSeat, true, percent 0 zero_inside, none, [.producer]⟩)]⟩

theorem clampBudgetPolicy_tightens_stored :
    let policy : BudgetPolicy := { allInBudget with
      seats := [(codexSeat, ⟨codexSeat, none, false, percent 0, none, none⟩)] }
    (effectiveSeatPolicy (clampBudgetPolicy policy balancedSpend []) codexSeat .codex).Tightens
      (effectiveSeatPolicy policy codexSeat .codex) := by
  intro policy
  obtain ⟨tightens, covers⟩ := clampBudgetPolicy_tightens_iff (fun _ => none) policy balancedSpend
    [] (show codexSeat ∈ _ by decide) .codex
  refine (tightens.mpr ((covers (by decide)).mpr ?_)).1
  rintro ⟨absent, _⟩
  cases absent

theorem clampBudgetPolicy_enables_codex :
    codexSeat ∈ clampedIds allInBudget balancedSpend [] ∧
      (effectiveSeatPolicy allInBudget codexSeat .codex).enabled = false ∧
      (effectiveSeatPolicy (clampBudgetPolicy allInBudget balancedSpend []) codexSeat
        .codex).enabled = true := by
  decide

theorem clampSeat_clampSeat (spend : EffectiveSpendPolicy) (seatId : SeatId)
    (current : SeatBudgetPolicy) :
    clampSeat spend seatId (clampSeat spend seatId current) = clampSeat spend seatId current := by
  cases named : grantedSeat spend seatId with
  | none => rw [clampSeat_ungranted named, clampSeat_ungranted named]
  | some granted =>
      have capped (cap : Option Percent) :
          minDefined (minDefined cap granted.maxSessionWindowPercent)
            granted.maxSessionWindowPercent = minDefined cap granted.maxSessionWindowPercent := by
        cases cap <;> cases granted.maxSessionWindowPercent <;> simp [minDefined]
      simp [clampSeat_granted named, capped, Option.map_map, Function.comp_def]

/-- A second clamp, whichever seats are known by then, changes no clamped seat and no mode. -/
theorem clampBudgetPolicy_twice (policy : BudgetPolicy) (spend : EffectiveSpendPolicy)
    (knownSeatIds laterSeatIds : List SeatId) {seatId : SeatId}
    (covered : seatId ∈ clampedIds policy spend knownSeatIds) (engine : BudgetEngine) :
    let clamped := clampBudgetPolicy policy spend knownSeatIds
    effectiveSeatPolicy (clampBudgetPolicy clamped spend laterSeatIds) seatId engine =
        effectiveSeatPolicy clamped seatId engine ∧
      (clampBudgetPolicy clamped spend laterSeatIds).mode = clamped.mode := by
  intro clamped
  obtain ⟨stored, found⟩ : ∃ stored, clamped.seats.get? seatId = some stored :=
    ⟨_, (get?_foldl_set _ _ _ _).trans (if_pos covered)⟩
  have again : seatId ∈ clampedIds clamped spend laterSeatIds := by
    simp only [clampedIds, List.mem_append]
    refine .inl (.inl (not_not.mp fun absent => ?_))
    cases found.symm.trans (JsMap.get?_eq_none absent)
  constructor
  · have kept : effectiveSeatPolicy { clamped with mode := clampMode clamped.mode spend.maxMode }
        seatId (engineOfSeatId seatId) = effectiveSeatPolicy clamped seatId engine := by
      simp only [effectiveSeatPolicy, found]
    rw [effectiveSeatPolicy_clamped again, kept, effectiveSeatPolicy_clamped covered,
      clampSeat_clampSeat]
  · change clampMode (clampMode policy.mode spend.maxMode) spend.maxMode =
      clampMode policy.mode spend.maxMode
    unfold clampMode
    split_ifs <;> simp_all

theorem clampBudgetPolicy_twice_codex :
    let clamped := clampBudgetPolicy allInBudget balancedSpend []
    effectiveSeatPolicy (clampBudgetPolicy clamped balancedSpend []) codexSeat .codex =
      effectiveSeatPolicy clamped codexSeat .codex :=
  (clampBudgetPolicy_twice allInBudget balancedSpend [] [] (by decide) .codex).1

end AshlrHub.Authority

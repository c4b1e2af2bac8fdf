import AshlrHub.Lib.KeyedMerge
import AshlrHub.Routing.Ranking

namespace AshlrHub.Routing

open Js Authority Lib

/-! What an eligible seat is known to have left, and that less of it never makes one. -/

theorem lt_of_minus_pos {a b : ℚ} (positive : 0 < minus a b) : b < a := by
  refine lt_of_not_ge fun le => ?_
  have low : minus a b ≤ nearestDouble 0 := nearestDouble_mono (by linarith)
  have zero : nearestDouble 0 = 0 := by
    have round : roundHalfEven 0 = 0 := by
      exact_mod_cast roundHalfEven_intCast 0
    rw [nearestDouble, zero_div, round, Int.cast_zero, zero_mul]
  rw [zero] at low
  exact absurd positive (not_lt.mpr low)

/-! The fullest of some windows. -/

def fuller (best : Option (CapacityWindow × ℚ)) (window : CapacityWindow) :
    Option (CapacityWindow × ℚ) :=
  match window.usedPercent, best with
  | none, _ => best
  | some used, none => some (window, used)
  | some used, some (_, most) => if most < used then some (window, used) else best

def peakUsed (windows : List CapacityWindow) : Option ℚ := (peak windows).map Prod.snd

/-- The larger of two percentages, an unknown one counting for nothing. -/
def larger : Option ℚ → Option ℚ → Option ℚ
  | none, other => other
  | most, none => most
  | some most, some used => some (max most used)

theorem fuller_used (best : Option (CapacityWindow × ℚ)) (window : CapacityWindow) :
    (fuller best window).map Prod.snd = larger (best.map Prod.snd) window.usedPercent := by
  unfold fuller
  cases window.usedPercent with
  | none => cases best <;> rfl
  | some used =>
      cases best with
      | none => rfl
      | some best =>
          obtain ⟨top, most⟩ := best
          dsimp only [Option.map_some, larger]
          split_ifs with more
          · rw [Option.map_some, max_eq_right more.le]
          · rw [Option.map_some, max_eq_left (not_lt.mp more)]

theorem peakUsed_eq (windows : List CapacityWindow) :
    peakUsed windows = (windows.map (·.usedPercent)).foldl larger none := by
  have folds : ∀ best, ((windows.foldl fuller best).map Prod.snd) =
      (windows.map (·.usedPercent)).foldl larger (best.map Prod.snd) := by
    induction windows with
    | nil => exact fun _ => rfl
    | cons window windows ih =>
        intro best
        rw [List.foldl_cons, ih, fuller_used, List.map_cons, List.foldl_cons]
  exact folds none

theorem foldl_larger_le {useds : List (Option ℚ)} {start : Option ℚ} {used : ℚ}
    (known : some used ∈ useds ∨ start = some used) :
    ∃ most, useds.foldl larger start = some most ∧ used ≤ most := by
  induction useds generalizing start used with
  | nil =>
      rcases known with inside | rfl
      · cases inside
      · exact ⟨used, rfl, le_rfl⟩
  | cons head useds ih =>
      have step : ∀ value, (some value = head ∨ start = some value) →
          ∃ next, larger start head = some next ∧ value ≤ next := by
        rintro value (rfl | rfl)
        · cases start with
          | none => exact ⟨value, rfl, le_rfl⟩
          | some most => exact ⟨max most value, rfl, le_max_right _ _⟩
        · cases head with
          | none => exact ⟨value, rfl, le_rfl⟩
          | some other => exact ⟨max value other, rfl, le_max_left _ _⟩
      rw [List.foldl_cons]
      rcases known with inside | started
      · cases inside with
        | head =>
            obtain ⟨next, made, le⟩ := step used (.inl rfl)
            obtain ⟨most, found, bound⟩ := ih (.inr made)
            exact ⟨most, found, le.trans bound⟩
        | tail _ later => exact ih (.inl later)
      · obtain ⟨next, made, le⟩ := step used (.inr started)
        obtain ⟨most, found, bound⟩ := ih (.inr made)
        exact ⟨most, found, le.trans bound⟩

theorem peak_mem {windows : List CapacityWindow} {top : CapacityWindow × ℚ}
    (found : peak windows = some top) : top.1 ∈ windows ∧ top.1.usedPercent = some top.2 := by
  have keeps : ∀ (rest : List CapacityWindow) (best : Option (CapacityWindow × ℚ)),
      rest ⊆ windows →
      (∀ pair ∈ best, pair.1 ∈ windows ∧ pair.1.usedPercent = some pair.2) →
      ∀ pair ∈ rest.foldl fuller best, pair.1 ∈ windows ∧ pair.1.usedPercent = some pair.2 := by
    intro rest
    induction rest with
    | nil => exact fun _ _ good => good
    | cons window rest ih =>
        intro best within good
        rw [List.foldl_cons]
        refine ih _ (fun other member => within (List.mem_cons_of_mem _ member)) ?_
        intro pair made
        unfold fuller at made
        split at made
        · exact good pair made
        · next isUsed =>
            cases made
            exact ⟨within List.mem_cons_self, isUsed⟩
        · next isUsed =>
            split_ifs at made
            · cases made
              exact ⟨within List.mem_cons_self, isUsed⟩
            · exact good pair made
  exact keeps windows none (List.Subset.refl _) (fun _ absurd => by cases absurd) top found

theorem le_peakUsed {windows : List CapacityWindow} {window : CapacityWindow}
    (member : window ∈ windows) {used : ℚ} (known : window.usedPercent = some used) :
    ∃ top, peak windows = some top ∧ used ≤ top.2 := by
  have inside : some used ∈ windows.map (·.usedPercent) :=
    List.mem_map.mpr ⟨window, member, known⟩
  obtain ⟨most, found, le⟩ := @foldl_larger_le _ none _ (.inl inside)
  rw [← peakUsed_eq, peakUsed, Option.map_eq_some_iff] at found
  obtain ⟨top, present, rfl⟩ := found
  exact ⟨top, present, le⟩

/-! What an eligible seat has. -/

def accountWindows (dateParse : JsString → Option ℤ) (capacity : SeatCapacity) (nowMs : ℤ) :
    List CapacityWindow :=
  capacity.windows.filter fun window =>
    classifyWindow dateParse capacity.engine window nowMs ≠ .model

def noWeekly (dateParse : JsString → Option ℤ) (capacity : SeatCapacity) (nowMs : ℤ) : Bool :=
  ((accountWindows dateParse capacity nowMs).filter fun window =>
    classifyWindow dateParse capacity.engine window nowMs = .weekly).isEmpty

def windowCeiling (dateParse : JsString → Option ℤ) (capacity : SeatCapacity)
    (policy : SeatBudgetPolicy) (nowMs : ℤ) (window : CapacityWindow) : ℚ :=
  match classifyWindow dateParse capacity.engine window nowMs with
  | .session => sessionLimit policy (noWeekly dateParse capacity nowMs)
  | _ => reserveCeiling policy

structure Covered (dateParse : JsString → Option ℤ) (capacity : SeatCapacity)
    (policy : SeatBudgetPolicy) (nowMs maxAge : ℤ) : Prop where
  windows : ∀ window ∈ accountWindows dateParse capacity nowMs,
    window.limitReached = false ∧ ∃ used, window.usedPercent = some used ∧
      used < windowCeiling dateParse capacity policy nowMs window
  present : accountWindows dateParse capacity nowMs ≠ []
  fresh : ∃ observed, parseAt dateParse capacity.observedAt = some observed ∧
    nowMs - observed ≤ maxAge

section Covered

variable {dateParse : JsString → Option ℤ} {capacity : SeatCapacity} {policy : SeatBudgetPolicy}
  {nowMs maxAge : ℤ}

variable {window : CapacityWindow}

theorem under_of_room {windows : List CapacityWindow} {ceiling : ℚ}
    (room : ∀ top ∈ peak windows, 0 < minus ceiling top.2) (member : window ∈ windows) {used : ℚ}
    (known : window.usedPercent = some used) :
    used < ceiling := by
  obtain ⟨top, found, le⟩ := le_peakUsed member known
  exact le.trans_lt (lt_of_minus_pos (room top found))

def windowsOf (dateParse : JsString → Option ℤ) (capacity : SeatCapacity) (nowMs : ℤ)
    (cls : SeatWindowClass) : List CapacityWindow :=
  (accountWindows dateParse capacity nowMs).filter fun window =>
    classifyWindow dateParse capacity.engine window nowMs = cls

theorem mem_windowsOf (member : window ∈ accountWindows dateParse capacity nowMs) :
    window ∈ windowsOf dateParse capacity nowMs
      (classifyWindow dateParse capacity.engine window nowMs) :=
  List.mem_filter.mpr ⟨member, decide_eq_true rfl⟩

theorem assessPaid_eligible :
    (assessPaid dateParse capacity policy nowMs maxAge).headroom.eligibleForAutonomy = true ↔
      policy.enabled = true ∧ capacity.signedOut = false ∧
        (∀ window ∈ accountWindows dateParse capacity nowMs, isSpent window = false) ∧
        (∀ window ∈ accountWindows dateParse capacity nowMs,
          window.usedPercent.isNone = true → window.limitReached = true) ∧
        ((parseAt dateParse capacity.observedAt).map (nowMs - ·)).any (· ≤ maxAge) = true ∧
        overUsd policy capacity.spentTodayUsd = false ∧
        ((peak (windowsOf dateParse capacity nowMs .weekly)).isSome ∨
          (peak (windowsOf dateParse capacity nowMs .session)).isSome) ∧
        (∀ top ∈ peak (windowsOf dateParse capacity nowMs .weekly),
          0 < minus (reserveCeiling policy) top.2) ∧
        ∀ top ∈ peak (windowsOf dateParse capacity nowMs .session),
          0 < minus (sessionLimit policy (noWeekly dateParse capacity nowMs)) top.2 := by
  let readings := readingsOf dateParse capacity nowMs maxAge
  have weekly : readings.weeklyPeak = peak (windowsOf dateParse capacity nowMs .weekly) := rfl
  have session : readings.sessionPeak = peak (windowsOf dateParse capacity nowMs .session) := rfl
  have long : readings.noWeekly = noWeekly dateParse capacity nowMs := rfl
  have spent : readings.exhausted = false ↔
      ∀ window ∈ accountWindows dateParse capacity nowMs, isSpent window = false := by
    have rows : readings.spentWindows =
        (accountWindows dateParse capacity nowMs).filter isSpent := rfl
    rw [Readings.exhausted, rows, Bool.not_eq_false', List.isEmpty_iff, List.filter_eq_nil_iff]
    exact forall₂_congr fun _ _ => iff_of_eq (Bool.not_eq_true _)
  have known : readings.unknownUsage = false ↔
      ((peak (windowsOf dateParse capacity nowMs .session)).isSome ||
        (peak (windowsOf dateParse capacity nowMs .weekly)).isSome) = true ∧
      ((parseAt dateParse capacity.observedAt).map (nowMs - ·)).any (· ≤ maxAge) = true ∧
      ∀ window ∈ accountWindows dateParse capacity nowMs,
        window.usedPercent.isNone = true → window.limitReached = true := by
    have reading : readings.hasReading =
        ((peak (windowsOf dateParse capacity nowMs .session)).isSome ||
          (peak (windowsOf dateParse capacity nowMs .weekly)).isSome) := rfl
    have stale : readings.stale =
        !((parseAt dateParse capacity.observedAt).map (nowMs - ·)).any (· ≤ maxAge) := rfl
    have null : readings.nullWindow = (accountWindows dateParse capacity nowMs).any
        fun window => window.usedPercent.isNone && !window.limitReached := rfl
    rw [Readings.unknownUsage, reading, stale, null, Bool.or_eq_false_iff, Bool.or_eq_false_iff,
      Bool.not_eq_false', Bool.not_eq_false', List.any_eq_false, and_assoc]
    refine and_congr_right fun _ => and_congr_right fun _ => forall₂_congr fun window _ => ?_
    rw [Bool.and_eq_true, Bool.not_eq_true', not_and, Bool.not_eq_false]
  have verdict : (assessPaid dateParse capacity policy nowMs maxAge).headroom.eligibleForAutonomy =
      (policy.enabled && !capacity.signedOut && !readings.exhausted && !readings.unknownUsage &&
        !overUsd policy capacity.spentTodayUsd &&
          (bindingRoom policy readings).any fun pair => 0 < pair.2) := rfl
  rw [verdict]
  simp only [Bool.and_eq_true, Bool.not_eq_true', spent, known, bindingRoom_pos, weekly, session,
    long, Bool.or_eq_true]
  constructor
  · rintro ⟨⟨⟨⟨⟨enabled, signedIn⟩, unspent⟩, -, fresh, flagged⟩, under⟩, room⟩
    exact ⟨enabled, signedIn, unspent, flagged, fresh, under, room⟩
  · rintro ⟨enabled, signedIn, unspent, flagged, fresh, under, room⟩
    exact ⟨⟨⟨⟨⟨enabled, signedIn⟩, unspent⟩, room.1.symm, fresh, flagged⟩, under⟩, room⟩

theorem isSpent_eq_false :
    isSpent window = false ↔ window.limitReached = false ∧ ∀ used ∈ window.usedPercent,
      used < 100 := by
  rw [isSpent, Bool.or_eq_false_iff]
  refine and_congr_right fun _ => ?_
  cases window.usedPercent <;> simp

theorem covered_of_eligible
    (eligible : (assessPaid dateParse capacity policy nowMs maxAge).headroom.eligibleForAutonomy =
      true) : Covered dateParse capacity policy nowMs maxAge := by
  obtain ⟨-, -, unspent, known, fresh, -, reading, weekly, session⟩ :=
    assessPaid_eligible.mp eligible
  refine ⟨?_, ?_, ?_⟩
  · intro window member
    have free := (isSpent_eq_false.mp (unspent window member)).1
    refine ⟨free, ?_⟩
    cases isUsed : window.usedPercent with
    | none =>
        have flagged := known window member (by rw [isUsed]; rfl)
        rw [free] at flagged
        cases flagged
    | some used =>
        refine ⟨used, rfl, ?_⟩
        have inside := mem_windowsOf member
        unfold windowCeiling
        cases cls : classifyWindow dateParse capacity.engine window nowMs with
        | session => exact under_of_room session (cls ▸ inside) isUsed
        | weekly => exact under_of_room weekly (cls ▸ inside) isUsed
        | model =>
            have own := (List.mem_filter.mp member).2
            rw [cls] at own
            cases own
  · intro none
    have empty : ∀ cls, windowsOf dateParse capacity nowMs cls = [] := by
      intro cls
      rw [windowsOf, none, List.filter_nil]
    rw [empty, empty] at reading
    exact reading.elim (fun absurd => by cases absurd) fun absurd => by cases absurd
  · obtain ⟨age, aged, recent⟩ := Option.any_eq_true _ _ |>.mp fresh
    obtain ⟨observed, found, rfl⟩ := Option.map_eq_some_iff.mp aged
    exact ⟨observed, found, of_decide_eq_true recent⟩

end Covered

/-! Less left never makes a seat eligible. -/

structure CapacityWindow.Worsens (worse better : CapacityWindow) : Prop where
  id : worse.id = better.id
  resetsAt : worse.resetsAt = better.resetsAt
  used : Option.Rel (· ≤ ·) better.usedPercent worse.usedPercent
  limit : better.limitReached = true → worse.limitReached = true

structure SeatCapacity.Worsens (worse better : SeatCapacity) : Prop where
  windows : List.Forall₂ CapacityWindow.Worsens worse.windows better.windows
  others : worse = { better with windows := worse.windows }

variable {worse better : CapacityWindow}

section

variable (worsens : worse.Worsens better)
include worsens

theorem CapacityWindow.Worsens.used_some {low : ℚ} (isUsed : better.usedPercent = some low) :
    ∃ high, worse.usedPercent = some high ∧ low ≤ high := by
  have used := worsens.used
  rw [isUsed] at used
  cases found : worse.usedPercent with
  | none =>
      rw [found] at used
      cases used
  | some high =>
      rw [found] at used
      cases used with
      | some le => exact ⟨high, rfl, le⟩

theorem CapacityWindow.Worsens.used_none (unknown : better.usedPercent = none) :
    worse.usedPercent = none := by
  have used := worsens.used
  rw [unknown] at used
  cases found : worse.usedPercent with
  | none => rfl
  | some high =>
      rw [found] at used
      cases used

theorem CapacityWindow.Worsens.spent (unspent : isSpent worse = false) :
    isSpent better = false := by
  rw [isSpent_eq_false] at unspent ⊢
  constructor
  · exact Bool.of_not_eq_true fun reached => absurd (worsens.limit reached) (by simp [unspent.1])
  · intro low isUsed
    obtain ⟨high, found, le⟩ := worsens.used_some isUsed
    exact le.trans_lt (unspent.2 high found)

end

section Worsens

variable {dateParse : JsString → Option ℤ} {worse better : SeatCapacity}
  {tight loose : SeatBudgetPolicy} {nowMs maxAge : ℤ}

theorem classifyWindow_congr {engine : BudgetEngine} {other : CapacityWindow}
    (id : window.id = other.id) (resetsAt : window.resetsAt = other.resetsAt) :
    classifyWindow dateParse engine window nowMs = classifyWindow dateParse engine other nowMs := by
  unfold classifyWindow resetDistanceMs
  rw [id, resetsAt]

section

variable (worsens : worse.Worsens better)
include worsens

theorem SeatCapacity.Worsens.engine :
    worse.engine = better.engine := by
  rw [worsens.others]

theorem SeatCapacity.Worsens.account (member : window ∈ accountWindows dateParse better nowMs) :
    ∃ other ∈ accountWindows dateParse worse nowMs, other.Worsens window ∧
      classifyWindow dateParse worse.engine other nowMs =
        classifyWindow dateParse better.engine window nowMs := by
  obtain ⟨inside, kept⟩ := List.mem_filter.mp member
  obtain ⟨other, present, worsened⟩ := exists_of_forall₂ worsens.windows inside
  have same : classifyWindow dateParse worse.engine other nowMs =
      classifyWindow dateParse better.engine window nowMs := by
    rw [worsens.engine]
    exact classifyWindow_congr worsened.id worsened.resetsAt
  refine ⟨other, List.mem_filter.mpr ⟨present, ?_⟩, worsened, same⟩
  rw [same]
  exact kept

theorem SeatCapacity.Worsens.account' (member : window ∈ accountWindows dateParse worse nowMs) :
    ∃ other ∈ accountWindows dateParse better nowMs, window.Worsens other ∧
      classifyWindow dateParse worse.engine window nowMs =
        classifyWindow dateParse better.engine other nowMs := by
  obtain ⟨inside, kept⟩ := List.mem_filter.mp member
  obtain ⟨other, present, worsened⟩ := exists_of_forall₂ worsens.windows.flip inside
  have same : classifyWindow dateParse worse.engine window nowMs =
      classifyWindow dateParse better.engine other nowMs := by
    rw [worsens.engine]
    exact classifyWindow_congr worsened.id worsened.resetsAt
  refine ⟨other, List.mem_filter.mpr ⟨present, ?_⟩, worsened, same⟩
  rw [← same]
  exact kept

theorem SeatCapacity.Worsens.noWeekly :
    noWeekly dateParse worse nowMs = noWeekly dateParse better nowMs := by
  unfold Routing.noWeekly
  rw [Bool.eq_iff_iff, List.isEmpty_iff, List.isEmpty_iff, List.filter_eq_nil_iff,
    List.filter_eq_nil_iff]
  constructor
  · intro none window member
    obtain ⟨other, present, -, same⟩ := worsens.account member
    rw [← same]
    exact none other present
  · intro none window member
    obtain ⟨other, present, -, same⟩ := worsens.account' member
    rw [same]
    exact none other present

theorem SeatCapacity.Worsens.peak {cls : SeatWindowClass}
    {top : CapacityWindow × ℚ} (found : peak (windowsOf dateParse better nowMs cls) = some top) :
    ∃ other, Routing.peak (windowsOf dateParse worse nowMs cls) = some other ∧ top.2 ≤ other.2 := by
  obtain ⟨member, isUsed⟩ := peak_mem found
  obtain ⟨inside, own⟩ := List.mem_filter.mp member
  obtain ⟨other, present, worsened, same⟩ := worsens.account inside
  obtain ⟨most, high, le⟩ := worsened.used_some isUsed
  have counted : other ∈ windowsOf dateParse worse nowMs cls := by
    refine List.mem_filter.mpr ⟨present, ?_⟩
    rw [same]
    exact own
  obtain ⟨fullest, isFullest, bound⟩ := le_peakUsed counted high
  exact ⟨fullest, isFullest, le.trans bound⟩

theorem SeatCapacity.Worsens.peak_isSome {cls : SeatWindowClass}
    (found : (Routing.peak (windowsOf dateParse worse nowMs cls)).isSome) :
    (Routing.peak (windowsOf dateParse better nowMs cls)).isSome := by
  obtain ⟨top, isTop⟩ := Option.isSome_iff_exists.mp found
  obtain ⟨member, isUsed⟩ := peak_mem isTop
  obtain ⟨inside, own⟩ := List.mem_filter.mp member
  obtain ⟨other, present, worsened, same⟩ := worsens.account' inside
  cases low : other.usedPercent with
  | none =>
      rw [worsened.used_none low] at isUsed
      cases isUsed
  | some least =>
      have counted : other ∈ windowsOf dateParse better nowMs cls := by
        refine List.mem_filter.mpr ⟨present, ?_⟩
        rw [← same]
        exact own
      obtain ⟨fullest, isFullest, -⟩ := le_peakUsed counted low
      rw [isFullest]
      rfl

theorem assessPaid_antitone (tightens : tight.Tightens loose)
    (eligible : (assessPaid dateParse worse tight nowMs maxAge).headroom.eligibleForAutonomy =
      true) :
    (assessPaid dateParse better loose nowMs maxAge).headroom.eligibleForAutonomy = true := by
  obtain ⟨enabled, signedIn, unspent, known, fresh, under, reading, weekly, session⟩ :=
    assessPaid_eligible.mp eligible
  have observed : worse.observedAt = better.observedAt := by rw [worsens.others]
  have login : worse.signedOut = better.signedOut := by rw [worsens.others]
  have dollars : worse.spentTodayUsd = better.spentTodayUsd := by rw [worsens.others]
  rw [observed] at fresh
  rw [login] at signedIn
  rw [dollars] at under
  refine assessPaid_eligible.mpr ⟨tightens.enabled enabled, signedIn, ?_, ?_, fresh,
    overUsd_of_tightens tightens under, ?_, ?_, ?_⟩
  · intro window member
    obtain ⟨other, present, worsened, -⟩ := worsens.account member
    exact worsened.spent (unspent other present)
  · intro window member unknown
    obtain ⟨other, present, worsened, -⟩ := worsens.account member
    -- the limit would have to be reached, which is a spent window
    have missing := worsened.used_none (Option.isNone_iff_eq_none.mp unknown)
    have flagged := known other present (by rw [missing]; rfl)
    have free := (isSpent_eq_false.mp (unspent other present)).1
    rw [flagged] at free
    cases free
  · exact reading.imp worsens.peak_isSome worsens.peak_isSome
  · intro top found
    obtain ⟨other, isOther, le⟩ := worsens.peak found
    exact (weekly other isOther).trans_le (minus_mono tightens.reserveCeiling le)
  · intro top found
    obtain ⟨other, isOther, le⟩ := worsens.peak found
    have room := session other isOther
    rw [worsens.noWeekly] at room
    exact room.trans_le (minus_mono (tightens.sessionLimit _) le)

theorem assessSeat_antitone (tightens : tight.Tightens loose)
    (eligible : (assessSeat dateParse worse tight nowMs maxAge).headroom.eligibleForAutonomy =
      true) :
    (assessSeat dateParse better loose nowMs maxAge).headroom.eligibleForAutonomy = true := by
  have sameId : worse.seatId = better.seatId := by rw [worsens.others]
  have sameFree : worse.free = better.free := by rw [worsens.others]
  have sameReach : worse.reachable = better.reachable := by rw [worsens.others]
  unfold assessSeat at eligible ⊢
  rw [worsens.engine, sameId, sameFree] at eligible
  split_ifs at eligible ⊢ with refused free
  · exact eligible
  · simp only [assessFree, Bool.and_eq_true, sameReach] at eligible ⊢
    exact ⟨tightens.enabled eligible.1, eligible.2⟩
  · exact assessPaid_antitone worsens tightens eligible

end

end Worsens

/-! Where a decision puts the seats. -/

section Decision

variable {dateParse : JsString → Option ℤ} {req : RoutingRequest} {policy : BudgetPolicy}
  {opts : RouteOptions}

@[simp] theorem routeVerdict_capacity (seat : SeatCapacity) :
    (routeVerdict dateParse req policy opts seat).capacity = seat := by
  have fitted : ∀ (verdict : Verdict) (tokens : Option ℚ), verdict.capacity = seat →
      (applyFit verdict tokens).capacity = seat := by
    intro verdict tokens own
    unfold applyFit
    split_ifs
    · exact own
    · exact own
  have judged : ∀ verdict : Verdict, verdict.capacity = seat →
      (if req.autonomous ∧ verdict.eligible ∧
          (opts.view seat.seatId).map (·.admission) = some .unknown then
        { verdict with eligible := false, details := verdict.details ++ [.unknownUsage] }
      else verdict).capacity = seat := by
    intro verdict own
    split_ifs
    · exact own
    · exact own
  unfold routeVerdict
  dsimp only
  apply judged
  split_ifs
  · rfl
  · rfl
  · exact fitted _ _ rfl
  · exact fitted _ _ rfl

theorem routeVerdicts_filter (capacity : List SeatCapacity) (keep : Bool → Bool) :
    ((routeVerdicts dateParse req capacity policy opts).filter fun v => keep v.eligible).map
        (·.capacity.seatId) =
      (capacity.filter fun seat =>
        keep (routeVerdict dateParse req policy opts seat).eligible).map (·.seatId) := by
  have rows : ∀ start, ((((capacity.zipIdx start).map fun row =>
        { routeVerdict dateParse req policy opts row.1 with index := row.2 }).filter
          fun v => keep v.eligible).map fun v => v.capacity.seatId) =
      (capacity.filter fun seat =>
        keep (routeVerdict dateParse req policy opts seat).eligible).map (·.seatId) := by
    induction capacity with
    | nil => exact fun _ => rfl
    | cons seat capacity ih =>
        intro start
        rw [List.zipIdx_cons, List.map_cons, List.filter_cons, List.filter_cons]
        dsimp only
        split_ifs
        · rw [List.map_cons, List.map_cons, ih, routeVerdict_capacity]
        · exact ih _
  exact rows 0

structure Divides (decision : SeatDecision) (eligible : SeatCapacity → Bool)
    (capacity : List SeatCapacity) : Prop where
  candidates : decision.candidates.Perm ((capacity.filter eligible).map (·.seatId))
  exclusions : (decision.exclusions.map (·.seatId)).Perm
    ((capacity.filter fun seat => !eligible seat).map (·.seatId))
  chosen : decision.seatId = decision.candidates.head?
  apart : (capacity.map (·.seatId)).Nodup → ∀ seat ∈ capacity,
    (seat.seatId ∈ decision.candidates ↔ eligible seat = true) ∧
      (seat.seatId ∈ decision.exclusions.map (·.seatId) ↔ eligible seat = false)

theorem mem_filter_map_seatId {capacity : List SeatCapacity}
    (apart : (capacity.map (·.seatId)).Nodup) {keep : SeatCapacity → Bool} {seat : SeatCapacity}
    (member : seat ∈ capacity) :
    seat.seatId ∈ (capacity.filter keep).map (·.seatId) ↔ keep seat = true := by
  constructor
  · intro listed
    obtain ⟨other, inside, same⟩ := List.mem_map.mp listed
    obtain ⟨present, kept⟩ := List.mem_filter.mp inside
    rw [List.inj_on_of_nodup_map apart present member same] at kept
    exact kept
  · intro kept
    exact List.mem_map.mpr ⟨seat, List.mem_filter.mpr ⟨member, kept⟩, rfl⟩

theorem routeSeat_divides (sorting : SortAlgorithm) (capacity : List SeatCapacity) :
    Divides (routeSeat sorting dateParse req capacity policy opts)
      (fun seat => (routeVerdict dateParse req policy opts seat).eligible) capacity := by
  have candidates : (routeSeat sorting dateParse req capacity policy opts).candidates.Perm
      ((capacity.filter fun seat =>
        (routeVerdict dateParse req policy opts seat).eligible).map (·.seatId)) := by
    have ranked := (rank_perm sorting
      ((routeVerdicts dateParse req capacity policy opts).filter (·.eligible))
      (tierPreference policy.mode req) (resolveWeights opts.weights) opts).map
        fun v => v.capacity.seatId
    exact ranked.trans (List.Perm.of_eq (routeVerdicts_filter capacity id))
  have exclusions : ((routeSeat sorting dateParse req capacity policy opts).exclusions.map
      (·.seatId)).Perm ((capacity.filter fun seat =>
        !(routeVerdict dateParse req policy opts seat).eligible).map (·.seatId)) := by
    have sorted := (sorting.perm
      (fun a b : SeatExclusion => compareIds a.seatId.text b.seatId.text)
      (((routeVerdicts dateParse req capacity policy opts).filter fun v => !v.eligible).map
        fun v => ⟨v.capacity.seatId, v.details, v.nextEligibleAt⟩)).map (·.seatId)
    rw [List.map_map] at sorted
    exact sorted.trans (List.Perm.of_eq (routeVerdicts_filter capacity not))
  refine ⟨candidates, exclusions, ?_, fun apart seat member => ⟨?_, ?_⟩⟩
  · exact List.head?_map.symm
  · rw [candidates.mem_iff, mem_filter_map_seatId apart member]
  · rw [exclusions.mem_iff, mem_filter_map_seatId apart member, Bool.not_eq_true']

end Decision

/-- A paid seat that is eligible for autonomous work has every account-wide window known, under
its ceiling and recently read.  Less left in any window, or a tighter policy, never makes a
seat eligible.  A decision lists every entry on one side, and chooses an eligible one. -/
theorem autonomy_eligibility (dateParse : JsString → Option ℤ) (req : RoutingRequest)
    (opts : RouteOptions) :
    let eligible := fun policy seat => (routeVerdict dateParse req policy opts seat).eligible
    (req.autonomous = true → ∀ policy seat, seat.free = false → eligible policy seat = true →
      Covered dateParse seat (effectiveSeatPolicy policy seat.seatId seat.engine) opts.nowMs
        (opts.readingMaxAgeMs.getD headroomReadingMaxAgeMs)) ∧
    (req.autonomous = true → ∀ tight loose worse better, worse.Worsens better →
      (effectiveSeatPolicy tight better.seatId better.engine).Tightens
          (effectiveSeatPolicy loose better.seatId better.engine) →
        eligible loose better = false → eligible tight worse = false) ∧
    ∀ sorting policy capacity,
      let decision := routeSeat sorting dateParse req capacity policy opts
      Divides decision (eligible policy) capacity ∧
        ∀ id, decision.seatId = some id →
          ∃ seat ∈ capacity, seat.seatId = id ∧ eligible policy seat = true := by
  intro eligible
  refine ⟨fun autonomous policy seat paid holds => ?_, ?_, fun sorting policy capacity => ?_⟩
  · obtain ⟨commissioned, -, -, -, assessed⟩ :=
      (routeVerdict_eligible autonomous policy opts seat).mp holds
    unfold assessSeat at assessed
    rw [if_neg commissioned, if_neg (by rw [paid]; exact Bool.false_ne_true)] at assessed
    exact covered_of_eligible assessed
  · intro autonomous tight loose worse better worsens tightens refused
    refine Bool.of_not_eq_true fun holds => ?_
    have sameId : worse.seatId = better.seatId := by rw [worsens.others]
    have sameLane : runsInOwnLane worse = runsInOwnLane better := by rw [worsens.others]; rfl
    have sameFit : fits worse req.contextTokens = fits better req.contextTokens := by
      rw [worsens.others]
      rfl
    obtain ⟨commissioned, lane, fit, known, assessed⟩ :=
      (routeVerdict_eligible autonomous tight opts worse).mp holds
    rw [worsens.engine, sameId] at commissioned assessed
    rw [sameLane] at lane
    rw [sameFit] at fit
    rw [sameId] at known
    have again := (routeVerdict_eligible autonomous loose opts better).mpr
      ⟨commissioned, lane, fit, known, assessSeat_antitone worsens tightens assessed⟩
    exact Bool.false_ne_true (refused.symm.trans again)
  · intro decision
    have divides : Divides decision (eligible policy) capacity := routeSeat_divides sorting capacity
    refine ⟨divides, fun id chosen => ?_⟩
    rw [divides.chosen] at chosen
    have listed := divides.candidates.subset (List.mem_of_mem_head? chosen)
    obtain ⟨seat, member, same⟩ := List.mem_map.mp listed
    obtain ⟨inside, holds⟩ := List.mem_filter.mp member
    exact ⟨seat, inside, same, holds⟩

/-! A local seat is never asked for its windows. -/

def fullLocalSeat : SeatCapacity where
  seatId := ⟨js "local", spelled_local⟩
  engine := .local
  free := true
  windows := [⟨js "five_hour", some 100, none, true⟩]
  signedOut := false
  reachable := some true
  contextWindow := none
  observedAt := none
  spentTodayUsd := none
  costBasis := none
  windowless := false

def balancedBudget : BudgetPolicy := ⟨.balanced, [], js "1970-01-01T00:00:00.000Z", none⟩

def fleetRequest : RoutingRequest := ⟨.code, .medium, true, none⟩

def plainOptions : RouteOptions := ⟨0, none, ⟨none, none, none⟩, [], none, none⟩

/-- It is eligible with a spent account-wide window and without a reading. -/
theorem local_seat_spent :
    (routeVerdict dateParse fleetRequest balancedBudget plainOptions fullLocalSeat).eligible =
        true ∧
      (∃ window ∈ accountWindows dateParse fullLocalSeat 0, window.limitReached = true ∧
        ¬ ∃ used, window.usedPercent = some used ∧ used < windowCeiling dateParse fullLocalSeat
          (effectiveSeatPolicy balancedBudget fullLocalSeat.seatId .local) 0 window) ∧
      parseAt dateParse fullLocalSeat.observedAt = none := by
  refine ⟨by decide +kernel, ⟨⟨js "five_hour", some 100, none, true⟩, ?_, rfl, ?_⟩, rfl⟩
  · exact List.mem_filter.mpr ⟨List.mem_singleton.mpr rfl, by decide +kernel⟩
  · rintro ⟨used, isUsed, below⟩
    cases isUsed
    exact absurd below (by decide +kernel)

/-- A native seat with a tenth of its week and a fifth of its session used. -/
def claudeSeat : SeatCapacity where
  seatId := ⟨js "claude", spelled_claude⟩
  engine := .claude
  free := false
  windows := [⟨js "seven_day", some 10, none, false⟩, ⟨js "five_hour", some 20, none, false⟩]
  signedOut := false
  reachable := none
  contextWindow := none
  observedAt := some (js "1970-01-01T00:00:00.000Z")
  spentTodayUsd := none
  costBasis := none
  windowless := false

def busySeat : SeatCapacity :=
  { claudeSeat with
    windows := [⟨js "seven_day", some 30, none, false⟩, ⟨js "five_hour", some 75, none, false⟩] }

def signedOutSeat : SeatCapacity := { claudeSeat with signedOut := true }

theorem autonomy_eligibility_claude :
    Covered dateParse claudeSeat
        (effectiveSeatPolicy balancedBudget claudeSeat.seatId claudeSeat.engine) 0
        headroomReadingMaxAgeMs ∧
      (routeVerdict dateParse fleetRequest balancedBudget plainOptions
        { busySeat with signedOut := true }).eligible = false ∧
      Divides (routeSeat mergeSorting dateParse fleetRequest [busySeat, claudeSeat] balancedBudget
          plainOptions)
        (fun seat => (routeVerdict dateParse fleetRequest balancedBudget plainOptions
          seat).eligible)
        [busySeat, claudeSeat] := by
  have all := autonomy_eligibility dateParse fleetRequest plainOptions
  refine ⟨?_, ?_, ?_⟩
  · exact all.1 rfl balancedBudget claudeSeat rfl (by decide +kernel)
  · refine all.2.1 rfl balancedBudget balancedBudget { busySeat with signedOut := true }
      signedOutSeat ⟨?_, rfl⟩ ⟨id, le_rfl, CapAtMost.refl _, CapAtMost.refl _⟩ (by decide +kernel)
    exact .cons ⟨rfl, rfl, .some (by norm_num), id⟩ (.cons ⟨rfl, rfl, .some (by norm_num), id⟩ .nil)
  · exact (all.2.2 mergeSorting balancedBudget [busySeat, claudeSeat]).1

end AshlrHub.Routing

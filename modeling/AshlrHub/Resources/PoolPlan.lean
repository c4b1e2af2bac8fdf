import AshlrHub.Resources.PoolPolicy

namespace AshlrHub.Resources

open Js Authority

/-! What a plan promises: whom it takes, whom it leaves out, and in which order. -/

section Constraints

variable (input : ResourceAssignmentInput) (worker : ResourceWorker)

def ResourceAssignmentInput.observed : Option ResourceObservation :=
  input.observations.find? fun row => row.workerId = worker.id

def ResourceAssignmentInput.active : ℕ :=
  (input.activeCounts.get? worker.id).getD 0

def ResourceAssignmentInput.tasks : ResourceTaskReservationCount :=
  (input.taskReservationCounts.get? worker.id).getD ⟨0, none⟩

def ResourceWorker.wantsKnownQuota : Prop :=
  worker.provider ≠ .local ∧ worker.allowUnknownQuota ≠ some true

def Violated : ResourceExclusionReason → Prop
  | .workerNotAllowed => worker.id ∉ input.allowedWorkerIds
  | .operatorQuotaScopeExcluded => worker.id ∈ input.quotaScopeExcludedWorkerIds
  | .concurrencyExhausted => worker.maxConcurrent ≤ input.active worker
  | .operatorTaskCapReached => worker.maxTasksPerWindow ≤ (input.tasks worker).count
  | .workerUnavailable => ∃ row ∈ input.observed worker, row.health = .unavailable
  | .providerRetryAfter =>
      ∃ row ∈ input.observed worker, ∃ time ∈ row.retryAfter, input.nowMs < dateMs time
  | .observationFuture =>
      ∃ row ∈ input.observed worker, input.nowMs < dateMs row.observedAt ∨
        ∃ time ∈ row.updatedAt, input.nowMs < dateMs time
  | .quotaReserveReached =>
      worker.provider ≠ .local ∧ ∃ row ∈ input.observed worker, ∃ window ∈ row.windows,
        ∃ used ∈ window.usedPercent, worker.usable ≤ used.val
  | .observationMissing =>
      (worker.provider = .local ∨ worker.wantsKnownQuota) ∧ input.observed worker = none
  | .observationStale =>
      (worker.provider = .local ∨ worker.wantsKnownQuota) ∧
        ∃ row ∈ input.observed worker, dateMs row.expiresAt ≤ input.nowMs
  | .quotaWindowsMissing => worker.wantsKnownQuota ∧ ∀ row ∈ input.observed worker, row.windows = []
  | .quotaWindowUnknown =>
      worker.wantsKnownQuota ∧ ∃ row ∈ input.observed worker, ∃ window ∈ row.windows,
        window.usedPercent = none ∨ window.resetsAt = none
  | .quotaWindowResetPassed =>
      worker.wantsKnownQuota ∧ ∃ row ∈ input.observed worker, ∃ window ∈ row.windows,
        ∃ time ∈ window.resetsAt, dateMs time ≤ input.nowMs

/-- The worker satisfies every constraint of the task and of its own policy. -/
def Admits : Prop :=
  ∀ reason, ¬ Violated input worker reason

end Constraints

section Reasons

variable {input : ResourceAssignmentInput} {worker : ResourceWorker}

variable {reason : ResourceExclusionReason}

theorem mem_reasonIf {met : Bool} {other : ResourceExclusionReason} :
    other ∈ reasonIf met reason ↔ met = true ∧ other = reason := by
  unfold reasonIf
  cases met <;> simp

theorem mem_freshness {nowMs : ℤ} {observed : Option ResourceObservation} :
    reason ∈ freshness nowMs observed ↔
      (reason = .observationMissing ∧ observed = none) ∨
        (reason = .observationStale ∧ ∃ row ∈ observed, dateMs row.expiresAt ≤ nowMs) := by
  cases observed with
  | none => simp [freshness]
  | some row => simp [freshness, mem_reasonIf, and_comm]

theorem mem_quotaUnknown {nowMs : ℤ} {observed : Option ResourceObservation} :
    reason ∈ quotaUnknown nowMs observed ↔
      reason ∈ freshness nowMs observed ∨
        (reason = .quotaWindowsMissing ∧ ∀ row ∈ observed, row.windows = []) ∨
        (reason = .quotaWindowUnknown ∧ ∃ row ∈ observed, ∃ window ∈ row.windows,
          window.usedPercent = none ∨ window.resetsAt = none) ∨
        (reason = .quotaWindowResetPassed ∧ ∃ row ∈ observed, ∃ window ∈ row.windows,
          ∃ time ∈ window.resetsAt, dateMs time ≤ nowMs) := by
  unfold quotaUnknown
  rw [List.mem_append, List.mem_append, List.mem_flatMap]
  refine or_congr_right (or_congr ?_ ?_)
  · rw [mem_reasonIf, and_comm]
    cases observed with
    | none => simp
    | some row => simp
  · cases observed with
    | none => simp
    | some row =>
        simp only [Option.map_some, Option.getD_some, List.mem_append, mem_reasonIf,
          Option.mem_some_iff, exists_eq_left']
        constructor
        · rintro ⟨window, member, ⟨met, rfl⟩ | ⟨met, rfl⟩⟩
          · rw [Bool.or_eq_true, Option.isNone_iff_eq_none, Option.isNone_iff_eq_none] at met
            exact .inl ⟨rfl, window, member, met⟩
          · obtain ⟨time, present, passed⟩ := (Option.any_eq_true _ _).mp met
            exact .inr ⟨rfl, window, member, time, present, of_decide_eq_true passed⟩
        · rintro (⟨rfl, window, member, met⟩ | ⟨rfl, window, member, time, present, passed⟩)
          · refine ⟨window, member, .inl ⟨?_, rfl⟩⟩
            rw [Bool.or_eq_true, Option.isNone_iff_eq_none, Option.isNone_iff_eq_none]
            exact met
          · exact ⟨window, member, .inr ⟨(Option.any_eq_true _ _).mpr
              ⟨time, present, decide_eq_true passed⟩, rfl⟩⟩

theorem mem_quotaReasons :
    reason ∈ quotaReasons input.nowMs worker (input.observed worker) ↔
      (reason = .quotaReserveReached ∨ reason = .observationMissing ∨
        reason = .observationStale ∨ reason = .quotaWindowsMissing ∨
        reason = .quotaWindowUnknown ∨ reason = .quotaWindowResetPassed) ∧
      Violated input worker reason := by
  unfold quotaReasons
  by_cases isLocal : worker.provider = .local
  · have unwanted : ¬ worker.wantsKnownQuota := fun wants => wants.1 isLocal
    rw [if_pos isLocal, mem_freshness]
    cases reason <;> simp only [Violated, isLocal, unwanted, reduceCtorEq, ne_eq,
      not_true_eq_false, true_and, false_and, and_false, or_true, false_or, or_false]
  · rw [if_neg isLocal, List.mem_append, mem_reasonIf]
    have reserve : (input.observed worker).any (fun row => row.windows.any worker.exhausted) =
        true ↔ ∃ row ∈ input.observed worker, ∃ window ∈ row.windows,
          ∃ used ∈ window.usedPercent, worker.usable ≤ used.val := by
      rw [Option.any_eq_true]
      refine exists_congr fun row => and_congr_right fun _ => ?_
      rw [List.any_eq_true]
      refine exists_congr fun window => and_congr_right fun _ => ?_
      rw [ResourceWorker.exhausted, Option.any_eq_true]
      exact exists_congr fun used => and_congr_right fun _ => decide_eq_true_iff
    by_cases unknown : worker.allowUnknownQuota = some true
    · have unwanted : ¬ worker.wantsKnownQuota := fun wants => wants.2 unknown
      rw [if_pos unknown, reserve]
      cases reason <;> simp only [Violated, isLocal, unwanted, reduceCtorEq, ne_eq,
        not_false_eq_true, true_and, and_true, false_and, and_false, or_true, or_false,
        List.not_mem_nil]
    · have wants : worker.wantsKnownQuota := ⟨isLocal, unknown⟩
      rw [if_neg unknown, reserve, mem_quotaUnknown, mem_freshness]
      cases reason <;> simp only [Violated, isLocal, wants, reduceCtorEq, ne_eq,
        not_false_eq_true, true_and, and_true, false_and, and_false, or_true, false_or, or_false]

theorem mem_exclusionReasons :
    reason ∈ exclusionReasons input worker (input.observed worker) (input.active worker)
        (input.tasks worker).count ↔
      reason ≠ .workerNotAllowed ∧ Violated input worker reason := by
  unfold exclusionReasons
  simp only [List.flatten_cons, List.flatten_nil, List.append_nil, List.mem_append, mem_reasonIf,
    mem_quotaReasons]
  have future : (input.observed worker).any (fun row => input.nowMs < dateMs row.observedAt ||
      row.updatedAt.any fun time => input.nowMs < dateMs time) = true ↔
      ∃ row ∈ input.observed worker, input.nowMs < dateMs row.observedAt ∨
        ∃ time ∈ row.updatedAt, input.nowMs < dateMs time := by
    rw [Option.any_eq_true]
    refine exists_congr fun row => and_congr_right fun _ => ?_
    rw [Bool.or_eq_true, decide_eq_true_iff, Option.any_eq_true]
    exact or_congr_right (exists_congr fun time => and_congr_right fun _ => decide_eq_true_iff)
  have later : (input.observed worker).any (fun row =>
      row.retryAfter.any fun time => input.nowMs < dateMs time) = true ↔
      ∃ row ∈ input.observed worker, ∃ time ∈ row.retryAfter, input.nowMs < dateMs time := by
    rw [Option.any_eq_true]
    refine exists_congr fun row => and_congr_right fun _ => ?_
    rw [Option.any_eq_true]
    exact exists_congr fun time => and_congr_right fun _ => decide_eq_true_iff
  have unready : (input.observed worker).any (fun row => row.health = .unavailable) = true ↔
      ∃ row ∈ input.observed worker, row.health = .unavailable := by
    rw [Option.any_eq_true]
    exact exists_congr fun row => and_congr_right fun _ => decide_eq_true_iff
  rw [future, later, unready]
  cases reason <;> simp only [Violated, reduceCtorEq, ne_eq, not_true_eq_false, not_false_eq_true,
    true_and, and_true, false_and, and_false, or_true, false_or, or_false,
    List.contains_iff_mem, decide_eq_true_eq]

/-! The assessment of one worker. -/

theorem assess_cases :
    (worker.id ∉ input.allowedWorkerIds ∧
      assess input worker = .inr ⟨worker.id, [.workerNotAllowed], none⟩) ∨
    (worker.id ∈ input.allowedWorkerIds ∧ ∃ reasons again, reasons ≠ [] ∧
      reasons = exclusionReasons input worker (input.observed worker) (input.active worker)
        (input.tasks worker).count ∧
      assess input worker = .inr ⟨worker.id, reasons.eraseDups, again⟩) ∨
    (worker.id ∈ input.allowedWorkerIds ∧
      exclusionReasons input worker (input.observed worker) (input.active worker)
        (input.tasks worker).count = [] ∧
      ∃ candidate, candidate.worker = worker ∧ assess input worker = .inl candidate) := by
  unfold assess
  dsimp only
  by_cases allowed : worker.id ∈ input.allowedWorkerIds
  · have contained : ¬ (!input.allowedWorkerIds.contains worker.id) = true := by
      rw [List.contains_iff_mem.mpr allowed]
      exact Bool.false_ne_true
    rw [if_neg contained]
    by_cases clear : exclusionReasons input worker (input.observed worker) (input.active worker)
        (input.tasks worker).count = []
    · exact .inr (.inr ⟨allowed, clear, _, by exact rfl, if_neg (not_ne_iff.mpr clear)⟩)
    · exact .inr (.inl ⟨allowed, _, _, clear, rfl, if_pos clear⟩)
  · have absent : (!input.allowedWorkerIds.contains worker.id) = true := by
      rw [Bool.not_eq_true', ← Bool.not_eq_true, List.contains_iff_mem]
      exact allowed
    rw [if_pos absent]
    exact .inl ⟨allowed, rfl⟩

variable {candidate : ResourceAssignmentCandidate}

theorem assess_inl (listed : assess input worker = .inl candidate) :
    candidate.worker = worker ∧ Admits input worker := by
  rcases @assess_cases input worker with
    ⟨-, out⟩ | ⟨-, _, _, -, -, out⟩ | ⟨allowed, clear, found, own, taken⟩
  · rw [out] at listed
    cases listed
  · rw [out] at listed
    cases listed
  · rw [taken] at listed
    cases listed
    refine ⟨own, fun reason violated => ?_⟩
    by_cases notAllowed : reason = .workerNotAllowed
    · rw [notAllowed] at violated
      exact violated allowed
    · have member := mem_exclusionReasons.mpr ⟨notAllowed, violated⟩
      rw [clear] at member
      cases member

theorem assess_inr {exclusion : ResourceAssignmentExclusion}
    (listed : assess input worker = .inr exclusion) :
    exclusion.workerId = worker.id ∧ exclusion.reasons ≠ [] ∧
      ∀ reason ∈ exclusion.reasons, Violated input worker reason := by
  rcases @assess_cases input worker with
    ⟨absent, out⟩ | ⟨-, reasons, again, some, found, out⟩ | ⟨-, -, _, -, taken⟩
  · rw [out] at listed
    cases listed
    refine ⟨rfl, List.cons_ne_nil _ _, fun reason member => ?_⟩
    rw [List.mem_singleton] at member
    rw [member]
    exact absent
  · rw [out] at listed
    cases listed
    refine ⟨rfl, fun empty => ?_, fun reason member => ?_⟩
    · obtain ⟨reason, member⟩ := List.exists_mem_of_ne_nil _ some
      have kept := List.mem_eraseDups.mpr member
      exact List.ne_nil_of_mem kept empty
    · have given := List.mem_eraseDups.mp member
      rw [found] at given
      exact (mem_exclusionReasons.mp given).2
  · rw [taken] at listed
    cases listed

theorem assess_isLeft : (assess input worker).isLeft = true ↔ Admits input worker := by
  cases listed : assess input worker with
  | inl candidate => exact iff_of_true rfl (assess_inl listed).2
  | inr exclusion =>
      obtain ⟨-, some, violated⟩ := assess_inr listed
      obtain ⟨reason, member⟩ := List.exists_mem_of_ne_nil _ some
      exact iff_of_false Bool.false_ne_true fun admits => admits reason (violated reason member)

end Reasons

/-! The order of preference. -/

theorem preferred_iff {left right : ResourceAssignmentCandidate} :
    preferred left right = true ↔ right.worker.priority < left.worker.priority ∨
      (left.worker.priority = right.worker.priority ∧ (left.pressure < right.pressure ∨
        (left.pressure = right.pressure ∧ left.worker.id ≤ right.worker.id))) := by
  unfold preferred
  split_ifs with priority pressure
  · rw [decide_eq_true_iff]
    omega
  · rw [decide_eq_true_iff, or_iff_right (by omega), and_iff_right (not_not.mp priority),
      or_iff_left fun tie => pressure tie.1]
  · rw [decide_eq_true_iff, or_iff_right (by omega), and_iff_right (not_not.mp priority),
      or_iff_right (not_not.mp pressure).not_lt, and_iff_right (not_not.mp pressure)]

theorem preferred_total (left right : ResourceAssignmentCandidate) :
    preferred left right = true ∨ preferred right left = true := by
  rw [preferred_iff, preferred_iff]
  rcases Nat.lt_trichotomy left.worker.priority right.worker.priority with less | tie | more
  · exact .inr (.inl less)
  · rcases lt_trichotomy left.pressure right.pressure with lower | level | higher
    · exact .inl (.inr ⟨tie, .inl lower⟩)
    · exact (List.le_total left.worker.id right.worker.id).imp
        (fun le => .inr ⟨tie, .inr ⟨level, le⟩⟩) (fun le => .inr ⟨tie.symm, .inr ⟨level.symm, le⟩⟩)
    · exact .inr (.inr ⟨tie.symm, .inl higher⟩)
  · exact .inl (.inl more)

theorem preferred_trans {first second third : ResourceAssignmentCandidate}
    (low : preferred first second = true) (high : preferred second third = true) :
    preferred first third = true := by
  rw [preferred_iff] at low high ⊢
  rcases low with more | ⟨tie, rest⟩
  · rcases high with more' | ⟨tie', -⟩
    · exact .inl (more'.trans more)
    · exact .inl (tie' ▸ more)
  · rcases high with more' | ⟨tie', rest'⟩
    · exact .inl (tie ▸ more')
    · refine .inr ⟨tie.trans tie', ?_⟩
      rcases rest with lower | ⟨level, le⟩
      · rcases rest' with lower' | ⟨level', -⟩
        · exact .inl (lower.trans lower')
        · exact .inl (level' ▸ lower)
      · rcases rest' with lower' | ⟨level', le'⟩
        · exact .inl (level ▸ lower')
        · exact .inr ⟨level.trans level', List.le_trans le le'⟩

theorem id_eq_of_preferred {left right : ResourceAssignmentCandidate}
    (low : preferred left right = true) (high : preferred right left = true) :
    left.worker.id = right.worker.id := by
  rw [preferred_iff] at low high
  rcases low with more | ⟨tie, lower | ⟨level, le⟩⟩ <;>
    rcases high with more' | ⟨tie', lower' | ⟨level', le'⟩⟩
  · omega
  · omega
  · omega
  · omega
  · exact absurd lower' (lt_asymm lower)
  · exact absurd lower level'.not_gt
  · omega
  · exact absurd lower' level.not_gt
  · exact List.le_antisymm le le'

instance : Std.Total fun left right => preferred left right = true := ⟨preferred_total⟩

instance : IsTrans ResourceAssignmentCandidate fun left right => preferred left right = true :=
  ⟨fun _ _ _ => preferred_trans⟩

/-! A plan is made of an input that stands. -/

section Plans

structure Valid (input : ResourceAssignmentInput) : Prop where
  time : 0 ≤ input.nowMs ∧ input.nowMs ≤ maxPlanMs
  pool : validateResourcePool input.pool = true
  observations : validateResourceObservations input.pool input.observations = true
  allowed : input.allowedWorkerIds.Nodup ∧
    ∀ id ∈ input.allowedWorkerIds, id ∈ input.pool.workers.map (·.id)
  vetoed : input.quotaScopeExcludedWorkerIds.Nodup ∧
    ∀ id ∈ input.quotaScopeExcludedWorkerIds, id ∈ input.pool.workers.map (·.id)
  active : ∀ id ∈ input.activeCounts.keys, id ∈ input.pool.workers.map (·.id)
  tasks : ∀ id ∈ input.taskReservationCounts.keys, id ∈ input.pool.workers.map (·.id)
  times : input.taskReservationCounts.all (fun row => row.2.nextEligibleAt.all timestamp) = true

def candidatesOf (input : ResourceAssignmentInput) : List ResourceAssignmentCandidate :=
  (input.pool.workers.map (assess input)).filterMap Sum.getLeft?

def exclusionsOf (input : ResourceAssignmentInput) : List ResourceAssignmentExclusion :=
  (input.pool.workers.map (assess input)).filterMap Sum.getRight?

def rankedCandidates (input : ResourceAssignmentInput) : List ResourceAssignmentCandidate :=
  (candidatesOf input).insertionSort fun left right => preferred left right

variable {input other : ResourceAssignmentInput}

theorem planResourceAssignment_eq_some {plan : ResourceAssignmentPlan} :
    planResourceAssignment input = some plan ↔ Valid input ∧
      plan = ⟨(rankedCandidates input).head?.map (·.worker.id), rankedCandidates input,
        exclusionsOf input⟩ := by
  have known : ∀ ids : List JsString,
      ids.all (input.pool.workers.map (·.id)).contains = true ↔
        ∀ id ∈ ids, id ∈ input.pool.workers.map (·.id) := by
    intro ids
    rw [List.all_eq_true]
    exact forall₂_congr fun _ _ => List.contains_iff_mem
  unfold planResourceAssignment
  dsimp only
  split_ifs with refused
  · refine iff_of_false (fun absurd => by cases absurd) fun both => ?_
    obtain ⟨time, pool, observations, allowed, vetoed, active, tasks, times⟩ := both.1
    simp only [time, pool, observations, allowed.1, (known _).mpr allowed.2, vetoed.1,
      (known _).mpr vetoed.2, (known _).mpr active, (known _).mpr tasks, times, decide_true,
      Bool.and_self, Bool.not_true, Bool.or_self, Bool.false_eq_true] at refused
  · rw [Option.some_inj]
    simp only [Bool.or_eq_true, not_or, Bool.not_eq_true', Bool.not_eq_false, Bool.and_eq_true,
      decide_eq_true_eq, known] at refused
    obtain ⟨⟨⟨⟨⟨⟨⟨time, pool⟩, observations⟩, allowed⟩, vetoed⟩, active⟩, tasks⟩, times⟩ := refused
    constructor
    · rintro rfl
      exact ⟨⟨time, pool, observations, allowed, vetoed, active, tasks, times⟩, rfl⟩
    · exact fun both => both.2.symm

theorem mem_candidatesOf :
    candidate ∈ candidatesOf input ↔
      ∃ worker ∈ input.pool.workers, assess input worker = .inl candidate := by
  rw [candidatesOf, List.mem_filterMap]
  constructor
  · rintro ⟨outcome, assessed, isCandidate⟩
    obtain ⟨worker, member, rfl⟩ := List.mem_map.mp assessed
    exact ⟨worker, member, Sum.getLeft?_eq_some_iff.mp isCandidate⟩
  · rintro ⟨worker, member, listed⟩
    exact ⟨_, List.mem_map.mpr ⟨worker, member, listed⟩, rfl⟩

theorem mem_exclusionsOf {exclusion : ResourceAssignmentExclusion} :
    exclusion ∈ exclusionsOf input ↔
      ∃ worker ∈ input.pool.workers, assess input worker = .inr exclusion := by
  rw [exclusionsOf, List.mem_filterMap]
  constructor
  · rintro ⟨outcome, assessed, isExclusion⟩
    obtain ⟨worker, member, rfl⟩ := List.mem_map.mp assessed
    exact ⟨worker, member, Sum.getRight?_eq_some_iff.mp isExclusion⟩
  · rintro ⟨worker, member, listed⟩
    exact ⟨_, List.mem_map.mpr ⟨worker, member, listed⟩, rfl⟩

theorem mem_rankedCandidates :
    candidate ∈ rankedCandidates input ↔
      ∃ worker ∈ input.pool.workers, assess input worker = .inl candidate :=
  (List.mem_insertionSort _).trans mem_candidatesOf

theorem rankedCandidates_ne_nil {worker : ResourceWorker} (member : worker ∈ input.pool.workers)
    (admits : Admits input worker) : rankedCandidates input ≠ [] := by
  cases listed : assess input worker with
  | inl candidate => exact List.ne_nil_of_mem (mem_rankedCandidates.mpr ⟨worker, member, listed⟩)
  | inr exclusion =>
      have isLeft := assess_isLeft.mpr admits
      rw [listed] at isLeft
      cases isLeft

/-! The order of the lists that come in. -/

structure Shuffled (other input : ResourceAssignmentInput) : Prop where
  poolId : other.pool.id = input.pool.id
  workers : other.pool.workers.Perm input.pool.workers
  observations : other.observations.Perm input.observations
  allowed : other.allowedWorkerIds.Perm input.allowedWorkerIds
  vetoed : other.quotaScopeExcludedWorkerIds.Perm input.quotaScopeExcludedWorkerIds
  activeCounts : other.activeCounts = input.activeCounts
  tasks : other.taskReservationCounts = input.taskReservationCounts
  nowMs : other.nowMs = input.nowMs

theorem find?_perm {α : Type} {key : α → JsString} {rows others : List α}
    (same : others.Perm rows) (once : (rows.map key).Nodup) (id : JsString) :
    (others.find? fun row => key row = id) = rows.find? fun row => key row = id := by
  have finds : ∀ {list : List α}, (list.map key).Nodup → ∀ row,
      (list.find? fun row => key row = id) = some row ↔ row ∈ list ∧ key row = id := by
    intro list unique row
    constructor
    · intro found
      have named := List.find?_some found
      exact ⟨List.mem_of_find?_eq_some found, of_decide_eq_true named⟩
    · rintro ⟨member, named⟩
      cases found : list.find? fun row => key row = id with
      | none => exact absurd named (of_decide_eq_false
          (eq_false_of_ne_true (List.find?_eq_none.mp found row member)))
      | some first =>
          have first' := List.find?_some found
          have alike : key first = key row := (of_decide_eq_true first').trans named.symm
          rw [List.inj_on_of_nodup_map unique (List.mem_of_find?_eq_some found) member alike]
  ext row
  rw [finds once, finds ((same.map key).nodup_iff.mpr once), same.mem_iff]

theorem worker?_shuffled {pool shuffled : ResourcePool}
    (same : shuffled.workers.Perm pool.workers) (once : (pool.workers.map (·.id)).Nodup)
    (id : JsString) :
    shuffled.worker? id = pool.worker? id :=
  find?_perm same once id

theorem Valid.workersOnce (valid : Valid input) : (input.pool.workers.map (·.id)).Nodup := by
  have pool := valid.pool
  unfold validateResourcePool at pool
  simp only [Bool.and_eq_true, decide_eq_true_eq] at pool
  exact pool.1.2

theorem Valid.observationsOnce (valid : Valid input) :
    (input.observations.map (·.workerId)).Nodup := by
  have observations := valid.observations
  unfold validateResourceObservations at observations
  simp only [Bool.and_eq_true, decide_eq_true_eq] at observations
  exact observations.1.2

theorem Shuffled.valid (shuffled : Shuffled other input) (valid : Valid input) : Valid other := by
  have ids : (other.pool.workers.map (·.id)).Perm (input.pool.workers.map (·.id)) :=
    shuffled.workers.map (·.id)
  refine ⟨?_, ?_, ?_, ?_, ?_, ?_, ?_, ?_⟩
  · rw [shuffled.nowMs]
    exact valid.time
  · have pool := valid.pool
    unfold validateResourcePool at pool ⊢
    simp only [Bool.and_eq_true, decide_eq_true_eq] at pool ⊢
    rw [shuffled.poolId, shuffled.workers.length_eq, shuffled.workers.all_eq, ids.nodup_iff]
    exact pool
  · have observations := valid.observations
    have judged : ∀ row, validObservation other.pool row = validObservation input.pool row := by
      intro row
      unfold validObservation
      rw [worker?_shuffled shuffled.workers valid.workersOnce]
    unfold validateResourceObservations at observations ⊢
    simp only [Bool.and_eq_true, decide_eq_true_eq] at observations ⊢
    rw [shuffled.observations.length_eq, shuffled.workers.length_eq, funext judged,
      shuffled.observations.all_eq, (shuffled.observations.map _).nodup_iff]
    exact observations
  · refine ⟨shuffled.allowed.nodup_iff.mpr valid.allowed.1, fun id member => ?_⟩
    exact ids.mem_iff.mpr (valid.allowed.2 id (shuffled.allowed.subset member))
  · refine ⟨shuffled.vetoed.nodup_iff.mpr valid.vetoed.1, fun id member => ?_⟩
    exact ids.mem_iff.mpr (valid.vetoed.2 id (shuffled.vetoed.subset member))
  · rw [shuffled.activeCounts]
    exact fun id member => ids.mem_iff.mpr (valid.active id member)
  · rw [shuffled.tasks]
    exact fun id member => ids.mem_iff.mpr (valid.tasks id member)
  · rw [shuffled.tasks]
    exact valid.times

theorem Shuffled.assess (shuffled : Shuffled other input) (valid : Valid input)
    (worker : ResourceWorker) : assess other worker = Resources.assess input worker := by
  have observed := find?_perm shuffled.observations valid.observationsOnce worker.id
  have contains : ∀ {left right : List JsString}, left.Perm right →
      left.contains worker.id = right.contains worker.id := by
    intro left right same
    rw [Bool.eq_iff_iff, List.contains_iff_mem, List.contains_iff_mem, same.mem_iff]
  unfold Resources.assess exclusionReasons retryTimes
  simp only [observed, contains shuffled.allowed, contains shuffled.vetoed, shuffled.activeCounts,
    shuffled.tasks, shuffled.nowMs]

theorem candidate_unique (valid : Valid input) {first second : ResourceAssignmentCandidate}
    (left : first ∈ rankedCandidates input) (right : second ∈ rankedCandidates input)
    (same : first.worker.id = second.worker.id) : first = second := by
  obtain ⟨worker, member, listed⟩ := mem_rankedCandidates.mp left
  obtain ⟨rival, present, also⟩ := mem_rankedCandidates.mp right
  rw [(assess_inl listed).1, (assess_inl also).1] at same
  rw [List.inj_on_of_nodup_map valid.workersOnce member present same, also] at listed
  exact (Sum.inl.inj listed).symm

theorem Shuffled.rankedCandidates (shuffled : Shuffled other input) (valid : Valid input) :
    rankedCandidates other = Resources.rankedCandidates input := by
  have same : (Resources.rankedCandidates other).Perm (Resources.rankedCandidates input) := by
    have perm : (candidatesOf other).Perm (candidatesOf input) := by
      unfold candidatesOf
      rw [funext (shuffled.assess valid)]
      exact (shuffled.workers.map _).filterMap _
    exact (List.perm_insertionSort _ _).trans (perm.trans (List.perm_insertionSort _ _).symm)
  refine List.Perm.eq_of_pairwise (fun first second left right low high => ?_)
    (List.pairwise_insertionSort _ _) (List.pairwise_insertionSort _ _) same
  exact candidate_unique valid (same.subset left) right (id_eq_of_preferred low high)

theorem Shuffled.exclusions (shuffled : Shuffled other input) (valid : Valid input) :
    (exclusionsOf other).Perm (exclusionsOf input) := by
  unfold exclusionsOf
  rw [funext (shuffled.assess valid)]
  exact (shuffled.workers.map _).filterMap _

structure Sound (input : ResourceAssignmentInput) (plan : ResourceAssignmentPlan) : Prop where
  selected : ∀ id, plan.selectedWorkerId = some id →
    ∃ worker ∈ input.pool.workers, worker.id = id ∧ Admits input worker
  excluded : ∀ exclusion ∈ plan.exclusions, ∃ worker ∈ input.pool.workers,
    worker.id = exclusion.workerId ∧ ¬ Admits input worker ∧ exclusion.reasons ≠ [] ∧
      ∀ reason ∈ exclusion.reasons, Violated input worker reason
  complete : (∃ worker ∈ input.pool.workers, Admits input worker) →
    plan.selectedWorkerId.isSome = true
  candidates : ∀ worker ∈ input.pool.workers,
    ((∃ candidate ∈ plan.candidates, candidate.worker = worker) ↔ Admits input worker) ∧
      ((∃ exclusion ∈ plan.exclusions, exclusion.workerId = worker.id) ↔ ¬ Admits input worker)

theorem plan_sound (valid : Valid input) :
    Sound input ⟨(rankedCandidates input).head?.map (·.worker.id), rankedCandidates input,
      exclusionsOf input⟩ := by
  refine ⟨?_, ?_, ?_, ?_⟩
  · intro id chosen
    obtain ⟨candidate, first, rfl⟩ := Option.map_eq_some_iff.mp chosen
    obtain ⟨worker, member, listed⟩ := mem_rankedCandidates.mp (List.mem_of_head? first)
    obtain ⟨own, admits⟩ := assess_inl listed
    exact ⟨worker, member, congrArg (·.id) own.symm, admits⟩
  · intro exclusion member
    obtain ⟨worker, known, listed⟩ := mem_exclusionsOf.mp member
    obtain ⟨own, some, violated⟩ := assess_inr listed
    refine ⟨worker, known, own.symm, fun admits => ?_, some, violated⟩
    obtain ⟨reason, given⟩ := List.exists_mem_of_ne_nil _ some
    exact admits reason (violated reason given)
  · rintro ⟨worker, member, admits⟩
    cases ranked : rankedCandidates input with
    | nil => exact absurd ranked (rankedCandidates_ne_nil member admits)
    | cons first rest => rfl
  · intro worker member
    constructor
    · constructor
      · rintro ⟨candidate, listed, own⟩
        obtain ⟨source, -, found⟩ := mem_rankedCandidates.mp listed
        obtain ⟨same, admits⟩ := assess_inl found
        rw [← own, same]
        exact admits
      · intro admits
        cases found : assess input worker with
        | inl candidate =>
            exact ⟨candidate, mem_rankedCandidates.mpr ⟨worker, member, found⟩,
              (assess_inl found).1⟩
        | inr exclusion =>
            have isLeft := assess_isLeft.mpr admits
            rw [found] at isLeft
            cases isLeft
    · constructor
      · rintro ⟨exclusion, listed, own⟩ admits
        obtain ⟨source, known, found⟩ := mem_exclusionsOf.mp listed
        rw [(assess_inr found).1] at own
        rw [List.inj_on_of_nodup_map valid.workersOnce known member own] at found
        have isLeft := assess_isLeft.mpr admits
        rw [found] at isLeft
        cases isLeft
      · intro refused
        cases found : assess input worker with
        | inl candidate => exact absurd (assess_inl found).2 refused
        | inr exclusion =>
            exact ⟨exclusion, mem_exclusionsOf.mpr ⟨worker, member, found⟩, (assess_inr found).1⟩

/-- Every plan is sound and complete, and another order of the workers, observations and
allowed ids makes the same candidates and the same selection. -/
theorem planResourceAssignment_sound {plan : ResourceAssignmentPlan}
    (planned : planResourceAssignment input = some plan) :
    Sound input plan ∧
      ∀ other, Shuffled other input → ∃ again, planResourceAssignment other = some again ∧
        again.selectedWorkerId = plan.selectedWorkerId ∧ again.candidates = plan.candidates ∧
          again.exclusions.Perm plan.exclusions := by
  obtain ⟨valid, rfl⟩ := planResourceAssignment_eq_some.mp planned
  refine ⟨plan_sound valid, fun other shuffled => ?_⟩
  refine ⟨_, planResourceAssignment_eq_some.mpr ⟨shuffled.valid valid, rfl⟩, ?_, ?_, ?_⟩
  · exact congrArg (fun rows => rows.head?.map (·.worker.id)) (shuffled.rankedCandidates valid)
  · exact shuffled.rankedCandidates valid
  · exact shuffled.exclusions valid

end Plans

/-! A local worker that was just observed, and a native one nobody looked at. -/

def localWorker : ResourceWorker :=
  ⟨js "local", .local, js "qwen", none, 2, wholePercent 0, 100, 3600000, 1, none⟩

def codexWorker : ResourceWorker :=
  ⟨js "codex", .codex, js "gpt-5.6-sol", none, 2, wholePercent 20, 100, 3600000, 50, none⟩

def morningObservation : ResourceObservation :=
  ⟨js "local", js "2026-01-01T00:00:00.000Z", js "2026-01-01T00:05:00.000Z", none, .ready, [], none⟩

def morningInput : ResourceAssignmentInput where
  pool := ⟨js "pool", [localWorker, codexWorker]⟩
  observations := [morningObservation]
  allowedWorkerIds := [js "local", js "codex"]
  activeCounts := []
  taskReservationCounts := []
  nowMs := 1767225660000
  quotaScopeExcludedWorkerIds := []

def swappedInput : ResourceAssignmentInput :=
  { morningInput with
    pool := ⟨js "pool", [codexWorker, localWorker]⟩
    allowedWorkerIds := [js "codex", js "local"] }

theorem planResourceAssignment_morning :
    ∃ plan, planResourceAssignment morningInput = some plan ∧ Sound morningInput plan ∧
      ∃ again, planResourceAssignment swappedInput = some again ∧
        again.selectedWorkerId = plan.selectedWorkerId := by
  have made : (planResourceAssignment morningInput).isSome = true := by decide +kernel
  obtain ⟨plan, planned⟩ := Option.isSome_iff_exists.mp made
  obtain ⟨sound, shuffles⟩ := planResourceAssignment_sound planned
  obtain ⟨again, also, same, -, -⟩ := shuffles swappedInput
    ⟨rfl, .swap _ _ _, .refl _, .swap _ _ _, .refl _, rfl, rfl, rfl⟩
  exact ⟨plan, planned, sound, again, also, same⟩

end AshlrHub.Resources

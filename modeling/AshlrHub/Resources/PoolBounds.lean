import AshlrHub.Resources.PoolTasks

namespace AshlrHub.Resources

open Js Lib

/-! The bounds of admission, over runs of a pool. -/

variable {host : PoolHost} {scope : PoolScope}

theorem reasonIf_eq_nil {met : Bool} {reason : ResourceExclusionReason} :
    reasonIf met reason = [] ↔ met = false := by
  cases met with
  | true => exact ⟨fun empty => (by cases empty), fun unmet => (by cases unmet)⟩
  | false => exact ⟨fun _ => rfl, fun _ => rfl⟩

variable {state next : ResourcePoolState} {worker : ResourceWorker} {binding : ResourceBinding}
  {request : TaskRequest}

variable {done : Unit} {input : ResourceAssignmentInput} {selected : JsString}
  {state : ResourcePoolState} {expectedRevision : ℕ}

theorem exclusionReasons_room {observed : Option ResourceObservation} {count tasks : ℕ}
    (clear : exclusionReasons input worker observed count tasks = []) :
    count < worker.maxConcurrent ∧ tasks < worker.maxTasksPerWindow := by
  unfold exclusionReasons at clear
  simp only [List.flatten_cons, List.append_eq_nil_iff, reasonIf_eq_nil,
    decide_eq_false_iff_not, not_le] at clear
  exact ⟨clear.2.1, clear.2.2.1⟩

theorem assess_room
    {candidate : ResourceAssignmentCandidate} (assessed : assess input worker = .inl candidate) :
    candidate.worker = worker ∧
      (input.activeCounts.get? worker.id).getD 0 < worker.maxConcurrent ∧
      ((input.taskReservationCounts.get? worker.id).getD ⟨0, none⟩).count <
        worker.maxTasksPerWindow := by
  unfold assess at assessed
  dsimp only at assessed
  split_ifs at assessed with _ excluded <;> cases assessed <;>
    exact ⟨rfl, exclusionReasons_room (not_ne_iff.mp excluded)⟩

theorem planResourceAssignment_selected {assignment : ResourceAssignmentPlan}
    (planned : planResourceAssignment input = some assignment)
    (chosen : assignment.selectedWorkerId = some selected) :
    ∃ worker ∈ input.pool.workers, worker.id = selected ∧
      (input.activeCounts.get? selected).getD 0 < worker.maxConcurrent ∧
      ((input.taskReservationCounts.get? selected).getD ⟨0, none⟩).count <
        worker.maxTasksPerWindow := by
  unfold planResourceAssignment at planned
  dsimp only at planned
  split_ifs at planned
  cases planned
  obtain ⟨candidate, first, rfl⟩ := Option.map_eq_some_iff.mp chosen
  have member := (List.mem_insertionSort _).mp (List.mem_of_head? first)
  obtain ⟨outcome, assessed, isCandidate⟩ := List.mem_filterMap.mp member
  obtain ⟨worker, known, rfl⟩ := List.mem_map.mp assessed
  cases outcome : assess input worker with
  | inr exclusion =>
      rw [outcome] at isCandidate
      cases isCandidate
  | inl found =>
      rw [outcome] at isCandidate
      cases isCandidate
      obtain ⟨rfl, room⟩ := assess_room outcome
      exact ⟨_, known, rfl, room⟩

/-! What the plan counts. -/

structure Projects (worker projected : ResourceWorker) : Prop where
  id : projected.id = worker.id
  maxConcurrent : projected.maxConcurrent = worker.maxConcurrent
  maxTasksPerWindow : projected.maxTasksPerWindow = worker.maxTasksPerWindow
  taskWindowMs : projected.taskWindowMs = worker.taskWindowMs

theorem applyCeiling_projects {ceiling : Option (Fin 101)} {pool : ResourcePool}
    {projected : ResourceWorker} (member : projected ∈ (applyCeiling ceiling pool).workers) :
    ∃ worker ∈ pool.workers, Projects worker projected := by
  cases ceiling with
  | none => exact ⟨projected, member, rfl, rfl, rfl, rfl⟩
  | some ceiling =>
      obtain ⟨worker, known, rfl⟩ := List.mem_map.mp member
      refine ⟨worker, known, ?_⟩
      split_ifs <;> exact ⟨rfl, rfl, rfl, rfl⟩

theorem applyCeiling_ids (ceiling : Option (Fin 101)) (pool : ResourcePool) :
    (applyCeiling ceiling pool).workers.map (·.id) = pool.workers.map (·.id) := by
  cases ceiling with
  | none => rfl
  | some ceiling =>
      unfold applyCeiling
      rw [List.map_map]
      refine List.map_congr_left fun worker _ => ?_
      rw [Function.comp_apply]
      split_ifs <;> rfl

def boundWorkers (pool : ResourcePool) (bindings : List ResourceBinding) :
    List (ResourceBinding × ResourceWorker) :=
  bindings.filterMap fun binding => (pool.worker? binding.workerId).map fun worker =>
    (binding, worker)

theorem boundWorkers_mem {pool : ResourcePool} {bindings : List ResourceBinding}
    (bound : binding ∈ bindings)
    (found : pool.worker? binding.workerId = some worker) :
    (binding, worker) ∈ boundWorkers pool bindings :=
  List.mem_filterMap.mpr ⟨binding, bound, by rw [found]; rfl⟩

theorem boundWorkers_once {pool : ResourcePool} : {bindings : List ResourceBinding} →
    (bindings.map (·.workerId)).Nodup →
    ((boundWorkers pool bindings).map fun entry => entry.2.id).Nodup
  | [], _ => List.nodup_nil
  | binding :: bindings, once => by
      rw [List.map_cons, List.nodup_cons] at once
      have tail := @boundWorkers_once pool bindings once.2
      unfold boundWorkers at tail ⊢
      rw [List.filterMap_cons]
      cases found : pool.worker? binding.workerId with
      | none => exact tail
      | some worker =>
          rw [Option.map_some]
          refine List.nodup_cons.mpr ⟨?_, tail⟩
          intro again
          obtain ⟨entry, member, same⟩ := List.mem_map.mp again
          obtain ⟨other, later, joined⟩ := List.mem_filterMap.mp member
          obtain ⟨twin, foundTwin, rfl⟩ := Option.map_eq_some_iff.mp joined
          dsimp only at same
          rw [(worker?_id foundTwin).2, (worker?_id found).2] at same
          exact once.1 (List.mem_map.mpr ⟨other, later, same⟩)

theorem planInput_counts {state : ResourcePoolState} {allowed : List JsString} {nowMs : ℤ}
    {gates : AdmissionGates} {binding : ResourceBinding} {worker : ResourceWorker}
    (bound : binding ∈ scope.bindings)
    (found : (applyCeiling (state.allocation.map (·.ceilingPercent)) scope.pool).worker?
      binding.workerId = some worker) :
    (planInput state scope allowed nowMs gates).activeCounts.get? binding.workerId =
        some (activeCount state.attempts binding.capacityKey) ∧
      ((planInput state scope allowed nowMs gates).taskReservationCounts.get?
        binding.workerId).map (·.count) = some
          (recentAttempts state.attempts binding.capacityKey nowMs worker.taskWindowMs).length := by
  have valid := scope.bindingsValid
  unfold validateResourceBindings at valid
  simp only [Bool.and_eq_true, decide_eq_true_eq] at valid
  have member := boundWorkers_mem bound found
  have once := @boundWorkers_once (applyCeiling (state.allocation.map (·.ceilingPercent))
    scope.pool)
    scope.bindings valid.1.1.2
  have named := (worker?_id found).2
  constructor
  · have counted := JsMap.get?_foldl_set_entries
      (fun entry : ResourceBinding × ResourceWorker => entry.2.id)
      (fun entry => activeCount state.attempts entry.1.capacityKey) [] once member
    dsimp only at counted
    rw [named] at counted
    exact counted
  · have counted := JsMap.get?_foldl_set_entries
      (fun entry : ResourceBinding × ResourceWorker => entry.2.id)
      (fun entry =>
        let recent := recentAttempts state.attempts entry.1.capacityKey nowMs entry.2.taskWindowMs
        (⟨recent.length, nextEligibleAt recent entry.2.taskWindowMs⟩ :
          ResourceTaskReservationCount)) [] once member
    dsimp only at counted
    rw [named] at counted
    exact congrArg (Option.map (·.count)) counted

structure Room (scope : PoolScope) (attempts : List ResourceTaskReceipt) (binding : ResourceBinding)
    (nowMs : ℤ) (worker : ResourceWorker) : Prop where
  known : worker ∈ scope.pool.workers
  bound : binding ∈ scope.bindings
  id : worker.id = binding.workerId
  concurrency : activeCount attempts binding.capacityKey < worker.maxConcurrent
  window : (recentAttempts attempts binding.capacityKey nowMs worker.taskWindowMs).length <
    worker.maxTasksPerWindow

theorem Room.later {attempts : List ResourceTaskReceipt}
    {nowMs laterMs : ℤ} (room : Room scope attempts binding nowMs worker)
    (forward : nowMs ≤ laterMs) : Room scope attempts binding laterMs worker where
  known := room.known
  bound := room.bound
  id := room.id
  concurrency := room.concurrency
  window := by
    refine lt_of_le_of_lt (List.Sublist.length_le ?_) room.window
    refine List.monotone_filter_right _ fun row recent => ?_
    rw [decide_eq_true_eq] at recent ⊢
    omega

variable {nowMs : ℤ} {now : JsString}

theorem plan_room {allowed : List JsString}
    {gates : AdmissionGates} {assignment : ResourceAssignmentPlan}
    (planned : plan state scope allowed nowMs gates = .ok assignment)
    (chosen : assignment.selectedWorkerId = some selected)
    (found : (scope.bindings.find? fun row => row.workerId = selected) = some binding) :
    ∃ worker, Room scope state.attempts binding nowMs worker := by
  have named := List.find?_some found
  rw [decide_eq_true_eq] at named
  have bound := List.mem_of_find?_eq_some found
  unfold plan at planned
  cases assigned : planResourceAssignment (planInput state scope allowed nowMs gates) with
  | none =>
      rw [assigned] at planned
      cases planned
  | some found =>
      rw [assigned] at planned
      cases planned
      obtain ⟨projected, member, same, active, tasks⟩ := planResourceAssignment_selected assigned
        chosen
      have valid := scope.poolValid
      unfold validateResourcePool at valid
      simp only [Bool.and_eq_true, decide_eq_true_eq] at valid
      have once : ((planInput state scope allowed nowMs gates).pool.workers.map (·.id)).Nodup := by
        have ids := applyCeiling_ids (state.allocation.map (·.ceilingPercent)) scope.pool
        exact (congrArg List.Nodup ids).mpr valid.1.2
      have looked := worker?_of_mem once member
      rw [same, ← named] at looked
      obtain ⟨activeCounts, taskCounts⟩ :=
        @planInput_counts scope state allowed nowMs gates binding projected bound looked
      rw [← named] at active tasks
      obtain ⟨counted, taskCount, length⟩ := Option.map_eq_some_iff.mp taskCounts
      rw [activeCounts, Option.getD_some] at active
      rw [taskCount, Option.getD_some, length] at tasks
      obtain ⟨worker, known, projects⟩ := applyCeiling_projects member
      exact ⟨worker, {
        known
        bound
        id := by rw [← projects.id, same, named]
        concurrency := by rwa [← projects.maxConcurrent]
        window := by rwa [← projects.maxTasksPerWindow, ← projects.taskWindowMs] }⟩

/-! What a call does to the attempts. -/

theorem freshAdmission_attempts {state gated : ResourcePoolState}
    {evidence : AdmissionEvidence} {gates : AdmissionGates}
    (fresh : freshAdmission host scope request state evidence = .ok (gated, gates)) :
    gated.attempts = state.attempts := by
  unfold freshAdmission at fresh
  simp only [refuse_eq_ok, bind_eq_ok, pure_eq_ok] at fresh
  obtain ⟨_, _, _, _, same⟩ := fresh
  cases same
  rfl

theorem reserveSelected_ok
    {admission : Admission}
    (reserved : reserveSelected host scope request state selected = .ok (next, admission)) :
    ∃ binding startedAt, (scope.bindings.find? fun row => row.workerId = selected) = some binding ∧
      toISOString request.startedMs = some startedAt ∧
      admission = .reserved (Resources.reservation host scope request.task binding startedAt) ∧
      next = { state with attempts := state.attempts ++
        [Resources.reservation host scope request.task binding startedAt] } ∧
      settlementHeadroom host scope.pool next = true := by
  unfold reserveSelected at reserved
  split_ifs at reserved
  cases found : scope.bindings.find? fun row => row.workerId = selected with
  | none =>
      rw [found] at reserved
      cases reserved
  | some binding =>
      cases started : toISOString request.startedMs with
      | none =>
          rw [found, started] at reserved
          cases reserved
      | some startedAt =>
          rw [found, started] at reserved
          dsimp only at reserved
          obtain ⟨_, room, same⟩ := bind_eq_ok.mp reserved
          unfold requireResourcePoolSettlementHeadroom at room
          split_ifs at room with _ fits
          cases same
          exact ⟨binding, startedAt, rfl, rfl, rfl, rfl, fits⟩

structure Reserves (host : PoolHost) (scope : PoolScope) (request : TaskRequest)
    (state next : ResourcePoolState) (receipt : ResourceTaskReceipt) : Prop where
  room : ∃ binding startedAt worker, Room scope state.attempts binding request.planMs worker ∧
    toISOString request.startedMs = some startedAt ∧
    receipt = Resources.reservation host scope request.task binding startedAt
  fresh : receipt.id ∉ state.attempts.map (·.id)
  attempts : next.attempts = state.attempts ++ [receipt]
  headroom : settlementHeadroom host scope.pool next = true

theorem readEvidence_attempts {gated : ResourcePoolState × AdmissionGates}
    (evidence : readEvidence host scope request state = .ok gated) :
    gated.1.attempts = state.attempts := by
  unfold readEvidence at evidence
  cases current : request.evidence with
  | none =>
      rw [current] at evidence
      cases evidence
      rfl
  | some found =>
      rw [current] at evidence
      simp only [bind_eq_ok, refuse_eq_ok, pure_eq_ok] at evidence
      obtain ⟨_, fresh, _, rfl⟩ := evidence
      exact freshAdmission_attempts fresh

theorem admit_ok {admission : Admission}
    (admitted : admitRequest host scope request state = .ok (next, admission)) :
    match admission with
    | .reserved receipt => Reserves host scope request state next receipt
    | _ => next.attempts = state.attempts := by
  unfold admitRequest at admitted
  dsimp only at admitted
  cases previous : state.attempts.find? fun row => row.id = request.task.id with
  | some row =>
      rw [previous] at admitted
      dsimp only at admitted
      split_ifs at admitted
      cases admitted
      rfl
  | none =>
      rw [previous] at admitted
      obtain ⟨gated, evidence, assigned⟩ := bind_eq_ok.mp admitted
      have unchanged := readEvidence_attempts evidence
      obtain ⟨assignment, planned, rest⟩ := bind_eq_ok.mp assigned
      cases chosen : assignment.selectedWorkerId with
      | none =>
          rw [chosen] at rest
          cases rest
          exact unchanged
      | some selected =>
          rw [chosen] at rest
          obtain ⟨binding, startedAt, found, started, rfl, rfl, fits⟩ := reserveSelected_ok rest
          obtain ⟨worker, room⟩ := plan_room planned chosen found
          rw [unchanged] at room
          exact {
            room := ⟨binding, startedAt, worker, room, started, rfl⟩
            fresh := by
              intro again
              obtain ⟨row, member, same⟩ := List.mem_map.mp again
              exact absurd (decide_eq_true same) (List.find?_eq_none.mp previous row member)
            attempts := congrArg (· ++ [_]) unchanged
            headroom := fits }

theorem settle_ok {reserved receipt : ResourceTaskReceipt} {result : ResourceWorkerResult}
    (settled : settle host scope reserved receipt result state = .ok (next, done)) :
    ∃ before row behind, state.attempts = before ++ row :: behind ∧ row.id = reserved.id ∧
      next.attempts = before ++ receipt :: behind := by
  unfold settle at settled
  cases found : state.attempts.findIdx? fun row => row.id = reserved.id with
  | none =>
      rw [found] at settled
      cases settled
  | some index =>
      rw [found] at settled
      dsimp only at settled
      split_ifs at settled
      cases settled
      obtain ⟨bound, same, _⟩ := List.findIdx?_eq_some_iff_getElem.mp found
      refine ⟨state.attempts.take index, state.attempts[index], state.attempts.drop (index + 1),
        ?_, of_decide_eq_true same, ?_⟩
      · rw [List.cons_getElem_drop_succ, List.take_append_drop]
      · rw [List.set_eq_take_append_cons_drop, if_pos bound]

theorem writePolicy_ok {accepted : Bool}
    {change : JsString → ResourcePoolState → Except PoolError (ResourcePoolState × Unit)}
    {stored : Option ResourcePoolState}
    (written : writePolicy host scope accepted nowMs change stored = .ok (state, done)) :
    ∃ now loaded, loadState host scope stored = .ok loaded ∧ change now loaded = .ok
    (state, ()) := by
  unfold writePolicy at written
  cases clock : toISOString nowMs with
  | none =>
      rw [clock] at written
      cases written
  | some now =>
      rw [clock] at written
      dsimp only at written
      split_ifs at written
      obtain ⟨loaded, found, changed, _⟩ := transaction_ok.mp written
      exact ⟨now, loaded, found, changed⟩

theorem setResourcePoolAllocation_attempts {ceilingPercent : Fin 101}
    (changed : setResourcePoolAllocation ceilingPercent expectedRevision now state =
      .ok (next, done)) :
    next.attempts = state.attempts := by
  unfold setResourcePoolAllocation at changed
  split_ifs at changed
  cases changed
  rfl

theorem setResourceWorkerAccess_attempts {paused : List JsString}
    (changed : setResourceWorkerAccess host scope paused expectedRevision now state =
      .ok (next, done)) :
    next.attempts = state.attempts := by
  unfold setResourceWorkerAccess at changed
  split_ifs at changed
  obtain ⟨_, _, same⟩ := map_eq_ok.mp changed
  cases same
  rfl

theorem setResourceQuotaScopeAccess_attempts {exclusions : List ResourceQuotaScopeExclusion}
    (changed : setResourceQuotaScopeAccess host scope exclusions expectedRevision now state =
      .ok (next, done)) :
    next.attempts = state.attempts := by
  unfold setResourceQuotaScopeAccess at changed
  split_ifs at changed
  obtain ⟨_, _, same⟩ := map_eq_ok.mp changed
  cases same
  rfl

inductive Effect (host : PoolHost) (scope : PoolScope) (attempts : List ResourceTaskReceipt)
    (next : ResourcePoolState) : PoolCall → Option ResourceTaskReceipt → Prop
  | kept {call : PoolCall} (same : next.attempts = attempts) : Effect host scope attempts next call
    none
  | reserved {request : TaskRequest} {state : ResourcePoolState} {receipt : ResourceTaskReceipt}
      (same : state.attempts = attempts) (reserves : Reserves host scope request state next receipt)
        :
      Effect host scope attempts next (.runResourceTask request) (some receipt)
  | settled {reserved row : ResourceTaskReceipt} {result : ResourceWorkerResult}
      {before behind : List ResourceTaskReceipt} (found : attempts = before ++ row :: behind)
      (same : row.id = reserved.id)
      (placed : next.attempts = before ++ settledReceipt host reserved result :: behind) :
      Effect host scope attempts next (.settlement reserved result) none

theorem PoolCall.apply_effect {call : PoolCall} {stored : Option ResourcePoolState}
    {next : ResourcePoolState} {receipt : Option ResourceTaskReceipt}
    (answered : call.apply host scope stored = .ok (next, receipt)) :
    Effect host scope (storedAttempts stored) next call receipt := by
  cases call with
  | runResourceTask request =>
      obtain ⟨⟨state, admission⟩, admitted, same⟩ := map_eq_ok.mp answered
      unfold reserveTask at admitted
      split_ifs at admitted
      obtain ⟨loaded, found, changed, _⟩ := transaction_ok.mp admitted
      have effect := admit_ok changed
      have attempts := loadState_attempts found
      cases admission with
      | reserved receipt =>
          cases same
          exact .reserved attempts effect
      | replayed receipt | waiting =>
          cases same
          exact .kept (Eq.trans effect attempts)
  | settlement reserved result =>
      obtain ⟨⟨state, done⟩, settled, same⟩ := map_eq_ok.mp answered
      unfold settleTask at settled
      dsimp only at settled
      split_ifs at settled
      obtain ⟨loaded, found, changed, _⟩ := transaction_ok.mp settled
      obtain ⟨before, row, behind, located, named, placed⟩ := settle_ok changed
      cases same
      exact .settled (by rw [← loadState_attempts found, located]) named placed
  | setResourcePoolAllocation ceilingPercent expectedRevision nowMs =>
      obtain ⟨⟨state, done⟩, written, same⟩ := map_eq_ok.mp answered
      obtain ⟨_, loaded, found, changed⟩ := writePolicy_ok written
      cases same
      exact .kept ((setResourcePoolAllocation_attempts changed).trans (loadState_attempts found))
  | setResourceWorkerAccess paused expectedRevision nowMs =>
      obtain ⟨⟨state, done⟩, written, same⟩ := map_eq_ok.mp answered
      obtain ⟨_, loaded, found, changed⟩ := writePolicy_ok written
      cases same
      exact .kept ((setResourceWorkerAccess_attempts changed).trans (loadState_attempts found))
  | setResourceQuotaScopeAccess exclusions expectedRevision nowMs =>
      obtain ⟨⟨state, done⟩, written, same⟩ := map_eq_ok.mp answered
      obtain ⟨_, loaded, found, changed⟩ := writePolicy_ok written
      cases same
      exact .kept ((setResourceQuotaScopeAccess_attempts changed).trans (loadState_attempts found))

/-! The bounds. -/

/-- The largest `maxConcurrent` of an account's workers. -/
def mostConcurrent (scope : PoolScope) (capacityKey : JsString) : ℕ :=
  (((boundWorkers scope.pool scope.bindings).filter fun entry =>
    entry.1.capacityKey = capacityKey).map (·.2.maxConcurrent)).foldl max 0

theorem le_foldl_max {values : List ℕ} {value : ℕ} (member : value ∈ values) :
    ∀ start, value ≤ values.foldl max start := by
  have grows : ∀ (values : List ℕ) (start : ℕ), start ≤ values.foldl max start := by
    intro values
    induction values with
    | nil => exact fun start => le_refl start
    | cons first rest ih => exact fun start => (le_max_left start first).trans (ih _)
  induction values with
  | nil => cases member
  | cons first rest ih =>
      intro start
      rcases List.mem_cons.mp member with rfl | later
      · exact (le_max_right start value).trans (grows rest _)
      · exact ih later _

theorem Room.le_mostConcurrent {attempts : List ResourceTaskReceipt}
    (room : Room scope attempts binding nowMs worker) :
    worker.maxConcurrent ≤ mostConcurrent scope binding.capacityKey := by
  have valid := scope.poolValid
  unfold validateResourcePool at valid
  simp only [Bool.and_eq_true, decide_eq_true_eq] at valid
  have found := worker?_of_mem valid.1.2 room.known
  rw [room.id] at found
  have entry : (binding, worker) ∈ (boundWorkers scope.pool scope.bindings).filter fun entry =>
      entry.1.capacityKey = binding.capacityKey :=
    List.mem_filter.mpr ⟨boundWorkers_mem room.bound found, decide_eq_true rfl⟩
  exact le_foldl_max (@List.mem_map_of_mem _ _ _ _ (fun entry => entry.2.maxConcurrent) entry) 0

theorem activeCount_append (first second : List ResourceTaskReceipt) (capacityKey : JsString) :
    activeCount (first ++ second) capacityKey =
      activeCount first capacityKey + activeCount second capacityKey := by
  unfold activeCount attemptsOf
  rw [List.filter_append, List.filter_append, List.length_append]

theorem activeCount_single (row : ResourceTaskReceipt) (capacityKey : JsString) :
    activeCount [row] capacityKey =
      if row.capacityKey = capacityKey ∧ row.status.terminal = false then 1 else 0 := by
  unfold activeCount attemptsOf
  by_cases same : row.capacityKey = capacityKey <;> cases ended : row.status.terminal <;>
    simp [same, ended]

structure PoolSystem.Sound (scope : PoolScope) (system : PoolSystem) : Prop where
  ids : system.attempts.map (·.id) = system.reservedIds
  once : system.reservedIds.Nodup
  outstanding : ∀ row ∈ system.outstanding, row ∈ system.attempts ∧ row.status = .reserved
  bounded : ∀ capacityKey,
    activeCount system.attempts capacityKey ≤ mostConcurrent scope capacityKey

namespace PoolSystem

variable {system : PoolSystem}

theorem start_sound : start.Sound scope :=
  ⟨rfl, List.nodup_nil, fun _ member => (by cases member), fun _ => Nat.zero_le _⟩

section

variable (sound : system.Sound scope)
include sound

theorem Sound.leave (id : JsString) : (system.leave id).Sound scope
    where
  ids := sound.ids
  once := sound.once
  outstanding row member := sound.outstanding row (List.mem_of_mem_filter member)
  bounded := sound.bounded

theorem Sound.called (call : PoolCall) :
    (system.called call).Sound scope := by
  cases call with
  | settlement reserved result => exact sound.leave reserved.id
  | _ => exact sound

theorem Sound.settled_row {reserved row : ResourceTaskReceipt}
    {before behind : List ResourceTaskReceipt} (outstanding : reserved ∈ system.outstanding)
    (found : system.attempts = before ++ row :: behind) (same : row.id = reserved.id) :
    row = reserved := by
  have once := sound.once
  rw [← sound.ids] at once
  refine List.inj_on_of_nodup_map once ?_ (sound.outstanding reserved outstanding).1 same
  rw [found]
  exact List.mem_append_right before List.mem_cons_self

theorem Sound.durable {call : PoolCall} {next : ResourcePoolState}
    {receipt : Option ResourceTaskReceipt}
    (effect : Effect host scope system.attempts next call receipt) (enabled : call.Enabled system) :
    ((system.called call).durable next receipt).Sound scope ∧
      ∀ row ∈ receipt, row ∈ next.attempts ∧ row.status = .reserved := by
  cases effect with
  | kept same =>
      have called := sound.called call
      have unchanged : (system.called call).attempts = system.attempts := by cases call <;> rfl
      refine ⟨⟨?_, called.once, ?_, ?_⟩, fun _ member => by cases member⟩
      · exact (congrArg _ (same.trans unchanged.symm)).trans called.ids
      · intro row member
        obtain ⟨known, status⟩ := called.outstanding row member
        rw [unchanged, ← same] at known
        exact ⟨known, status⟩
      · intro capacityKey
        have bound := called.bounded capacityKey
        rw [unchanged, ← same] at bound
        exact bound
  | reserved same reserves =>
      rename_i request state receipt
      obtain ⟨binding, startedAt, worker, room, _, made⟩ := reserves.room
      have attempts := reserves.attempts
      rw [same] at attempts room
      have fresh := reserves.fresh
      rw [same, sound.ids] at fresh
      have status : receipt.status = .reserved := by rw [made]; rfl
      have capacity : receipt.capacityKey = binding.capacityKey := by rw [made]; rfl
      refine ⟨⟨?_, ?_, ?_, ?_⟩, ?_⟩
      · change next.attempts.map _ = system.reservedIds ++ [receipt.id]
        rw [attempts, List.map_append, sound.ids]
        rfl
      · refine List.nodup_append.mpr ⟨sound.once, List.nodup_singleton _, ?_⟩
        intro id member other single
        rw [List.mem_singleton] at single
        rintro rfl
        exact fresh (single ▸ member)
      · intro row member
        obtain ⟨known, still⟩ := sound.outstanding row member
        refine ⟨?_, still⟩
        change row ∈ next.attempts
        rw [attempts]
        exact List.mem_append_left _ known
      · intro capacityKey
        change activeCount next.attempts capacityKey ≤ _
        rw [attempts, activeCount_append, activeCount_single]
        split_ifs with counted
        · have most := room.le_mostConcurrent
          have free := room.concurrency
          rw [← capacity, counted.1] at most free
          omega
        · exact sound.bounded capacityKey
      · intro row member
        cases member
        rw [attempts]
        exact ⟨List.mem_append_right _ List.mem_cons_self, status⟩
  | settled found same placed =>
      rename_i reserved row result before behind
      have theRow := sound.settled_row enabled found same
      subst theRow
      have status := (sound.outstanding row enabled).2
      refine ⟨⟨?_, sound.once, ?_, ?_⟩, fun _ member => by cases member⟩
      · change next.attempts.map _ = system.reservedIds
        rw [placed, ← sound.ids, found, List.map_append, List.map_append]
        rfl
      · intro other member
        obtain ⟨left, different⟩ := List.mem_filter.mp member
        rw [decide_eq_true_eq] at different
        obtain ⟨known, still⟩ := sound.outstanding other left
        refine ⟨?_, still⟩
        change other ∈ next.attempts
        rw [placed]
        rw [found, List.mem_append, List.mem_cons] at known
        rw [List.mem_append, List.mem_cons]
        rcases known with earlier | rfl | later
        · exact .inl earlier
        · exact absurd rfl different
        · exact .inr (.inr later)
      · intro capacityKey
        have bound := sound.bounded capacityKey
        change activeCount next.attempts capacityKey ≤ _
        rw [found, List.append_cons, activeCount_append, activeCount_append,
          activeCount_single] at bound
        rw [placed, List.append_cons, activeCount_append, activeCount_append, activeCount_single]
        refine le_trans ?_ bound
        have lower : (if (settledReceipt host row result).capacityKey = capacityKey ∧
            (settledReceipt host row result).status.terminal = false then 1 else 0) ≤
            if row.capacityKey = capacityKey ∧ row.status.terminal = false then 1 else 0 := by
          rw [status]
          split_ifs with left right
          · exact le_refl 1
          · exact absurd ⟨left.1, rfl⟩ right
          · exact Nat.zero_le 1
          · exact le_refl 0
        omega

theorem Sound.after {event : PoolEvent}
    (enabled : event.Enabled system) : (system.after host scope event).Sound scope := by
  cases event with
  | answered call =>
      unfold PoolSystem.after
      dsimp only
      cases answered : call.apply host scope system.ledger with
      | error refusal => exact sound.called call
      | ok outcome =>
          obtain ⟨state, receipt⟩ := outcome
          obtain ⟨durable, reserved⟩ := sound.durable (call.apply_effect answered) enabled
          refine ⟨durable.ids, durable.once, ?_, durable.bounded⟩
          intro row member
          rcases List.mem_append.mp member with before | new
          · exact durable.outstanding row before
          · cases receipt with
            | none => cases new
            | some receipt =>
                obtain rfl := List.mem_singleton.mp new
                exact reserved row rfl
  | crashedBefore call => exact sound.called call
  | crashedBehind call =>
      unfold PoolSystem.after
      dsimp only
      cases answered : call.apply host scope system.ledger with
      | error refusal => exact sound.called call
      | ok outcome => exact (sound.durable (call.apply_effect answered) enabled).1
  | exited reserved => exact sound.leave reserved.id

end

end PoolSystem

/-- Over every run: the bounds hold, no task id is reserved twice, and each reservation is made
where its worker has room. -/
theorem run_admission {events : List PoolEvent} {system : PoolSystem}
    (run : Run (PoolStep host scope) PoolSystem.start events system) :
    system.reservedIds.Nodup ∧
      (∀ capacityKey, activeCount system.attempts capacityKey ≤ mostConcurrent scope capacityKey) ∧
      ∀ request next receipt, request.Forward →
        reserveTask host scope request system.ledger = .ok (next, .reserved receipt) →
        receipt.id ∉ system.reservedIds ∧
          ∃ worker, Room scope system.attempts ⟨receipt.workerId, receipt.capacityKey⟩
            (dateMs receipt.startedAt) worker := by
  have sound : system.Sound scope := run.invariant (fun sound taken => by
    obtain ⟨enabled, rfl⟩ := taken
    exact sound.after enabled) PoolSystem.start_sound
  refine ⟨sound.once, sound.bounded, ?_⟩
  intro request next receipt forward reserved
  unfold reserveTask at reserved
  split_ifs at reserved
  obtain ⟨loaded, found, changed, _⟩ := transaction_ok.mp reserved
  have reserves : Reserves host scope request loaded next receipt := admit_ok changed
  have same : loaded.attempts = system.attempts := loadState_attempts found
  obtain ⟨binding, startedAt, worker, room, started, rfl⟩ := reserves.room
  have fresh := reserves.fresh
  rw [same, sound.ids] at fresh
  rw [same] at room
  refine ⟨fresh, worker, ?_⟩
  have clock : dateMs startedAt = request.startedMs := by
    unfold dateMs
    rw [dateParse_toISOString started]
    rfl
  change Room scope system.attempts binding (dateMs startedAt) worker
  rw [clock]
  exact room.later forward.2.2

/-! A pool of one worker: a task is reserved and settled, and the process that reserves the next
one ends behind its write. -/

def soloHost : PoolHost where
  digest text := Sha256.digest (utf8Encode text)
  keysInOrder first second := first ≤ second
  configurationHistory _ := none

def soloWorker : ResourceWorker where
  id := js "solo"
  provider := .local
  model := js "m"
  quotaScope := none
  maxConcurrent := 2
  reservePercent := wholePercent 0
  maxTasksPerWindow := 3
  taskWindowMs := 1000
  priority := 0
  allowUnknownQuota := none

def soloScope : PoolScope where
  pool := ⟨js "pool", [soloWorker]⟩
  bindings := [⟨js "solo", js "host"⟩]
  poolDigest := List.replicate 64 0x30
  poolValid := by decide +kernel
  bindingsValid := by decide +kernel

def soloObservation : ResourceObservation where
  workerId := js "solo"
  observedAt := js "1970-01-01T00:00:00.000Z"
  expiresAt := js "1970-01-01T00:01:00.000Z"
  updatedAt := none
  health := .ready
  windows := []
  retryAfter := none

def soloRequest (id : JsString) : TaskRequest where
  task := ⟨id, [js "solo"], js "p", js "/", 1, 1, true⟩
  observations := [soloObservation]
  gates := ⟨[], []⟩
  evidence := none
  aborted := false
  mergeMs := 0
  evidenceMs := 0
  planMs := 0
  startedMs := 0

def soloResult : ResourceWorkerResult where
  status := .completed
  ended := nofun
  output := js "o"
  inputTokens := none
  outputTokens := none
  usageScope := none
  reason := js "done"
  nativeProcess := none
  observation := none
  dispatchAllowed := false
  elapsed := wholePercent 0
  finishedMs := 5
  mergeMs := 5

def soloFirst : PoolEvent := .answered (.runResourceTask (soloRequest (js "a")))

def soloOpen : PoolSystem := PoolSystem.start.after soloHost soloScope soloFirst

theorem soloOpen_outstanding : soloOpen.outstanding ≠ [] := by decide +kernel

def soloSettlement : PoolEvent :=
  .answered (.settlement (soloOpen.outstanding.head soloOpen_outstanding) soloResult)

def soloCrash : PoolEvent := .crashedBehind (.runResourceTask (soloRequest (js "b")))

def soloSystem : PoolSystem :=
  (soloOpen.after soloHost soloScope soloSettlement).after soloHost soloScope soloCrash

theorem soloForward (id : JsString) : (soloRequest id).Forward := ⟨le_rfl, le_rfl, le_rfl⟩

theorem soloRun : Run (PoolStep soloHost soloScope) .start
    [soloFirst, soloSettlement, soloCrash] soloSystem := by
  have first : soloFirst.Enabled .start := soloForward (js "a")
  have settles : soloSettlement.Enabled soloOpen := List.head_mem soloOpen_outstanding
  have crashes : soloCrash.Enabled (soloOpen.after soloHost soloScope soloSettlement) :=
    soloForward (js "b")
  exact ((Run.nil.snoc ⟨first, rfl⟩).snoc ⟨settles, rfl⟩).snoc ⟨crashes, rfl⟩

def Admission.receipt? : Admission → Option ResourceTaskReceipt
  | .reserved receipt => some receipt
  | _ => none

theorem soloSystem_reserves : (soloSystem.reservedIds = [js "a", js "b"] ∧
      soloSystem.attempts.map (·.status) = [.completed, .reserved]) ∧
    ((reserveTask soloHost soloScope (soloRequest (js "c")) soloSystem.ledger).toOption.bind
      fun answer => answer.2.receipt?).isSome = true := by
  decide +kernel

theorem run_admission_solo :
    (soloSystem.reservedIds = [js "a", js "b"] ∧
        soloSystem.attempts.map (·.status) = [.completed, .reserved]) ∧
      activeCount soloSystem.attempts (js "host") ≤ mostConcurrent soloScope (js "host") ∧
      ∃ next receipt,
        reserveTask soloHost soloScope (soloRequest (js "c")) soloSystem.ledger =
            .ok (next, .reserved receipt) ∧
          receipt.id ∉ soloSystem.reservedIds ∧
          ∃ worker, Room soloScope soloSystem.attempts ⟨receipt.workerId, receipt.capacityKey⟩
            (dateMs receipt.startedAt) worker := by
  obtain ⟨_, bounded, reserves⟩ := run_admission soloRun
  obtain ⟨ids, reserved⟩ := soloSystem_reserves
  refine ⟨ids, bounded (js "host"), ?_⟩
  cases answered : reserveTask soloHost soloScope (soloRequest (js "c")) soloSystem.ledger with
  | error refusal =>
      rw [answered] at reserved
      cases reserved
  | ok answer =>
      obtain ⟨next, admission⟩ := answer
      cases admission with
      | reserved receipt =>
          exact ⟨next, receipt, rfl,
            reserves (soloRequest (js "c")) next receipt (soloForward (js "c")) answered⟩
      | replayed receipt | waiting =>
          rw [answered] at reserved
          cases reserved

end AshlrHub.Resources

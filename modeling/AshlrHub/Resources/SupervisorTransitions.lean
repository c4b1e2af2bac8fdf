import AshlrHub.Lib.KeyedMerge
import AshlrHub.Resources.SupervisorSteps

namespace AshlrHub.Supervisor

open Js Artifacts Authority Resources Lib

/-! Each transition keeps a sound supervisor sound, in the room it has. -/

structure Kept (keysInOrder : JsString → JsString → Bool)
    (before after : ResourcePoolSupervisor) : Prop where
  sound : Sound after
  room : headroomBytes keysInOrder after.state ≤ headroomBytes keysInOrder before.state

variable {keysInOrder : JsString → JsString → Bool} {host : SupervisorHost} {now : Clock}
  {supervisor : ResourcePoolSupervisor}

/-! Rows that end. -/

theorem follows_ended {row ended : DurableJob} (history : Option TaskHistory)
    (sound : SoundJob row) (pending : row.state.pending = true) (metadata : SoundMetadata ended)
    (closed : ended.state.pending = false) (dropped : ended.input = none)
    (same : ended.bare = row.bare) (context : ended.continuation = row.continuation)
    (retained : retainedBytes keysInOrder ended.retained ≤
      retainedBytes keysInOrder (envelopeJob row).retained + futureOutputBytes row) :
    Follows keysInOrder row (dropContext history ended) := by
  unfold dropContext
  split
  · refine follows_closed sound pending metadata closed dropped same ?_ retained
    rw [context]
    exact Nat.le_add_right _ _
  · have bare : ended.withoutContext.bare = row.bare := by
      rw [← same]
      simp only [DurableJob.bare, DurableJob.withoutContext, Option.map_map]
      rfl
    refine follows_closed sound pending ⟨metadata.worker, metadata.reason, metadata.updatedAt⟩
      closed dropped bare ?_ retained
    rw [← context]
    exact contextBytes_none_le

theorem dropContext_with (history : Option TaskHistory) (row : DurableJob)
    (retained : Option (Option TaskHistory)) (instant : JsString) :
    { dropContext history row with retained := retained, updatedAt := instant } =
      dropContext history { row with retained := retained, updatedAt := instant } := by
  unfold dropContext
  split <;> rfl

theorem dropContext_touched (history : Option TaskHistory) (row : DurableJob) (instant : JsString) :
    { dropContext history row with updatedAt := instant } =
      dropContext history { row with updatedAt := instant } := by
  unfold dropContext
  split <;> rfl

structure FitReceipt (job : DurableJob) (receipt : ResourceTaskReceipt) : Prop where
  worker : receipt.workerId ∈ job.allowedWorkerIds
  reason : validReason receipt.reason = true

variable {row : DurableJob} {receipt : Option ResourceTaskReceipt}

variable {id : JsString} {job row : DurableJob} {attempts : Attempts} {reason instant : JsString}

theorem soundMetadata_closed
    (sound : SoundJob row)
    (fit : ∀ found ∈ receipt, FitReceipt row found) (valid : validReason reason = true)
    (formed : isCanonicalInstant instant = true) :
    SoundMetadata { closedRow receipt reason row with updatedAt := instant } where
  worker workerId named := by
    obtain ⟨found, present, rfl⟩ := Option.map_eq_some_iff.mp named
    exact sound.workers _ (fit found present).worker
  reason told given := by
    obtain rfl := Option.some.inj given
    cases receipt with
    | none => exact valid
    | some found => exact (fit found rfl).reason
  updatedAt := formed

section

variable (receipt : Option ResourceTaskReceipt)

theorem capture_cases (output : Option JsString) (retained : Option (Option TaskHistory)) :
    capture receipt output retained = retained ∨
      ∃ history text, retained.join = some history ∧ capture receipt output retained =
        some (some ⟨history.prompt, some (boundedOutput text maxHistoryOutputBytes)⟩) := by
  cases kept : retained.join with
  | none => exact .inl (by simp only [capture, kept])
  | some history =>
      cases output with
      | none => exact .inl (by simp only [capture, kept])
      | some text =>
          by_cases completed : receipt.any (·.status = .completed) = true
          · exact .inr ⟨history, text, rfl, by simp only [capture, kept, if_pos completed]⟩
          · exact .inl (by simp only [capture, kept, if_neg completed])

theorem retainedBytes_capture (sound : SoundJob row)
    (pending : row.state.pending = true) (receipt : Option ResourceTaskReceipt)
    (output : Option JsString) :
    retainedBytes keysInOrder (capture receipt output row.retained) ≤
      retainedBytes keysInOrder (envelopeJob row).retained + futureOutputBytes row := by
  obtain ⟨input, present⟩ := exists_input sound pending
  obtain same | ⟨history, text, kept, captured⟩ := capture_cases receipt output row.retained
  · have unchanged := @retainedBytes_uncaptured keysInOrder row input present
      (sound.uncaptured pending)
    rw [same]
    omega
  · rw [captured]
    exact retainedBytes_captured present kept text

theorem map_capture (output : Option JsString) (retained : Option (Option TaskHistory)) :
    (capture receipt output retained).map (fun _ => (none : Option TaskHistory)) =
      retained.map fun _ => none := by
  obtain same | ⟨history, text, kept, captured⟩ := capture_cases receipt output retained
  · rw [same]
  · rw [captured, Option.join_eq_some_iff.mp kept]
    rfl

theorem capture_none
    (retained : Option (Option TaskHistory)) : capture receipt none retained = retained := by
  cases kept : retained.join <;> simp only [capture, kept]

theorem pending_closed (reason : JsString)
    (row : DurableJob) : (closedRow receipt reason row).state.pending = false := by
  rw [closedRow]
  dsimp only
  split <;> rfl

end

theorem follows_settled {row : DurableJob} {receipt : Option ResourceTaskReceipt}
    {reason instant : JsString} {output : Option JsString} (sound : SoundJob row)
    (pending : row.state.pending = true) (fit : ∀ found ∈ receipt, FitReceipt row found)
    (valid : validReason reason = true) (formed : isCanonicalInstant instant = true) :
    Follows keysInOrder row
      { dropContext row.history (closedRow receipt reason row) with
        retained := capture receipt output row.retained
        updatedAt := instant } := by
  have metadata := soundMetadata_closed sound fit valid formed
  have retained := map_capture receipt output row.retained
  rw [dropContext_with]
  refine follows_ended row.history sound pending
    ⟨metadata.worker, metadata.reason, formed⟩ (pending_closed receipt reason row) rfl ?_ rfl
    (retainedBytes_capture sound pending receipt output)
  simp only [DurableJob.bare, DurableJob.withoutContext, retained]
  rfl

theorem follows_recovered
    (sound : SoundJob row) (pending : row.state.pending = true)
    (fit : ∀ found ∈ receipt, FitReceipt row found) (valid : validReason reason = true)
    (formed : isCanonicalInstant instant = true) :
    Follows keysInOrder row
      { dropContext row.history (closedRow receipt reason row) with updatedAt := instant } := by
  have settled := @follows_settled keysInOrder row receipt reason instant none sound pending fit
    valid formed
  rw [capture_none, dropContext_with] at settled
  rw [dropContext_touched]
  exact settled

theorem follows_cancelled
    (history : Option TaskHistory) (sound : SoundJob row) (pending : row.state.pending = true)
    (valid : validReason reason = true) (formed : isCanonicalInstant instant = true)
    {workerId : Option JsString} (worker : ∀ named ∈ workerId, identifier named = true) :
    Follows keysInOrder row
      { dropContext history { row with
          state := .cancelled, outcome := some .cancelled, workerId := workerId, input := none,
          reason := some reason } with
        updatedAt := instant } := by
  obtain ⟨input, present⟩ := exists_input sound pending
  have unchanged := @retainedBytes_uncaptured keysInOrder row input present
    (sound.uncaptured pending)
  rw [dropContext_touched]
  refine follows_ended history sound pending ⟨worker, ?_, formed⟩ rfl rfl rfl rfl
    (Nat.le_add_right_of_le unchanged)
  intro told given
  obtain rfl := Option.some.inj given
  exact valid

/-! Evidence. -/

theorem identityMismatch_notForSpace : NotForSpace host supervisor identityMismatch := by
  intro _ message same
  cases same

theorem originFor_outcome (state : DurableState) (job : DurableJob) :
    Outcome (NotForSpace host supervisor) (fun _ => True) (originFor host state job) := by
  unfold originFor
  dsimp only
  split
  · exact .ok trivial
  · exact .error fun _ message same => by cases same

theorem receiptFor_outcome (state : DurableState) (job : DurableJob) (attempts : Attempts) :
    Outcome (NotForSpace host supervisor) (fun receipt => ∀ found ∈ receipt, FitReceipt job found)
      (receiptFor host state job attempts) := by
  unfold receiptFor
  cases present : attempts.val.find? (·.id = job.id) with
  | none => exact .ok fun found none => by cases none
  | some receipt =>
      refine .check (fun _ => identityMismatch_notForSpace) fun _ => ?_
      refine (originFor_outcome state job).bind fun origin _ => ?_
      refine .check (fun _ => identityMismatch_notForSpace) fun fits => ?_
      refine .ok fun found same => ?_
      obtain rfl := Option.some.inj same
      rw [not_or] at fits
      exact ⟨not_not.mp fits.2, attempts.property receipt (List.mem_of_find?_eq_some present)⟩

/-! Results. -/

def Moves (keysInOrder : JsString → JsString → Bool) (row : DurableJob)
    (before after : ResourcePoolSupervisor) : Prop :=
  ∃ next, Advances keysInOrder row next before after

section

variable (sound : ∀ job ∈ supervisor.state.jobs, SoundJob job)
  (found : supervisor.state.job? job.id = some row) (pending : row.state.pending = true)
  (workers : row.allowedWorkerIds = job.allowedWorkerIds)
include sound found pending workers

theorem settle_outcome {reason : JsString} {output : Option JsString}
    (fit : ∀ found ∈ receipt, FitReceipt job found) (valid : validReason reason = true) :
    Outcome (NotForSpace host supervisor) (Moves host.keysInOrder row supervisor)
      (settle host now job receipt reason output supervisor) := by
  have fits : ∀ found ∈ receipt, FitReceipt row found := fun found present =>
    ⟨workers ▸ (fit found present).worker, (fit found present).reason⟩
  have named := id_of_job? found
  rw [← named] at found
  rw [settle, ← named]
  refine (update_outcome sound found fun instant formed =>
    follows_settled (sound row (mem_of_job? found)) pending fits valid formed).imp ?_
  rintro after ⟨instant, _, step⟩
  exact ⟨_, step⟩

theorem settleFailed_outcome :
    Outcome (NotForSpace host supervisor) (Moves host.keysInOrder row supervisor)
      (settleFailed host now job attempts supervisor) := by
  have evidence := @receiptFor_outcome host supervisor supervisor.state job attempts
  unfold settleFailed
  cases answered : receiptFor host supervisor.state job attempts with
  | ok receipt =>
      rw [answered] at evidence
      exact settle_outcome sound found pending workers (Outcome.ok_iff.mp evidence) (by decide)
  | error thrown =>
      rw [answered] at evidence
      dsimp only
      split
      · exact settle_outcome sound found pending workers (by simp) (by decide)
      · exact .error (Outcome.error_iff.mp evidence)

end

theorem Hold.valid (hold : Hold) : validReason hold.text = true := by
  cases hold <;> decide

section

variable (sound : ∀ job ∈ supervisor.state.jobs, SoundJob job)
  (found : supervisor.state.job? job.id = some row) (pending : row.state.pending = true)
  (input : row.input = job.input)
include sound found pending input

theorem unserved_outcome {aborted : Bool} {hold : Option Hold} :
    Outcome (NotForSpace host supervisor) (Moves host.keysInOrder row supervisor)
      (update host now job.id (unservedRow aborted hold job) supervisor) := by
  have named := id_of_job? found
  rw [← named] at found
  have valid : validReason ((hold.map (·.text)).getD (js "no-eligible-capacity")) = true := by
    cases hold with
    | none => decide
    | some hold => exact hold.valid
  have soundRow := sound row (mem_of_job? found)
  rw [← named]
  refine (update_outcome sound found fun instant formed => ?_).imp ?_
  · cases aborted with
    | true => exact follows_cancelled job.history soundRow pending valid formed (by simp)
    | false =>
        refine follows_pending soundRow pending ⟨by simp [unservedRow], ?_, formed⟩ rfl ?_
        · intro told given
          obtain rfl := Option.some.inj given
          exact valid
        · simp only [unservedRow, Bool.false_eq_true, if_false, input]
  · rintro after ⟨instant, _, step⟩
    exact ⟨_, step⟩

theorem settleResult_outcome {result : TaskResult}
    (workers : row.allowedWorkerIds = job.allowedWorkerIds) :
    Outcome (NotForSpace host supervisor) (Moves host.keysInOrder row supervisor)
      (settleResult host now job result supervisor) := by
  cases result with
  | unserved aborted hold => exact unserved_outcome sound found pending input
  | served attempts output =>
      have evidence := @receiptFor_outcome host supervisor supervisor.state job attempts
      unfold settleResult
      dsimp only
      split
      · next receipt answered =>
          rw [answered] at evidence
          exact settle_outcome sound found pending workers (Outcome.ok_iff.mp evidence) (by decide)
      · exact settleFailed_outcome sound found pending workers
  | failed attempts => exact settleFailed_outcome sound found pending workers

end

/-- The task has left `active`, and with it the only claim on its row. -/
theorem finish_outcome {result : TaskResult} (sound : Sound supervisor) :
    Outcome (NotForSpace host supervisor) (Kept host.keysInOrder supervisor)
      (finish host now id result supervisor) := by
  unfold finish
  cases present : supervisor.active.find? (·.id = id) with
  | none => exact .ok ⟨sound, le_rfl⟩
  | some job =>
      obtain ⟨row, found, dispatching, input, workers⟩ :=
        sound.active job (List.mem_of_find?_eq_some present)
      have asked : job.id = id := by simpa using List.find?_some present
      have named := id_of_job? found
      refine (settleResult_outcome sound.jobs found (by rw [dispatching]; rfl) input
        workers).bind fun after moved => ?_
      obtain ⟨next, step⟩ := moved
      refine .ok ⟨⟨step.jobs sound.jobs, ?_⟩, step.room⟩
      intro other member
      obtain ⟨still, another⟩ := List.mem_filter.mp member
      rw [step.active] at still
      refine step.owned ?_ (sound.active other still)
      rw [named, asked]
      simpa using another

/-! The pump. -/

theorem Sound.unowned (sound : Sound supervisor)
    (found : supervisor.state.job? row.id = some row) (queued : row.state = .queued) :
    ∀ job ∈ supervisor.active, job.id ≠ row.id := by
  intro job member same
  obtain ⟨owner, owned, dispatching, _⟩ := sound.active job member
  rw [same, found] at owned
  obtain rfl := Option.some.inj owned
  rw [queued] at dispatching
  cases dispatching

theorem Sound.moved {after : ResourcePoolSupervisor}
    (sound : Sound supervisor) (queued : row.state = .queued)
    (moved : Moves keysInOrder row supervisor after) : Kept keysInOrder supervisor after := by
  obtain ⟨next, step⟩ := moved
  refine ⟨⟨step.jobs sound.jobs, fun job member => ?_⟩, step.room⟩
  rw [step.active] at member
  exact step.owned (sound.unowned step.found queued job member) (sound.active job member)

section

variable (sound : Sound supervisor)
include sound

theorem holdJob_outcome {hold : Hold}
    (found : supervisor.state.job? row.id = some row) (queued : row.state = .queued) :
    Outcome (NotForSpace host supervisor) (Kept host.keysInOrder supervisor)
      (holdJob host now row hold supervisor) := by
  have soundRow := sound.jobs row (mem_of_job? found)
  have pending : row.state.pending = true := by rw [queued]; rfl
  unfold holdJob
  split
  · exact .ok ⟨sound, le_rfl⟩
  · refine (update_outcome sound.jobs found fun instant formed => ?_).imp ?_
    · refine follows_pending soundRow pending ⟨soundRow.worker, ?_, formed⟩ pending rfl
      intro told given
      obtain rfl := Option.some.inj given
      exact hold.valid
    · rintro after ⟨instant, _, step⟩
      exact sound.moved queued ⟨_, step⟩

theorem start_outcome
    (found : supervisor.state.job? row.id = some row) (queued : row.state = .queued) :
    Outcome (NotForSpace host supervisor) (Kept host.keysInOrder supervisor)
      (start host now row supervisor) := by
  have soundRow := sound.jobs row (mem_of_job? found)
  have pending : row.state.pending = true := by rw [queued]; rfl
  unfold start
  refine .check (fun _ _ message same => by cases same) fun _ => ?_
  refine (update_outcome sound.jobs found fun instant formed => ?_).bind ?_
  · refine follows_pending soundRow pending ⟨by simp, ?_, formed⟩ rfl rfl
    intro told given
    obtain rfl := Option.some.inj given
    decide
  · rintro after ⟨instant, _, step⟩
    refine .ok ⟨⟨step.jobs sound.jobs, ?_⟩, step.room⟩
    intro job member
    obtain rfl | earlier := List.mem_cons.mp member
    · exact ⟨_, (step.job? job.id).trans (if_pos rfl), rfl, rfl, rfl⟩
    · rw [step.active] at earlier
      exact step.owned (sound.unowned found queued job earlier) (sound.active job earlier)

theorem pump_outcome {hold : Option Hold} :
    Outcome (NotForSpace host supervisor) (Kept host.keysInOrder supervisor)
      (pump host now id attempts hold supervisor) := by
  unfold pump
  cases present : supervisor.state.job? id with
  | none => exact .ok ⟨sound, le_rfl⟩
  | some row =>
      dsimp only
      split
      · exact .ok ⟨sound, le_rfl⟩
      next idle =>
        have queued : row.state = .queued := by
          rw [not_or, not_or, not_not] at idle
          exact idle.2.2
        have pending : row.state.pending = true := by rw [queued]; rfl
        have found : supervisor.state.job? row.id = some row := by
          rw [id_of_job? present, present]
        have evidence := @receiptFor_outcome host supervisor supervisor.state row attempts
        cases answered : receiptFor host supervisor.state row attempts with
        | error thrown =>
            rw [answered] at evidence
            dsimp only
            split
            · exact (settle_outcome sound.jobs found pending rfl (by simp)
                (by decide)).imp fun _ => sound.moved queued
            · exact .error (Outcome.error_iff.mp evidence)
        | ok receipt =>
            rw [answered] at evidence
            cases receipt with
            | some receipt =>
                exact (settle_outcome sound.jobs found pending rfl
                  (Outcome.ok_iff.mp evidence) (by decide)).imp fun _ => sound.moved queued
            | none =>
                refine (originFor_outcome supervisor.state row).bind fun origin _ => ?_
                split
                · exact holdJob_outcome sound found queued
                · cases hold with
                  | some hold => exact holdJob_outcome sound found queued
                  | none => exact start_outcome sound found queued

theorem Sound.informed {row next : DurableJob} {after : ResourcePoolSupervisor}
    (step : Advances keysInOrder row next supervisor after)
    (dispatching : next.state = .dispatching) (input : next.input = row.input)
    (workers : next.allowedWorkerIds = row.allowedWorkerIds) :
    Kept keysInOrder supervisor after := by
  refine ⟨⟨step.jobs sound.jobs, fun job member => ?_⟩, step.room⟩
  rw [step.active] at member
  exact step.owned_same dispatching input workers (sound.active job member)

theorem reserved_outcome :
    Outcome (NotForSpace host supervisor) (Kept host.keysInOrder supervisor)
      (reserved host now id attempts supervisor) := by
  unfold reserved
  cases present : supervisor.active.find? (·.id = id) with
  | none => exact .ok ⟨sound, le_rfl⟩
  | some job =>
      obtain ⟨row, found, dispatching, input, workers⟩ :=
        sound.active job (List.mem_of_find?_eq_some present)
      have asked : job.id = id := by simpa using List.find?_some present
      have soundRow := sound.jobs row (mem_of_job? found)
      have pending : row.state.pending = true := by rw [dispatching]; rfl
      have named : row.id = id := (id_of_job? found).trans asked
      have evidence := @receiptFor_outcome host supervisor supervisor.state job attempts
      dsimp only
      cases answered : receiptFor host supervisor.state job attempts with
      | error thrown =>
          rw [answered] at evidence
          dsimp only
          split
          · exact .ok ⟨sound, le_rfl⟩
          · exact .error (Outcome.error_iff.mp evidence)
      | ok receipt =>
          cases receipt with
          | none => exact .ok ⟨sound, le_rfl⟩
          | some receipt =>
              rw [answered] at evidence
              dsimp only
              split
              · rw [asked, ← named] at found
                rw [← named]
                refine (update_outcome sound.jobs found fun instant formed => ?_).imp ?_
                · refine follows_pending soundRow pending ⟨?_, soundRow.reason, formed⟩ pending rfl
                  intro workerId same
                  obtain rfl := Option.some.inj same
                  refine soundRow.workers _ ?_
                  rw [workers]
                  exact (Outcome.ok_iff.mp evidence receipt rfl).worker
                · rintro after ⟨instant, _, step⟩
                  exact sound.informed step dispatching rfl rfl
              · exact .ok ⟨sound, le_rfl⟩

/-! Calls. -/

theorem cancel_outcome :
    Outcome (NotForSpace host supervisor) (Kept host.keysInOrder supervisor)
      (cancel host now id supervisor) := by
  unfold cancel
  cases present : supervisor.state.job? id with
  | none => exact .error fun _ message same => by cases same
  | some row =>
      have named := id_of_job? present
      have found : supervisor.state.job? row.id = some row := by rw [named, present]
      have soundRow := sound.jobs row (mem_of_job? present)
      dsimp only
      split
      · next queued =>
          have pending : row.state.pending = true := by rw [queued]; rfl
          rw [← named]
          refine (update_outcome sound.jobs found fun instant formed => ?_).imp ?_
          · exact follows_cancelled row.history soundRow pending (by decide) formed soundRow.worker
          · rintro after ⟨instant, _, step⟩
            exact sound.moved queued ⟨_, step⟩
      split
      · next active =>
          obtain ⟨job, member, same⟩ := List.any_eq_true.mp active
          obtain ⟨owner, owned, dispatching, _⟩ := sound.active job member
          rw [decide_eq_true_eq] at same
          rw [same, present] at owned
          obtain rfl := Option.some.inj owned
          have pending : row.state.pending = true := by rw [dispatching]; rfl
          rw [← named]
          refine (update_outcome sound.jobs found fun instant formed => ?_).imp ?_
          · refine follows_pending soundRow pending ⟨soundRow.worker, ?_, formed⟩ pending rfl
            intro told given
            obtain rfl := Option.some.inj given
            decide
          · rintro after ⟨instant, _, step⟩
            exact sound.informed step dispatching rfl rfl
      split
      · exact .error fun _ message same => by cases same
      · exact .ok ⟨sound, le_rfl⟩

theorem setPaused_outcome {paused : Bool} :
    Outcome (NotForSpace host supervisor) (Kept host.keysInOrder supervisor)
      (setPaused host paused supervisor) := by
  have same : headroomBytes host.keysInOrder { supervisor.state with paused := paused } =
    headroomBytes host.keysInOrder supervisor.state := rfl
  have outcome := @persist_outcome host supervisor supervisor
    { supervisor.state with paused := paused } sound.jobs same.le
  unfold setPaused
  split
  · exact .ok ⟨sound, le_rfl⟩
  · refine outcome.imp fun after written => ?_
    rw [written]
    exact ⟨⟨sound.jobs, sound.active⟩, same.le⟩

theorem deleteHistory_outcome :
    Outcome (NotForSpace host supervisor) (Kept host.keysInOrder supervisor)
      (deleteHistory host now id supervisor) := by
  unfold deleteHistory
  cases present : supervisor.state.job? id with
  | none => exact .error fun _ message same => by cases same
  | some row =>
      have named := id_of_job? present
      have found : supervisor.state.job? row.id = some row := by rw [named, present]
      have soundRow := sound.jobs row (mem_of_job? present)
      dsimp only
      split
      · exact .error fun _ message same => by cases same
      next terminal =>
        have finished : row.state.pending = false := by
          cases state : row.state <;> simp_all [JobState.pending]
        split
        · next kept =>
            obtain ⟨history, kept⟩ := Option.isSome_iff_exists.mp kept
            have retained : row.retained = some (some history) :=
              Option.join_eq_some_iff.mp kept
            rw [← named]
            refine (update_outcome sound.jobs found fun instant formed => ?_).imp ?_
            · refine follows_deleted soundRow finished kept formed rfl ?_ contextBytes_none_le
              simp only [DurableJob.bare, DurableJob.withoutContext, Option.map_map, retained]
              rfl
            · rintro after ⟨instant, _, step⟩
              refine ⟨⟨step.jobs sound.jobs, fun job member => ?_⟩, step.room⟩
              rw [step.active] at member
              refine step.owned (fun same => ?_) (sound.active job member)
              obtain ⟨owner, owned, dispatching, _⟩ := sound.active job member
              rw [same, found] at owned
              obtain rfl := Option.some.inj owned
              rw [dispatching] at finished
              cases finished
        · exact .ok ⟨sound, le_rfl⟩

end

/-! A new owner. -/

theorem assertStateHeadroom_ok {state : DurableState} :
    assertStateHeadroom keysInOrder state = .ok () ↔
      headroomBytes keysInOrder state ≤ maxStateBytes := by
  rw [assertStateHeadroom]
  split
  · next full =>
      constructor
      · intro same
        cases same
      · intro room
        omega
  · next within => exact ⟨fun _ => by omega, fun _ => rfl⟩

theorem recoverJob_outcome {state : DurableState} {attempts : Attempts} {job : DurableJob}
    (sound : SoundJob job) :
    Outcome (NotForSpace host supervisor) (Follows host.keysInOrder job)
      (recoverJob host now state attempts job) := by
  have evidence := @receiptFor_outcome host supervisor state job attempts
  unfold recoverJob
  split
  · exact .ok (Follows.refl sound)
  next still =>
    have pending : job.state.pending = true := by simpa using still
    dsimp only
    split
    · next thrown answered =>
        rw [answered] at evidence
        split
        · refine (touched_outcome now job.updatedAt).bind fun instant formed => ?_
          exact .ok (follows_recovered sound pending (by simp) (by decide) formed)
        · exact .error (Outcome.error_iff.mp evidence)
    · next receipt answered =>
        rw [answered] at evidence
        split
        · exact .ok (Follows.refl sound)
        · refine (touched_outcome now job.updatedAt).bind fun instant formed => ?_
          exact .ok (follows_recovered sound pending (Outcome.ok_iff.mp evidence) (by decide)
            formed)

theorem restart_outcome (sound : Sound supervisor) :
    Outcome (NotForSpace host supervisor) (Kept host.keysInOrder supervisor)
      (restart host now attempts supervisor) := by
  have recovered : Outcome (NotForSpace host supervisor) (Kept host.keysInOrder supervisor) (do
      let jobs ← supervisor.state.jobs.mapM (recoverJob host now supervisor.state attempts)
      persist host { supervisor.state with jobs := jobs } { supervisor with active := [] }) := by
    refine (Outcome.mapM fun job member =>
      @recoverJob_outcome host now supervisor supervisor.state attempts job
        (sound.jobs job member)).bind fun jobs follows => ?_
    have fits : headroomBytes host.keysInOrder { supervisor.state with jobs := jobs } ≤
        headroomBytes host.keysInOrder supervisor.state :=
      headroomBytes_le rfl (follows.flip.imp fun _ _ next => next.room)
    have each : ∀ job ∈ jobs, SoundJob job := by
      intro job member
      obtain ⟨before, _, next⟩ := exists_of_forall₂ follows member
      exact next.sound
    have outcome := @persist_outcome host supervisor { supervisor with active := [] }
      { supervisor.state with jobs := jobs } each fits
    refine outcome.imp fun after written => ?_
    rw [written]
    exact ⟨⟨each, by simp⟩, fits⟩
  have refused : Outcome (NotForSpace host supervisor) (fun _ => True)
      (assertStateHeadroom host.keysInOrder supervisor.state) := by
    unfold assertStateHeadroom
    split
    · next full => exact .error fun fits => by omega
    · exact .ok trivial
  unfold restart
  split
  · exact refused.bind fun _ _ => recovered
  · exact recovered

end AshlrHub.Supervisor

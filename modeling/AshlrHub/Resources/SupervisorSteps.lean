import AshlrHub.Resources.Supervisor
import AshlrHub.Resources.SupervisorBytes

namespace AshlrHub.Supervisor

open Js Artifacts Authority Resources Lib

/-! What a transition does to the row of its job: the row stays sound and needs no more room. -/

structure SoundJob (job : DurableJob) : Prop extends SoundMetadata job where
  workers : ∀ workerId ∈ job.allowedWorkerIds, identifier workerId = true
  pending : job.input.isSome = job.state.pending
  uncaptured : job.state.pending = true → ∀ history ∈ job.history, history.output = none

structure Follows (keysInOrder : JsString → JsString → Bool) (before after : DurableJob) :
    Prop where
  id : after.id = before.id
  sound : SoundJob after
  room : jobReserve keysInOrder after ≤ jobReserve keysInOrder before

variable {keysInOrder : JsString → JsString → Bool}

variable {job : DurableJob}

theorem Follows.refl (sound : SoundJob job) : Follows keysInOrder job job :=
  ⟨rfl, sound, le_rfl⟩

theorem exists_input (sound : SoundJob job)
    (pending : job.state.pending = true) : ∃ input, job.input = some input :=
  Option.isSome_iff_exists.mp (sound.pending.trans pending)

theorem SoundJob.within {job : DurableJob} (sound : SoundJob job) :
    jobBytes keysInOrder job ≤ jobReserve keysInOrder job := by
  cases present : job.input with
  | none => exact le_of_eq (jobReserve_none present).symm
  | some input =>
      have pending : job.state.pending = true := by
        rw [← sound.pending, present]
        rfl
      refine jobBytes_le_reserve present rfl sound.toSoundMetadata le_rfl ?_
      have kept := @retainedBytes_uncaptured keysInOrder job input present
        (sound.uncaptured pending)
      omega

section

variable {row after : DurableJob} (sound : SoundJob row)
include sound

section

variable (pending : row.state.pending = true) (metadata : SoundMetadata after)
include pending metadata

theorem follows_pending (still : after.state.pending = true)
    (same : after = { row with
      state := after.state, workerId := after.workerId, outcome := after.outcome,
      reason := after.reason, updatedAt := after.updatedAt }) :
    Follows keysInOrder row after := by
  obtain ⟨input, present⟩ := exists_input sound pending
  have inputs : after.input = row.input := by rw [same]
  have retained : after.retained = row.retained := by rw [same]
  have workers : after.allowedWorkerIds = row.allowedWorkerIds := by rw [same]
  have enveloped : envelopeJob after = envelopeJob row := by
    rw [same]
    simp only [envelopeJob, present]
  have future : futureOutputBytes after = futureOutputBytes row := by
    rw [futureOutputBytes, futureOutputBytes, DurableJob.history, DurableJob.history, inputs,
      retained]
  refine ⟨by rw [same], { metadata with workers := ?_, pending := ?_, uncaptured := ?_ }, ?_⟩
  · rw [workers]
    exact sound.workers
  · rw [inputs, sound.pending, pending, still]
  · intro _ history kept
    rw [DurableJob.history, retained] at kept
    exact sound.uncaptured pending history kept
  · rw [jobReserve, jobReserve, enveloped, future]

theorem follows_closed (closed : after.state.pending = false) (dropped : after.input = none)
    (same : after.bare = row.bare)
    (context : contextBytes keysInOrder after.continuation ≤
      contextBytes keysInOrder row.continuation + 2)
    (history : retainedBytes keysInOrder after.retained ≤
      retainedBytes keysInOrder (envelopeJob row).retained + futureOutputBytes row) :
    Follows keysInOrder row after := by
  obtain ⟨input, present⟩ := exists_input sound pending
  have id : after.id = row.id := congrArg (·.id) same
  have workers : after.allowedWorkerIds = row.allowedWorkerIds :=
    congrArg (·.allowedWorkerIds) same
  refine ⟨id, { metadata with workers := ?_, pending := ?_, uncaptured := ?_ }, ?_⟩
  · rw [workers]
    exact sound.workers
  · rw [dropped, closed]
    rfl
  · intro still
    rw [closed] at still
    cases still
  · have private_ := @seven_le_inputBytes keysInOrder input
    rw [jobReserve_none dropped]
    refine jobBytes_le_reserve present same metadata ?_ history
    rw [dropped, inputBytes_none, present]
    omega

end

theorem follows_deleted {history : TaskHistory}
    (finished : row.state.pending = false) (kept : row.history = some history)
    (formed : isCanonicalInstant after.updatedAt = true)
    (same : after = { row with
      continuation := after.continuation, retained := some none, updatedAt := after.updatedAt })
    (stage : after.bare = row.bare)
    (context : contextBytes keysInOrder after.continuation ≤
      contextBytes keysInOrder row.continuation + 2) :
    Follows keysInOrder row after := by
  have retained : row.retained = some (some history) := Option.join_eq_some_iff.mp kept
  have dropped : row.input = none := by
    have absent := sound.pending
    rw [finished] at absent
    exact Option.not_isSome_iff_eq_none.mp (by rw [absent]; exact Bool.false_ne_true)
  have stages := @jobBytes_of_bare keysInOrder row after stage
  have old := (@instantBytes keysInOrder _ sound.updatedAt).1
  have new := (@instantBytes keysInOrder _ formed).2
  have prompt := @two_le_bytes_str keysInOrder history.prompt
  have text := @historyBytes keysInOrder history
  generalize after.continuation = continuation at same context stages
  generalize after.updatedAt = instant at same formed new stages
  subst same
  refine ⟨rfl, ⟨⟨sound.worker, sound.reason, formed⟩, sound.workers, sound.pending, ?_⟩, ?_⟩
  · intro still
    exact absurd (finished.symm.trans still) Bool.false_ne_true
  · rw [jobReserve_none dropped]
    refine le_trans (le_of_eq (jobReserve_none dropped)) ?_
    simp only [changingBytes, metadataBytes, retainedBytes, retained, Option.map_some,
      Option.getD_some, Artifacts.nullable, canonicalBytes_null] at stages text ⊢
    omega

end

/-! One transition of a sound supervisor: the next state is sound, needs no more room, and was not
refused for lack of it. -/

/-- The row is the one that `start` took the task from. -/
def Owned (state : DurableState) (job : DurableJob) : Prop :=
  ∃ row, state.job? job.id = some row ∧ row.state = .dispatching ∧ row.input = job.input ∧
    row.allowedWorkerIds = job.allowedWorkerIds

structure Sound (supervisor : ResourcePoolSupervisor) : Prop where
  jobs : ∀ job ∈ supervisor.state.jobs, SoundJob job
  active : ∀ job ∈ supervisor.active, Owned supervisor.state job

def NotForSpace (host : SupervisorHost) (supervisor : ResourcePoolSupervisor) (thrown : Thrown) :
    Prop :=
  headroomBytes host.keysInOrder supervisor.state ≤ maxStateBytes →
    ∀ message, thrown ≠ .supervisor .capacity message

structure Advances (keysInOrder : JsString → JsString → Bool) (row next : DurableJob)
    (before after : ResourcePoolSupervisor) : Prop where
  found : before.state.job? row.id = some row
  follows : Follows keysInOrder row next
  state : after.state = { before.state with jobs := replaceJob row.id next before.state.jobs }
  active : after.active = before.active

/-! Rows in a list. -/

section

variable {state : DurableState} {id : JsString} {row : DurableJob}
  (found : state.job? id = some row)
include found

theorem id_of_job? : row.id = id := by
  simpa using List.find?_some found

theorem mem_of_job? : row ∈ state.jobs :=
  List.mem_of_find?_eq_some found

end

theorem mem_replaceJob {id : JsString} {next job : DurableJob} {jobs : List DurableJob}
    (member : job ∈ replaceJob id next jobs) : job = next ∨ job ∈ jobs := by
  induction jobs with
  | nil => cases member
  | cons first jobs ih =>
      rw [replaceJob] at member
      split at member
      · obtain rfl | later := List.mem_cons.mp member
        · exact .inl rfl
        · exact .inr (List.mem_cons_of_mem first later)
      · obtain rfl | later := List.mem_cons.mp member
        · exact .inr List.mem_cons_self
        · exact (ih later).imp_right (List.mem_cons_of_mem first)

theorem find?_replaceJob {id other : JsString} {row next : DurableJob} {jobs : List DurableJob}
    (found : jobs.find? (·.id = id) = some row) (named : next.id = id) :
    (replaceJob id next jobs).find? (·.id = other) =
      if other = id then some next else jobs.find? (·.id = other) := by
  induction jobs with
  | nil => cases found
  | cons first jobs ih =>
      rw [replaceJob]
      by_cases same : first.id = id
      · rw [if_pos same]
        by_cases asked : other = id
        · rw [if_pos asked, List.find?_cons_of_pos (by simp [named, asked])]
        · have another : ¬ id = other := fun equal => asked equal.symm
          rw [if_neg asked, List.find?_cons_of_neg (by simp [named, another]),
            List.find?_cons_of_neg (by simp [same, another])]
      · rw [List.find?_cons_of_neg (by simp [same])] at found
        rw [if_neg same]
        by_cases asked : first.id = other
        · have another : ¬ other = id := fun equal => same (asked.trans equal)
          rw [List.find?_cons_of_pos (by simp [asked]), if_neg another,
            List.find?_cons_of_pos (by simp [asked])]
        · rw [List.find?_cons_of_neg (by simp [asked]), ih found,
            List.find?_cons_of_neg (by simp [asked])]

theorem forall₂_replaceJob {id : JsString} {row next : DurableJob} {jobs : List DurableJob}
    (found : jobs.find? (·.id = id) = some row) (follows : Follows keysInOrder row next) :
    List.Forall₂ (fun after before => jobReserve keysInOrder after ≤ jobReserve keysInOrder before)
      (replaceJob id next jobs) jobs := by
  induction jobs with
  | nil => cases found
  | cons first jobs ih =>
      rw [replaceJob]
      by_cases same : first.id = id
      · rw [List.find?_cons_of_pos (by simp [same])] at found
        obtain rfl := Option.some.inj found
        rw [if_pos same]
        exact .cons follows.room (List.forall₂_same.mpr fun _ _ => le_rfl)
      · rw [List.find?_cons_of_neg (by simp [same])] at found
        rw [if_neg same]
        exact .cons le_rfl (ih found)

namespace Advances

variable {row next : DurableJob} {before after : ResourcePoolSupervisor}

section

variable (step : Advances keysInOrder row next before after)
include step

theorem jobs (sound : ∀ job ∈ before.state.jobs, SoundJob job) :
    ∀ job ∈ after.state.jobs, SoundJob job := by
  rw [step.state]
  intro job member
  obtain rfl | kept := mem_replaceJob member
  · exact step.follows.sound
  · exact sound job kept

theorem room :
    headroomBytes keysInOrder after.state ≤ headroomBytes keysInOrder before.state := by
  rw [step.state]
  exact headroomBytes_le rfl (forall₂_replaceJob step.found step.follows)

theorem job? (id : JsString) :
    after.state.job? id = if id = row.id then some next else before.state.job? id := by
  rw [step.state]
  exact find?_replaceJob step.found step.follows.id

theorem owned
    (other : job.id ≠ row.id) (owned : Owned before.state job) : Owned after.state job := by
  rw [Owned, step.job?, if_neg other]
  exact owned

theorem owned_same (dispatching : next.state = .dispatching) (input : next.input = row.input)
    (workers : next.allowedWorkerIds = row.allowedWorkerIds)
    (owned : Owned before.state job) : Owned after.state job := by
  by_cases same : job.id = row.id
  · obtain ⟨owner, found, -, inputs, allowed⟩ := owned
    rw [same, step.found] at found
    obtain rfl := Option.some.inj found
    rw [Owned, step.job?, if_pos same]
    exact ⟨next, rfl, dispatching, input.trans inputs, workers.trans allowed⟩
  · exact step.owned same owned

end

end Advances

/-! `update` -/

variable {host : SupervisorHost} {now : Clock} {supervisor : ResourcePoolSupervisor}

theorem touched_outcome (now : Clock) (updatedAt : JsString) :
    Outcome (NotForSpace host supervisor) (fun instant => isCanonicalInstant instant = true)
      (touched now updatedAt) := by
  rw [touched]
  cases found : (dateParse updatedAt).bind fun last => toISOString (max now.val last) with
  | none => exact .error fun _ message same => by cases same
  | some instant =>
      obtain ⟨last, -, formatted⟩ := Option.bind_eq_some_iff.mp found
      exact .ok (isCanonicalInstant_iff.mpr ⟨_, formatted⟩)

theorem persist_outcome {writer : ResourcePoolSupervisor} {next : DurableState}
    (sound : ∀ job ∈ next.jobs, SoundJob job)
    (room : headroomBytes host.keysInOrder next ≤ headroomBytes host.keysInOrder supervisor.state) :
    Outcome (NotForSpace host supervisor) (· = { writer with state := next })
      (persist host next writer) := by
  by_cases full : maxStateBytes < (stateFile host.keysInOrder next).length
  · rw [persist, if_pos full]
    refine .error fun fits => ?_
    have small := length_stateFile_le_headroom fun job member =>
      @SoundJob.within host.keysInOrder job (sound job member)
    omega
  · rw [persist, if_neg full]
    exact .ok rfl

theorem update_outcome {row : DurableJob} {patch : DurableJob → DurableJob}
    (sound : ∀ job ∈ supervisor.state.jobs, SoundJob job)
    (found : supervisor.state.job? row.id = some row)
    (follows : ∀ instant, isCanonicalInstant instant = true →
      Follows host.keysInOrder row { patch row with updatedAt := instant }) :
    Outcome (NotForSpace host supervisor)
      (fun after => ∃ instant, isCanonicalInstant instant = true ∧
        Advances host.keysInOrder row { patch row with updatedAt := instant } supervisor after)
      (update host now row.id patch supervisor) := by
  rw [update, found]
  refine (touched_outcome now row.updatedAt).bind fun instant formed => ?_
  let written : DurableState := { supervisor.state with
    jobs := replaceJob row.id { patch row with updatedAt := instant } supervisor.state.jobs }
  have step : Advances host.keysInOrder row { patch row with updatedAt := instant } supervisor
      { supervisor with state := written } :=
    ⟨found, follows instant formed, rfl, rfl⟩
  have outcome := @persist_outcome host supervisor supervisor written (step.jobs sound) step.room
  refine outcome.imp fun after same => ?_
  rw [same]
  exact ⟨instant, formed, step⟩

end AshlrHub.Supervisor

import AshlrHub.Resources.SupervisorTransitions

namespace AshlrHub.Supervisor

open Js Artifacts Authority Resources Lib

/-! Runs of a supervisor: once `assertStateHeadroom` has accepted its state, no transition fails for
lack of space. -/

inductive Event where
  | submit (hold : Option Hold) (attempts : Attempts) (value : ResourceConsoleTaskInput)
  | pump (id : JsString) (attempts : Attempts) (hold : Option Hold)
  | reserved (id : JsString) (attempts : Attempts)
  | finish (id : JsString) (result : TaskResult)
  | cancel (id : JsString)
  | setPaused (paused : Bool)
  | deleteHistory (id : JsString)
  | restart (attempts : Attempts)

def Event.isSubmission : Event → Bool
  | .submit .. => true
  | _ => false

def step (host : SupervisorHost) (now : Clock) (event : Event)
    (supervisor : ResourcePoolSupervisor) : Except Thrown ResourcePoolSupervisor :=
  match event with
  | .submit hold attempts value => submit host now hold attempts value supervisor
  | .pump id attempts hold => pump host now id attempts hold supervisor
  | .reserved id attempts => reserved host now id attempts supervisor
  | .finish id result => finish host now id result supervisor
  | .cancel id => cancel host now id supervisor
  | .setPaused paused => setPaused host paused supervisor
  | .deleteHistory id => deleteHistory host now id supervisor
  | .restart attempts => restart host now attempts supervisor

def after (host : SupervisorHost) (supervisor : ResourcePoolSupervisor)
    (event : Clock × Event) : ResourcePoolSupervisor :=
  match step host event.1 event.2 supervisor with
  | .ok next => next
  | .error _ => supervisor

def run (host : SupervisorHost) (supervisor : ResourcePoolSupervisor)
    (events : List (Clock × Event)) : ResourcePoolSupervisor :=
  events.foldl (after host) supervisor

variable {host : SupervisorHost} {now : Clock} {supervisor : ResourcePoolSupervisor}

/-! Submissions. -/

theorem taskInput_outcome {workerIds : List JsString}
    {projects : Option (List ResourceConsoleProjectBinding)} {value : ResourceConsoleTaskInput} :
    Outcome (fun _ => True)
      (fun input => ∀ workerId ∈ input.allowedWorkerIds, identifier workerId = true)
      (taskInput host workerIds projects value) := by
  unfold taskInput
  dsimp only
  split
  · exact .error trivial
  · split
    · next valid =>
        simp only [Bool.and_eq_true, validateResourceTask, runtimeTask] at valid
        exact .ok (List.all_eq_true.mp valid.1.2.1.1.1.1.1.1.2)
    · exact .error trivial

theorem admission_outcome {hold : Option Hold} {attempts : Attempts}
    {input : ResourceConsoleTaskInput} {state : DurableState} :
    Outcome (fun _ => True)
      (fun next => ∃ instant taskDigest context, isCanonicalInstant instant = true ∧
        next = withJob state input (newJob host state instant input taskDigest context))
      (admission host now hold attempts input state) := by
  have anything {α : Type} (result : Except Thrown α) :
      Outcome (fun _ => True) (fun _ => True) result :=
    .of_forall (fun _ => trivial) fun _ => trivial
  unfold admission
  cases hold with
  | some hold =>
      change Outcome (fun _ => True) _ (.error (Thrown.supervisor .unavailable hold.text))
      exact .error trivial
  | none =>
      refine .check (fun _ => trivial) fun _ => ?_
      refine (anything _).bind fun context _ => ?_
      refine (anything _).bind fun task _ => ?_
      refine .check (fun _ => trivial) fun _ => ?_
      cases formatted : toISOString now.val with
      | none => exact .error trivial
      | some instant =>
          exact .ok ⟨instant, _, context, isCanonicalInstant_iff.mpr ⟨_, formatted⟩, rfl⟩

theorem soundJob_newJob {state : DurableState} {instant taskDigest : JsString}
    {input : ResourceConsoleTaskInput} {context : Option (List ResourceConsoleContextTurn)}
    (workers : ∀ workerId ∈ input.allowedWorkerIds, identifier workerId = true)
    (formed : isCanonicalInstant instant = true) :
    SoundJob (newJob host state instant input taskDigest context) where
  worker workerId none := by cases none
  reason reason none := by cases none
  updatedAt := formed
  workers := workers
  pending := rfl
  uncaptured _ history kept := by
    have retained := Option.join_eq_some_iff.mp kept
    simp only [newJob] at retained
    split at retained
    · obtain rfl := Option.some.inj (Option.some.inj retained)
      rfl
    · cases retained

theorem sound_withJob {input : ResourceConsoleTaskInput} {job : DurableJob}
    (sound : Sound supervisor) (new : SoundJob job) :
    Sound { supervisor with state := withJob supervisor.state input job } where
  jobs other member := by
    obtain earlier | last := List.mem_append.mp member
    · exact sound.jobs other earlier
    · obtain rfl := List.mem_singleton.mp last
      exact new
  active owner member := by
    obtain ⟨row, found, rest⟩ := sound.active owner member
    refine ⟨row, ?_, rest⟩
    rw [DurableState.job?] at found
    rw [DurableState.job?, withJob, List.find?_append, found]
    rfl

theorem assertStateHeadroom_outcome {next : DurableState} :
    Outcome (fun _ => True)
      (fun _ => headroomBytes host.keysInOrder next ≤ maxStateBytes)
      (assertStateHeadroom host.keysInOrder next) := by
  unfold assertStateHeadroom
  split
  · exact .error trivial
  · next fits => exact .ok (by omega)

theorem submit_outcome {hold : Option Hold} {attempts : Attempts}
    {value : ResourceConsoleTaskInput} (sound : Sound supervisor) :
    Outcome (fun _ => True)
      (fun next => Sound next ∧ (next = supervisor ∨
        headroomBytes host.keysInOrder next.state ≤ maxStateBytes))
      (submit host now hold attempts value supervisor) := by
  have anything {α : Type} (result : Except Thrown α) :
      Outcome (fun _ => True) (fun _ => True) result :=
    .of_forall (fun _ => trivial) fun _ => trivial
  unfold submit
  cases present : supervisor.state.job? value.id with
  | some previous =>
      refine (anything _).bind fun epoch _ => ?_
      refine (anything _).bind fun input _ => ?_
      refine (anything _).bind fun _ _ => ?_
      exact .ok ⟨sound, .inl rfl⟩
  | none =>
      refine taskInput_outcome.bind fun input workers => ?_
      refine admission_outcome.bind fun next admitted => ?_
      obtain ⟨instant, taskDigest, context, formed, rfl⟩ := admitted
      refine assertStateHeadroom_outcome.bind fun _ room => ?_
      have new := @soundJob_newJob host supervisor.state instant taskDigest input context workers
        formed
      have kept := @sound_withJob supervisor input _ sound new
      rw [persist]
      split
      · exact .error trivial
      · exact .ok ⟨kept, .inr room⟩

/-! Runs. -/

def Roomy (host : SupervisorHost) (supervisor : ResourcePoolSupervisor) : Prop :=
  headroomBytes host.keysInOrder supervisor.state ≤ maxStateBytes

theorem transition_outcome {event : Event} (transition : event.isSubmission = false)
    (sound : Sound supervisor) :
    Outcome (NotForSpace host supervisor) (Kept host.keysInOrder supervisor)
      (step host now event supervisor) := by
  cases event with
  | submit hold attempts value => cases transition
  | pump id attempts hold => exact pump_outcome sound
  | reserved id attempts => exact reserved_outcome sound
  | finish id result => exact finish_outcome sound
  | cancel id => exact cancel_outcome sound
  | setPaused paused => exact setPaused_outcome sound
  | deleteHistory id => exact deleteHistory_outcome sound
  | restart attempts => exact restart_outcome sound

theorem step_kept {event : Event} {next : ResourcePoolSupervisor} (sound : Sound supervisor)
    (taken : step host now event supervisor = .ok next) :
    Sound next ∧ (Roomy host supervisor → Roomy host next) := by
  cases submission : event.isSubmission with
  | false =>
      have outcome := @transition_outcome host now supervisor event submission sound
      rw [taken] at outcome
      have kept := Outcome.ok_iff.mp outcome
      exact ⟨kept.sound, fun roomy => kept.room.trans roomy⟩
  | true =>
      cases event with
      | submit hold attempts value =>
          have outcome := @submit_outcome host now supervisor hold attempts value sound
          rw [← step, taken] at outcome
          obtain ⟨kept, same | room⟩ := Outcome.ok_iff.mp outcome
          · rw [same]
            exact ⟨sound, id⟩
          · exact ⟨kept, fun _ => room⟩
      | _ => cases submission

theorem after_kept (event : Clock × Event) (sound : Sound supervisor) :
    Sound (after host supervisor event) ∧
      (Roomy host supervisor → Roomy host (after host supervisor event)) := by
  unfold after
  cases taken : step host event.1 event.2 supervisor with
  | ok next => exact step_kept sound taken
  | error thrown => exact ⟨sound, id⟩

theorem run_kept (events : List (Clock × Event)) (sound : Sound supervisor) :
    Sound (run host supervisor events) ∧
      (Roomy host supervisor → Roomy host (run host supervisor events)) := by
  induction events generalizing supervisor with
  | nil => exact ⟨sound, id⟩
  | cons event events ih =>
      obtain ⟨next, room⟩ := @after_kept host supervisor event sound
      obtain ⟨kept, roomy⟩ := ih next
      exact ⟨kept, roomy ∘ room⟩

/-- Take any state that decodes, and whatever becomes of it, submissions and restarts included:
once its headroom has been asserted, whatever follows leaves it within `MAX_STATE_BYTES`, and no
transition of a job is refused for lack of capacity. -/
theorem run_fits (host : SupervisorHost) {state : DurableState}
    (checked : ∀ job ∈ state.jobs, SoundJob job) (earlier : List (Clock × Event))
    (accepted : assertStateHeadroom host.keysInOrder (run host ⟨state, []⟩ earlier).state = .ok ())
    (later : List (Clock × Event)) :
    (stateFile host.keysInOrder (run host (run host ⟨state, []⟩ earlier) later).state).length ≤
        maxStateBytes ∧
      ∀ (now : Clock) (event : Event), event.isSubmission = false → ∀ message,
        step host now event (run host (run host ⟨state, []⟩ earlier) later) ≠
          .error (.supervisor .capacity message) := by
  have opened : Sound ⟨state, []⟩ := ⟨checked, by simp⟩
  have reached := (@run_kept host ⟨state, []⟩ earlier opened).1
  obtain ⟨sound, roomy⟩ := @run_kept host _ later reached
  have room := roomy (assertStateHeadroom_ok.mp accepted)
  constructor
  · exact (length_stateFile_le_headroom fun job member =>
      (sound.jobs job member).within).trans room
  · intro now event transition message refused
    have outcome := @transition_outcome host now _ event transition sound
    rw [refused] at outcome
    exact Outcome.error_iff.mp outcome room message rfl

/-! A task whose output is kept. -/

def consoleHost : SupervisorHost where
  keysInOrder first second := first ≤ second
  workspace := js "/work"
  epoch := ⟨js "pool", js "scope", [js "local-a"]⟩
  epochs := [⟨js "pool", js "scope", [js "local-a"]⟩]
  maxParallel := 4
  maxQueued := 64

def queuedTask : DurableJob where
  id := js "task-a"
  state := .queued
  enqueuedAt := js "2026-01-01T00:00:00.000Z"
  updatedAt := js "2026-01-01T00:00:00.000Z"
  allowedWorkerIds := [js "local-a"]
  readOnly := true
  workerId := none
  outcome := none
  reason := none
  taskDigest := js "digest"
  input := some ⟨js "task-a", js "Say hello.", [js "local-a"], true, 1000, 16, true, none, none⟩
  projectId := none
  originPoolDigest := none
  continuation := none
  retained := some (some ⟨js "Say hello.", none⟩)

def queuedState : DurableState where
  schemaVersion := 2
  scopeDigest := js "scope"
  paused := false
  jobs := [queuedTask]
  projects := none
  originPoolDigest := none

def helloReceipt : ResourceTaskReceipt where
  id := js "task-a"
  taskDigest := js "digest"
  poolDigest := js "pool"
  workerId := js "local-a"
  capacityKey := js "local-a"
  status := .completed
  startedAt := js "2026-01-01T00:00:01.000Z"
  finishedAt := some (js "2026-01-01T00:00:02.000Z")
  outputDigest := some (js "digest")
  inputTokens := none
  outputTokens := none
  reason := js "task-completed"
  origin := none
  execution := none
  nativeProcess := none

def noAttempts : Attempts := ⟨[], by simp⟩

def helloAttempts : Attempts := ⟨[helloReceipt], by
  intro receipt member
  obtain rfl := List.mem_singleton.mp member
  decide⟩

def helloEvents : List (Clock × Event) :=
  [(⟨1767225601000, by decide⟩, .pump (js "task-a") noAttempts none),
    (⟨1767225602000, by decide⟩,
      .finish (js "task-a") (.served helloAttempts (some [0x00, 0x1B, 0xD800])))]

theorem queuedState_checked : ∀ job ∈ queuedState.jobs, SoundJob job := by
  intro job member
  obtain rfl := List.mem_singleton.mp member
  exact
    { worker := fun _ none => by cases none
      reason := fun _ none => by cases none
      updatedAt := by decide +kernel
      workers := by decide
      pending := rfl
      uncaptured := fun _ history kept => by
        obtain rfl := Option.some.inj kept
        rfl }

theorem run_fits_hello :
    (stateFile consoleHost.keysInOrder
      (run consoleHost (run consoleHost ⟨queuedState, []⟩ []) helloEvents).state).length ≤
        maxStateBytes :=
  (run_fits consoleHost queuedState_checked []
    (assertStateHeadroom_ok.mpr (by decide +kernel)) helloEvents).1

/-- In every state of a run: what is being dispatched is a stored row in dispatch with the same
input, and exactly the pending rows keep an input, without an earlier output beside it. -/
theorem run_owned (host : SupervisorHost) {state : DurableState}
    (checked : ∀ job ∈ state.jobs, SoundJob job) (events : List (Clock × Event)) :
    (∀ job ∈ (run host ⟨state, []⟩ events).active,
      ∃ row, (run host ⟨state, []⟩ events).state.job? job.id = some row ∧
        row.state = .dispatching ∧ row.input = job.input ∧
          row.allowedWorkerIds = job.allowedWorkerIds) ∧
      ∀ job ∈ (run host ⟨state, []⟩ events).state.jobs,
        job.input.isSome = job.state.pending ∧
          (job.state.pending = true → ∀ history ∈ job.history, history.output = none) := by
  have sound := (@run_kept host ⟨state, []⟩ events ⟨checked, by simp⟩).1
  exact ⟨sound.active, fun job member =>
    ⟨(sound.jobs job member).pending, (sound.jobs job member).uncaptured⟩⟩

theorem run_owned_hello : helloEvents ≠ [] ∧
    ∀ job ∈ (run consoleHost ⟨queuedState, []⟩ helloEvents).state.jobs,
      job.input.isSome = job.state.pending :=
  ⟨nofun, fun job member =>
    ((run_owned consoleHost queuedState_checked helloEvents).2 job member).1⟩

end AshlrHub.Supervisor

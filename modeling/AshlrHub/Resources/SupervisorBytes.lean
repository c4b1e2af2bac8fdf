import AshlrHub.Resources.SupervisorState

namespace AshlrHub.Supervisor

open Js Artifacts Authority Resources

/-! How many bytes a job takes: what may still change of it, over what may not. -/

def DurableJob.bare (job : DurableJob) : DurableJob :=
  { job.withoutContext with
    state := .queued
    updatedAt := []
    workerId := none
    outcome := none
    reason := none
    input := none
    retained := job.retained.map fun _ => none }

section

variable (keysInOrder : JsString → JsString → Bool)

def contextBytes (continuation : Option Continuation) : ℕ :=
  (continuation.map fun continuation =>
    canonicalBytes keysInOrder (nullable contextJson continuation.context)).getD 0

def retainedBytes (retained : Option (Option TaskHistory)) : ℕ :=
  (retained.map fun history => canonicalBytes keysInOrder (nullable (·.json) history)).getD 0

def inputBytes (input : Option ResourceConsoleTaskInput) : ℕ :=
  canonicalBytes keysInOrder (nullable (·.json) input)

def metadataBytes (job : DurableJob) : ℕ :=
  canonicalBytes keysInOrder (.str job.state.text) +
    canonicalBytes keysInOrder (.str job.updatedAt) +
    canonicalBytes keysInOrder (nullable .str job.workerId) +
    canonicalBytes keysInOrder (outcomeJson job.outcome) +
    canonicalBytes keysInOrder (nullable .str job.reason)

def changingBytes (job : DurableJob) : ℕ :=
  metadataBytes keysInOrder job + inputBytes keysInOrder job.input +
    contextBytes keysInOrder job.continuation + retainedBytes keysInOrder job.retained

/-- `Buffer.byteLength(canonical(job))` -/
def jobBytes (job : DurableJob) : ℕ :=
  canonicalBytes keysInOrder job.json

end

variable {keysInOrder : JsString → JsString → Bool}

theorem jobBytes_bare (job : DurableJob) :
    jobBytes keysInOrder job + changingBytes keysInOrder job.bare =
      jobBytes keysInOrder job.bare + changingBytes keysInOrder job := by
  simp only [jobBytes, DurableJob.json, canonicalBytes_obj, List.map_append, List.sum_append,
    List.map_cons, List.sum_cons, List.map_nil, List.sum_nil, memberSize, changingBytes,
    metadataBytes, inputBytes, DurableJob.bare, DurableJob.withoutContext]
  cases job.continuation <;> cases job.retained <;>
    simp only [contextBytes, retainedBytes, Option.map_none, Option.map_some, Option.getD_none,
      Option.getD_some, Continuation.members, retainedMembers, List.map_cons, List.sum_cons,
      List.map_nil, List.sum_nil, memberSize] <;>
    omega

theorem jobBytes_of_bare {before after : DurableJob} (same : after.bare = before.bare) :
    jobBytes keysInOrder after + changingBytes keysInOrder before =
      jobBytes keysInOrder before + changingBytes keysInOrder after := by
  have first := @jobBytes_bare keysInOrder before
  have second := @jobBytes_bare keysInOrder after
  rw [same] at second
  omega

/-! Bounds of the parts. -/

theorem isPlain_of_isLowerAlphanumeric {unit : CodeUnit}
    (allowed : isLowerAlphanumeric unit = true) : isPlain unit = true := by
  simp only [isLowerAlphanumeric, isDigit, isLower, Bool.or_eq_true, Bool.and_eq_true,
    decide_eq_true_eq] at allowed
  simp only [isPlain, Bool.and_eq_true, decide_eq_true_eq]
  refine ⟨⟨⟨by omega, by omega⟩, ?_⟩, ?_⟩ <;>
  · rintro rfl
    revert allowed
    decide

theorem identifier_plain {text : JsString} (valid : identifier text = true) :
    text.all isPlain = true ∧ text.length ≤ 64 := by
  cases text with
  | nil => cases valid
  | cons first rest =>
      simp only [identifier, headThenUpTo, Bool.and_eq_true, decide_eq_true_eq] at valid
      obtain ⟨⟨head, short⟩, tail⟩ := valid
      refine ⟨List.all_eq_true.mpr fun unit member => ?_, Nat.succ_le_succ short⟩
      obtain rfl | later := List.mem_cons.mp member
      · exact isPlain_of_isLowerAlphanumeric head
      · have allowed := List.all_eq_true.mp tail unit later
        rw [Bool.or_eq_true] at allowed
        obtain letter | mark := allowed
        · exact isPlain_of_isLowerAlphanumeric letter
        · have marks : (js "_-").all isPlain = true := by decide
          exact List.all_eq_true.mp marks unit (List.contains_iff_mem.mp mark)

theorem validReason_plain {reason : JsString} (valid : validReason reason = true) :
    reason.all isPlain = true ∧ reason.length ≤ 120 := by
  simp only [validReason, Bool.and_eq_true, decide_eq_true_eq] at valid
  obtain ⟨⟨-, short⟩, allowed⟩ := valid
  refine ⟨List.all_eq_true.mpr fun unit member => ?_, short⟩
  have each := List.all_eq_true.mp allowed unit member
  rw [Bool.or_eq_true, decide_eq_true_eq] at each
  obtain letter | rfl := each
  · exact isPlain_of_isLowerAlphanumeric letter
  · decide

structure SoundMetadata (job : DurableJob) : Prop where
  worker : ∀ workerId ∈ job.workerId, identifier workerId = true
  reason : ∀ reason ∈ job.reason, validReason reason = true
  updatedAt : isCanonicalInstant job.updatedAt = true

theorem stateBytes_le (state : JobState) :
    canonicalBytes keysInOrder (.str state.text) ≤ 13 := by
  have plain : state.text.all isPlain = true := by cases state <;> decide
  have short : state.text.length ≤ 11 := by cases state <;> decide
  rw [canonicalBytes_plain plain]
  omega

theorem outcomeBytes_le (outcome : Option ResourceTaskStatus) :
    canonicalBytes keysInOrder (outcomeJson outcome) ≤ 11 := by
  cases outcome with
  | none =>
      rw [outcomeJson, Artifacts.nullable, canonicalBytes_null]
      decide
  | some status =>
      have plain : status.text.all isPlain = true := by cases status <;> decide
      have short : status.text.length ≤ 9 := by cases status <;> decide
      rw [outcomeJson, Artifacts.nullable, canonicalBytes_plain plain]
      omega

theorem nullableBytes_le {text : Option JsString} {longest : ℕ} (long : 2 ≤ longest)
    (bound : ∀ value ∈ text, value.all isPlain = true ∧ value.length ≤ longest) :
    canonicalBytes keysInOrder (nullable .str text) ≤ longest + 2 := by
  cases text with
  | none =>
      rw [Artifacts.nullable, canonicalBytes_null]
      omega
  | some value =>
      obtain ⟨plain, short⟩ := bound value rfl
      rw [Artifacts.nullable, canonicalBytes_plain plain]
      omega

theorem instantBytes {text : JsString} (canonical : isCanonicalInstant text = true) :
    26 ≤ canonicalBytes keysInOrder (.str text) ∧ canonicalBytes keysInOrder (.str text) ≤ 29 := by
  obtain ⟨plain, short, long⟩ := instant_plain canonical
  rw [canonicalBytes_plain plain]
  omega

variable {job : DurableJob}

theorem metadataBytes_le (sound : SoundMetadata job) :
    metadataBytes keysInOrder job ≤ 241 := by
  have state := @stateBytes_le keysInOrder job.state
  have outcome := @outcomeBytes_le keysInOrder job.outcome
  have updatedAt := (@instantBytes keysInOrder _ sound.updatedAt).2
  have worker := @nullableBytes_le keysInOrder job.workerId 64 (by decide) fun workerId present =>
    identifier_plain (sound.worker workerId present)
  have reason := @nullableBytes_le keysInOrder job.reason 120 (by decide) fun reason present =>
    validReason_plain (sound.reason reason present)
  rw [metadataBytes]
  omega

variable {input : ResourceConsoleTaskInput}

theorem metadataBytes_envelope (pending : job.input = some input) :
    metadataBytes keysInOrder (envelopeJob job) = 241 := by
  have letters : isPlain 0x77 = true ∧ isPlain 0x72 = true := by decide
  simp only [metadataBytes, envelopeJob, pending, outcomeJson, Artifacts.nullable]
  rw [canonicalBytes_plain (by decide), canonicalBytes_plain (by decide),
    canonicalBytes_plain (by simp [letters]), canonicalBytes_plain (by decide),
    canonicalBytes_plain (by simp [letters]), List.length_replicate, List.length_replicate]
  decide

theorem two_le_bytes_str (text : JsString) : 2 ≤ canonicalBytes keysInOrder (.str text) := by
  have formed := (printable_quoteUnits text).formed
  have mark : (utf8Encode (js "\"")).length = 1 := by decide
  rw [canonicalBytes_str, quote, utf8Encode_append (by decide)
    (wellFormed_append formed (by decide)), utf8Encode_append formed (by decide),
    List.length_append, List.length_append, mark]
  omega

/-- An input takes more than the two `null`s that its job can be left with. -/
theorem seven_le_inputBytes (input : ResourceConsoleTaskInput) :
    7 ≤ inputBytes keysInOrder (some input) := by
  have key : (utf8Encode (quote (js "id"))).length = 4 := by decide
  rw [inputBytes, Artifacts.nullable, ResourceConsoleTaskInput.json, canonicalBytes_obj,
    List.cons_append, List.map_cons, List.sum_cons, memberSize, key]
  omega

theorem inputBytes_none : inputBytes keysInOrder none = 4 := by
  rw [inputBytes, Artifacts.nullable, canonicalBytes_null]

theorem contextBytes_none_le {continuation : Option Continuation} :
    contextBytes keysInOrder (continuation.map fun continuation =>
      { continuation with context := none }) ≤ contextBytes keysInOrder continuation + 2 := by
  cases continuation with
  | none => exact Nat.zero_le _
  | some continuation =>
      simp only [contextBytes, Option.map_some, Option.getD_some, Artifacts.nullable]
      cases continuation.context with
      | none => exact Nat.le_add_right _ _
      | some context =>
          simp only [canonicalBytes_null, contextJson, canonicalBytes_arr]
          omega

/-! Captured output. -/

theorem characterEnd_le (bytes : Bytes) (last : ℕ) : characterEnd bytes last ≤ last := by
  induction last with
  | zero => exact le_rfl
  | succ last ih =>
      rw [characterEnd]
      split
      · exact Nat.le_succ_of_le ih
      · exact le_rfl

theorem canonicalBytes_boundedOutput (text : JsString) (maximum : ℕ) :
    canonicalBytes keysInOrder (.str (boundedOutput text maximum).text) ≤ 6 * maximum + 2 := by
  have read := length_quote_utf8Decode_le ((utf8Encode text).take
    (characterEnd (utf8Encode text) (min (utf8Encode text).length maximum)))
  have cut := characterEnd_le (utf8Encode text) (min (utf8Encode text).length maximum)
  rw [List.length_take] at read
  rw [canonicalBytes_str]
  change (utf8Encode (quote (utf8Decode _))).length ≤ _
  omega

theorem outputBytes (output : CapturedOutput) :
    canonicalBytes keysInOrder output.json = 22 + canonicalBytes keysInOrder (.str output.text) +
      canonicalBytes keysInOrder (.bool output.truncated) := by
  have textKey : (utf8Encode (quote (js "text"))).length = 6 := by decide
  have truncatedKey : (utf8Encode (quote (js "truncated"))).length = 11 := by decide
  simp only [CapturedOutput.json, canonicalBytes_obj, List.map_cons, List.map_nil, List.sum_cons,
    List.sum_nil, memberSize, textKey, truncatedKey]
  omega

theorem historyBytes (history : TaskHistory) :
    canonicalBytes keysInOrder history.json = 21 +
      canonicalBytes keysInOrder (.str history.prompt) +
      canonicalBytes keysInOrder (nullable (·.json) history.output) := by
  have promptKey : (utf8Encode (quote (js "prompt"))).length = 8 := by decide
  have outputKey : (utf8Encode (quote (js "output"))).length = 8 := by decide
  simp only [TaskHistory.json, canonicalBytes_obj, List.map_cons, List.map_nil, List.sum_cons,
    List.sum_nil, memberSize, promptKey, outputKey]
  omega

/-! What is kept for a job. -/

/-- The bytes that `assertStateHeadroom` counts for the job. -/
def jobReserve (keysInOrder : JsString → JsString → Bool) (job : DurableJob) : ℕ :=
  jobBytes keysInOrder (envelopeJob job) + futureOutputBytes job

section

variable (finished : job.input = none)
include finished

theorem envelopeJob_none :
    envelopeJob job = job := by
  simp only [envelopeJob, finished]

theorem futureOutputBytes_none :
    futureOutputBytes job = 0 := by
  simp [futureOutputBytes, finished]

theorem jobReserve_none :
    jobReserve keysInOrder job = jobBytes keysInOrder job := by
  rw [jobReserve, envelopeJob_none finished, futureOutputBytes_none finished, Nat.add_zero]

end

theorem envelopeJob_bare (job : DurableJob) : (envelopeJob job).bare = job.bare := by
  unfold envelopeJob
  cases pending : job.input with
  | none => rfl
  | some input =>
      simp only [DurableJob.bare, DurableJob.withoutContext, Option.map_map]
      rfl

theorem jobBytes_le_reserve {after : DurableJob}
    (pending : job.input = some input) (same : after.bare = job.bare)
    (sound : SoundMetadata after)
    (private_ : inputBytes keysInOrder after.input + contextBytes keysInOrder after.continuation ≤
      inputBytes keysInOrder job.input + contextBytes keysInOrder job.continuation)
    (history : retainedBytes keysInOrder after.retained ≤
      retainedBytes keysInOrder (envelopeJob job).retained + futureOutputBytes job) :
    jobBytes keysInOrder after ≤ jobReserve keysInOrder job := by
  have stages := @jobBytes_of_bare keysInOrder (envelopeJob job) after
    (same.trans (envelopeJob_bare job).symm)
  have metadata := @metadataBytes_le keysInOrder after sound
  have longest := @metadataBytes_envelope keysInOrder job input pending
  have text : inputBytes keysInOrder (envelopeJob job).input = inputBytes keysInOrder job.input ∧
      contextBytes keysInOrder (envelopeJob job).continuation =
        contextBytes keysInOrder job.continuation := by
    simp only [envelopeJob, pending, and_self]
  rw [changingBytes, changingBytes, longest, text.1, text.2] at stages
  rw [jobReserve]
  omega

theorem retainedBytes_uncaptured (pending : job.input = some input)
    (uncaptured : ∀ history ∈ job.history, history.output = none) :
    retainedBytes keysInOrder job.retained ≤
      retainedBytes keysInOrder (envelopeJob job).retained := by
  rw [DurableJob.history] at uncaptured
  simp only [envelopeJob, pending]
  obtain absent | ⟨history, present⟩ := Option.eq_none_or_eq_some job.retained
  · rw [absent]
    exact le_rfl
  obtain deleted | ⟨kept, present'⟩ := Option.eq_none_or_eq_some history
  · rw [present, deleted]
    exact le_rfl
  · rw [present, present'] at uncaptured ⊢
    simp only [retainedBytes, Option.map_some, Option.getD_some, Artifacts.nullable, historyBytes,
      outputBytes, uncaptured kept rfl, canonicalBytes_null]
    omega

theorem retainedBytes_captured {history : TaskHistory} (pending : job.input = some input)
    (kept : job.history = some history) (text : JsString) :
    retainedBytes keysInOrder
        (some (some ⟨history.prompt, some (boundedOutput text maxHistoryOutputBytes)⟩)) ≤
      retainedBytes keysInOrder (envelopeJob job).retained + futureOutputBytes job := by
  have retained : job.retained = some (some history) := Option.join_eq_some_iff.mp kept
  have captured := @canonicalBytes_boundedOutput keysInOrder text maxHistoryOutputBytes
  have empty := @two_le_bytes_str keysInOrder []
  have flag := @canonicalBytes_bool keysInOrder (boundedOutput text maxHistoryOutputBytes).truncated
  have short : canonicalBytes keysInOrder (.bool false) = 5 := canonicalBytes_bool false
  simp only [envelopeJob, pending, retained, retainedBytes, Option.map_some, Option.getD_some,
    Artifacts.nullable, historyBytes, outputBytes, futureOutputBytes, kept, Option.isSome_some,
    Bool.and_self, if_true, short]
  rw [flag]
  split_ifs <;> omega

/-! The room of a state is the room of its jobs, over what no transition changes. -/

def frameBytes (keysInOrder : JsString → JsString → Bool) (state : DurableState) : ℕ :=
  canonicalBytes keysInOrder { state with paused := false, jobs := [] }.json

theorem length_stateFile (state : DurableState) :
    (stateFile keysInOrder state).length = canonicalBytes keysInOrder state.json + 1 := by
  rw [stateFile, utf8Encode_append (wellFormed_canonical state.json) (by decide),
    List.length_append]
  rfl

theorem canonicalBytes_state (state : DurableState) :
    canonicalBytes keysInOrder state.json + 6 = frameBytes keysInOrder state +
      canonicalBytes keysInOrder (.bool state.paused) +
      max 1 (state.jobs.map fun job => jobBytes keysInOrder job + 1).sum := by
  have unpaused : canonicalBytes keysInOrder (.bool false) = 5 := canonicalBytes_bool false
  simp only [frameBytes, DurableState.json, canonicalBytes_obj, canonicalBytes_arr,
    List.map_append, List.sum_append, List.map_cons, List.sum_cons, List.map_nil, List.sum_nil,
    memberSize, List.map_map, Function.comp_def, jobBytes, unpaused]
  omega

theorem pausedBytes_le (paused : Bool) : canonicalBytes keysInOrder (.bool paused) ≤ 5 := by
  rw [canonicalBytes_bool]
  split <;> decide

theorem length_stateFile_le (state : DurableState) :
    (stateFile keysInOrder state).length ≤ frameBytes keysInOrder state +
      max 1 (state.jobs.map fun job => jobBytes keysInOrder job + 1).sum := by
  have whole := @canonicalBytes_state keysInOrder state
  have paused := @pausedBytes_le keysInOrder state.paused
  rw [length_stateFile]
  omega

theorem headroomBytes_eq (state : DurableState) :
    headroomBytes keysInOrder state = frameBytes keysInOrder state +
      max 1 (state.jobs.map fun job => jobReserve keysInOrder job + 1).sum := by
  have whole := @canonicalBytes_state keysInOrder (envelope state)
  have unpaused : canonicalBytes keysInOrder (.bool (envelope state).paused) = 5 :=
    canonicalBytes_bool false
  have frame : frameBytes keysInOrder (envelope state) = frameBytes keysInOrder state := rfl
  have parts : (state.jobs.map fun job => jobReserve keysInOrder job + 1).sum =
      ((envelope state).jobs.map fun job => jobBytes keysInOrder job + 1).sum +
        (state.jobs.map futureOutputBytes).sum := by
    rw [envelope, List.map_map, ← List.sum_map_add]
    refine congrArg List.sum (List.map_congr_left fun job _ => ?_)
    rw [jobReserve, Function.comp_apply]
    omega
  rw [headroomBytes, length_stateFile, parts]
  cases jobs : state.jobs with
  | nil =>
      have none : (envelope state).jobs = [] := by rw [envelope, jobs]; rfl
      rw [none] at whole ⊢
      simp only [List.map_nil, List.sum_nil] at whole ⊢
      omega
  | cons job later =>
      have some : 1 ≤ ((envelope state).jobs.map fun job =>
          jobBytes keysInOrder job + 1).sum := by
        rw [envelope, jobs, List.map_cons, List.map_cons, List.sum_cons]
        omega
      rw [← jobs]
      omega

theorem length_stateFile_le_headroom {state : DurableState}
    (within : ∀ job ∈ state.jobs, jobBytes keysInOrder job ≤ jobReserve keysInOrder job) :
    (stateFile keysInOrder state).length ≤ headroomBytes keysInOrder state := by
  have whole := @length_stateFile_le keysInOrder state
  have jobs : (state.jobs.map fun job => jobBytes keysInOrder job + 1).sum ≤
      (state.jobs.map fun job => jobReserve keysInOrder job + 1).sum :=
    List.sum_le_sum fun job member => Nat.succ_le_succ (within job member)
  rw [headroomBytes_eq]
  omega

theorem headroomBytes_le {before after : DurableState}
    (frame : frameBytes keysInOrder after = frameBytes keysInOrder before)
    (jobs : List.Forall₂ (fun after before =>
      jobReserve keysInOrder after ≤ jobReserve keysInOrder before) after.jobs before.jobs) :
    headroomBytes keysInOrder after ≤ headroomBytes keysInOrder before := by
  have sum : (after.jobs.map fun job => jobReserve keysInOrder job + 1).sum ≤
      (before.jobs.map fun job => jobReserve keysInOrder job + 1).sum := by
    generalize after.jobs = later at jobs
    generalize before.jobs = earlier at jobs
    induction jobs with
    | nil => exact le_rfl
    | cons first _ ih =>
        rw [List.map_cons, List.map_cons, List.sum_cons, List.sum_cons]
        omega
  rw [headroomBytes_eq, headroomBytes_eq, frame]
  omega

end AshlrHub.Supervisor

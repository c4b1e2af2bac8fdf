import AshlrHub.Fleet.HostMergePinned

namespace AshlrHub.HostMerge

open Js Authority Lib

/-! The two stores, the switches, and everybody else who works on them. -/

structure Switches where
  killActive : Bool
  killEpoch : JsString
  policyEpoch : JsString → Option JsString
  ownsFence : Bool

inductive Event where
  | begun (identity : HostMergeRevocationIdentityV1)
  /-- A receipt was written, whether or not the caller learned of it. -/
  | transition (authorityId : JsString) (action : HostMergeRevocationActionV1)
  | put (repo : JsString) (identity : HostMergeRevocationIdentityV1) (atContact : Switches)
      (reply : GithubReply)

structure World where
  states : JsString → Option FleetMergeStateV1
  authorities : JsString → Option HostMergeRevocationStateV1
  switches : Switches
  events : List Event

namespace World

def remark (world : World) (event : Event) : World :=
  { world with events := world.events ++ [event] }

def put (world : World) (state : FleetMergeStateV1) : World :=
  { world with states := Function.update world.states state.key (some state) }

def record (world : World) (receipt : HostMergeRevocationReceiptV1)
    (record : HostMergeRevocationStateV1) : World :=
  { world with
    authorities := Function.update world.authorities record.authorityId (some record)
    events := world.events ++ [.transition record.authorityId receipt.action] }

/-- `readHostMergeRevocationState`, where nothing but the record decides. -/
def readAuthority (world : World) (identity : HostMergeRevocationIdentityV1) :
    HostMergeRevocationReadResult :=
  match world.authorities (hostMergeRevocationAuthorityId identity) with
  | none => .missing
  | some record =>
    if identityPayload record.identity = identityPayload identity then .healthy record
    else .degraded (js "state-authentication-failed")

end World

/-! Calls of the revocation protocol. -/

inductive AuthorityCall where
  | prepare (input : PrepareHostMergeRevocationInputV1)
  | transition (input : TransitionHostMergeRevocationInputV1)

namespace AuthorityCall

def identity : AuthorityCall → HostMergeRevocationIdentityV1
  | .prepare input => input.identity
  | .transition input => input.identity

def operationId : AuthorityCall → JsString
  | .prepare input => input.operationId
  | .transition input => input.operationId

def action : AuthorityCall → HostMergeRevocationActionV1
  | .prepare _ => .prepare
  | .transition input => input.action

def decide : AuthorityCall → JsString → HostMergeRevocationReadResult → ℕ → ℕ → Decision
  | .prepare input => prepareHostMergeRevocation input
  | .transition input => transitionHostMergeRevocation input

def Named (call : AuthorityCall) : Prop :=
  lastName call.operationId = js "consume" → call.action = .consume

inductive Step (call : AuthorityCall) (world : World) :
    HostMergeRevocationWriteResult → World → Prop
  | unavailable (reason : JsString) : Step call world (.degraded reason) world
  | answered {signingKeyId : JsString} {elapsed later : ℕ}
      {result : HostMergeRevocationWriteResult}
      (decided : call.decide signingKeyId (world.readAuthority call.identity) elapsed later =
        .answer result) : Step call world result world
  | unverified {signingKeyId : JsString} {elapsed later : ℕ}
      {receipt : HostMergeRevocationReceiptV1} {record : HostMergeRevocationStateV1}
      (reason : JsString)
      (decided : call.decide signingKeyId (world.readAuthority call.identity) elapsed later =
        .write receipt record) : Step call world (.degraded reason) (world.record receipt record)
  | written {signingKeyId : JsString} {elapsed later : ℕ}
      {receipt : HostMergeRevocationReceiptV1} {record : HostMergeRevocationStateV1}
      (decided : call.decide signingKeyId (world.readAuthority call.identity) elapsed later =
        .write receipt record) :
      Step call world (.applied receipt record) (world.record receipt record)

end AuthorityCall

/-! Answers. -/

def contactRefusal (switches : Switches) (nowMs : ℤ) (repo : JsString)
    (identity : HostMergeRevocationIdentityV1) : Option ContactRefusal :=
  if ¬ switches.ownsFence then some .fence
  else if switches.killActive ∨ switches.killEpoch ≠ identity.killEpoch then some .killed
  else if switches.policyEpoch repo ≠ some identity.policyEpoch then some .recheck
  else if identity.expiry ≤ nowMs then some .revoked
  else none

inductive ContactStep (world : World) (repo : JsString)
    (identity : HostMergeRevocationIdentityV1) : GithubCall → Contact → World → Prop
  | refused {call : GithubCall} {nowMs : ℤ} {refusal : ContactRefusal}
      (found : contactRefusal world.switches nowMs repo identity = some refusal) :
      ContactStep world repo identity call (.refused refusal) world
  | metadata {of : JsString} {nowMs : ℤ} {reply : GithubReply}
      (clear : contactRefusal world.switches nowMs repo identity = none) :
      ContactStep world repo identity (.metadata of) (.replied reply) world
  /-- GitHub may answer anything: a lost answer has the status 0. -/
  | put {of headSha : JsString} {number nowMs : ℤ} {reply : GithubReply}
      (clear : contactRefusal world.switches nowMs repo identity = none) :
      ContactStep world repo identity (.putMerge of number headSha) (.replied reply)
        (world.remark (.put repo identity world.switches reply))

def answers (world : World) : (asked : Request) → Answer asked → World → Prop
  | .nowMs, _, after => after = world
  | .killEpoch, epoch, after => epoch = world.switches.killEpoch ∧ after = world
  | .killActive, active, after => active = world.switches.killActive ∧ after = world
  | .policyEpoch repo, epoch, after => epoch = world.switches.policyEpoch repo ∧ after = world
  | .randomBytes, _, after => after = world
  | .noteBegun identity, _, after => after = world.remark (.begun identity)
  | .writeState state, written, after => after = world.put state ∨ (written = false ∧ after = world)
  | .prepareAuthority input, result, after => AuthorityCall.Step (.prepare input) world result after
  | .transitionAuthority input, result, after =>
      AuthorityCall.Step (.transition input) world result after
  | .acquireFence, _, after =>
      ∃ owned, after = { world with switches := { world.switches with ownsFence := owned } }
  | .ownsFence, owned, after => owned = world.switches.ownsFence ∧ after = world
  | .releaseFence, _, after =>
      after = { world with switches := { world.switches with ownsFence := false } }
  | .recheck, _, after => after = world
  | .beforeConsume, _, after => after = world
  | .token _, _, after => after = world
  | .beforeDispatch _, _, after => after = world
  | .contact repo identity call, contact, after => ContactStep world repo identity call contact
    after
  | .nextPassStep, _, after => after = world
  | .listKeys, _, after => after = world
  | .readState _, _, after => after = world
  | .readAuthority _, _, after => after = world

/-! Others. -/

/-- What a process that does not hold the lock of `key` may ask for. -/
def Request.Foreign (key : JsString) : Request → Prop
  | .writeState state => state.key ≠ key
  | .prepareAuthority input => (AuthorityCall.prepare input).Named
  | .transitionAuthority input => (AuthorityCall.transition input).Named
  | .noteBegun _ => False
  | .contact _ _ (.putMerge _ _ _) => False
  | _ => True

inductive Others (key : JsString) (world : World) : World → Prop
  | switched (switches : Switches) : Others key world { world with switches }
  | asked {asked : Request} {answer : Answer asked} {after : World} (foreign : asked.Foreign key)
      (answered : answers world asked answer after) : Others key world after

def reacts (key : JsString) (world : World) (asked : Request) (answer : Answer asked)
    (after : World) : Prop :=
  ∃ before, Relation.ReflTransGen (Others key) world before ∧ answers before asked answer after

/-- Somebody takes the lock of `key` and reads the record. -/
inductive Opens (scrubSecrets : JsString → JsString) (key : JsString) (world : World) :
    Merging Unit → World → Prop
  | read {state : FleetMergeStateV1} (count : ℕ) (stored : world.states key = some state)
      (valid : state.key = key) :
      Opens scrubSecrets key world (passUnderLock scrubSecrets count state) world
  | fresh {state : FleetMergeStateV1} (count : ℕ) (missing : world.states key = none)
      (own : state.key = key) (untried : state.merge = none) :
      Opens scrubSecrets key world (passUnderLock scrubSecrets count state) world

abbrev State := Parley World Request Answer Unit

/-- Holders of the lock one behind the other, each of which may crash at any point, among
others. -/
abbrev MergeStep (scrubSecrets : JsString → JsString) (key : JsString) :
    State → Unit → State → Prop :=
  Parley.Step (reacts key) (Opens scrubSecrets key) (Others key) Eq

/-- Nothing has been tried yet under this model; older records of state are as they are. -/
def start (states : JsString → Option FleetMergeStateV1) (switches : Switches) : State :=
  ⟨⟨states, fun _ => none, switches, []⟩, none⟩

/-! What the events come to. -/

def Event.isTransition : Event → Bool
  | .transition _ _ => true
  | _ => false

def Event.isAmbiguous : Event → Bool
  | .put _ _ _ reply => reply.unresolved
  | _ => false

def Since (identity : HostMergeRevocationIdentityV1) (events : List Event) : Prop :=
  ∃ before since, events = before ++ .begun identity :: since ∧
    ∀ event ∈ since, event.isTransition = true

def NoneAmbiguous (events : List Event) : Prop :=
  ∀ event ∈ events, event.isAmbiguous = false

def Switches.Unchanged (switches : Switches) (repo : JsString)
    (identity : HostMergeRevocationIdentityV1) : Prop :=
  switches.killActive = false ∧ switches.killEpoch = identity.killEpoch ∧
    switches.policyEpoch repo = some identity.policyEpoch

structure PutRests (front : List Event) (repo : JsString)
    (identity : HostMergeRevocationIdentityV1) (atContact : Switches) : Prop where
  unchanged : atContact.Unchanged repo identity
  only : Since identity front
  settled : NoneAmbiguous front

def PutsRest (events : List Event) : Prop :=
  ∀ front repo identity atContact reply back,
    events = front ++ .put repo identity atContact reply :: back →
      PutRests front repo identity atContact

/-! What the calls of the revocation protocol do to a record. -/

def HostMergeRevocationActionV1.phase : HostMergeRevocationActionV1 → HostMergeRevocationPhaseV1
  | .prepare => .prepared
  | .arm => .armed
  | .revoke => .revoked
  | .consume => .consumed

/-- The actions of a record's receipts. -/
inductive Course : List HostMergeRevocationActionV1 → Prop
  | prepared : Course [.prepare]
  | armed : Course [.prepare, .arm]
  | revoked : Course [.prepare, .arm, .revoke]
  | consumed : Course [.prepare, .arm, .consume]

structure HostMergeRevocationReceiptV1.Sound (receipt : HostMergeRevocationReceiptV1) : Prop where
  phase : receipt.phase = receipt.action.phase
  named : lastName receipt.operationId = js "consume" → receipt.action = .consume

structure HostMergeRevocationStateV1.Sound (record : HostMergeRevocationStateV1) : Prop where
  receipts : ∀ receipt ∈ record.receipts, receipt.Sound
  course : Course (record.receipts.map (·.action))
  phase : ∃ latest, record.receipts.getLast? = some latest ∧ record.phase = latest.phase

structure HostMergeRevocationReceiptV1.Of (receipt : HostMergeRevocationReceiptV1)
    (call : AuthorityCall) : Prop where
  action : receipt.action = call.action
  phase : receipt.phase = call.action.phase
  operationId : receipt.operationId = call.operationId

variable {receipt : HostMergeRevocationReceiptV1} {call : AuthorityCall}

theorem HostMergeRevocationReceiptV1.Of.sound (from_call : receipt.Of call) (named : call.Named) :
    receipt.Sound where
  phase := by rw [from_call.phase, from_call.action]
  named := by
    rw [from_call.operationId, from_call.action]
    exact named

def HostMergeRevocationActionV1.Follows (action : HostMergeRevocationActionV1)
    (phase : HostMergeRevocationPhaseV1) : Prop :=
  match action with
  | .prepare => False
  | .arm => phase = .prepared
  | .revoke => phase = .armed
  | .consume => phase = .armed

inductive AuthorityCall.Writes (call : AuthorityCall) (receipt : HostMergeRevocationReceiptV1) :
    HostMergeRevocationReadResult → HostMergeRevocationStateV1 → Prop
  | first (prepares : call.action = .prepare) : Writes call receipt .missing
      (buildState (hostMergeRevocationAuthorityId call.identity) call.identity [receipt] receipt)
  | next {old : HostMergeRevocationStateV1} (follows : call.action.Follows old.phase) :
      Writes call receipt (.healthy old)
        (buildState (hostMergeRevocationAuthorityId call.identity) call.identity
          (old.receipts ++ [receipt]) receipt)

variable {signingKeyId : JsString} {current : HostMergeRevocationReadResult} {elapsed later : ℕ}
  {decision : Decision}

def AuthorityCall.Decides (call : AuthorityCall) (current : HostMergeRevocationReadResult)
    (decision : Decision) : Prop :=
  (∃ reason, decision = .answer (.refused reason)) ∨
    (∃ reason, decision = .answer (.degraded reason)) ∨
    (∃ record request result, current = .healthy record ∧
      replayReceipt record call.operationId request = some result ∧ decision = .answer result) ∨
    ∃ receipt record, decision = .write receipt record ∧ receipt.Of call ∧
      call.Writes receipt current record

theorem prepare_decides {input : PrepareHostMergeRevocationInputV1}
    (decided : prepareHostMergeRevocation input signingKeyId current elapsed later = decision) :
    (AuthorityCall.prepare input).Decides current decision := by
  unfold prepareHostMergeRevocation at decided
  dsimp only at decided
  split at decided
  · exact .inl ⟨_, decided.symm⟩
  · split at decided
    · exact .inl ⟨_, decided.symm⟩
    · split at decided
      · exact .inl ⟨_, decided.symm⟩
      · split at decided
        · exact .inl ⟨_, decided.symm⟩
        · cases current with
          | degraded reason => exact .inr (.inl ⟨_, decided.symm⟩)
          | healthy record =>
              cases replay : replayReceipt record input.operationId (requestDigest .prepare
                (hostMergeRevocationAuthorityId input.identity) input.operationId 0 none) with
              | none =>
                  simp only [replay, Option.getD_none] at decided
                  exact .inl ⟨_, decided.symm⟩
              | some result =>
                  simp only [replay, Option.getD_some] at decided
                  exact .inr (.inr (.inl ⟨record, _, result, rfl, replay, decided.symm⟩))
          | missing =>
              dsimp only at decided
              split at decided
              · exact .inl ⟨_, decided.symm⟩
              · exact .inr (.inr (.inr ⟨_, _, decided.symm, ⟨rfl, rfl, rfl⟩, .first rfl⟩))

variable {action : HostMergeRevocationActionV1}

theorem targetPhase_eq (further : action ≠ .prepare) :
    targetPhase action = action.phase := by
  cases action with
  | prepare => exact absurd rfl further
  | arm => rfl
  | revoke => rfl
  | consume => rfl

theorem follows_of_valid {phase : HostMergeRevocationPhaseV1} (further : action ≠ .prepare)
    (valid : ¬((action = .arm ∧ phase ≠ .prepared) ∨
      ((action = .revoke ∨ action = .consume) ∧ phase ≠ .armed))) : action.Follows phase := by
  cases action with
  | prepare => exact absurd rfl further
  | arm | revoke | consume => simpa [HostMergeRevocationActionV1.Follows] using valid

variable {record : HostMergeRevocationStateV1}

theorem transition_decides_healthy {input : TransitionHostMergeRevocationInputV1}
    {recordedAt : JsString} (further : input.action ≠ .prepare)
    (decided : transitionFrom input signingKeyId recordedAt record elapsed later = decision) :
    (AuthorityCall.transition input).Decides (.healthy record) decision := by
  unfold transitionFrom at decided
  dsimp only at decided
  split at decided
  · exact .inr (.inl ⟨_, decided.symm⟩)
  · split at decided
    · exact .inl ⟨_, decided.symm⟩
    · split at decided
      · exact .inl ⟨_, decided.symm⟩
      · split at decided
        · rename_i replay found
          exact .inr (.inr (.inl ⟨record, _, replay, rfl, found, decided.symm⟩))
        · split at decided
          · exact .inl ⟨_, decided.symm⟩
          · split at decided
            · exact .inl ⟨_, decided.symm⟩
            · split at decided
              · exact .inl ⟨_, decided.symm⟩
              · rename_i fit
                split at decided
                · exact .inr (.inl ⟨_, decided.symm⟩)
                · split at decided
                  · exact .inl ⟨_, decided.symm⟩
                  · exact .inr (.inr (.inr ⟨_, _, decided.symm, ⟨rfl, targetPhase_eq further, rfl⟩,
                      .next (follows_of_valid further fit)⟩))

theorem transition_decides {input : TransitionHostMergeRevocationInputV1}
    (decided : transitionHostMergeRevocation input signingKeyId current elapsed later = decision) :
    (AuthorityCall.transition input).Decides current decision := by
  unfold transitionHostMergeRevocation at decided
  split at decided
  · exact .inl ⟨_, decided.symm⟩
  · split at decided
    · exact .inl ⟨_, decided.symm⟩
    · rename_i valid
      have further : input.action ≠ .prepare := fun same => valid (.inr (.inl same))
      cases current with
      | missing => exact .inl ⟨_, decided.symm⟩
      | degraded reason => exact .inr (.inl ⟨_, decided.symm⟩)
      | healthy record => exact transition_decides_healthy further decided

theorem AuthorityCall.decides
    (decided : call.decide signingKeyId current elapsed later = decision) :
    call.Decides current decision := by
  cases call with
  | prepare input => exact prepare_decides decided
  | transition input => exact transition_decides decided

theorem AuthorityCall.writes
    (decided : call.decide signingKeyId current elapsed later = .write receipt record) :
    receipt.Of call ∧ call.Writes receipt current record := by
  obtain ⟨_, same⟩ | ⟨_, same⟩ | ⟨_, _, _, _, _, same⟩ | ⟨_, _, same, found⟩ :=
    AuthorityCall.decides decided
  · cases same
  · cases same
  · cases same
  · cases same
    exact found

theorem replayed_mem {operationId request : JsString} {result : HostMergeRevocationWriteResult}
    {found : HostMergeRevocationReceiptV1 × HostMergeRevocationStateV1}
    (replayed : replayReceipt record operationId request = some result)
    (accepted : result.accepted = some found) :
    found.2 = record ∧ found.1 ∈ record.receipts ∧ found.1.operationId = operationId := by
  unfold replayReceipt at replayed
  obtain ⟨receipt, search, rfl⟩ := Option.map_eq_some_iff.mp replayed
  split_ifs at accepted with same
  · simp only [HostMergeRevocationWriteResult.accepted] at accepted
    cases accepted
    exact ⟨rfl, List.mem_of_find?_eq_some search, by simpa using List.find?_some search⟩
  · cases accepted

/-! Soundness of the records. -/

theorem HostMergeRevocationStateV1.Sound.course_of_phase (sound : record.Sound) :
    ∃ actions action, record.receipts.map (·.action) = actions ++ [action] ∧
      record.phase = action.phase := by
  obtain ⟨latest, last, phase⟩ := sound.phase
  obtain ⟨before, split⟩ := List.getLast?_eq_some_iff.mp last
  refine ⟨before.map (·.action), latest.action, by simp [split], ?_⟩
  rw [phase, (sound.receipts latest (by simp [split])).phase]

theorem HostMergeRevocationActionV1.phase_injective :
    Function.Injective HostMergeRevocationActionV1.phase := by
  intro first second same
  cases first <;> cases second <;> first | rfl | cases same

section

variable {actions : List HostMergeRevocationActionV1} {last : HostMergeRevocationActionV1}
  (course : Course (actions ++ [last]))
include course

theorem Course.next (follows : action.Follows last.phase) :
    Course (actions ++ [last] ++ [action]) := by
  generalize whole : actions ++ [last] = all at course
  have ends : all.getLast? = some last := by simp [← whole]
  cases course with
  | prepared =>
      obtain rfl : HostMergeRevocationActionV1.prepare = last := by simpa using ends
      cases action with
      | prepare => exact follows.elim
      | arm => exact .armed
      | revoke => cases follows
      | consume => cases follows
  | armed =>
      obtain rfl : HostMergeRevocationActionV1.arm = last := by simpa using ends
      cases action with
      | prepare => exact follows.elim
      | arm => cases follows
      | revoke => exact .revoked
      | consume => exact .consumed
  | revoked =>
      obtain rfl : HostMergeRevocationActionV1.revoke = last := by simpa using ends
      cases action <;> cases follows
  | consumed =>
      obtain rfl : HostMergeRevocationActionV1.consume = last := by simpa using ends
      cases action <;> cases follows

theorem Course.terminal
    (terminal : action = .revoke ∨ action = .consume) (member : action ∈ actions ++ [last]) :
    last = action := by
  generalize whole : actions ++ [last] = all at course member
  have ends : all.getLast? = some last := by simp [← whole]
  cases course with
  | prepared | armed => rcases terminal with rfl | rfl <;> simp at member
  | revoked =>
      obtain rfl : HostMergeRevocationActionV1.revoke = last := by simpa using ends
      rcases terminal with rfl | rfl
      · rfl
      · simp at member
  | consumed =>
      obtain rfl : HostMergeRevocationActionV1.consume = last := by simpa using ends
      rcases terminal with rfl | rfl
      · simp at member
      · rfl

end

theorem HostMergeRevocationStateV1.Sound.phase_of_mem (sound : record.Sound)
    (member : receipt ∈ record.receipts)
    (terminal : receipt.action = .revoke ∨ receipt.action = .consume) :
    record.phase = receipt.action.phase := by
  obtain ⟨actions, last, split, phase⟩ := sound.course_of_phase
  have course := sound.course
  rw [split] at course
  have among : receipt.action ∈ actions ++ [last] := by
    rw [← split]
    exact List.mem_map_of_mem member
  rw [phase, course.terminal terminal among]

theorem AuthorityCall.Writes.sound (writes : call.Writes receipt current record)
    (fresh : receipt.Of call) (named : call.Named)
    (before : ∀ old, current = .healthy old → old.Sound) : record.Sound := by
  cases writes with
  | first prepares =>
      refine ⟨?_, ?_, receipt, rfl, rfl⟩
      · intro other member
        obtain rfl := List.mem_singleton.mp member
        exact fresh.sound named
      · change Course [receipt.action]
        rw [fresh.action, prepares]
        exact .prepared
  | next follows =>
      rename_i old
      have sound := before old rfl
      refine ⟨?_, ?_, receipt, by simp [buildState], rfl⟩
      · intro other member
        rcases List.mem_append.mp member with earlier | added
        · exact sound.receipts other earlier
        · obtain rfl := List.mem_singleton.mp added
          exact fresh.sound named
      · obtain ⟨actions, last, split, phase⟩ := sound.course_of_phase
        have course := sound.course
        rw [split] at course
        change Course ((old.receipts ++ [receipt]).map (·.action))
        rw [List.map_append, split, List.map_singleton, fresh.action]
        exact course.next (phase ▸ follows)

end AshlrHub.HostMerge

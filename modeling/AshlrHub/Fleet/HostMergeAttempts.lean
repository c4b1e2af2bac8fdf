import AshlrHub.Fleet.HostMergeProtocol

namespace AshlrHub.HostMerge

open Js Authority Lib

/-! Whole attempts, passes and runs. -/

theorem needsReconciliation_at {state : FleetMergeStateV1} {attempt : MergeAttemptMemo}
    {phase : MergeAttemptPhase} {error : Option JsString}
    (opened : phase = .consumed ∨ phase = .merged) :
    mergeAttemptNeedsReconciliation (state.at attempt phase error) = true := by
  rcases opened with rfl | rfl <;>
    simp [mergeAttemptNeedsReconciliation, FleetMergeStateV1.at,
      MergeAttemptMemo.needsReconciliation]

section

variable {scrubSecrets : JsString → JsString} {key : JsString} {armed : ArmedAttempt}
  {world : World}

theorem concludeReply_leaves {reply : GithubReply} (own : armed.state.key = key)
    (replied : Replied key (.sent reply) world) :
    Leaves key (concludeReply scrubSecrets armed reply) world := by
  obtain ⟨inv, settled⟩ := replied
  unfold concludeReply
  cases reported : reply.mergeSha with
  | some mergeSha =>
      refine keeping_settle inv own (.inr (needsReconciliation_at (.inr rfl))) ?_
      intro after kept _
      refine keeping_foreign kept trivial fun now last held _ _ => ?_
      cases toISOString now with
      | none | some landedAt => exact ⟨held, own, .inr (needsReconciliation_at (.inr rfl))⟩
  | none =>
      refine leaves_settle inv own ?_
      cases open' : reply.unresolved with
      | true => exact .inr (needsReconciliation_at (.inl (if_pos rfl)))
      | false => exact .inl (settled open')

theorem sendMerge_leaves (inv : Inv key world) (own : armed.state.key = key)
    (ready : Ready key armed.attempt.identity world) :
    Leaves key (sendMerge scrubSecrets armed) world := by
  refine keeping_foreign inv trivial fun owns after kept later states => ?_
  have still := ready.later later states
  refine keeping_ite (fun _ => leaves_settle kept own (.inl still.settled)) fun _ => ?_
  refine keeping_foreign kept trivial fun killed second held further same => ?_
  have yet := still.later further same
  refine keeping_ite (fun _ => leaves_settle held own (.inl yet.settled)) fun _ => ?_
  refine keeping_andThen (Replied key) (keeping_gh held yet) fun reply last replied => ?_
  cases reply with
  | refused refusal | notSent answer => exact leaves_settle replied.1 own (.inl replied.2)
  | sent answer => exact concludeReply_leaves own replied

structure Quiet (key : JsString) (armed : ArmedAttempt) (world : World) : Prop where
  inv : Inv key world
  own : armed.state.key = key
  settled : NoneAmbiguous world.events
  since : Since armed.attempt.identity world.events

section

variable (quiet : Quiet key armed world)
include quiet

theorem Quiet.later {after : World} (inv : Inv key after)
    (later : Later world after) : Quiet key armed after where
  inv := inv
  own := quiet.own
  settled := later.noneAmbiguous quiet.settled
  since := later.since quiet.since

theorem keeping_quiet {α : Type} {final : α → World → Prop} {asked : Request}
    {more : Answer asked → Merging α}
    (foreign : asked.Foreign key)
    (each : ∀ answer after, Quiet key armed after → Keeping key final (more answer) after) :
    Keeping key final (ask asked >>= more) world :=
  keeping_foreign quiet.inv foreign fun answer after kept later _ =>
    each answer after (quiet.later kept later)

theorem Quiet.leaves {outcome : PinnedMergeOutcome} {phase : MergeAttemptPhase}
    {error : Option JsString} :
    Leaves key (settle armed.state armed.attempt phase error >>= fun state =>
      pure (outcome, state)) world :=
  leaves_settle quiet.inv quiet.own (.inl quiet.settled)

theorem cancel_leaves {why : JsString} {code : PinnedMergeCode} :
    Leaves key (cancel armed why code) world := by
  refine keeping_quiet quiet trivial fun now after still => ?_
  refine keeping_quiet still (named_of_ne rfl (by decide) (by decide)) fun revoked last yet => ?_
  exact yet.leaves

theorem consumeAuthority_leaves :
    Leaves key (consumeAuthority scrubSecrets armed) world := by
  refine keeping_quiet quiet trivial fun now after still => ?_
  refine keeping_ask still.inv fun before consumed last kept later _ answered => ?_
  obtain ⟨recorded, further, states⟩ := answered.later (fun _ => rfl) kept.recorded
  have inv := kept.later recorded further (congrFun states key)
  have yet := (still.later kept later).later inv further
  refine ⟨inv, ?_⟩
  cases accepted : consumed.accepted with
  | none => exact yet.leaves
  | some found =>
      have done : Consumed last armed.attempt.identity :=
        answered.consumed kept.recorded rfl (lastName_operationName (by decide))
          (by rw [accepted]; rfl)
      have opened : mergeAttemptNeedsReconciliation
          (armed.state.at armed.attempt .consumed none) = true :=
        needsReconciliation_at (.inl rfl)
      refine keeping_write inv yet.own (.inr opened) fun written final held late stored => ?_
      refine keeping_ite (fun succeeded => ?_) fun _ =>
        ⟨held, yet.own, .inl (late.noneAmbiguous yet.settled)⟩
      refine sendMerge_leaves held yet.own ⟨late.noneAmbiguous yet.settled,
        late.since yet.since, late.consumed _ done, ?_⟩
      rw [stored succeeded]
      exact opened

theorem checkSwitches_leaves :
    Leaves key (checkSwitches scrubSecrets armed) world := by
  refine keeping_quiet quiet trivial fun killed first still => ?_
  refine keeping_ite (fun _ => cancel_leaves still) fun _ => ?_
  refine keeping_quiet still trivial fun epoch second yet => ?_
  refine keeping_ite (fun _ => cancel_leaves yet) fun _ => ?_
  refine keeping_quiet yet trivial fun policy third last => ?_
  exact keeping_ite (fun _ => cancel_leaves last) fun _ => consumeAuthority_leaves last

theorem Quiet.held : Held key armed.state world :=
  ⟨quiet.inv, quiet.own, .inl quiet.settled⟩

theorem underFence_leaves :
    Leaves key (underFence scrubSecrets armed) world := by
  refine keeping_quiet quiet trivial fun recheck first still => ?_
  cases recheck with
  | threw => exact still.held
  | refused why => exact cancel_leaves still
  | clear =>
      refine keeping_quiet still trivial fun passed second yet => ?_
      exact keeping_ite (fun _ => checkSwitches_leaves yet) fun _ => yet.held

theorem fenced_leaves :
    Leaves key (fenced scrubSecrets armed) world := by
  refine keeping_quiet quiet trivial fun acquired first still => ?_
  refine keeping_quiet still trivial fun owns second yet => ?_
  refine keeping_ite (fun _ => ?_) fun _ => ?_
  · refine keeping_andThen _ (underFence_leaves yet) ?_
    rintro ⟨outcome, state⟩ third ⟨inv, own, held⟩
    refine keeping_foreign inv trivial fun _ last kept later _ => ?_
    exact ⟨kept, own, held.imp_left later.noneAmbiguous⟩
  · exact keeping_quiet yet trivial fun _ third last => cancel_leaves last

end

end

section

variable {scrubSecrets : JsString → JsString} {key : JsString} {state : FleetMergeStateV1}
  {pr : FleetPrMemo} {attempt : MergeAttemptMemo} {input : PinnedMergeInput} {world : World}

theorem armAuthority_leaves {prepared : HostMergeRevocationReceiptV1 × HostMergeRevocationStateV1}
    (quiet : Quiet key ⟨state, pr, attempt, prepared.1, prepared.2⟩ world) :
    Leaves key (armAuthority scrubSecrets state pr attempt prepared) world := by
  refine keeping_quiet quiet trivial fun now first still => ?_
  refine keeping_quiet still (named_of_ne rfl (by decide) (by decide)) fun armed second yet => ?_
  cases armed.accepted with
  | none => exact yet.leaves
  | some found =>
      refine keeping_settle yet.inv yet.own (.inl yet.settled) fun third kept later => ?_
      exact fenced_leaves ⟨kept, yet.own, later.noneAmbiguous yet.settled, later.since yet.since⟩

structure Begun (key : JsString) (state : FleetMergeStateV1) (attempt : MergeAttemptMemo)
    (world : World) : Prop where
  inv : Inv key world
  own : state.key = key
  settled : NoneAmbiguous world.events
  since : Since attempt.identity world.events

theorem Begun.later {after : World} (begun : Begun key state attempt world) (inv : Inv key after)
    (later : Later world after) : Begun key state attempt after where
  inv := inv
  own := begun.own
  settled := later.noneAmbiguous begun.settled
  since := later.since begun.since

theorem prepareAuthority_leaves (begun : Begun key state attempt world) :
    Leaves key (prepareAuthority scrubSecrets state pr attempt) world := by
  refine keeping_foreign begun.inv trivial fun now first kept later _ => ?_
  have still := begun.later kept later
  refine keeping_foreign kept (named_of_ne rfl (by decide) (by decide)) ?_
  intro prepared second held further _
  have yet := still.later held further
  cases prepared.accepted with
  | none => exact leaves_settle held yet.own (.inl yet.settled)
  | some found => exact armAuthority_leaves ⟨held, yet.own, yet.settled, yet.since⟩

theorem Inv.begun {identity : HostMergeRevocationIdentityV1} (inv : Inv key world)
    (settled : NoneAmbiguous world.events) :
    Inv key (world.remark (.begun identity)) ∧
      NoneAmbiguous (world.remark (.begun identity)).events ∧
        Since identity (world.remark (.begun identity)).events := by
  have quiet : NoneAmbiguous (world.remark (.begun identity)).events := by
    intro event member
    rcases List.mem_append.mp member with earlier | last
    · exact settled event earlier
    · rw [List.mem_singleton.mp last]
      rfl
  refine ⟨⟨⟨inv.recorded.sound, fun member => ?_⟩, ?_, fun member => ?_, .inl quiet⟩, quiet,
    world.events, [], rfl, fun _ none => absurd none List.not_mem_nil⟩
  · rcases List.mem_append.mp member with earlier | last
    · exact inv.recorded.marked earlier
    · cases List.mem_singleton.mp last
  · exact inv.rests.snoc fun _ _ _ _ same => by cases same
  · rcases List.mem_append.mp member with earlier | last
    · exact inv.consumed earlier
    · cases List.mem_singleton.mp last

theorem beginAttempt_leaves (inv : Inv key world) (own : state.key = key)
    (settled : NoneAmbiguous world.events) :
    Leaves key (beginAttempt scrubSecrets input state pr) world := by
  refine keeping_foreign inv trivial fun nowMs first kept later _ => ?_
  refine keeping_foreign kept trivial fun killEpoch second held further _ => ?_
  have clear := further.noneAmbiguous (later.noneAmbiguous settled)
  cases toISOString (nowMs + mergeAuthorityTtlMs) with
  | none => exact ⟨held, own, .inl clear⟩
  | some expiresAt =>
      cases toISOString nowMs with
      | none => exact ⟨held, own, .inl clear⟩
      | some startedAt =>
          refine keeping_ask held fun before _ third still early _ answered => ?_
          obtain rfl : third = _ := answered
          obtain ⟨noted, quiet, since⟩ := still.begun (early.noneAmbiguous clear)
          refine ⟨noted, keeping_foreign noted trivial fun random fourth yet late _ => ?_⟩
          have calm := late.noneAmbiguous quiet
          refine keeping_write yet own (.inl calm) fun written last final rest _ => ?_
          refine keeping_ite (fun _ => ?_) fun _ => ⟨final, own, .inl (rest.noneAmbiguous calm)⟩
          exact prepareAuthority_leaves
            ⟨final, own, rest.noneAmbiguous calm, rest.since (late.since since)⟩

theorem mergeFleetPrPinned_leaves (held : Held key state world) :
    Leaves key (mergeFleetPrPinned scrubSecrets input state) world := by
  unfold mergeFleetPrPinned
  cases state.pr with
  | none => exact held
  | some pr =>
      refine keeping_ite (fun _ => held) fun _ => ?_
      refine keeping_ite (fun _ => held) fun untouched => ?_
      exact beginAttempt_leaves held.1 held.2.1 (held.2.2.resolve_right untouched)

theorem passUnderLock_keeping : (count : ℕ) → {state : FleetMergeStateV1} → {world : World} →
    Held key state world →
      Keeping key (fun _ after => Inv key after) (passUnderLock scrubSecrets count state) world
  | 0, _, _, held => held.1
  | count + 1, state, world, held => by
      refine keeping_foreign held.1 trivial fun next first kept later _ => ?_
      have still : Held key state first :=
        ⟨kept, held.2.1, held.2.2.imp_left later.noneAmbiguous⟩
      cases next with
      | finish => exact kept
      | rewrite record =>
          refine keeping_write kept held.2.1 still.2.2 fun written second yet further _ => ?_
          exact passUnderLock_keeping count
            ⟨yet, held.2.1, still.2.2.imp_left further.noneAmbiguous⟩
      | merge input =>
          refine keeping_andThen _ (mergeFleetPrPinned_leaves still) fun attempted second left => ?_
          exact passUnderLock_keeping count left

end

/-! The theorem. -/

structure Pinned (world : World) : Prop where
  /-- A put was sent behind a consumption, the last receipt of its record. -/
  consumed : ∀ {repo identity atContact reply},
    Event.put repo identity atContact reply ∈ world.events →
      ∃ record, world.authorities (hostMergeRevocationAuthorityId identity) = some record ∧
        record.receipts.getLast?.map (·.action) = some .consume
  exclusive : ∀ id, ¬ (.transition id .consume ∈ world.events ∧
    .transition id .revoke ∈ world.events)
  unrevoked : ∀ {repo identity atContact reply},
    Event.put repo identity atContact reply ∈ world.events →
      .transition (hostMergeRevocationAuthorityId identity) .revoke ∉ world.events
  /-- No put where a switch had changed, none beside another of its attempt, and none behind one
  that may have been a merge. -/
  rests : PutsRest world.events

theorem Inv.pinned {key : JsString} {world : World} (inv : Inv key world) : Pinned world where
  consumed := by
    intro repo identity atContact reply member
    obtain ⟨record, stored, consumed⟩ := inv.consumed member
    obtain ⟨latest, last, phase⟩ := (inv.recorded.sound stored).phase
    refine ⟨record, stored, ?_⟩
    have sound := (inv.recorded.sound stored).receipts latest (List.mem_of_getLast? last)
    rw [last, Option.map_some]
    refine congrArg some (HostMergeRevocationActionV1.phase_injective ?_)
    rw [← sound.phase, ← phase, consumed]
    rfl
  exclusive := by
    rintro id ⟨consumption, revocation⟩
    obtain ⟨record, stored, receipt, member, consumes⟩ := inv.recorded.marked consumption
    obtain ⟨other, again, earlier, among, revokes⟩ := inv.recorded.marked revocation
    rw [stored] at again
    cases again
    have sound := inv.recorded.sound stored
    have phase := sound.phase_of_mem member (.inr consumes)
    rw [sound.phase_of_mem among (.inl revokes), consumes, revokes] at phase
    cases phase
  unrevoked := by
    intro repo identity atContact reply member revocation
    obtain ⟨record, stored, consumed⟩ := inv.consumed member
    obtain ⟨other, again, earlier, among, revokes⟩ := inv.recorded.marked revocation
    rw [stored] at again
    cases again
    have phase := (inv.recorded.sound stored).phase_of_mem among (.inl revokes)
    rw [consumed, revokes] at phase
    cases phase
  rests := inv.rests

theorem start_inv (key : JsString) (states : JsString → Option FleetMergeStateV1)
    (switches : Switches) : Inv key (start states switches).world where
  recorded :=
    { sound := by
        intro id record stored
        cases stored
      marked := fun member => absurd member List.not_mem_nil }
  rests := by
    intro front repo identity atContact reply back same
    exact absurd same.symm (List.append_ne_nil_of_right_ne_nil front (List.cons_ne_nil _ _))
  consumed member := absurd member List.not_mem_nil
  held := .inl fun event member => absurd member List.not_mem_nil

theorem opens_keeping {scrubSecrets : JsString → JsString} {key : JsString}
    {world next : World} {dialogue : Merging Unit} (inv : Inv key world)
    (begun : Opens scrubSecrets key world dialogue next) :
    Inv key next ∧ Keeping key (fun _ after => Inv key after) dialogue next := by
  cases begun with
  | read count stored valid =>
      refine ⟨inv, passUnderLock_keeping count ⟨inv, valid, inv.held.imp_right fun needs => ?_⟩⟩
      rwa [stored] at needs
  | fresh count missing own untried =>
      refine ⟨inv, passUnderLock_keeping count ⟨inv, own, inv.held.imp_right fun needs => ?_⟩⟩
      rw [missing] at needs
      cases needs

/-- Whoever takes the lock of a proposal's record, crashes or goes on, and whatever others do to
the switches, to their own records and to the authorities: the merges keep to the protocol. -/
theorem merges_pinned {scrubSecrets : JsString → JsString} {key : JsString}
    {states : JsString → Option FleetMergeStateV1} {switches : Switches} {marks : List Unit}
    {state : State}
    (run : Run (MergeStep scrubSecrets key) (start states switches) marks state) :
    Pinned state.world := by
  have holds : state.Holds (reacts key) (Inv key) (Inv key) :=
    Parley.run_holds (fun world dialogue next inv begun => opens_keeping inv begun)
      (fun world after inv step => (Others.later inv step).1)
        (fun world after inv same => same ▸ inv)
      run (start_inv key states switches)
  unfold Parley.Holds at holds
  cases talk : state.talk with
  | none =>
      rw [talk] at holds
      exact holds.pinned
  | some dialogue =>
      rw [talk] at holds
      exact holds.1.pinned

/-! A merge whose answer is lost. -/

def carry (call : AuthorityCall) (world : World) : HostMergeRevocationWriteResult × World :=
  match call.decide (js "key") (world.readAuthority call.identity) 0 0 with
  | .answer result => (result, world)
  | .write receipt record => (.applied receipt record, world.record receipt record)

theorem carry_step (call : AuthorityCall) (world : World) :
    call.Step world (carry call world).1 (carry call world).2 := by
  unfold carry
  cases decided : call.decide (js "key") (world.readAuthority call.identity) 0 0 with
  | answer result => exact .answered decided
  | write receipt record => exact .written decided

def sampleInput : PinnedMergeInput where
  trailers := ⟨js "grant", js "gates", js "head", js "stage"⟩
  identity := ⟨List.replicate 64 0x61, List.replicate 64 0x62, List.replicate 64 0x63,
    List.replicate 64 0x64⟩

def loseAnswer (world : World) (repo : JsString) (identity : HostMergeRevocationIdentityV1)
    (call : GithubCall) : Contact × World :=
  match contactRefusal world.switches 0 repo identity, call with
  | some refusal, _ => (.refused refusal, world)
  | none, .metadata _ => (.replied ⟨0, .null⟩, world)
  | none, .putMerge _ _ _ =>
      (.replied ⟨0, .null⟩, world.remark (.put repo identity world.switches ⟨0, .null⟩))

def lostAnswer (world : World) : (asked : Request) → Answer asked × World
  | .nowMs => (0, world)
  | .killEpoch => (world.switches.killEpoch, world)
  | .killActive => (world.switches.killActive, world)
  | .policyEpoch repo => (world.switches.policyEpoch repo, world)
  | .randomBytes => (⟨js "00", by decide⟩, world)
  | .noteBegun identity => ((), world.remark (.begun identity))
  | .writeState state => (true, world.put state)
  | .prepareAuthority input => carry (.prepare input) world
  | .transitionAuthority input => carry (.transition input) world
  | .acquireFence => (true, { world with switches := { world.switches with ownsFence := true } })
  | .ownsFence => (world.switches.ownsFence, world)
  | .releaseFence => ((), { world with switches := { world.switches with ownsFence := false } })
  | .recheck => (.clear, world)
  | .beforeConsume => (true, world)
  | .token _ => (true, world)
  | .beforeDispatch _ => (true, world)
  | .contact repo identity call => loseAnswer world repo identity call
  | .nextPassStep => (.merge sampleInput, world)
  | .listKeys => (none, world)
  | .readState _ => (.missing, world)
  | .readAuthority _ => (.missing, world)

theorem loseAnswer_step (world : World) (repo : JsString)
    (identity : HostMergeRevocationIdentityV1) (call : GithubCall) :
    ContactStep world repo identity call (loseAnswer world repo identity call).1
      (loseAnswer world repo identity call).2 := by
  unfold loseAnswer
  cases found : contactRefusal world.switches 0 repo identity with
  | some refusal => exact .refused found
  | none =>
      cases call with
      | metadata of => exact .metadata found
      | putMerge of number headSha => exact .put found

theorem lostAnswer_answers (world : World) : (asked : Request) →
    answers world asked (lostAnswer world asked).1 (lostAnswer world asked).2
  | .nowMs => rfl
  | .killEpoch => ⟨rfl, rfl⟩
  | .killActive => ⟨rfl, rfl⟩
  | .policyEpoch _ => ⟨rfl, rfl⟩
  | .randomBytes => rfl
  | .noteBegun _ => rfl
  | .writeState _ => .inl rfl
  | .prepareAuthority _ => carry_step _ _
  | .transitionAuthority _ => carry_step _ _
  | .acquireFence => ⟨_, rfl⟩
  | .ownsFence => ⟨rfl, rfl⟩
  | .releaseFence => rfl
  | .recheck => rfl
  | .beforeConsume => rfl
  | .token _ => rfl
  | .beforeDispatch _ => rfl
  | .contact _ _ _ => loseAnswer_step _ _ _ _
  | .nextPassStep => rfl
  | .listKeys => rfl
  | .readState _ => rfl
  | .readAuthority _ => rfl

def samplePr : FleetPrMemo where
  number := 7
  nodeId := js "PR_7"
  repositoryId := js "R_1"
  branch := js "ashlr/fleet/p"
  baseBranch := js "main"
  baseSha := List.replicate 40 0x30
  headSha := List.replicate 40 0x31
  ownerLane := false
  state := .opened
  closedBy := none
  nextCheckAt := none

def sampleState : FleetMergeStateV1 :=
  ⟨js "p", js "o/r", some samplePr, none, none, false⟩

def sampleStart : State :=
  start (fun key => if key = js "p" then some sampleState else none)
    ⟨false, List.replicate 64 0x65, fun _ => some (List.replicate 64 0x64), false⟩

def samplePass : State := ⟨sampleStart.world, some (passUnderLock id 2 sampleState)⟩

theorem samplePass_run : ∃ marks,
    Run (MergeStep id (js "p")) sampleStart marks (Parley.play lostAnswer 50 samplePass) := by
  have stored : sampleStart.world.states (js "p") = some sampleState := by
    simp [sampleStart, start]
  have opened : MergeStep id (js "p") sampleStart () samplePass :=
    .opened (.read 2 stored rfl)
  have answered : ∀ world asked, True →
      reacts (js "p") world asked (lostAnswer world asked).1 (lostAnswer world asked).2 ∧ True :=
    fun world asked _ => ⟨⟨world, .refl, lostAnswer_answers world asked⟩, trivial⟩
  obtain ⟨-, marks, run⟩ := Parley.run_play answered 50 samplePass trivial
  exact ⟨_, (Run.single opened).append run⟩

theorem merges_pinned_lostAnswer :
    ((Parley.play lostAnswer 50 samplePass).world.events.any fun event =>
        match event with
        | .put .. => true
        | _ => false) = true ∧
      Pinned (Parley.play lostAnswer 50 samplePass).world := by
  obtain ⟨marks, run⟩ := samplePass_run
  exact ⟨by decide +kernel, merges_pinned run⟩

end AshlrHub.HostMerge

import AshlrHub.Fleet.HostMergeAuthority

namespace AshlrHub.HostMerge

open Js Authority Lib

/-! What holds of the stores and the events whatever others do. -/

structure Recorded (world : World) : Prop where
  sound : ∀ {id record}, world.authorities id = some record → record.Sound
  marked : ∀ {id action}, Event.transition id action ∈ world.events →
    ∃ record, world.authorities id = some record ∧
      ∃ receipt ∈ record.receipts, receipt.action = action

def Consumed (world : World) (identity : HostMergeRevocationIdentityV1) : Prop :=
  ∃ record, world.authorities (hostMergeRevocationAuthorityId identity) = some record ∧
    record.phase = .consumed

/-- Nothing has happened but on records of the protocol, and none of those that were consumed has
changed. -/
structure Later (world after : World) : Prop where
  events : ∃ more, after.events = world.events ++ more ∧ ∀ event ∈ more, event.isTransition = true
  consumed : ∀ identity, Consumed world identity → Consumed after identity

theorem Later.refl (world : World) : Later world world where
  events := ⟨[], (List.append_nil _).symm, fun _ none => absurd none List.not_mem_nil⟩
  consumed _ held := held

theorem Later.trans {first second third : World} (early : Later first second)
    (late : Later second third) : Later first third where
  events := by
    obtain ⟨more, grown, transitions⟩ := early.events
    obtain ⟨rest, again, further⟩ := late.events
    refine ⟨more ++ rest, by rw [again, grown, List.append_assoc], fun event member => ?_⟩
    exact (List.mem_append.mp member).elim (transitions event) (further event)
  consumed identity held := late.consumed identity (early.consumed identity held)

variable {after : World}

variable {world : World} {identity : HostMergeRevocationIdentityV1}

theorem Later.of_eq (events : after.events = world.events)
    (authorities : after.authorities = world.authorities) : Later world after where
  events := ⟨[], by rw [events, List.append_nil], fun _ none => absurd none List.not_mem_nil⟩
  consumed identity held := by
    obtain ⟨record, stored, phase⟩ := held
    exact ⟨record, by rw [authorities]; exact stored, phase⟩

theorem Later.noneAmbiguous (later : Later world after)
    (settled : NoneAmbiguous world.events) : NoneAmbiguous after.events := by
  obtain ⟨more, grown, transitions⟩ := later.events
  intro event member
  rw [grown] at member
  rcases List.mem_append.mp member with earlier | added
  · exact settled event earlier
  · cases event with
    | put => cases transitions _ added
    | begun => rfl
    | transition => rfl

theorem Later.since
    (later : Later world after) (since : Since identity world.events) :
    Since identity after.events := by
  obtain ⟨more, grown, transitions⟩ := later.events
  obtain ⟨before, middle, split, between⟩ := since
  refine ⟨before, middle ++ more, by rw [grown, split, List.append_assoc, List.cons_append], ?_⟩
  intro event member
  exact (List.mem_append.mp member).elim (between event) (transitions event)

theorem PutsRest.snoc {events : List Event} {event : Event} (rests : PutsRest events)
    (last : ∀ repo identity atContact reply, event = .put repo identity atContact reply →
      PutRests events repo identity atContact) : PutsRest (events ++ [event]) := by
  intro front repo identity atContact reply back same
  rcases snoc_split same with ⟨rfl, put, -⟩ | ⟨rest, -, earlier⟩
  · exact last _ _ _ _ put.symm
  · exact rests _ _ _ _ _ _ earlier

theorem PutsRest.append {first : List Event} (rests : PutsRest first) : (second : List Event) →
    (∀ event ∈ second, event.isTransition = true) → PutsRest (first ++ second)
  | [], _ => by rwa [List.append_nil]
  | event :: second, transitions => by
      rw [List.append_cons]
      refine (rests.snoc ?_).append second fun other member =>
        transitions other (List.mem_cons_of_mem _ member)
      rintro _ _ _ _ rfl
      cases transitions _ List.mem_cons_self

/-! The calls of the protocol. -/

variable {record : HostMergeRevocationStateV1}

theorem readAuthority_healthy
    (read : world.readAuthority identity = .healthy record) :
    world.authorities (hostMergeRevocationAuthorityId identity) = some record := by
  unfold World.readAuthority at read
  split at read
  · cases read
  · rename_i stored found
    split at read
    · cases read
      exact found
    · cases read

theorem readAuthority_missing
    (read : world.readAuthority identity = .missing) :
    world.authorities (hostMergeRevocationAuthorityId identity) = none := by
  unfold World.readAuthority at read
  split at read
  · assumption
  · split at read <;> cases read

variable {call : AuthorityCall}

theorem AuthorityCall.Writes.place {receipt : HostMergeRevocationReceiptV1}
    (writes : call.Writes receipt (world.readAuthority call.identity) record) :
    record.authorityId = hostMergeRevocationAuthorityId call.identity ∧ receipt ∈ record.receipts ∧
      record.phase = receipt.phase ∧
      ∀ old, world.authorities record.authorityId = some old →
        (∀ earlier ∈ old.receipts, earlier ∈ record.receipts) ∧ old.phase ≠ .consumed := by
  generalize read : world.readAuthority call.identity = current at writes
  cases writes with
  | first prepares =>
      refine ⟨rfl, List.mem_singleton_self _, rfl, fun old stored => ?_⟩
      rw [buildState, readAuthority_missing read] at stored
      cases stored
  | next follows =>
      refine ⟨rfl, List.mem_append_right _ (List.mem_singleton_self _), rfl, fun old stored => ?_⟩
      rw [buildState, readAuthority_healthy read] at stored
      cases stored
      refine ⟨fun earlier member => List.mem_append_left _ member, fun consumed => ?_⟩
      rw [consumed] at follows
      revert follows
      cases call.action <;> exact fun follows => by cases follows

theorem record_self (world : World) (receipt : HostMergeRevocationReceiptV1)
    (record : HostMergeRevocationStateV1) :
    (world.record receipt record).authorities record.authorityId = some record :=
  Function.update_self ..

theorem record_other (world : World) (receipt : HostMergeRevocationReceiptV1) {id : JsString}
    (different : id ≠ record.authorityId) :
    (world.record receipt record).authorities id = world.authorities id :=
  Function.update_of_ne different ..

theorem record_later {receipt : HostMergeRevocationReceiptV1}
    (recorded : Recorded world) (named : call.Named) (fresh : receipt.Of call)
    (writes : call.Writes receipt (world.readAuthority call.identity) record) :
    Recorded (world.record receipt record) ∧ Later world (world.record receipt record) := by
  have sound := writes.sound fresh named fun old read =>
    recorded.sound (readAuthority_healthy read)
  obtain ⟨-, added, -, old⟩ := writes.place
  refine ⟨⟨?_, ?_⟩, ⟨?_, ?_⟩⟩
  · intro id other stored
    by_cases same : id = record.authorityId
    · subst same
      rw [record_self] at stored
      cases stored
      exact sound
    · rw [record_other _ _ same] at stored
      exact recorded.sound stored
  · intro id action member
    rcases List.mem_append.mp member with earlier | last
    · obtain ⟨other, stored, receiptBefore, among, of⟩ := recorded.marked earlier
      by_cases same : id = record.authorityId
      · subst same
        exact ⟨record, record_self .., receiptBefore, (old other stored).1 _ among, of⟩
      · exact ⟨other, (record_other _ _ same).trans stored, receiptBefore, among, of⟩
    · cases List.mem_singleton.mp last
      exact ⟨record, record_self .., receipt, added, rfl⟩
  · refine ⟨_, rfl, fun event member => ?_⟩
    rw [List.mem_singleton.mp member]
    rfl
  · rintro identity ⟨other, stored, consumed⟩
    by_cases same : hostMergeRevocationAuthorityId identity = record.authorityId
    · rw [same] at stored
      exact absurd consumed (old other stored).2
    · exact ⟨other, (record_other _ _ same).trans stored, consumed⟩

theorem AuthorityCall.Step.later {call : AuthorityCall} {world after : World}
    {result : HostMergeRevocationWriteResult} (step : call.Step world result after)
    (named : call.Named) (recorded : Recorded world) :
    Recorded after ∧ Later world after ∧ after.states = world.states := by
  cases step with
  | unavailable reason | answered decided => exact ⟨recorded, .refl world, rfl⟩
  | unverified reason decided | written decided =>
      obtain ⟨fresh, writes⟩ := AuthorityCall.writes decided
      obtain ⟨sound, later⟩ := record_later recorded named fresh writes
      exact ⟨sound, later, rfl⟩

theorem AuthorityCall.Step.consumed {result : HostMergeRevocationWriteResult}
    (step : call.Step world result after) (recorded : Recorded world)
    (consumes : call.action = .consume) (named : lastName call.operationId = js "consume")
    (accepted : result.accepted.isSome) :
    Consumed after call.identity := by
  obtain ⟨found, accepted⟩ := Option.isSome_iff_exists.mp accepted
  cases step with
  | unavailable reason => cases accepted
  | answered decided =>
      obtain ⟨_, same⟩ | ⟨_, same⟩ | ⟨record, request, other, read, replayed, same⟩ |
        ⟨_, _, same, -⟩ := AuthorityCall.decides decided
      · cases same
        cases accepted
      · cases same
        cases accepted
      · cases same
        obtain ⟨-, member, identifier⟩ := replayed_mem replayed accepted
        have stored := readAuthority_healthy read
        have sound := recorded.sound stored
        have consumption : found.1.action = .consume :=
          (sound.receipts _ member).named (by rw [identifier, named])
        refine ⟨record, stored, ?_⟩
        rw [sound.phase_of_mem member (.inr consumption), consumption]
        rfl
      · cases same
  | unverified reason decided => cases accepted
  | written decided =>
      obtain ⟨fresh, writes⟩ := AuthorityCall.writes decided
      obtain ⟨place, -, phase, -⟩ := writes.place
      refine ⟨_, by rw [← place]; exact record_self .., ?_⟩
      rw [phase, fresh.phase, consumes]
      rfl

/-! The pinned merge keeps to the protocol, whatever others do meanwhile. -/

structure Inv (key : JsString) (world : World) : Prop where
  recorded : Recorded world
  rests : PutsRest world.events
  consumed : ∀ {repo identity atContact reply},
    Event.put repo identity atContact reply ∈ world.events → Consumed world identity
  held : NoneAmbiguous world.events ∨ (world.states key).any mergeAttemptNeedsReconciliation = true

variable {key : JsString}

theorem Inv.later (inv : Inv key world) (recorded : Recorded after) (later : Later world after)
    (states : after.states key = world.states key) : Inv key after where
  recorded := recorded
  rests := by
    obtain ⟨more, grown, transitions⟩ := later.events
    rw [grown]
    exact inv.rests.append more transitions
  consumed := by
    intro repo identity atContact reply member
    obtain ⟨more, grown, transitions⟩ := later.events
    rw [grown] at member
    rcases List.mem_append.mp member with earlier | added
    · exact later.consumed _ (inv.consumed earlier)
    · cases transitions _ added
  held := by
    rw [states]
    exact inv.held.imp_left later.noneAmbiguous

variable {asked : Request}

/-- Requests by which others may interfere leave the record of `key` alone. -/
theorem Request.Foreign.later {answer : Answer asked}
    (foreign : asked.Foreign key) (inv : Inv key world)
    (answered : answers world asked answer after) :
    Inv key after ∧ Later world after ∧ after.states key = world.states key := by
  have silent : after = world →
      Inv key after ∧ Later world after ∧ after.states key = world.states key := by
    rintro rfl
    exact ⟨inv, .refl _, rfl⟩
  cases asked with
  | nowMs => exact silent answered
  | killEpoch => exact silent answered.2
  | killActive => exact silent answered.2
  | policyEpoch repo => exact silent answered.2
  | randomBytes => exact silent answered
  | noteBegun identity => exact foreign.elim
  | writeState state =>
      rcases answered with rfl | ⟨-, rfl⟩
      · have other : (world.put state).states key = world.states key :=
          Function.update_of_ne (Ne.symm foreign) ..
        exact ⟨inv.later ⟨inv.recorded.sound, inv.recorded.marked⟩ (.of_eq rfl rfl) other,
          .of_eq rfl rfl, other⟩
      · exact ⟨inv, .refl _, rfl⟩
  | prepareAuthority input | transitionAuthority input =>
      obtain ⟨recorded, later, states⟩ := answered.later foreign inv.recorded
      exact ⟨inv.later recorded later (congrFun states key), later, congrFun states key⟩
  | acquireFence =>
      obtain ⟨owned, rfl⟩ := answered
      exact ⟨⟨⟨inv.recorded.sound, inv.recorded.marked⟩, inv.rests, inv.consumed, inv.held⟩,
        .of_eq rfl rfl, rfl⟩
  | ownsFence => exact silent answered.2
  | releaseFence =>
      obtain rfl : after = _ := answered
      exact ⟨⟨⟨inv.recorded.sound, inv.recorded.marked⟩, inv.rests, inv.consumed, inv.held⟩,
        .of_eq rfl rfl, rfl⟩
  | recheck => exact silent answered
  | beforeConsume => exact silent answered
  | token repo => exact silent answered
  | beforeDispatch repo => exact silent answered
  | contact repo identity call =>
      cases answered with
      | refused found | metadata clear => exact ⟨inv, .refl _, rfl⟩
      | put clear => exact foreign.elim
  | nextPassStep => exact silent answered
  | listKeys => exact silent answered
  | readState other => exact silent answered
  | readAuthority identity => exact silent answered

theorem Others.later (inv : Inv key world) (step : Others key world after) :
    Inv key after ∧ Later world after ∧ after.states key = world.states key := by
  cases step with
  | switched switches =>
      exact ⟨⟨⟨inv.recorded.sound, inv.recorded.marked⟩, inv.rests, inv.consumed, inv.held⟩,
        .of_eq rfl rfl, rfl⟩
  | asked foreign answered => exact foreign.later inv answered

theorem others_later (inv : Inv key world)
    (steps : Relation.ReflTransGen (Others key) world after) :
    Inv key after ∧ Later world after ∧ after.states key = world.states key := by
  induction steps with
  | refl => exact ⟨inv, .refl _, rfl⟩
  | tail _ step ih =>
      obtain ⟨still, early, states⟩ := ih
      obtain ⟨kept, late, same⟩ := Others.later still step
      exact ⟨kept, early.trans late, same.trans states⟩

theorem lastName_operationName {operationPrefix : JsString} {name : String}
    (plain : 0x2E ∉ js name) : lastName (operationName operationPrefix name) = js name :=
  lastName_append plain

theorem named_of_ne {operationPrefix : JsString} {name : String}
    (identifier : call.operationId = operationName operationPrefix name) (plain : 0x2E ∉ js name)
    (other : js name ≠ js "consume") : call.Named := by
  intro same
  rw [identifier, lastName_operationName plain] at same
  exact absurd same other

/-! Steps of a dialogue. -/

abbrev Keeping {α : Type} (key : JsString) (final : α → World → Prop) (talk : Merging α)
    (world : World) : Prop :=
  talk.Keeps (reacts key) (Inv key) final world

section

variable {α β : Type} {key : JsString} {final : α → World → Prop} {world : World}

theorem keeping_ask {more : Answer asked → Merging α} (inv : Inv key world)
    (each : ∀ before answer after, Inv key before → Later world before →
      before.states key = world.states key → answers before asked answer after →
        Inv key after ∧ Keeping key final (more answer) after) :
    Keeping key final (ask asked >>= more) world := by
  rintro answer after ⟨before, others, answered⟩
  obtain ⟨still, later, states⟩ := others_later inv others
  exact each before answer after still later states answered

theorem keeping_foreign {more : Answer asked → Merging α} (inv : Inv key world)
    (foreign : asked.Foreign key)
    (each : ∀ answer after, Inv key after → Later world after →
      after.states key = world.states key → Keeping key final (more answer) after) :
    Keeping key final (ask asked >>= more) world := by
  refine keeping_ask inv fun before answer after still early states answered => ?_
  obtain ⟨kept, late, same⟩ := foreign.later still answered
  exact ⟨kept, each answer after kept (early.trans late) (same.trans states)⟩

theorem keeping_andThen (middle : β → World → Prop) {talk : Merging β} {more : β → Merging α}
    (first : Keeping key middle talk world)
    (rest : ∀ value after, middle value after → Keeping key final (more value) after) :
    Keeping key final (talk >>= more) world :=
  Dialogue.Keeps.andThen first rest

theorem keeping_ite {condition : Prop} [Decidable condition] {yes no : Merging α}
    (positive : condition → Keeping key final yes world)
    (negative : ¬ condition → Keeping key final no world) :
    Keeping key final (if condition then yes else no) world :=
  Dialogue.Keeps.ite positive negative

/-- The record of `key` is written: with no put open, or with a memo that says that one is. -/
theorem keeping_write {state : FleetMergeStateV1} {more : Bool → Merging α}
    (inv : Inv key world) (own : state.key = key)
    (held : NoneAmbiguous world.events ∨ mergeAttemptNeedsReconciliation state = true)
    (each : ∀ written after, Inv key after → Later world after →
      (written = true → after.states key = some state) → Keeping key final (more written) after) :
    Keeping key final (ask (.writeState state) >>= more) world := by
  refine keeping_ask inv fun before written after still later _ answered => ?_
  rcases answered with rfl | ⟨failed, rfl⟩
  · have stored : (before.put state).states key = some state := by
      rw [← own]
      exact Function.update_self ..
    have kept : Inv key (before.put state) :=
      { recorded := ⟨still.recorded.sound, still.recorded.marked⟩
        rests := still.rests
        consumed := still.consumed
        held := held.imp later.noneAmbiguous fun needs => by rw [stored]; exact needs }
    exact ⟨kept, each written _ kept (later.trans (.of_eq rfl rfl)) fun _ => stored⟩
  · refine ⟨still, each written _ still later fun succeeded => ?_⟩
    rw [failed] at succeeded
    cases succeeded

end

/-- In memory as in the store: an open put has its memo. -/
def Held (key : JsString) (state : FleetMergeStateV1) (world : World) : Prop :=
  Inv key world ∧ state.key = key ∧
    (NoneAmbiguous world.events ∨ mergeAttemptNeedsReconciliation state = true)

abbrev Leaves (key : JsString) (talk : Merging Attempted) (world : World) : Prop :=
  Keeping key (fun attempted after => Held key attempted.2 after) talk world

section

variable {key : JsString} {state : FleetMergeStateV1} {attempt : MergeAttemptMemo}
  {phase : MergeAttemptPhase} {error : Option JsString} {world : World}

section

variable (inv : Inv key world) (own : state.key = key)
  (held : NoneAmbiguous world.events ∨
    mergeAttemptNeedsReconciliation (state.at attempt phase error) = true)
include inv own held

theorem keeping_settle {α : Type} {final : α → World → Prop} {more : FleetMergeStateV1 → Merging α}
    (each : ∀ after, Inv key after → Later world after →
      Keeping key final (more (state.at attempt phase error)) after) :
    Keeping key final (settle state attempt phase error >>= more) world := by
  change Keeping key final (ask (.writeState _) >>= fun _ => more _) world
  exact keeping_write inv own held fun _ after kept later _ => each after kept later

theorem leaves_settle {outcome : PinnedMergeOutcome} :
    Leaves key (settle state attempt phase error >>= fun state => pure (outcome, state)) world :=
  keeping_settle inv own held fun _ kept later => ⟨kept, own, held.imp_left later.noneAmbiguous⟩

end

end

/-! Sending. -/

section

variable {key : JsString} {identity : HostMergeRevocationIdentityV1} {repo : JsString}
  {number : ℤ} {headSha : JsString} {stored : FleetMergeStateV1} {world : World}

/-- Everything is set for the contact. -/
structure Ready (key : JsString) (identity : HostMergeRevocationIdentityV1) (world : World) :
    Prop where
  settled : NoneAmbiguous world.events
  since : Since identity world.events
  consumed : Consumed world identity
  memo : (world.states key).any mergeAttemptNeedsReconciliation = true

theorem Ready.later (ready : Ready key identity world) (later : Later world after)
    (states : after.states key = world.states key) : Ready key identity after where
  settled := later.noneAmbiguous ready.settled
  since := later.since ready.since
  consumed := later.consumed _ ready.consumed
  memo := by rw [states]; exact ready.memo

theorem unchanged_of_clear {switches : Switches} {nowMs : ℤ}
    (clear : contactRefusal switches nowMs repo identity = none) :
    switches.Unchanged repo identity := by
  unfold contactRefusal at clear
  split at clear
  · cases clear
  · split at clear
    · cases clear
    · rename_i kill
      split at clear
      · cases clear
      · rename_i policy
        rw [not_or, Bool.not_eq_true, not_not] at kill
        exact ⟨kill.1, kill.2, not_not.mp policy⟩

/-- What is known once the request was made, or was not. -/
def Replied (key : JsString) (answer : MergeReply) (world : World) : Prop :=
  Inv key world ∧ match answer with
    | .sent reply => reply.unresolved = false → NoneAmbiguous world.events
    | _ => NoneAmbiguous world.events

section

variable (inv : Inv key world) (ready : Ready key identity world)
include inv ready

theorem Inv.put {nowMs : ℤ}
    (clear : contactRefusal world.switches nowMs repo identity = none) (reply : GithubReply) :
    Inv key (world.remark (.put repo identity world.switches reply)) where
  recorded := by
    refine ⟨inv.recorded.sound, fun member => ?_⟩
    rcases List.mem_append.mp member with earlier | last
    · exact inv.recorded.marked earlier
    · cases List.mem_singleton.mp last
  rests := inv.rests.snoc fun _ _ _ _ same => by
    cases same
    exact ⟨unchanged_of_clear clear, ready.since, ready.settled⟩
  consumed := by
    intro _ _ _ _ member
    rcases List.mem_append.mp member with earlier | last
    · exact inv.consumed earlier
    · cases List.mem_singleton.mp last
      exact ready.consumed
  held := .inr ready.memo

theorem keeping_contactPut :
    Keeping key (Replied key) (contactPut repo identity (.putMerge repo number headSha)) world := by
  refine keeping_ask inv fun before answer after still later states answered => ?_
  cases answered with
  | refused found => exact ⟨still, still, later.noneAmbiguous ready.settled⟩
  | put clear =>
      have kept := still.put (ready.later later states) clear
      refine ⟨kept _, kept _, fun resolved event member => ?_⟩
      rcases List.mem_append.mp member with earlier | last
      · exact later.noneAmbiguous ready.settled event earlier
      · rw [List.mem_singleton.mp last]
        exact resolved

theorem keeping_contactHub :
    Keeping key (Replied key) (contactHub repo identity (.putMerge repo number headSha)) world := by
  refine keeping_foreign inv trivial fun answer after kept later states => ?_
  have still := ready.later later states
  cases answer with
  | refused refusal => exact ⟨kept, still.settled⟩
  | replied reply =>
      refine keeping_ite (fun _ => ⟨kept, still.settled⟩) fun _ => ?_
      refine keeping_ite (fun _ => ⟨kept, still.settled⟩) fun _ => ?_
      refine keeping_foreign kept trivial fun allowed last held further same => ?_
      refine keeping_ite (fun _ => ?_) fun _ => ⟨held, (still.later further same).settled⟩
      exact keeping_contactPut held (still.later further same)

theorem keeping_gh :
    Keeping key (Replied key) (gh repo identity (.putMerge repo number headSha)) world := by
  refine keeping_foreign inv trivial fun token after kept later states => ?_
  have still := ready.later later states
  refine keeping_ite (fun _ => ?_) fun _ => ⟨kept, still.settled⟩
  exact keeping_ite (fun _ => keeping_contactHub kept still) fun _ => keeping_contactPut kept still

end

end

end AshlrHub.HostMerge

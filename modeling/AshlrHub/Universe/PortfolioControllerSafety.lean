import AshlrHub.Universe.PortfolioControllerHistory

namespace AshlrHub.Universe

open Js Artifacts Lib

/-! The fold keeps what its history says, so its admission is safe over every run. -/

variable {keysInOrder : JsString → JsString → Bool} {history : List PortfolioControllerEvent}
  {folded next : Folded} {event : PortfolioControllerEvent}

structure TracksControl (history : List PortfolioControllerEvent)
    (control : Option UniversePortfolioControllerControl) : Prop where
  known : ∀ event ∈ history, event.sequence < history.length
  resumes : ∀ drainSequence, Resumed history drainSequence → drainSequence < history.length
  drains : ∀ event ∈ history, event.kind = .drain → Resumed history event.sequence ∨
    ∃ held, control = some held ∧ held.mode = .drain ∧ held.sequence = event.sequence
  outstanding : ∀ held, control = some held → held.mode = .drain →
    (∃ event ∈ history, event.kind = .drain ∧ event.sequence = held.sequence) ∧
      ¬ Resumed history held.sequence

structure Tracks (history : List PortfolioControllerEvent) (folded : Folded) : Prop where
  sound : folded.first.Sound
  registered : Registered history folded.first
  intents : folded.intents = intentsOf history
  intentOnce : (intentsOf history).Nodup
  settledOnce : (settledIds history).Nodup
  settledIntended : ∀ campaignId ∈ settledIds history, campaignId ∈ intentsOf history
  keysOnce : folded.states.keys.Nodup
  named : ∀ campaignId current, folded.states.get? campaignId = some current →
    campaignId ∈ folded.first.ids
  intended : ∀ campaignId ∈ intentsOf history, (folded.states.get? campaignId).isSome = true
  running : ∀ campaignId current, folded.states.get? campaignId = some current →
    (current.state = .inFlight ↔ campaignId ∈ inFlightIn history)
  completed : ∀ campaignId current, folded.states.get? campaignId = some current →
    current.state = .completed → CompletedIn folded.first history campaignId
  delivered : ∀ outcome ∈ settlementsOf history, outcome.state = .completed →
    folded.first.planned outcome.campaignId = true → outcome.deliveryDigest ≠ none
  control : TracksControl history folded.control

namespace TracksControl

variable {control : Option UniversePortfolioControllerControl}

theorem known_snoc (known : ∀ other ∈ history, other.sequence < history.length)
    (numbered : event.sequence = history.length) :
    ∀ other ∈ history ++ [event], other.sequence < (history ++ [event]).length := by
  intro other member
  rw [List.length_append, List.length_singleton]
  rcases List.mem_append.mp member with old | new
  · exact Nat.lt_succ_of_lt (known other old)
  · rw [List.mem_singleton.mp new, numbered]
    exact Nat.lt_succ_self _

theorem other (tracks : TracksControl history control)
    (numbered : event.sequence = history.length) (noDrain : event.kind ≠ .drain)
    (noResume : ∀ drainSequence, event.kind ≠ .resume drainSequence) :
    TracksControl (history ++ [event]) control where
  known := known_snoc tracks.known numbered
  resumes := by
    intro drainSequence resumed
    rw [List.length_append, List.length_singleton]
    have old := (resumed_snoc.mp resumed).resolve_right (noResume drainSequence)
    exact Nat.lt_succ_of_lt (tracks.resumes drainSequence old)
  drains := by
    intro drain member kind
    rcases List.mem_append.mp member with old | new
    · exact (tracks.drains drain old kind).imp_left fun resumed => resumed_snoc.mpr (.inl resumed)
    · exact absurd (List.mem_singleton.mp new ▸ kind) noDrain
  outstanding := by
    intro held same draining
    obtain ⟨⟨drain, member, requested⟩, unresumed⟩ := tracks.outstanding held same draining
    refine ⟨⟨drain, List.mem_append_left _ member, requested⟩, ?_⟩
    intro resumed
    exact (resumed_snoc.mp resumed).elim unresumed (noResume held.sequence)

theorem acknowledge {held : UniversePortfolioControllerControl}
    (tracks : TracksControl history (some held)) (acknowledgedAt : Option JsString) :
    TracksControl history (some { held with acknowledgedAt := acknowledgedAt }) where
  known := tracks.known
  resumes := tracks.resumes
  drains := by
    intro drain member kind
    refine (tracks.drains drain member kind).imp_right ?_
    rintro ⟨_, same, draining, named⟩
    cases same
    exact ⟨_, rfl, draining, named⟩
  outstanding := by
    intro _ same draining
    cases same
    exact tracks.outstanding held rfl draining

theorem drain {atTime : JsString} (tracks : TracksControl history control)
    (numbered : event.sequence = history.length) (kind : event.kind = .drain)
    (opened : ∀ held, control = some held → held.mode ≠ .drain) :
    TracksControl (history ++ [event]) (some ⟨.drain, event.sequence, atTime, none⟩) := by
  have noResume : ∀ drainSequence, event.kind ≠ .resume drainSequence := by
    intro drainSequence resume
    rw [kind] at resume
    cases resume
  have kept : ∀ drainSequence, Resumed (history ++ [event]) drainSequence →
      Resumed history drainSequence := fun drainSequence resumed =>
    (resumed_snoc.mp resumed).resolve_right (noResume drainSequence)
  constructor
  · exact known_snoc tracks.known numbered
  · intro drainSequence resumed
    rw [List.length_append, List.length_singleton]
    exact Nat.lt_succ_of_lt (tracks.resumes drainSequence (kept drainSequence resumed))
  · intro known member drained
    rcases List.mem_append.mp member with old | new
    · refine .inl (resumed_snoc.mpr (.inl ?_))
      refine (tracks.drains known old drained).resolve_right ?_
      rintro ⟨held, same, draining, _⟩
      exact opened held same draining
    · rw [List.mem_singleton.mp new]
      exact .inr ⟨_, rfl, rfl, rfl⟩
  · intro held same _
    cases same
    refine ⟨⟨event, List.mem_append_right _ List.mem_cons_self, kind, rfl⟩, ?_⟩
    intro resumed
    have before := tracks.resumes event.sequence (kept event.sequence resumed)
    rw [numbered] at before
    exact lt_irrefl _ before

theorem resume {held : UniversePortfolioControllerControl} {atTime : JsString}
    (tracks : TracksControl history (some held)) (numbered : event.sequence = history.length)
    (kind : event.kind = .resume held.sequence) (draining : held.mode = .drain) :
    TracksControl (history ++ [event]) (some ⟨.opened, event.sequence, atTime, none⟩) := by
  constructor
  · exact known_snoc tracks.known numbered
  · intro drainSequence resumed
    rw [List.length_append, List.length_singleton]
    apply Nat.lt_succ_of_lt
    rcases resumed_snoc.mp resumed with old | new
    · exact tracks.resumes drainSequence old
    · rw [kind] at new
      cases new
      obtain ⟨⟨drain, member, _, named⟩, _⟩ := tracks.outstanding held rfl draining
      rw [← named]
      exact tracks.known drain member
  · intro known member drained
    left
    rw [resumed_snoc]
    rcases List.mem_append.mp member with old | new
    · refine (tracks.drains known old drained).imp_right ?_
      rintro ⟨_, same, _, named⟩
      cases same
      rw [kind, named]
    · rw [List.mem_singleton.mp new, kind] at drained
      cases drained
  · intro _ same opened
    cases same
    cases opened

end TracksControl

namespace Tracks

variable {enrolled : PortfolioControllerEnrollment}

theorem start (created : event.kind = .created enrolled) (parsed : parse keysInOrder event = true) :
    Tracks [event] (Folded.start enrolled event.atTime) := by
  obtain ⟨zero, sound⟩ := parse_created parsed created
  have pinKeys : ((enrolled.pins.map fun pin => (pin.campaignId, pin)).map Prod.fst).Nodup := by
    rw [List.map_map]
    exact sound.once
  have pinStates : (Folded.start enrolled event.atTime).states =
      enrolled.pins.map fun pin => (pin.campaignId, pin.outcome) := by
    have stateKeys : ((enrolled.pins.map fun pin => (pin.campaignId, pin.outcome)).map
        Prod.fst).Nodup := by
      rw [List.map_map]
      exact sound.once
    rw [Folded.start, JsMap.ofEntries_eq pinKeys]
    dsimp only
    rw [List.map_map]
    exact JsMap.ofEntries_eq stateKeys
  have stateOf : ∀ {campaignId current},
      (Folded.start enrolled event.atTime).states.get? campaignId = some current →
      ∃ pin ∈ enrolled.pins, pin.campaignId = campaignId ∧ pin.outcome = current := by
    intro campaignId current found
    have member := JsMap.mem_of_get? found
    rw [pinStates] at member
    obtain ⟨pin, pinned, spelled⟩ := List.mem_map.mp member
    cases spelled
    exact ⟨pin, pinned, rfl, rfl⟩
  have noIntent : intentsOf [event] = [] := by simp [intentsOf, created, EventKind.intended]
  have noOutcome : settlementsOf [event] = [] := by simp [settlementsOf, created, EventKind.outcome]
  constructor
  · exact sound
  · exact ⟨event, rfl, created⟩
  · exact noIntent.symm
  · rw [noIntent]
    exact List.nodup_nil
  · rw [settledIds, noOutcome]
    exact List.nodup_nil
  · rw [settledIds, noOutcome]
    exact fun _ absent => absurd absent List.not_mem_nil
  · rw [JsMap.keys, pinStates, List.map_map]
    exact sound.once
  · intro campaignId current found
    obtain ⟨pin, pinned, rfl, _⟩ := stateOf found
    exact sound.pinned ▸ List.mem_map_of_mem pinned
  · intro campaignId member
    rw [noIntent] at member
    exact absurd member List.not_mem_nil
  · intro campaignId current found
    obtain ⟨pin, pinned, rfl, rfl⟩ := stateOf found
    rw [mem_inFlightIn, noIntent]
    exact iff_of_false (sound.idle pin pinned) fun both => List.not_mem_nil both.1
  · intro campaignId current found completed
    obtain ⟨pin, pinned, rfl, rfl⟩ := stateOf found
    exact .inr ⟨pin, pinned, rfl, completed⟩
  · intro outcome member
    rw [noOutcome] at member
    exact absurd member List.not_mem_nil
  · constructor
    · intro known member
      rw [List.mem_singleton.mp member, zero]
      exact Nat.one_pos
    · rintro drainSequence ⟨known, member, resume⟩
      rw [List.mem_singleton.mp member, created] at resume
      cases resume
    · intro known member drain
      rw [List.mem_singleton.mp member, created] at drain
      cases drain
    · intro held same
      cases same

theorem registered_snoc (registered : Registered history enrolled) :
    Registered (history ++ [event]) enrolled := by
  obtain ⟨first, head, created⟩ := registered
  cases history with
  | nil => cases head
  | cons start rest => exact ⟨first, head, created⟩

theorem quiet (tracks : Tracks history folded) (noIntent : event.kind.intended = none)
    (noOutcome : event.kind.outcome = none) (first : next.first = folded.first)
    (intents : next.intents = folded.intents) (states : next.states = folded.states)
    (control : TracksControl (history ++ [event]) next.control) :
      Tracks (history ++ [event]) next := by
  have sameIntents : intentsOf (history ++ [event]) = intentsOf history := by
    rw [intentsOf_snoc, noIntent, Option.toList_none, List.append_nil]
  have sameOutcomes : settlementsOf (history ++ [event]) = settlementsOf history := by
    rw [settlementsOf_snoc, noOutcome, Option.toList_none, List.append_nil]
  have sameFlight : inFlightIn (history ++ [event]) = inFlightIn history := by
    rw [inFlightIn, inFlightIn, sameIntents, settledIds, sameOutcomes, settledIds]
  constructor
  · exact first ▸ tracks.sound
  · exact first ▸ registered_snoc tracks.registered
  · rw [intents, sameIntents]
    exact tracks.intents
  · exact sameIntents ▸ tracks.intentOnce
  · rw [settledIds, sameOutcomes]
    exact tracks.settledOnce
  · rw [settledIds, sameOutcomes, sameIntents]
    exact tracks.settledIntended
  · exact states ▸ tracks.keysOnce
  · rw [states, first]
    exact tracks.named
  · rw [states, sameIntents]
    exact tracks.intended
  · rw [states, sameFlight]
    exact tracks.running
  · rw [states, first]
    exact fun campaignId current found completed =>
      (tracks.completed campaignId current found completed).snoc
  · rw [sameOutcomes, first]
    exact tracks.delivered
  · exact control

variable {campaignId : JsString}

theorem intend {dispatchId : Option JsString} {current moved : UniversePortfolioControllerOutcome}
    (tracks : Tracks history folded) (numbered : event.sequence = history.length)
    (kind : event.kind = .intent campaignId dispatchId)
    (held : folded.states.get? campaignId = some current) (new : campaignId ∉ folded.intents)
    (running : moved.state = .inFlight) (first : next.first = folded.first)
    (intents : next.intents = folded.intents ++ [campaignId])
    (states : next.states = folded.states.set campaignId moved)
    (control : next.control = folded.control) : Tracks (history ++ [event]) next := by
  have moreIntents : intentsOf (history ++ [event]) = intentsOf history ++ [campaignId] := by
    rw [intentsOf_snoc, kind]
    rfl
  have sameOutcomes : settlementsOf (history ++ [event]) = settlementsOf history := by
    rw [settlementsOf_snoc, kind]
    exact List.append_nil _
  have sameSettled : settledIds (history ++ [event]) = settledIds history := by
    rw [settledIds, sameOutcomes, settledIds]
  have unsettled : campaignId ∉ settledIds history := fun settled =>
    new (tracks.intents ▸ tracks.settledIntended campaignId settled)
  constructor
  · exact first ▸ tracks.sound
  · exact first ▸ registered_snoc tracks.registered
  · rw [intents, moreIntents, tracks.intents]
  · rw [moreIntents, ← List.concat_eq_append]
    exact tracks.intentOnce.concat (tracks.intents ▸ new)
  · exact sameSettled ▸ tracks.settledOnce
  · rw [sameSettled, moreIntents]
    exact fun other settled => List.mem_append_left _ (tracks.settledIntended other settled)
  · rw [states, JsMap.keys_set held]
    exact tracks.keysOnce
  · intro other outcome found
    rw [states, JsMap.get?_set] at found
    rw [first]
    split_ifs at found with same
    · exact same ▸ tracks.named campaignId current held
    · exact tracks.named other outcome found
  · intro other member
    rw [states, JsMap.get?_set]
    split_ifs with same
    · rfl
    · rw [moreIntents, List.mem_append, List.mem_singleton] at member
      exact tracks.intended other (member.resolve_right same)
  · intro other outcome found
    rw [states, JsMap.get?_set] at found
    rw [mem_inFlightIn, moreIntents, sameSettled, List.mem_append, List.mem_singleton]
    split_ifs at found with same
    · cases found
      exact iff_of_true running ⟨.inr same, same ▸ unsettled⟩
    · rw [tracks.running other outcome found, mem_inFlightIn, or_iff_left same]
  · intro other outcome found completed
    rw [states, JsMap.get?_set] at found
    rw [first]
    split_ifs at found with same
    · cases found
      rw [running] at completed
      cases completed
    · exact (tracks.completed other outcome found completed).snoc
  · rw [sameOutcomes, first]
    exact tracks.delivered
  · rw [control]
    refine tracks.control.other numbered ?_ ?_ <;> simp [kind]

theorem settle {outcome current : UniversePortfolioControllerOutcome} {recordsDigest : JsString}
    (tracks : Tracks history folded) (numbered : event.sequence = history.length)
    (kind : event.kind = .settled outcome recordsDigest)
    (held : folded.states.get? outcome.campaignId = some current)
    (running : current.state = .inFlight) (ended : outcome.state ≠ .inFlight)
    (delivered : outcome.state = .completed → folded.first.planned outcome.campaignId = true →
      outcome.deliveryDigest ≠ none)
    (first : next.first = folded.first) (intents : next.intents = folded.intents)
    (states : next.states = folded.states.set outcome.campaignId outcome)
    (control : next.control = folded.control) : Tracks (history ++ [event]) next := by
  have sameIntents : intentsOf (history ++ [event]) = intentsOf history := by
    rw [intentsOf_snoc, kind]
    exact List.append_nil _
  have moreOutcomes : settlementsOf (history ++ [event]) = settlementsOf history ++ [outcome] := by
    rw [settlementsOf_snoc, kind]
    rfl
  have moreSettled : settledIds (history ++ [event]) =
      settledIds history ++ [outcome.campaignId] := by
    rw [settledIds, moreOutcomes, List.map_append, settledIds]
    rfl
  have flying := mem_inFlightIn.mp ((tracks.running outcome.campaignId current held).mp running)
  constructor
  · exact first ▸ tracks.sound
  · exact first ▸ registered_snoc tracks.registered
  · rw [intents, sameIntents]
    exact tracks.intents
  · exact sameIntents ▸ tracks.intentOnce
  · rw [moreSettled, ← List.concat_eq_append]
    exact tracks.settledOnce.concat flying.2
  · intro other member
    rw [moreSettled, List.mem_append, List.mem_singleton] at member
    rw [sameIntents]
    rcases member with old | rfl
    · exact tracks.settledIntended other old
    · exact flying.1
  · rw [states, JsMap.keys_set held]
    exact tracks.keysOnce
  · intro other result found
    rw [states, JsMap.get?_set] at found
    rw [first]
    split_ifs at found with same
    · exact same ▸ tracks.named outcome.campaignId current held
    · exact tracks.named other result found
  · intro other member
    rw [states, JsMap.get?_set]
    split_ifs with same
    · rfl
    · exact tracks.intended other (sameIntents ▸ member)
  · intro other result found
    rw [states, JsMap.get?_set] at found
    rw [mem_inFlightIn, sameIntents, moreSettled, List.mem_append, List.mem_singleton]
    split_ifs at found with same
    · cases found
      exact iff_of_false ended fun both => both.2 (.inr same)
    · rw [tracks.running other result found, mem_inFlightIn, or_iff_left same]
  · intro other result found completed
    rw [states, JsMap.get?_set] at found
    rw [first]
    split_ifs at found with same
    · cases found
      refine .inl ⟨outcome, ?_, same.symm, completed⟩
      rw [moreOutcomes]
      exact List.mem_append_right _ List.mem_cons_self
    · exact (tracks.completed other result found completed).snoc
  · intro result member
    rw [moreOutcomes, List.mem_append, List.mem_singleton] at member
    rw [first]
    rcases member with old | rfl
    · exact tracks.delivered result old
    · exact delivered
  · rw [control]
    refine tracks.control.other numbered ?_ ?_ <;> simp [kind]

section

variable (tracks : Tracks history folded)
include tracks

theorem step (parsed : parse keysInOrder event = true)
    (numbered : event.sequence = history.length) (taken : FoldStep keysInOrder folded event next) :
    Tracks (history ++ [event]) next := by
  cases taken with
  | observed kind =>
      refine tracks.quiet ?_ ?_ rfl rfl rfl (tracks.control.other numbered ?_ ?_) <;>
        simp [kind, EventKind.intended, EventKind.outcome]
  | drain kind opened =>
      refine tracks.quiet ?_ ?_ rfl rfl rfl (tracks.control.drain numbered kind ?_)
      · rw [kind]
        rfl
      · rw [kind]
        rfl
      · intro held same draining
        rw [Folded.draining, same] at opened
        simp [draining] at opened
  | resume kind held draining acknowledged =>
      refine tracks.quiet ?_ ?_ rfl rfl rfl
        (TracksControl.resume (held ▸ tracks.control) numbered kind draining)
      · rw [kind]
        rfl
      · rw [kind]
        rfl
  | drained kind held draining unacknowledged idle =>
      have control := (held ▸ tracks.control : TracksControl history (some _)).acknowledge
        (some event.atTime)
      refine tracks.quiet ?_ ?_ rfl rfl rfl (control.other numbered ?_ ?_) <;>
        simp [kind, EventKind.intended, EventKind.outcome]
  | intent kind opened held pending new early room waits completed =>
      exact tracks.intend numbered kind held new rfl rfl rfl rfl rfl
  | diagnostic kind new =>
      refine tracks.quiet ?_ ?_ rfl rfl rfl (tracks.control.other numbered ?_ ?_) <;>
        simp [kind, EventKind.intended, EventKind.outcome]
  | settled kind held running delivered =>
      have ended := parse_settled parsed kind
      refine tracks.settle numbered kind held running ?_ delivered rfl rfl rfl rfl
      rintro same
      rw [same] at ended
      rcases ended with completed | held
      · cases completed
      · cases held

theorem later (atTime : JsString) :
    Tracks history { folded with highWaterAt := atTime } :=
  { tracks with }

theorem inFlight_eq :
    folded.inFlight = (inFlightIn history).length := by
  have counted : ((folded.states.filter fun entry => entry.2.state = .inFlight).map
      Prod.fst).Perm (inFlightIn history) := by
    apply (List.perm_ext_iff_of_nodup ?_ ?_).mpr
    · intro campaignId
      rw [List.mem_map]
      constructor
      · rintro ⟨⟨_, current⟩, member, rfl⟩
        rw [List.mem_filter, decide_eq_true_eq] at member
        exact (tracks.running _ current (JsMap.get?_of_mem tracks.keysOnce member.1)).mp member.2
      · intro flying
        obtain ⟨current, held⟩ := Option.isSome_iff_exists.mp
          (tracks.intended campaignId (mem_inFlightIn.mp flying).1)
        refine ⟨(campaignId, current), ?_, rfl⟩
        rw [List.mem_filter, decide_eq_true_eq]
        exact ⟨JsMap.mem_of_get? held, (tracks.running campaignId current held).mpr flying⟩
    · exact tracks.keysOnce.sublist (List.filter_sublist.map _)
    · exact tracks.intentOnce.filter _
  rw [Folded.inFlight, ← List.length_map Prod.fst]
  exact counted.length_eq

theorem deliveredIn (completed : CompletedIn folded.first history campaignId)
    (planned : folded.first.planned campaignId = true) : DeliveredIn history campaignId := by
  rcases completed with ⟨outcome, member, rfl, state⟩ | ⟨pin, pinned, rfl, state⟩
  · have digest := tracks.delivered outcome member state planned
    exact ⟨outcome, member, rfl, state, Option.ne_none_iff_exists'.mp digest⟩
  · rw [tracks.sound.undelivered pin pinned state] at planned
    cases planned

theorem undrained (opened : folded.draining = false) :
    ¬ DrainOutstanding history := by
  rintro ⟨drain, member, kind, unresumed⟩
  obtain ⟨held, same, draining, _⟩ :=
    (tracks.control.drains drain member kind).resolve_left unresumed
  rw [Folded.draining, same] at opened
  simp [draining] at opened

section

variable (taken : FoldStep keysInOrder folded event next)
include taken

theorem admissible (intent : event.kind.intended = some campaignId) :
    Admissible folded.first history event.atTime campaignId := by
  cases taken with
  | @intent campaignId dispatchId current pinned prerequisites kind opened held pending new early
      room waits completed =>
      rw [kind] at intent
      cases intent
      have gates := tracks.sound.mem_prerequisites waits
      have done : ∀ dependency ∈ prerequisites,
          CompletedIn folded.first history dependency := by
        intro dependency member
        have state := List.all_eq_true.mp completed dependency member
        cases found : folded.states.get? dependency with
        | none =>
            rw [found] at state
            cases state
        | some outcome =>
            rw [found] at state
            exact tracks.completed dependency outcome found (of_decide_eq_true state)
      constructor
      · exact tracks.named campaignId current held
      · exact tracks.undrained opened
      · exact early
      · exact tracks.inFlight_eq ▸ room
      · exact fun dependency waits => done dependency ((gates dependency).mpr (.inl waits))
      · intro ancestor path planned
        exact tracks.deliveredIn (done ancestor ((gates ancestor).mpr (.inr ⟨path, planned⟩)))
          planned
  | observed kind | drain kind | resume kind | drained kind | diagnostic kind | settled kind =>
      rw [kind] at intent
      cases intent

theorem acknowledgeable {drainSequence : ℕ} (kind : event.kind = .drained drainSequence) :
    Quiet history drainSequence := by
  cases taken with
  | @drained control same held draining unacknowledged idle =>
      rw [same] at kind
      cases kind
      obtain ⟨requested, unresumed⟩ := tracks.control.outstanding control held draining
      refine ⟨requested, unresumed, List.eq_nil_iff_forall_not_mem.mpr ?_⟩
      intro campaignId flying
      obtain ⟨current, state⟩ := Option.isSome_iff_exists.mp
        (tracks.intended campaignId (mem_inFlightIn.mp flying).1)
      exact idle (campaignId, current) (JsMap.mem_of_get? state)
        ((tracks.running campaignId current state).mpr flying)
  | observed same | drain same | resume same | intent same | diagnostic same | settled same =>
      rw [same] at kind
      cases kind

theorem settleable {outcome : UniversePortfolioControllerOutcome}
    (kind : event.kind.outcome = some outcome) :
    outcome.campaignId ∈ inFlightIn history := by
  cases taken with
  | @settled settlement current recordsDigest same held running delivered =>
      rw [same] at kind
      cases kind
      exact (tracks.running outcome.campaignId current held).mp running
  | observed same | drain same | resume same | drained same | intent same | diagnostic same =>
      rw [same] at kind
      cases kind

end

end

end Tracks

theorem foldPortfolioController_tracks
    (accepted : foldPortfolioController keysInOrder history = .ok folded) :
    Tracks history folded :=
  foldPortfolioController_induction (fun created parsed => Tracks.start created parsed)
    (fun tracks parsed numbered taken => (tracks.later _).step parsed numbered taken) history
      accepted

theorem registered_unique {other : PortfolioControllerEnrollment}
    {front back : List PortfolioControllerEvent} (registered : Registered front enrolled)
    (whole : Registered (front ++ back) other) : enrolled = other := by
  obtain ⟨first, head, created⟩ := registered
  obtain ⟨same, sameHead, sameCreated⟩ := whole
  cases front with
  | nil => cases head
  | cons start rest =>
      cases head
      cases sameHead
      rw [created] at sameCreated
      exact EventKind.created.inj sameCreated

theorem before_registered {before behind : List PortfolioControllerEvent}
    (registered : Registered (before ++ event :: behind) enrolled)
    (later : event.kind ≠ .created enrolled) : before ≠ [] := by
  rintro rfl
  obtain ⟨first, head, created⟩ := registered
  cases head
  exact later created

theorem dispatchSafe_of_accepted
    (accepted : foldPortfolioController keysInOrder history = .ok folded) :
    DispatchSafe folded.first history := by
  have tracks := foldPortfolioController_tracks accepted
  have front : ∀ {before behind : List PortfolioControllerEvent} {event : PortfolioControllerEvent},
      history = before ++ event :: behind → event.kind ≠ .created folded.first →
      ∃ state next, Tracks before state ∧ state.first = folded.first ∧
        FoldStep keysInOrder state event next := by
    rintro before behind event rfl later
    have some := before_registered tracks.registered later
    obtain ⟨state, next, folds, taken⟩ := foldPortfolioController_split some accepted
    have earlier := foldPortfolioController_tracks folds
    exact ⟨_, next, earlier.later event.atTime,
      registered_unique earlier.registered tracks.registered, taken⟩
  constructor
  · exact tracks.intentOnce
  · exact tracks.settledOnce
  · intro before event behind outcome spelled kind
    obtain ⟨state, next, earlier, _, taken⟩ := front spelled fun created => by
      rw [created] at kind
      cases kind
    exact earlier.settleable taken kind
  · intro before event behind campaignId spelled kind
    obtain ⟨state, next, earlier, same, taken⟩ := front spelled fun created => by
      rw [created] at kind
      cases kind
    exact same ▸ earlier.admissible taken kind
  · intro before event behind drainSequence spelled kind
    obtain ⟨state, next, earlier, _, taken⟩ := front spelled fun created => by
      rw [created] at kind
      cases kind
    exact earlier.acknowledgeable taken kind
  · intro before event middle dispatch behind drainSequence spelled kind intended
    obtain ⟨campaignId, intent⟩ := Option.isSome_iff_exists.mp intended
    obtain ⟨state, next, earlier, _, taken⟩ := front
      (spelled.trans (List.append_assoc _ _ _)) fun created => by
        rw [created] at kind
        cases kind
    obtain ⟨drain, member, requested, named⟩ := (earlier.acknowledgeable taken kind).requested
    have unresumed := (earlier.acknowledgeable taken kind).unresumed
    obtain ⟨later, last, dispatched, same, admitted⟩ := front spelled fun created => by
      rw [created] at intent
      cases intent
    -- The drain precedes the intent, so it was resumed: not before its acknowledgement.
    have open_ := (dispatched.admissible admitted intent).undrained
    by_contra unresumedMiddle
    refine open_ ⟨drain, List.mem_append_left _ member, requested, ?_⟩
    rintro ⟨resume, resumeMember, resumes⟩
    rw [named] at resumes
    rcases List.mem_append.mp resumeMember with old | new
    · exact unresumed ⟨resume, old, resumes⟩
    · rcases List.mem_cons.mp new with rfl | inside
      · rw [kind] at resumes
        cases resumes
      · exact unresumedMiddle ⟨resume, inside, resumes⟩

/-! Runs. -/

variable {records : List PortfolioControllerEvent}

theorem appendUnlocked_ok {published : List PortfolioControllerEvent} {input : EventInput}
    {options : AppendOptions}
    (appended : appendUnlocked keysInOrder records input options = .ok published) :
    published = records ++ [input.event records] ∧
      ∃ folded, foldPortfolioController keysInOrder published = .ok folded ∧
        hasCapacity keysInOrder input.kind published folded = true := by
  unfold appendUnlocked at appended
  obtain ⟨_, _, checked⟩ := bind_eq_ok.mp appended
  obtain ⟨_, _, intents⟩ := bind_eq_ok.mp checked
  obtain ⟨_, _, settlements⟩ := bind_eq_ok.mp intents
  obtain ⟨_, _, diagnostics⟩ := bind_eq_ok.mp settlements
  obtain ⟨folded, accepted, room⟩ := bind_eq_ok.mp diagnostics
  obtain ⟨fits, finished⟩ := refuse_eq_ok.mp room
  cases finished
  exact ⟨rfl, folded, mapError_eq_ok.mp accepted, Bool.not_eq_false _ ▸ fits⟩

def Accepted (keysInOrder : JsString → JsString → Bool) (records : List PortfolioControllerEvent) :
    Prop :=
  ∃ folded, foldPortfolioController keysInOrder records = .ok folded

variable {ledger : Option (List PortfolioControllerEvent)}

theorem readPortfolioControllerEvents_ok
    (read : readPortfolioControllerEvents keysInOrder ledger = .ok records) :
    ledger = some records ∧ Accepted keysInOrder records := by
  cases ledger with
  | none => cases read
  | some held =>
      obtain ⟨folded, accepted, rfl⟩ := map_eq_ok.mp read
      exact ⟨rfl, folded, mapError_eq_ok.mp accepted⟩

def StartsFrom (keysInOrder : JsString → JsString → Bool)
    (ledger : Option (List PortfolioControllerEvent)) (records : List PortfolioControllerEvent)
    (kind : EventKind) : Prop :=
  (ledger = some records ∧ Accepted keysInOrder records) ∨
    (ledger = none ∧ records = [] ∧ ∃ enrolled, kind = .created enrolled)

theorem recordsFor_ok {kind : EventKind}
    (found : recordsFor keysInOrder ledger kind = .ok records) :
    StartsFrom keysInOrder ledger records kind := by
  cases ledger with
  | none =>
      cases kind with
      | created enrolled =>
          cases found
          exact .inr ⟨rfl, rfl, enrolled, rfl⟩
      | _ => cases found
  | some held => exact .inl (readPortfolioControllerEvents_ok found)

theorem publishes_ok {call : ControllerCall} {published : List PortfolioControllerEvent}
    (publishes : call.publishes keysInOrder ledger = .ok published) :
    (ledger = some published ∧ Accepted keysInOrder published) ∨
      ∃ records input options, StartsFrom keysInOrder ledger records input.kind ∧
        appendUnlocked keysInOrder records input options = .ok published := by
  cases call with
  | append input options =>
      unfold ControllerCall.publishes appendPortfolioControllerEvent at publishes
      obtain ⟨records, found, expected⟩ := bind_eq_ok.mp publishes
      obtain ⟨_, _, appended⟩ := bind_eq_ok.mp expected
      exact .inr ⟨records, input, options, recordsFor_ok found, appended⟩
  | request controllerId asked now =>
      unfold ControllerCall.publishes requestUniversePortfolioControllerControl at publishes
      obtain ⟨⟨receipt, records⟩, requested, rfl⟩ := map_eq_ok.mp publishes
      obtain ⟨_, valid⟩ := refuse_eq_ok.mp requested
      obtain ⟨before, read, known⟩ := bind_eq_ok.mp valid
      obtain ⟨folded, _, identified⟩ := bind_eq_ok.mp known
      obtain ⟨_, answered⟩ := refuse_eq_ok.mp identified
      have held := readPortfolioControllerEvents_ok read
      cases repeated : repeatedControl before folded asked with
      | some control =>
          rw [repeated] at answered
          cases answered
          exact .inl held
      | none =>
          rw [repeated] at answered
          obtain ⟨next, appended, finished⟩ := bind_eq_ok.mp answered
          cases finished
          exact .inr ⟨before, ⟨now, asked.kind⟩, AppendOptions.none, .inl held, appended⟩

def LedgerKeeps (inv : List PortfolioControllerEvent → Prop)
    (ledger : Option (List PortfolioControllerEvent)) : Prop :=
  ∀ records, ledger = some records → records = [] ∨ inv records

theorem run_ledger {inv : List PortfolioControllerEvent → Prop} {calls : List ControllerCall}
    (append : ∀ {ledger records input options published}, (ledger = some records → inv records) →
      StartsFrom keysInOrder ledger records input.kind →
      appendUnlocked keysInOrder records input options = .ok published → inv published)
    (run : Run (ControllerStep keysInOrder) none calls ledger) : LedgerKeeps inv ledger := by
  refine run.invariant ?_ ?_
  · rintro ledger call next before taken records rfl
    cases taken with
    | published publishes =>
        rcases publishes_ok publishes with ⟨same, _⟩ | ⟨base, input, options, starts, appended⟩
        · exact before records same
        · right
          refine append (fun same => ?_) starts appended
          rcases starts with ⟨_, folded, accepted⟩ | ⟨absent, _⟩
          · refine (before base same).resolve_left ?_
            rintro rfl
            cases accepted
          · rw [absent] at same
            cases same
    | unpublished => exact before records rfl
    | emptied => exact .inl rfl
  · intro records absent
    cases absent

theorem run_accepted {calls : List ControllerCall}
    (run : Run (ControllerStep keysInOrder) none calls (some records)) :
    records = [] ∨ Accepted keysInOrder records := by
  refine run_ledger ?_ run records rfl
  intro ledger base input options published _ _ appended
  obtain ⟨folded, accepted, _⟩ := (appendUnlocked_ok appended).2
  exact ⟨folded, accepted⟩

/-- Every history that calls build, in any order and over any restarts, is safe. -/
theorem run_dispatchSafe {calls : List ControllerCall} {records : List PortfolioControllerEvent}
    (run : Run (ControllerStep keysInOrder) none calls (some records)) :
    records = [] ∨ ∃ enrolled, Registered records enrolled ∧ DispatchSafe enrolled records := by
  refine (run_accepted run).imp_right ?_
  rintro ⟨folded, accepted⟩
  exact ⟨folded.first, (foldPortfolioController_tracks accepted).registered,
    dispatchSafe_of_accepted accepted⟩

/-! Two campaigns: the second waits for the first, and a drain stands between their intents. -/

def unitsInOrder : JsString → JsString → Bool := fun left right => decide (left ≤ right)

def sampleDefinition : UniversePortfolioDefinition :=
  ⟨js "nightly", [⟨js "seed", []⟩, ⟨js "yield", [js "seed"]⟩], 1, 1000⟩

def sampleDigest : JsString := List.replicate 64 0x61

def samplePin (campaignId : JsString) : PortfolioControllerPin :=
  ⟨campaignId, campaignId, sampleDigest, sampleDigest, sampleDigest, sampleDigest, sampleDigest,
    .pending, .campaign, js "ready"⟩

def sampleEnrollment : PortfolioControllerEnrollment where
  definition := sampleDefinition
  deliveryPlan := some ⟨[⟨js "seed", js "codex/seed", List.replicate 40 0x61, false⟩]⟩
  definitionDigest := digestOf unitsInOrder sampleDefinition.json
  pins := [samplePin (js "seed"), samplePin (js "yield")]
  deadlineAt := js "2026-01-01T00:00:01.000Z"
  graphDispatch := none

def sampleOutcome : UniversePortfolioControllerOutcome :=
  ⟨js "seed", .completed, true, js "delivered", some sampleDigest, some sampleDigest⟩

def sampleKinds : List EventKind :=
  [.created sampleEnrollment, .intent (js "seed") none, .drain, .settled sampleOutcome sampleDigest,
    .drained 2, .resume 2, .intent (js "yield") none]

def sampleEvent (i : ℕ) (kind : EventKind) : PortfolioControllerEvent :=
  ⟨recordId i, i, js "2026-01-01T00:00:00.00" ++ [0x30 + UInt16.ofNat i, 0x5A], kind⟩

def sampleCall (i : ℕ) (kind : EventKind) : ControllerCall :=
  let now := (sampleEvent i kind).atTime
  match kind with
  | .drain => .request (js "nightly") .drain now
  | .resume drainSequence => .request (js "nightly") (.resume drainSequence) now
  | _ => .append ⟨now, kind⟩ AppendOptions.none

def sampleHistory : List PortfolioControllerEvent := sampleKinds.mapIdx sampleEvent

def sampleLedger (calls : ℕ) : Option (List PortfolioControllerEvent) :=
  if calls = 0 then none else some (sampleHistory.take calls)

theorem sample_run : Run (ControllerStep unitsInOrder) none (sampleKinds.mapIdx sampleCall)
    (some sampleHistory) := by
  have published : ∀ i : Fin 7, (sampleCall i (sampleKinds.get i)).publishes unitsInOrder
      (sampleLedger i) = .ok (sampleHistory.take (i + 1)) := by decide +kernel
  have step (i : Fin 7) : ControllerStep unitsInOrder (sampleLedger i)
      (sampleCall i (sampleKinds.get i)) (sampleLedger (i + 1)) := .published (published i)
  exact ((((((Run.single (step 0)).snoc (step 1)).snoc (step 2)).snoc (step 3)).snoc
    (step 4)).snoc (step 5)).snoc (step 6)

theorem run_dispatchSafe_sample : ∃ enrolled, Registered sampleHistory enrolled ∧
    DispatchSafe enrolled sampleHistory :=
  (run_dispatchSafe sample_run).resolve_left (List.cons_ne_nil _ _)

end AshlrHub.Universe

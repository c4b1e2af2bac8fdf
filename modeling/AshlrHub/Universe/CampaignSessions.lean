import AshlrHub.Universe.CampaignRunner

namespace AshlrHub.Campaign

open Js Lib Universe

/-! What an append publishes. -/

variable {host : CampaignHost}

def Publishes (host : CampaignHost) (ledger : Option (List CampaignEvent)) (event : CampaignEvent)
    (published : List CampaignEvent) : Prop :=
  published = ledger.getD [] ++ [event] ∧ ∃ folded, foldCampaignEvents host published = .ok folded

variable {ledger : Option (List CampaignEvent)}

variable {records : List CampaignEvent}

theorem readCampaignEvents_ok
    (read : readCampaignEvents host ledger = .ok records) : records = ledger.getD [] := by
  cases ledger with
  | none =>
      cases read
      rfl
  | some held =>
      obtain ⟨_, _, same⟩ := map_eq_ok.mp read
      exact same.symm

theorem appendCampaignEvent_publishes
    {input : CampaignEventInput} {checkpoint : Option JsString} {published : List CampaignEvent}
    (appended : appendCampaignEvent host ledger input checkpoint = .ok published) :
    ∃ event, event.kind = input.kind ∧ Publishes host ledger event published := by
  unfold appendCampaignEvent at appended
  obtain ⟨_, appended⟩ := refuse_eq_ok.mp appended
  obtain ⟨records, read, appended⟩ := bind_eq_ok.mp appended
  obtain ⟨_, appended⟩ := refuse_eq_ok.mp appended
  obtain ⟨_, appended⟩ := refuse_eq_ok.mp appended
  obtain ⟨folded, accepted, answered⟩ := bind_eq_ok.mp appended
  cases pure_eq_ok.mp answered
  refine ⟨input.event records, rfl, ?_, folded, mapError_eq_ok.mp accepted⟩
  rw [readCampaignEvents_ok read]

theorem readCampaignEvents_some {folded : Folded}
    (accepted : foldCampaignEvents host records = .ok folded) :
    readCampaignEvents host (some records) = .ok records :=
  map_eq_ok.mpr ⟨folded, mapError_eq_ok.mpr accepted, rfl⟩

theorem appendCampaignEvent_of_fold
    {records : List CampaignEvent} {input : CampaignEventInput} {next : Folded}
    (read : readCampaignEvents host ledger = .ok records) (room : records.length < maxEvents)
    (extended : foldCampaignEvents host (records ++ [input.event records]) = .ok next) :
    appendCampaignEvent host ledger input none = .ok (records ++ [input.event records]) := by
  unfold appendCampaignEvent
  refine refuse_eq_ok.mpr ⟨Bool.false_ne_true, bind_eq_ok.mpr ⟨records, read, ?_⟩⟩
  refine refuse_eq_ok.mpr ⟨Bool.false_ne_true, refuse_eq_ok.mpr ⟨not_le.mpr room, ?_⟩⟩
  exact bind_eq_ok.mpr ⟨next, mapError_eq_ok.mpr extended, rfl⟩

def Advances (host : CampaignHost) (process : CampaignOwner)
    (ledger next : Option (List CampaignEvent)) : Prop :=
  ∃ event published, next = some published ∧ Publishes host ledger event published ∧
    ∀ session, event.kind = .started session → session.owner = process

theorem appendCampaignEvent_advances {process : CampaignOwner}
    {input : CampaignEventInput}
    {checkpoint : Option JsString} {published : List CampaignEvent}
    (own : ∀ session, input.kind = .started session → session.owner = process)
    (appended : appendCampaignEvent host ledger input checkpoint = .ok published) :
    Advances host process ledger (some published) := by
  obtain ⟨event, kind, publishes⟩ := appendCampaignEvent_publishes appended
  exact ⟨event, published, rfl, publishes, fun session same => own session (kind ▸ same)⟩

theorem RunnerStep.advances {runner : Runner} {ledger next : Option (List CampaignEvent)}
    {phase : RunnerPhase} (step : RunnerStep host runner ledger next phase) :
    next = ledger ∨ Advances host runner.process ledger next := by
  cases step with
  | view | acknowledge | cancel | unresolved | pass | exhausted | ready | plan | finish | select
  | throw | fail => exact .inl rfl
  | start _ _ _ _ appended =>
      refine .inr (appendCampaignEvent_advances ?_ appended)
      intro session same
      cases same
      rfl
  | recover _ _ _ appended | seedIntent _ appended | seedResult _ appended | dispatch _ appended
  | settle _ appended => exact .inr (appendCampaignEvent_advances (by rintro _ ⟨⟩) appended)

/-- Every accepted history keeps the budgets. Any append folds before it writes; what the runner
reads decides only which event it asks for. -/
theorem histories_withinBudget :
    (∀ {host : CampaignHost} {history : List CampaignEvent} {folded : Folded},
      foldCampaignEvents host history = .ok folded → WithinBudget folded.created history) ∧
    ∀ {host : CampaignHost} {runner : Runner} {history : List CampaignEvent} {folded : Folded}
      {next : Option (List CampaignEvent)} {phase : RunnerPhase},
      foldCampaignEvents host history = .ok folded →
      RunnerStep host runner (some history) next phase →
      next = some history ∨ ∃ event after, next = some (history ++ [event]) ∧
        foldCampaignEvents host (history ++ [event]) = .ok after := by
  refine ⟨withinBudget_of_accepted, fun accepted step => ?_⟩
  rcases step.advances with same | ⟨event, published, spelled, ⟨rfl, after, accepts⟩, _⟩
  · exact .inl same
  · exact .inr ⟨event, after, spelled, accepts⟩

/-! Who settles a session. -/

def SessionOf (host : CampaignHost) (ledger : Option (List CampaignEvent)) (owner : CampaignOwner)
    (sequence : ℕ) : Prop :=
  ∃ records folded, Reads host ledger records folded ∧
    Folded.underWay folded.state = true ∧ folded.owner = some owner ∧
    folded.sessionSequence = some sequence

theorem FoldStep.session {folded next : Folded} {event : CampaignEvent}
    (step : FoldStep folded event next) (underWay : Folded.underWay folded.state = true) :
    (Folded.underWay next.state = true ∧ next.owner = folded.owner ∧
      next.sessionSequence = folded.sessionSequence) ∨
    ∃ settlement, event.kind = .settled settlement := by
  cases step with
  | started _ startable =>
      cases state : folded.state with
      | settled | ready => rw [state] at underWay; cases underWay
      | running | pauseRequested | stopRequested => rw [state] at startable; cases startable
  | seedIntent | seedResult | step => exact .inl ⟨underWay, rfl, rfl⟩
  | stop | pause => exact .inl ⟨rfl, rfl, rfl⟩
  | settled kind => exact .inr ⟨_, kind⟩

theorem FoldStep.owner {folded next : Folded} {event : CampaignEvent}
    (step : FoldStep folded event next) :
    next.owner = folded.owner ∨ next.owner = none ∨
      ∃ session, event.kind = .started session ∧ next.owner = some session.owner := by
  cases step with
  | started kind => exact .inr (.inr ⟨_, kind, rfl⟩)
  | settled => exact .inr (.inl rfl)
  | seedIntent | seedResult | step | stop | pause => exact .inl rfl

def NoOther (host : CampaignHost) (system : CampaignSystem) (process : CampaignOwner) : Prop :=
  ∀ owner sequence, SessionOf host system.ledger owner sequence → owner ∈ system.alive →
    owner = process

/-- What a step asks beside the code: no session started since the control that it settles for,
and the execution lease is taken over from no live session. -/
def Careful (host : CampaignHost) (system : CampaignSystem) : CampaignLabel → Prop
  | .controlSettled _ records => ∀ held ∈ system.ledger, sessionsOf held = sessionsOf records
  | .acquired process => NoOther host system process
  | _ => True

def CarefulStep (host : CampaignHost) (system : CampaignSystem) (label : CampaignLabel)
    (next : CampaignSystem) : Prop :=
  Careful host system label ∧ CampaignSystemStep host system label next

def OwnerOf (host : CampaignHost) (records : List CampaignEvent) (owner : CampaignOwner) : Prop :=
  ∃ folded, foldCampaignEvents host records = .ok folded ∧ folded.owner = some owner

def ControlSound (host : CampaignHost) (system : CampaignSystem) : ControlPhase → Prop
  | .requested records =>
      (∃ later, system.ledger = some (records ++ later)) ∧
        ∀ owner, OwnerOf host records owner → owner ∈ system.born
  | .settling records =>
      (∃ later, system.ledger = some (records ++ later)) ∧
        ∀ owner, OwnerOf host records owner → owner ∈ system.born ∧ owner ∉ system.alive
  | _ => True

/-- What careful steps keep. -/
structure Attended (host : CampaignHost) (system : CampaignSystem) : Prop where
  born : ∀ process ∈ system.alive, process ∈ system.born
  runnerAlive : ∀ runner ∈ system.runner, runner.process ∈ system.alive
  ownerBorn : ∀ owner, OwnerOf host (system.ledger.getD []) owner → owner ∈ system.born
  runnerOwns : ∀ runner ∈ system.runner, ∀ owner, OwnerOf host (system.ledger.getD []) owner →
    owner ∈ system.alive → owner = runner.process
  controls : ∀ control ∈ system.controls, ControlSound host system control.phase

theorem start_attended : Attended host .start where
  born := nofun
  runnerAlive := nofun
  ownerBorn := by
    rintro owner ⟨_, accepted, _⟩
    cases accepted
  runnerOwns := nofun
  controls := nofun

/-! The ledger over one publication. -/

section

variable {ledger : Option (List CampaignEvent)} {event : CampaignEvent}
  {published : List CampaignEvent} {owner : CampaignOwner}

theorem OwnerOf.of_publishes (publishes : Publishes host ledger event published)
    (held : OwnerOf host published owner) :
    OwnerOf host (ledger.getD []) owner ∨
      ∃ session, event.kind = .started session ∧ session.owner = owner := by
  obtain ⟨rfl, _⟩ := publishes
  obtain ⟨folded, accepted, owned⟩ := held
  by_cases empty : ledger.getD [] = []
  · rw [empty] at accepted
    obtain ⟨_, created, _, spelled, kind, _, folds⟩ := foldCampaignEvents_ok accepted
    cases spelled
    cases folds
    cases owned
  · obtain ⟨state, next, earlier, _, step, folds⟩ := foldCampaignEvents_split empty accepted
    cases folds
    rcases step.owner with same | gone | ⟨session, kind, started⟩
    · exact .inl ⟨state, earlier, same ▸ owned⟩
    · rw [gone] at owned
      cases owned
    · rw [started] at owned
      exact .inr ⟨session, kind, Option.some.inj owned⟩

theorem SessionOf.publishes {sequence : ℕ} (session : SessionOf host ledger owner sequence)
    (publishes : Publishes host ledger event published) :
    SessionOf host (some published) owner sequence ∨
      ∃ settlement, event.kind = .settled settlement := by
  obtain ⟨records, folded, ⟨rfl, accepted⟩, underWay, owned, began⟩ := session
  obtain ⟨rfl, after, extended⟩ := publishes
  have begun : records ≠ [] := by
    rintro rfl
    cases accepted
  obtain ⟨state, next, earlier, _, step, folds⟩ := foldCampaignEvents_split begun extended
  cases accepted.symm.trans earlier
  cases folds
  rcases step.session underWay with ⟨stays, same, from_⟩ | settles
  · exact .inl ⟨_, _, ⟨rfl, extended⟩, stays, same.trans owned, from_.trans began⟩
  · exact .inr settles

end

theorem owner_underWay {history : List CampaignEvent} {folded : Folded}
    (accepted : foldCampaignEvents host history = .ok folded) (owned : folded.owner.isSome = true) :
    Folded.underWay folded.state = true ∧ folded.sessionSequence.isSome = true := by
  refine @foldCampaignEvents_induction host (fun _ folded => folded.owner.isSome = true →
    Folded.underWay folded.state = true ∧ folded.sessionSequence.isSome = true) ?_ ?_ history _
    accepted owned
  · intro event created _ owned
    cases owned
  · intro history folded event next held step owned
    cases step with
    | started => exact ⟨rfl, rfl⟩
    | settled => cases owned
    | seedIntent | seedResult | step => exact held owned
    | stop | pause => exact ⟨rfl, (held owned).2⟩

theorem OwnerOf.session {owner : CampaignOwner}
    (held : OwnerOf host records owner) :
    ∃ sequence, SessionOf host (some records) owner sequence := by
  obtain ⟨folded, accepted, owned⟩ := held
  obtain ⟨underWay, began⟩ := owner_underWay accepted (owned ▸ rfl)
  obtain ⟨sequence, spelled⟩ := Option.isSome_iff_exists.mp began
  exact ⟨sequence, records, folded, ⟨rfl, accepted⟩, underWay, owned, spelled⟩

theorem SessionOf.owner {ledger : Option (List CampaignEvent)} {owner : CampaignOwner}
    {sequence : ℕ} (session : SessionOf host ledger owner sequence) :
    OwnerOf host (ledger.getD []) owner := by
  obtain ⟨records, folded, ⟨rfl, accepted⟩, _, owned, _⟩ := session
  exact ⟨folded, accepted, owned⟩

theorem OwnerOf.of_unstarted {owner : CampaignOwner} :
    (later : List CampaignEvent) → sessionsOf later = [] →
    OwnerOf host (records ++ later) owner → OwnerOf host records owner := by
  intro later
  induction later using List.reverseRecOn with
  | nil =>
      intro _ held
      rwa [List.append_nil] at held
  | append_singleton later event ih =>
      intro unstarted held
      rw [sessionsOf, said_snoc, List.append_eq_nil_iff] at unstarted
      rw [← List.append_assoc] at held
      have publishes : Publishes host (some (records ++ later)) event
          (records ++ later ++ [event]) := ⟨rfl, held.imp fun _ both => both.1⟩
      rcases OwnerOf.of_publishes publishes held with before | ⟨session, kind, _⟩
      · exact ih unstarted.1 before
      · rw [kind] at unstarted
        cases unstarted.2

/-! What each step keeps. -/

variable {system : CampaignSystem}

theorem ControlSound.mono {next : CampaignSystem} {phase : ControlPhase}
    (sound : ControlSound host system phase)
    (grows : ∀ records later, system.ledger = some (records ++ later) →
      ∃ later, next.ledger = some (records ++ later))
    (born : ∀ process ∈ system.born, process ∈ next.born)
    (dead : ∀ process ∈ system.born, process ∉ system.alive → process ∉ next.alive) :
    ControlSound host next phase := by
  cases phase with
  | asked | observing | considered => trivial
  | requested records =>
      obtain ⟨⟨later, held⟩, owned⟩ := sound
      exact ⟨grows records later held, fun owner left => born owner (owned owner left)⟩
  | settling records =>
      obtain ⟨⟨later, held⟩, owned⟩ := sound
      refine ⟨grows records later held, fun owner left => ?_⟩
      obtain ⟨once, gone⟩ := owned owner left
      exact ⟨born owner once, dead owner once gone⟩

namespace Attended

section

variable (attended : Attended host system)
include attended

theorem publishes {event : CampaignEvent}
    {published : List CampaignEvent} (publishes : Publishes host system.ledger event published)
    (own : ∀ session, event.kind = .started session →
      ∃ runner, system.runner = some runner ∧ session.owner = runner.process) :
    Attended host { system with ledger := some published } where
  born := attended.born
  runnerAlive := attended.runnerAlive
  ownerBorn owner held := by
    rcases OwnerOf.of_publishes publishes held with before | ⟨session, kind, rfl⟩
    · exact attended.ownerBorn owner before
    · obtain ⟨runner, holds, same⟩ := own session kind
      exact same ▸ attended.born _ (attended.runnerAlive runner holds)
  runnerOwns runner holds owner held alive := by
    rcases OwnerOf.of_publishes publishes held with before | ⟨session, kind, rfl⟩
    · exact attended.runnerOwns runner holds owner before alive
    · obtain ⟨other, same, owned⟩ := own session kind
      cases same.symm.trans holds
      exact owned
  controls control member := by
    refine (attended.controls control member).mono (fun records later held => ?_)
      (fun _ once => once) fun _ _ gone => gone
    refine ⟨later ++ [event], ?_⟩
    rw [publishes.1, held, Option.getD_some, List.append_assoc]

theorem moves {runner : Runner}
    (holds : system.runner = some runner)
    (phase : RunnerPhase) :
    Attended host { system with runner := some { runner with phase := phase } } where
  born := attended.born
  runnerAlive := by
    rintro _ ⟨⟩
    exact attended.runnerAlive runner holds
  ownerBorn := attended.ownerBorn
  runnerOwns := by
    rintro _ ⟨⟩
    exact attended.runnerOwns runner holds
  controls := attended.controls

theorem frees : Attended host { system with runner := none } where
  born := attended.born
  runnerAlive := nofun
  ownerBorn := attended.ownerBorn
  runnerOwns := nofun
  controls := attended.controls

theorem acquires {runner : Runner}
    (alive : runner.process ∈ system.alive) (noOther : NoOther host system runner.process) :
    Attended host { system with runner := some runner } where
  born := attended.born
  runnerAlive := by
    rintro _ ⟨⟩
    exact alive
  ownerBorn := attended.ownerBorn
  runnerOwns := by
    rintro _ ⟨⟩ owner held living
    cases ledger : system.ledger with
    | none =>
        obtain ⟨_, accepted, _⟩ := held
        rw [ledger] at accepted
        cases accepted
    | some records =>
        obtain ⟨sequence, session⟩ := OwnerOf.session held
        rw [ledger, Option.getD_some, ← ledger] at session
        exact noOther owner sequence session living
  controls := attended.controls

theorem calls {controls : List Control}
    (sound : ∀ control ∈ controls, ControlSound host system control.phase) :
    Attended host { system with controls := controls } where
  born := attended.born
  runnerAlive := attended.runnerAlive
  ownerBorn := attended.ownerBorn
  runnerOwns := attended.runnerOwns
  controls := sound

theorem bears {process : CampaignOwner}
    (new : process ∉ system.born) :
    Attended host { system with
      alive := process :: system.alive
      born := process :: system.born } where
  born other living := by
    rcases List.mem_cons.mp living with rfl | living
    · exact List.mem_cons_self
    · exact List.mem_cons_of_mem _ (attended.born other living)
  runnerAlive runner holds := List.mem_cons_of_mem _ (attended.runnerAlive runner holds)
  ownerBorn owner held := List.mem_cons_of_mem _ (attended.ownerBorn owner held)
  runnerOwns runner holds owner held living := by
    rcases List.mem_cons.mp living with rfl | living
    · exact absurd (attended.ownerBorn owner held) new
    · exact attended.runnerOwns runner holds owner held living
  controls control member := by
    refine (attended.controls control member).mono (fun _ later held => ⟨later, held⟩)
      (fun _ once => List.mem_cons_of_mem _ once) fun other once gone living => ?_
    rcases List.mem_cons.mp living with rfl | living
    · exact new once
    · exact gone living

theorem dies (process : CampaignOwner) :
    Attended host { system with
      alive := system.alive.filter fun other => other ≠ process
      runner := system.runner.filter fun runner => runner.process ≠ process
      controls := system.controls.filter fun control => control.process ≠ process } where
  born other living := attended.born other (List.mem_of_mem_filter living)
  runnerAlive runner holds := by
    obtain ⟨held, other⟩ := Option.mem_filter_iff.mp holds
    exact List.mem_filter.mpr ⟨attended.runnerAlive runner held, other⟩
  ownerBorn := attended.ownerBorn
  runnerOwns runner holds owner held living :=
    attended.runnerOwns runner (Option.mem_filter_iff.mp holds).1 owner held
      (List.mem_of_mem_filter living)
  controls control member := by
    refine (attended.controls control (List.mem_of_mem_filter member)).mono
      (fun _ later held => ⟨later, held⟩) (fun _ once => once) fun other once gone living => ?_
    exact gone (List.mem_of_mem_filter living)

theorem turns {front back : List Control} {control : Control}
    (calls : system.controls = front ++ control :: back) {phase : ControlPhase}
    (sound : ControlSound host system phase) :
    Attended host { system with
      controls := front ++ { control with phase := phase } :: back } := by
  refine attended.calls fun other member => ?_
  rcases List.mem_append.mp member with before | later
  · exact attended.controls other (calls ▸ List.mem_append_left _ before)
  · rcases List.mem_cons.mp later with rfl | behind
    · exact sound
    · exact attended.controls other
        (calls ▸ List.mem_append_right _ (List.mem_cons_of_mem _ behind))

theorem drops {front back : List Control} {control : Control}
    (calls : system.controls = front ++ control :: back) :
    Attended host { system with controls := front ++ back } := by
  refine attended.calls fun other member => attended.controls other (calls ▸ ?_)
  rcases List.mem_append.mp member with before | behind
  · exact List.mem_append_left _ before
  · exact List.mem_append_right _ (List.mem_cons_of_mem _ behind)

theorem step {label : CampaignLabel} {next : CampaignSystem}
    (taken : CarefulStep host system label next) : Attended host next := by
  obtain ⟨careful, step⟩ := taken
  cases step with
  | created _ appended =>
      obtain ⟨event, kind, published⟩ := appendCampaignEvent_publishes appended
      exact attended.publishes published fun session same => nomatch kind.symm.trans same
  | born new => exact attended.bears new
  | died => exact attended.dies _
  | acquired _ alive => exact attended.acquires alive careful
  | ran holds step =>
      rcases step.advances with rfl | ⟨event, published, rfl, publishes, own⟩
      · exact attended.moves holds _
      · exact (attended.publishes publishes fun session same =>
          ⟨_, holds, own session same⟩).moves holds _
  | left => exact attended.frees
  | asked =>
      refine attended.calls fun control member => ?_
      rcases List.mem_cons.mp member with rfl | member
      · trivial
      · exact attended.controls control member
  | considered calls => exact attended.turns calls (by split_ifs <;> trivial)
  | observed calls => exact attended.turns calls trivial
  | requested calls _ appended =>
      obtain ⟨event, kind, published⟩ := appendCampaignEvent_publishes appended
      have grown := attended.publishes published fun session same => nomatch kind.symm.trans same
      exact grown.turns calls ⟨⟨[], congrArg some (List.append_nil _).symm⟩, grown.ownerBorn⟩
  | @seen _ _ control records _ calls phase folds gone =>
      have sound := attended.controls control (calls ▸ by simp)
      rw [phase] at sound
      refine attended.turns calls ⟨sound.1, fun owner held => ⟨sound.2 owner held, ?_⟩⟩
      obtain ⟨_, accepted, owned⟩ := held
      cases folds.symm.trans accepted
      intro living
      have someone : campaignOwnerAlive system.alive owner = true :=
        List.any_eq_true.mpr ⟨owner, living, decide_eq_true rfl⟩
      rw [gone owner owned] at someone
      cases someone
  | controlSettled calls _ appended =>
      obtain ⟨event, kind, published⟩ := appendCampaignEvent_publishes appended
      exact (attended.publishes published
        fun session same => nomatch kind.symm.trans same).drops calls
  | dropped calls => exact attended.drops calls

end

end Attended

def KeptOrSettled (host : CampaignHost) (system : CampaignSystem) (label : CampaignLabel)
    (next : CampaignSystem) (owner : CampaignOwner) (sequence : ℕ) : Prop :=
  SessionOf host next.ledger owner sequence ∨
    label = .ran owner ∧ ∃ event settlement,
      next.ledger = some (system.ledger.getD [] ++ [event]) ∧ event.kind = .settled settlement

/-- In every run of careful steps, a session whose owner is alive is settled by that owner only. -/
theorem run_settlesOwn {labels : List CampaignLabel} {label : CampaignLabel}
    {next : CampaignSystem} {owner : CampaignOwner} {sequence : ℕ}
    (run : Run (CarefulStep host) .start labels system) (taken : CarefulStep host system label next)
    (session : SessionOf host system.ledger owner sequence) (alive : owner ∈ system.alive) :
    KeptOrSettled host system label next owner sequence := by
  have attended : Attended host system :=
    run.invariant (fun held taken => held.step taken) start_attended
  obtain ⟨careful, step⟩ := taken
  have kept {event : CampaignEvent} {published : List CampaignEvent} {kind : CampaignKind}
      (publishes : Publishes host system.ledger event published) (same : event.kind = kind)
      (unsettled : kind.settlement? = none) : SessionOf host (some published) owner sequence := by
    rcases session.publishes publishes with stays | ⟨settlement, settles⟩
    · exact stays
    · rw [← same, settles] at unsettled
      cases unsettled
  cases step with
  | created _ appended =>
      obtain ⟨event, kind, published⟩ := appendCampaignEvent_publishes appended
      exact .inl (kept published kind rfl)
  | born | died | acquired | left | asked | considered | observed | seen | dropped =>
      exact .inl session
  | @ran runner _ _ holds step =>
      rcases step.advances with rfl | ⟨event, published, rfl, publishes, _⟩
      · exact .inl session
      · rcases session.publishes publishes with stays | ⟨settlement, settles⟩
        · exact .inl stays
        · have same := attended.runnerOwns runner holds owner session.owner alive
          exact .inr ⟨same ▸ rfl, event, settlement, congrArg some publishes.1, settles⟩
  | requested _ _ appended =>
      obtain ⟨event, kind, published⟩ := appendCampaignEvent_publishes appended
      exact .inl (kept published kind rfl)
  | @controlSettled _ _ control _ records published calls phase appended =>
      have sound := attended.controls control (calls ▸ by simp)
      rw [phase] at sound
      obtain ⟨⟨later, held⟩, owned⟩ := sound
      have unstarted : sessionsOf later = [] := by
        have same := careful _ held
        rw [sessionsOf, said, List.filterMap_append] at same
        exact List.append_right_eq_self.mp same
      have left := session.owner
      rw [held] at left
      exact absurd alive (owned owner (OwnerOf.of_unstarted later unstarted left)).2

/-! A control that found its owner gone, and a session started before its settlement. -/

def sampleHost : CampaignHost := ⟨fun left right => decide (left ≤ right), fun _ => none⟩

def sampleTime : JsString := js "2026-01-01T00:00:00.000Z"

def sampleDefinition : UniverseCampaignDefinition :=
  ⟨js "nightly", js "seed", ⟨1, 1000, 1, 1, none⟩, false, false⟩

def sampleCreation : CampaignCreation :=
  ⟨sampleDefinition, digestOf sampleHost.keysInOrder sampleDefinition.json,
    List.replicate 64 0x61, List.replicate 64 0x61⟩

def lostOwner : CampaignOwner := ⟨4, js "lost"⟩

def liveOwner : CampaignOwner := ⟨5, js "live"⟩

def askingProcess : CampaignOwner := ⟨6, js "asks"⟩

def sampleDeadline : JsString := js "2026-01-01T00:00:01.000Z"

def sampleSession (owner : CampaignOwner) : CampaignSession := ⟨sampleDeadline, owner, none⟩

def interleavedKinds : List CampaignKind :=
  [.created sampleCreation, .started (sampleSession lostOwner), .control .pause,
    .settled ⟨.paused, js "Paused by owner", none⟩, .started (sampleSession liveOwner),
    .settled (controlSettlement .pause)]

def interleavedEvents : List CampaignEvent :=
  interleavedKinds.zipIdx.map fun (kind, sequence) => ⟨recordId sequence, sequence, sampleTime,
    kind⟩

def interleaved (count : ℕ) : List CampaignEvent :=
  interleavedEvents.take (count + 1)

def leaves (count : ℕ) (state : CampaignState) (owner : Option CampaignOwner)
    (deadlineAt : Option JsString) (sequence : Option ℕ) : Bool :=
  match (interleaved count).tail.foldlM (Folded.foldEvent sampleHost)
      (Folded.start sampleCreation) with
  | .ok folded => folded.created.definition = sampleDefinition && folded.steps = [] &&
      folded.state = state && folded.owner = owner && folded.deadlineAt = deadlineAt &&
      folded.sessionSequence = sequence
  | .error _ => false

theorem sampleCreation_valid :
    parseEvent sampleHost ⟨recordId 0, 0, sampleTime, .created sampleCreation⟩ = true := by
  have valid : (CampaignKind.created sampleCreation).valid sampleHost 0 sampleTime = true := by
    simp only [CampaignKind.valid, Bool.and_eq_true]
    exact ⟨⟨⟨⟨by decide +kernel, rfl⟩, decide_eq_true rfl⟩, by decide⟩, by decide⟩
  rw [parseEvent, valid, Bool.and_true]
  decide +kernel

theorem interleaved_valid : validFrom sampleHost 0 interleavedEvents = true := by
  have first : interleavedEvents = ⟨recordId 0, 0, sampleTime, .created sampleCreation⟩ ::
      interleavedEvents.tail := rfl
  have later : validFrom sampleHost 1 interleavedEvents.tail = true := by decide +kernel
  rw [first, validFrom, sampleCreation_valid, later]
  rfl

/-- A history that is left so, as a reading finds it. -/
structure Left (count : ℕ) (state : CampaignState) (owner : Option CampaignOwner)
    (deadlineAt : Option JsString) (sequence : Option ℕ) (folded : Folded) : Prop where
  accepted : foldCampaignEvents sampleHost (interleaved count) = .ok folded
  definition : folded.created.definition = sampleDefinition
  steps : folded.steps = []
  state : folded.state = state
  owner : folded.owner = owner
  deadlineAt : folded.deadlineAt = deadlineAt
  sequence : folded.sessionSequence = sequence

variable {count : ℕ} {process : CampaignOwner}

theorem left_of_leaves {state : CampaignState} {owner : Option CampaignOwner}
    {deadlineAt : Option JsString} {sequence : Option ℕ}
    (left : leaves count state owner deadlineAt sequence = true) :
    ∃ folded, Left count state owner deadlineAt sequence folded := by
  have valid := interleaved_valid
  rw [← List.take_append_drop (count + 1) interleavedEvents, validFrom_append,
    Bool.and_eq_true] at valid
  have same : foldCampaignEvents sampleHost (interleaved count) =
      (interleaved count).tail.foldlM (Folded.foldEvent sampleHost) (Folded.start sampleCreation) :=
    foldCampaignEvents_cons rfl valid.1
  unfold leaves at left
  cases folds : (interleaved count).tail.foldlM (Folded.foldEvent sampleHost)
      (Folded.start sampleCreation) with
  | error refusal =>
      rw [folds] at left
      cases left
  | ok folded =>
      rw [folds] at left
      simp only [Bool.and_eq_true, decide_eq_true_eq] at left
      obtain ⟨⟨⟨⟨⟨definition, steps⟩, state⟩, owner⟩, deadlineAt⟩, sequence⟩ := left
      exact ⟨folded, same.trans folds, definition, steps, state, owner, deadlineAt, sequence⟩

theorem interleaved_snoc {kind : CampaignKind} (next : interleavedKinds[count + 1]? = some kind) :
    interleaved (count + 1) =
      interleaved count ++ [CampaignEventInput.event ⟨sampleTime, kind⟩ (interleaved count)] := by
  have shorter : count + 1 < interleavedKinds.length :=
    (List.getElem?_eq_some_iff.mp next).1
  have length : (interleaved count).length = count + 1 := by
    rw [interleaved, interleavedEvents, List.length_take, List.length_map, List.length_zipIdx,
      Nat.min_eq_left shorter.le]
  have spelled : interleavedEvents[count + 1]? =
      some ⟨recordId (count + 1), count + 1, sampleTime, kind⟩ := by
    rw [interleavedEvents, List.getElem?_map, List.getElem?_zipIdx, next, Option.map_some,
      Nat.zero_add]
    rfl
  rw [CampaignEventInput.event, length, interleaved, List.take_add_one, spelled]
  rfl

theorem interleaved_append {kind : CampaignKind} {folded next : Folded}
    (spelled : interleavedKinds[count + 1]? = some kind)
    (accepted : foldCampaignEvents sampleHost (interleaved count) = .ok folded)
    (extended : foldCampaignEvents sampleHost (interleaved (count + 1)) = .ok next) :
    appendCampaignEvent sampleHost (some (interleaved count)) ⟨sampleTime, kind⟩ none =
      .ok (interleaved (count + 1)) := by
  rw [interleaved_snoc spelled] at extended ⊢
  refine appendCampaignEvent_of_fold (readCampaignEvents_some accepted) ?_ extended
  refine lt_of_le_of_lt (List.length_take_le _ _) ?_
  have shorter : count + 1 < interleavedKinds.length :=
    (List.getElem?_eq_some_iff.mp spelled).1
  exact Nat.succ_lt_succ_iff.mp (lt_of_lt_of_le (Nat.succ_lt_succ shorter) (by decide))

def sampleEvidence : CampaignEvidence := ⟨1767225600000, 0, true, none⟩

def Reached (system : CampaignSystem) : Prop :=
  ∃ labels, Run (CarefulStep sampleHost) .start labels system

theorem Reached.snoc {system next : CampaignSystem} {label : CampaignLabel}
    (reached : Reached system) (taken : CampaignSystemStep sampleHost system label next)
    (careful : Careful sampleHost system label) : Reached next := by
  obtain ⟨labels, run⟩ := reached
  exact ⟨labels ++ [label], run.snoc ⟨careful, taken⟩⟩

def CampaignSystem.running (system : CampaignSystem) (process : CampaignOwner)
    (phase : RunnerPhase) : CampaignSystem :=
  { system with runner := some ⟨process, none, false, phase⟩ }

theorem Reached.ran {phase after : RunnerPhase}
    {ledger : Option (List CampaignEvent)} (reached : Reached (system.running process phase))
    (step : RunnerStep sampleHost ⟨process, none, false, phase⟩ system.ledger ledger after) :
    Reached ({ system with ledger := ledger }.running process after) := by
  let runner : Runner := ⟨process, none, false, phase⟩
  exact reached.snoc
    (@CampaignSystemStep.ran _ (system.running process phase) runner _ _ rfl step) trivial

theorem Reached.acquired {state owner deadlineAt sequence folded} (reached : Reached system)
    (ledger : system.ledger = some (interleaved count)) (free : system.runner = none)
    (alive : process ∈ system.alive) (left : Left count state owner deadlineAt sequence folded)
    (gone : ∀ other ∈ owner, other ∉ system.alive) :
    Reached (system.running process .admitted) := by
  refine reached.snoc (.acquired free alive) fun other _ session living => ?_
  obtain ⟨_, accepted, owned⟩ := session.owner
  rw [ledger] at accepted
  cases left.accepted.symm.trans accepted
  exact absurd living (gone other (left.owner ▸ owned))

theorem Reached.started {state : CampaignState} {deadlineAt sequence folded next}
    (reached : Reached system)
    (ledger : system.ledger = some (interleaved count)) (free : system.runner = none)
    (alive : process ∈ system.alive) (left : Left count state none deadlineAt sequence folded)
    (startable : Folded.startable state = true)
    (unlimited : campaignBudgetLimit folded sampleEvidence = none)
    (deadline : startDeadline sampleCreation deadlineAt sampleTime = some sampleDeadline)
    (spelled : interleavedKinds[count + 1]? = some (.started (sampleSession process)))
    (extended : foldCampaignEvents sampleHost (interleaved (count + 1)) = .ok next) :
    Reached
    ({ system with ledger := some (interleaved (count + 1)) }.running process .session) := by
  have read : Reads sampleHost system.ledger (interleaved count) folded := ⟨ledger, left.accepted⟩
  have acquired := reached.acquired ledger free alive left nofun
  have viewed := acquired.ran (.view rfl read nofun)
  have passed := viewed.ran (.pass rfl left.accepted (left.state ▸ startable))
  have ready := passed.ran (.ready rfl read unlimited)
  have appended := interleaved_append spelled left.accepted extended
  rw [left.deadlineAt] at ready
  rw [← ledger] at appended
  exact ready.ran (.start rfl ledger ⟨_, rfl, rfl⟩ deadline appended)

theorem Reached.acknowledged {owner deadlineAt sequence folded next} (reached : Reached system)
    (ledger : system.ledger = some (interleaved count)) (free : system.runner = none)
    (alive : process ∈ system.alive)
    (left : Left count .pauseRequested owner deadlineAt sequence folded)
    (gone : ∀ other ∈ owner, other ∉ system.alive)
    (spelled : interleavedKinds[count + 1]? = some (.settled ⟨.paused, js "Paused by owner", none⟩))
    (extended : foldCampaignEvents sampleHost (interleaved (count + 1)) = .ok next) :
    Reached { system with ledger := some (interleaved (count + 1)) } := by
  have read : Reads sampleHost system.ledger (interleaved count) folded := ⟨ledger, left.accepted⟩
  have acquired := reached.acquired ledger free alive left gone
  have viewed := acquired.ran (.view rfl read nofun)
  have finishing := viewed.ran (.acknowledge rfl left.accepted (.inr left.state))
  have settling := finishing.ran (.select rfl read (left.state ▸ rfl))
  have appended := interleaved_append spelled left.accepted extended
  rw [left.state] at settling
  rw [← ledger] at appended
  have settled := settling.ran (.settle rfl appended)
  have freed := settled.snoc .left trivial
  rwa [show system = { system with runner := none } from by rw [← free]]

theorem interleaved_leaves :
    leaves 0 .ready none none none = true ∧
      leaves 1 .running (some lostOwner) (some sampleDeadline) (some 1) = true ∧
      leaves 2 .pauseRequested (some lostOwner) (some sampleDeadline) (some 1) = true ∧
      leaves 3 (.settled .paused) none (some sampleDeadline) (some 1) = true ∧
      leaves 4 .running (some liveOwner) (some sampleDeadline) (some 4) = true ∧
      leaves 5 (.settled .paused) none (some sampleDeadline) (some 4) = true := by
  decide +kernel

theorem left_created : ∃ folded, Left 0 .ready none none none folded :=
  left_of_leaves interleaved_leaves.1

theorem left_lost : ∃ folded, Left 1 .running (some lostOwner) (some sampleDeadline) (some 1)
    folded :=
  left_of_leaves interleaved_leaves.2.1

theorem left_asked :
    ∃ folded, Left 2 .pauseRequested (some lostOwner) (some sampleDeadline) (some 1) folded :=
  left_of_leaves interleaved_leaves.2.2.1

theorem left_acknowledged :
    ∃ folded, Left 3 (.settled .paused) none (some sampleDeadline) (some 1) folded :=
  left_of_leaves interleaved_leaves.2.2.2.1

theorem left_live :
    ∃ folded, Left 4 .running (some liveOwner) (some sampleDeadline) (some 4) folded :=
  left_of_leaves interleaved_leaves.2.2.2.2.1

theorem left_settled :
    ∃ folded, Left 5 (.settled .paused) none (some sampleDeadline) (some 4) folded :=
  left_of_leaves interleaved_leaves.2.2.2.2.2

theorem histories_withinBudget_sample :
    (∃ folded, foldCampaignEvents sampleHost (interleaved 5) = .ok folded ∧
      WithinBudget folded.created (interleaved 5)) ∧
    (some (interleaved 4) = some (interleaved 3) ∨ ∃ event after,
      some (interleaved 4) = some (interleaved 3 ++ [event]) ∧
      foldCampaignEvents sampleHost (interleaved 3 ++ [event]) = .ok after) := by
  obtain ⟨_, acknowledged⟩ := left_acknowledged
  obtain ⟨_, live⟩ := left_live
  obtain ⟨folded, settled⟩ := left_settled
  refine ⟨⟨folded, settled.accepted, histories_withinBudget.1 settled.accepted⟩, ?_⟩
  exact histories_withinBudget.2 acknowledged.accepted
    (@RunnerStep.start _ ⟨liveOwner, none, false, .starting (some sampleDeadline) none⟩ _ _ _ _ _ _
      _ _ rfl rfl ⟨_, rfl, rfl⟩ rfl (interleaved_append rfl acknowledged.accepted live.accepted))

theorem unlimited_of_left {state owner deadlineAt sequence folded}
    (left : Left count state owner deadlineAt sequence folded)
    (early : (deadlineAt.any fun deadlineAt =>
      (dateParse deadlineAt).any fun deadline => deadline ≤ sampleEvidence.nowMs) = false) :
    campaignBudgetLimit folded sampleEvidence = none := by
  unfold campaignBudgetLimit
  rw [left.definition, left.steps, left.deadlineAt, early]
  rfl

theorem reached_lost :
    Reached ⟨some (interleaved 1), [askingProcess, liveOwner],
      [askingProcess, liveOwner, lostOwner], none, []⟩ := by
  obtain ⟨_, created⟩ := left_created
  obtain ⟨_, lost⟩ := left_lost
  have start : Reached .start := ⟨[], .nil⟩
  have appended : appendCampaignEvent sampleHost none ⟨sampleTime, .created sampleCreation⟩ none =
      .ok (interleaved 0) :=
    @appendCampaignEvent_of_fold _ none [] _ _ rfl (by decide) created.accepted
  have registered := start.snoc (.created rfl appended) trivial
  have born := registered.snoc (.born (show lostOwner ∉ [] by decide)) trivial
  have started := born.started rfl rfl List.mem_cons_self created rfl
    (unlimited_of_left created rfl)
    (by decide +kernel) rfl lost.accepted
  have died := started.snoc (.died List.mem_cons_self) trivial
  have replaced := died.snoc (.born (show liveOwner ∉ [lostOwner] by decide)) trivial
  exact replaced.snoc (.born (show askingProcess ∉ [liveOwner, lostOwner] by decide)) trivial

def settlingSystem : CampaignSystem where
  ledger := some (interleaved 4)
  alive := [askingProcess, liveOwner]
  born := [askingProcess, liveOwner, lostOwner]
  runner := some ⟨liveOwner, none, false, .session⟩
  controls := [⟨askingProcess, .pause, .settling (interleaved 2)⟩]

theorem reached_settling : Reached settlingSystem := by
  obtain ⟨running, lost⟩ := left_lost
  obtain ⟨_, asked⟩ := left_asked
  obtain ⟨_, acknowledged⟩ := left_acknowledged
  obtain ⟨_, live⟩ := left_live
  have considering := reached_lost.snoc
    (@CampaignSystemStep.asked _ _ askingProcess .pause List.mem_cons_self) trivial
  have considered := considering.snoc
    (@CampaignSystemStep.considered _ _ [] [] _ _ _ rfl rfl ⟨rfl, lost.accepted⟩
      (by rw [requestable, lost.state]; decide +kernel)) trivial
  have working : ¬ (ControlAction.pause = .pause ∧ running.state = .settled .paused) := by
    rw [lost.state]
    decide
  rw [if_neg working] at considered
  have requested := considered.snoc
    (@CampaignSystemStep.requested _ _ [] [] _ _ _ rfl rfl
      (interleaved_append rfl lost.accepted asked.accepted)) trivial
  have seen := requested.snoc
    (@CampaignSystemStep.seen _ _ [] [] _ _ _ rfl rfl asked.accepted fun owner owned => by
      cases asked.owner.symm.trans owned
      decide) trivial
  have free := seen.acknowledged rfl rfl
    (show liveOwner ∈ [askingProcess, liveOwner] by decide) asked
    (by rintro _ ⟨⟩; decide) rfl acknowledged.accepted
  exact free.started rfl rfl (List.mem_cons_of_mem _ List.mem_cons_self) acknowledged rfl
    (unlimited_of_left acknowledged (by decide +kernel)) rfl rfl live.accepted

theorem settling_session : SessionOf sampleHost settlingSystem.ledger liveOwner 4 := by
  obtain ⟨folded, live⟩ := left_live
  exact ⟨_, folded, ⟨rfl, live.accepted⟩, live.state ▸ rfl, live.owner, live.sequence⟩

theorem run_settlesOwn_sample :
    KeptOrSettled sampleHost settlingSystem .left { settlingSystem with runner := none } liveOwner
      4 := by
  obtain ⟨labels, run⟩ := reached_settling
  exact run_settlesOwn run ⟨trivial, .left⟩ settling_session (by decide)

/-- A control that saw the lost owner gone settles the session of the live one. -/
theorem control_settlesLive :
    ¬ ∀ {host : CampaignHost} {labels : List CampaignLabel} {label : CampaignLabel}
      {system next : CampaignSystem} {owner : CampaignOwner} {sequence : ℕ},
      Run (CampaignSystemStep host) .start labels system →
      CampaignSystemStep host system label next →
      SessionOf host system.ledger owner sequence → owner ∈ system.alive →
      KeptOrSettled host system label next owner sequence := by
  intro kept
  obtain ⟨labels, run⟩ := reached_settling
  obtain ⟨_, live⟩ := left_live
  obtain ⟨_, settled⟩ := left_settled
  have taken := @CampaignSystemStep.controlSettled sampleHost settlingSystem [] [] _ sampleTime _ _
    rfl rfl (interleaved_append rfl live.accepted settled.accepted)
  rcases kept (run.mono fun step => step.2) taken settling_session (by decide) with
    ⟨_, folded, ⟨same, accepted⟩, underWay, _⟩ | ⟨ran, _⟩
  · cases same
    cases settled.accepted.symm.trans accepted
    rw [settled.state] at underWay
    cases underWay
  · cases ran

end AshlrHub.Campaign

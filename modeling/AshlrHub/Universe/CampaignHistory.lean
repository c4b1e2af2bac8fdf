import AshlrHub.Universe.CampaignFold

namespace AshlrHub.Campaign

open Js Artifacts Lib Universe

/-! What a history says on its own, and the budgets that every accepted history keeps. -/

def CampaignKind.step? : CampaignKind → Option CampaignStep
  | .step row => some row
  | _ => none

def CampaignKind.session? : CampaignKind → Option CampaignSession
  | .started session => some session
  | _ => none

def CampaignKind.settlement? : CampaignKind → Option CampaignSettlement
  | .settled settlement => some settlement
  | _ => none

def CampaignKind.seedIntent? : CampaignKind → Option UniverseCampaignSeedIntent
  | .seedEvaluationIntent intent => some intent
  | _ => none

def CampaignKind.seedResult? : CampaignKind → Option UniverseCampaignSeedResult
  | .seedEvaluationResult result => some result
  | _ => none

section

variable {α : Type}

def said (read : CampaignKind → Option α) (history : List CampaignEvent) : List α :=
  history.filterMap fun event => read event.kind

section

variable (read : CampaignKind → Option α) (history : List CampaignEvent) (event : CampaignEvent)
include read history event

theorem said_snoc :
    said read (history ++ [event]) = said read history ++ (read event.kind).toList := by
  cases heard : read event.kind <;> simp [said, List.filterMap_append, heard]

theorem said_cons :
    said read (event :: history) = (read event.kind).toList ++ said read history := by
  cases heard : read event.kind <;> simp [said, heard]

end

theorem said_quiet {read : CampaignKind → Option α} {history : List CampaignEvent}
    {event : CampaignEvent} (quiet : read event.kind = none) :
    said read (history ++ [event]) = said read history := by
  rw [said_snoc, quiet, Option.toList_none, List.append_nil]

theorem said_heard {read : CampaignKind → Option α} {history : List CampaignEvent}
    {event : CampaignEvent} {value : α} (heard : read event.kind = some value) :
    said read (history ++ [event]) = said read history ++ [value] := by
  rw [said_snoc, heard, Option.toList_some]

end

def stepsOf : List CampaignEvent → List CampaignStep := said CampaignKind.step?

def sessionsOf : List CampaignEvent → List CampaignSession := said CampaignKind.session?

def settlementsOf : List CampaignEvent → List CampaignSettlement := said CampaignKind.settlement?

def seedIntentsOf : List CampaignEvent → List UniverseCampaignSeedIntent :=
  said CampaignKind.seedIntent?

def seedResultsOf : List CampaignEvent → List UniverseCampaignSeedResult :=
  said CampaignKind.seedResult?

def dispatchesOf (history : List CampaignEvent) : List JsString :=
  (sessionsOf history).flatMap fun session => session.dispatchId.toList

def firstStart (history : List CampaignEvent) : Option JsString :=
  (history.find? fun event => event.kind.session?.isSome).map (·.atTime)

def MeasuredIn (history : List CampaignEvent) : Prop :=
  ∃ result, seedResultsOf history = [result] ∧ result.status = .measured

structure WithinBudget (created : CampaignCreation) (history : List CampaignEvent) : Prop where
  requests : ((stepsOf history).map (·.reservedModelRequests)).sum ≤
    created.definition.budget.maxModelRequests
  generations : (stepsOf history).length ≤ created.definition.budget.maxGenerations
  runIds : ((stepsOf history).map (·.runId)).Nodup
  ordinals : (stepsOf history).map (·.ordinal) = List.range' 1 (stepsOf history).length
  deadline : ∀ session ∈ sessionsOf history, ∃ atTime, firstStart history = some atTime ∧
    some session.deadlineAt = deadlineFrom created atTime
  dispatches : (dispatchesOf history).Nodup
  stopped : ∀ {before event behind}, history = before ++ event :: behind →
    event.kind = .control .stop →
    stepsOf behind = [] ∧ ∀ settlement ∈ settlementsOf behind, settlement.state = .stopped
  paused : ∀ {before event middle ending behind settlement},
    history = before ++ event :: middle ++ ending :: behind → event.kind = .control .pause →
    settlementsOf middle = [] → ending.kind = .settled settlement →
    settlement.state = .paused ∨ settlement.state = .stopped
  terminal : ∀ {before event behind settlement}, history = before ++ event :: behind →
    event.kind = .settled settlement → terminalCampaign (.settled settlement.state) = true →
    behind = []
  seedOnce : (seedIntentsOf history).length ≤ 1 ∧ (seedResultsOf history).length ≤ 1
  measuredFirst : created.definition.measureSeed = true →
    ∀ {before event behind}, history = before ++ event :: behind →
    event.kind.step?.isSome = true ∨
      (∃ settlement, event.kind = .settled settlement ∧ settlement.state = .completed) →
    MeasuredIn before

/-! The fold keeps what its history says. -/

variable {host : CampaignHost} {history : List CampaignEvent} {folded next : Folded}
  {event : CampaignEvent}

structure Tracks (history : List CampaignEvent) (folded : Folded) : Prop where
  registered : Registered history folded.created
  steps : folded.steps = stepsOf history
  reserved : folded.reserved = ((stepsOf history).map (·.reservedModelRequests)).sum
  requests : folded.reserved ≤ folded.created.definition.budget.maxModelRequests
  generations : (stepsOf history).length ≤ folded.created.definition.budget.maxGenerations
  runIds : ((stepsOf history).map (·.runId)).Nodup
  ordinals : (stepsOf history).map (·.ordinal) = List.range' 1 (stepsOf history).length
  startedAt : folded.startedAt = firstStart history
  deadlineAt : folded.deadlineAt = folded.startedAt.bind (deadlineFrom folded.created)
  deadline : ∀ session ∈ sessionsOf history, folded.startedAt.isSome = true ∧
    some session.deadlineAt = folded.deadlineAt
  dispatches : folded.dispatches = dispatchesOf history
  dispatchOnce : (dispatchesOf history).Nodup
  seedIntents : seedIntentsOf history = (folded.seedEvaluation.map (·.intent)).toList
  seedResults : seedResultsOf history = (folded.seedEvaluation.bind (·.result)).toList

namespace Tracks

variable {created : CampaignCreation}

theorem start (kind : event.kind = .created created) :
    Tracks [event] (Folded.start created) := by
  have silent : ∀ {α : Type} {read : CampaignKind → Option α}, read (.created created) = none →
      said read [event] = [] := by
    intro α read quiet
    rw [said, List.filterMap_cons, kind, quiet, List.filterMap_nil]
  have noSteps : stepsOf [event] = [] := silent rfl
  have noSessions : sessionsOf [event] = [] := silent rfl
  have noStart : firstStart [event] = none := by simp [firstStart, kind, CampaignKind.session?]
  constructor
  · exact ⟨event, rfl, kind⟩
  · exact noSteps.symm
  · rw [noSteps]
    rfl
  · exact Nat.zero_le _
  · rw [noSteps]
    exact Nat.zero_le _
  · rw [noSteps]
    exact List.nodup_nil
  · rw [noSteps]
    rfl
  · exact noStart.symm
  · rfl
  · rw [noSessions]
    exact fun session absent => absurd absent List.not_mem_nil
  · rw [dispatchesOf, noSessions]
    rfl
  · rw [dispatchesOf, noSessions]
    exact List.nodup_nil
  · exact silent rfl
  · exact silent rfl

theorem registered_snoc (registered : Registered history created) :
    Registered (history ++ [event]) created := by
  obtain ⟨first, head, kind⟩ := registered
  cases history with
  | nil => cases head
  | cons start rest => exact ⟨first, head, kind⟩

theorem firstStart_snoc : firstStart (history ++ [event]) =
    (firstStart history).or (if event.kind.session?.isSome then some event.atTime else none) := by
  unfold firstStart
  rw [List.find?_append, List.find?_singleton]
  cases history.find? fun event => event.kind.session?.isSome with
  | some first => rfl
  | none =>
      dsimp only [Option.none_or, Option.map_none]
      split_ifs <;> rfl

section

variable (tracks : Tracks history folded)
include tracks

section

variable (noStep : event.kind.step? = none) (noSession : event.kind.session? = none)
include noStep noSession

/-- An event without a step and a session leaves all but the seed and what is said of the
state. -/
theorem unsaid {evaluation : Option UniverseCampaignSeedEvaluation}
    (intents : seedIntentsOf (history ++ [event]) = (evaluation.map (·.intent)).toList)
    (results : seedResultsOf (history ++ [event]) = (evaluation.bind (·.result)).toList)
    (state : CampaignState) (reason : Option JsString) (owner : Option CampaignOwner)
    (finishedAt : Option JsString) (activeDispatchId : Option JsString) :
    Tracks (history ++ [event]) { folded with
      seedEvaluation := evaluation
      state := state
      reason := reason
      owner := owner
      finishedAt := finishedAt
      activeDispatchId := activeDispatchId } := by
  have steps : stepsOf (history ++ [event]) = stepsOf history := said_quiet noStep
  have sessions : sessionsOf (history ++ [event]) = sessionsOf history := said_quiet noSession
  have dispatches : dispatchesOf (history ++ [event]) = dispatchesOf history := by
    rw [dispatchesOf, sessions, dispatchesOf]
  have started : firstStart (history ++ [event]) = firstStart history := by
    rw [firstStart_snoc, noSession]
    exact Option.or_none
  constructor
  · exact registered_snoc tracks.registered
  · exact steps ▸ tracks.steps
  · exact steps ▸ tracks.reserved
  · exact tracks.requests
  · exact steps ▸ tracks.generations
  · exact steps ▸ tracks.runIds
  · exact steps ▸ tracks.ordinals
  · exact started ▸ tracks.startedAt
  · exact tracks.deadlineAt
  · exact sessions ▸ tracks.deadline
  · exact dispatches ▸ tracks.dispatches
  · exact dispatches ▸ tracks.dispatchOnce
  · exact intents
  · exact results

theorem control (noIntent : event.kind.seedIntent? = none)
    (noResult : event.kind.seedResult? = none) (state : CampaignState) (reason : Option JsString)
    (owner : Option CampaignOwner) (finishedAt : Option JsString)
    (activeDispatchId : Option JsString) :
    Tracks (history ++ [event]) { folded with
      state := state
      reason := reason
      owner := owner
      finishedAt := finishedAt
      activeDispatchId := activeDispatchId } := by
  refine tracks.unsaid noStep noSession ?_ ?_ state reason owner finishedAt activeDispatchId
  · rw [seedIntentsOf, said_quiet noIntent]
    exact tracks.seedIntents
  · rw [seedResultsOf, said_quiet noResult]
    exact tracks.seedResults

end

theorem starts {session : CampaignSession}
    {startedAt deadlineAt : Option JsString} (kind : event.kind = .started session)
    (fresh : ∀ dispatch ∈ session.dispatchId, dispatch ∉ folded.dispatches)
    (fixed : (folded.startedAt.isSome = true ∧ startedAt = folded.startedAt ∧
        deadlineAt = folded.deadlineAt) ∨
      (folded.startedAt = none ∧ startedAt = some event.atTime ∧
        deadlineAt = deadlineFrom folded.created event.atTime))
    (same : some session.deadlineAt = deadlineAt) :
    Tracks (history ++ [event]) { folded with
      startedAt := startedAt
      deadlineAt := deadlineAt
      activeDispatchId := session.dispatchId
      dispatches := folded.dispatches ++ session.dispatchId.toList
      state := .running
      owner := some session.owner
      reason := none
      finishedAt := none
      sessionSequence := some event.sequence
      sessionStartedAt := some event.atTime } := by
  have steps : stepsOf (history ++ [event]) = stepsOf history := said_quiet (by rw [kind]; rfl)
  have sessions : sessionsOf (history ++ [event]) = sessionsOf history ++ [session] :=
    said_heard (by rw [kind]; rfl)
  have dispatches : dispatchesOf (history ++ [event]) =
      dispatchesOf history ++ session.dispatchId.toList := by
    rw [dispatchesOf, sessions, List.flatMap_append, List.flatMap_singleton, dispatchesOf]
  have began : firstStart (history ++ [event]) = startedAt := by
    rw [firstStart_snoc, ← tracks.startedAt, kind]
    rcases fixed with ⟨before, rfl, _⟩ | ⟨first, rfl, _⟩
    · rw [Option.or_of_isSome before]
    · rw [first]
      rfl
  have keeps : ∀ other ∈ sessionsOf history, startedAt.isSome = true ∧
      some other.deadlineAt = deadlineAt := by
    intro other member
    obtain ⟨before, held⟩ := tracks.deadline other member
    rcases fixed with ⟨_, rfl, rfl⟩ | ⟨first, _, _⟩
    · exact ⟨before, held⟩
    · rw [first] at before
      cases before
  constructor
  · exact registered_snoc tracks.registered
  · exact steps ▸ tracks.steps
  · exact steps ▸ tracks.reserved
  · exact tracks.requests
  · exact steps ▸ tracks.generations
  · exact steps ▸ tracks.runIds
  · exact steps ▸ tracks.ordinals
  · exact began.symm
  · rcases fixed with ⟨_, rfl, rfl⟩ | ⟨_, rfl, rfl⟩
    · exact tracks.deadlineAt
    · rfl
  · intro other member
    rw [sessions, List.mem_append, List.mem_singleton] at member
    rcases member with old | rfl
    · exact keeps other old
    · refine ⟨?_, same⟩
      rcases fixed with ⟨before, rfl, _⟩ | ⟨_, rfl, _⟩
      · exact before
      · rfl
  · rw [dispatches, tracks.dispatches]
  · rw [dispatches]
    cases dispatch : session.dispatchId with
    | none => exact (List.append_nil _).symm ▸ tracks.dispatchOnce
    | some id =>
        rw [Option.toList_some, ← List.concat_eq_append]
        exact tracks.dispatchOnce.concat (tracks.dispatches ▸ fresh id dispatch)
  · rw [seedIntentsOf, said_quiet (by rw [kind]; rfl)]
    exact tracks.seedIntents
  · rw [seedResultsOf, said_quiet (by rw [kind]; rfl)]
    exact tracks.seedResults

theorem steps_on {row : CampaignStep}
    (kind : event.kind = .step row) (ordinal : row.ordinal = folded.steps.length + 1)
    (new : row.runId ∉ folded.steps.map (·.runId))
    (generations : row.ordinal ≤ folded.created.definition.budget.maxGenerations)
    (requests : folded.reserved + row.reservedModelRequests ≤
      folded.created.definition.budget.maxModelRequests) :
    Tracks (history ++ [event]) { folded with
      steps := folded.steps ++ [row]
      reserved := folded.reserved + row.reservedModelRequests } := by
  have steps : stepsOf (history ++ [event]) = stepsOf history ++ [row] :=
    said_heard (by rw [kind]; rfl)
  have sessions : sessionsOf (history ++ [event]) = sessionsOf history :=
    said_quiet (by rw [kind]; rfl)
  have dispatches : dispatchesOf (history ++ [event]) = dispatchesOf history := by
    rw [dispatchesOf, sessions, dispatchesOf]
  have began : firstStart (history ++ [event]) = firstStart history := by
    rw [firstStart_snoc, kind]
    exact Option.or_none
  rw [tracks.steps] at ordinal new
  constructor
  · exact registered_snoc tracks.registered
  · rw [steps, tracks.steps]
  · rw [steps, List.map_append, List.sum_append, tracks.reserved]
    rfl
  · exact requests
  · rw [steps, List.length_append, List.length_singleton, ← ordinal]
    exact generations
  · rw [steps, List.map_append, List.map_singleton, ← List.concat_eq_append]
    exact tracks.runIds.concat new
  · rw [steps, List.map_append, List.map_singleton, tracks.ordinals, ordinal, List.length_append,
      List.length_singleton, List.range'_1_concat, Nat.add_comm]
  · exact began ▸ tracks.startedAt
  · exact tracks.deadlineAt
  · exact sessions ▸ tracks.deadline
  · exact dispatches ▸ tracks.dispatches
  · exact dispatches ▸ tracks.dispatchOnce
  · rw [seedIntentsOf, said_quiet (by rw [kind]; rfl)]
    exact tracks.seedIntents
  · rw [seedResultsOf, said_quiet (by rw [kind]; rfl)]
    exact tracks.seedResults

theorem step (taken : FoldStep folded event next) :
    Tracks (history ++ [event]) next := by
  cases taken with
  | started kind startable fresh fixed same => exact tracks.starts kind fresh fixed same
  | @seedIntent intent kind first running =>
      have heard : event.kind.seedIntent? = some intent := by
        rw [kind]
        rfl
      refine tracks.unsaid ?_ ?_ ?_ ?_ _ _ _ _ _
      · rw [kind]
        rfl
      · rw [kind]
        rfl
      · rw [seedIntentsOf, said_heard heard]
        have none_ := tracks.seedIntents
        rw [first, seedIntentsOf] at none_
        rw [none_]
        rfl
      · rw [seedResultsOf, said_quiet (by rw [kind]; rfl)]
        have none_ := tracks.seedResults
        rw [first, seedResultsOf] at none_
        rw [none_]
        rfl
  | @seedResult evaluation result kind held unsettled underWay =>
      have heard : event.kind.seedResult? = some result := by
        rw [kind]
        rfl
      refine tracks.unsaid ?_ ?_ ?_ ?_ _ _ _ _ _
      · rw [kind]
        rfl
      · rw [kind]
        rfl
      · rw [seedIntentsOf, said_quiet (by rw [kind]; rfl)]
        have before := tracks.seedIntents
        rw [held] at before
        exact before
      · rw [seedResultsOf, said_heard heard]
        have none_ := tracks.seedResults
        rw [held, Option.bind_some, unsettled, seedResultsOf] at none_
        rw [none_]
        rfl
  | step kind running measured ordinal new generations requests =>
      exact tracks.steps_on kind ordinal new generations requests
  | stop kind replaceable | pause kind replaceable | settled kind measured stopping pausing =>
      refine tracks.control ?_ ?_ ?_ ?_ _ _ _ _ _ <;>
        · rw [kind]
          rfl

theorem measured (seedMeasured : folded.seedMeasured = true) :
    MeasuredIn history := by
  unfold Folded.seedMeasured at seedMeasured
  cases held : folded.seedEvaluation with
  | none =>
      rw [held] at seedMeasured
      cases seedMeasured
  | some evaluation =>
      cases settled : evaluation.result with
      | none =>
          rw [held, Option.any_some, settled] at seedMeasured
          cases seedMeasured
      | some result =>
          rw [held, Option.any_some, settled, Option.any_some, decide_eq_true_eq] at seedMeasured
          refine ⟨result, ?_, seedMeasured⟩
          rw [tracks.seedResults, held, Option.bind_some, settled]
          rfl

end

end Tracks

theorem foldCampaignEvents_tracks (accepted : foldCampaignEvents host history = .ok folded) :
    Tracks history folded :=
  foldCampaignEvents_induction Tracks.start (fun tracks taken => tracks.step taken) history accepted

/-! What a control leaves open. -/

theorem stopped_behind : {behind : List CampaignEvent} → {state last : Folded} →
    (state.state = .stopRequested ∨ state.state = .settled .stopped) →
    behind.foldlM (Folded.foldEvent host) state = .ok last →
    stepsOf behind = [] ∧ ∀ settlement ∈ settlementsOf behind, settlement.state = .stopped
  | [], _, _, _, _ => ⟨rfl, fun _ absent => absurd absent List.not_mem_nil⟩
  | event :: behind, state, last, asked, folds => by
      rw [List.foldlM_cons] at folds
      obtain ⟨next, taken, later⟩ := bind_eq_ok.mp folds
      obtain ⟨live, step⟩ := Folded.foldEvent_step taken
      have stopping : state.state = .stopRequested := by
        refine asked.resolve_right ?_
        intro stopped
        rw [stopped] at live
        cases live
      rw [stepsOf, settlementsOf, said_cons, said_cons]
      cases step with
      | started kind startable fresh fixed same =>
          rw [stopping] at startable
          cases startable
      | seedIntent kind first running | step kind running =>
          rw [stopping] at running
          cases running
      | stop kind replaceable | pause kind replaceable => exact absurd stopping replaceable
      | seedResult kind held unsettled underWay =>
          rw [kind]
          refine stopped_behind ?_ later
          exact .inl stopping
      | @settled settlement kind measured stops pauses =>
          have stopped := stops stopping
          obtain ⟨noSteps, others⟩ := stopped_behind (.inr (by rw [stopped])) later
          rw [kind]
          refine ⟨noSteps, ?_⟩
          intro other member
          rcases List.mem_cons.mp member with rfl | inside
          · exact stopped
          · exact others other inside

theorem paused_behind : {middle : List CampaignEvent} → {state last : Folded} →
    (state.state = .pauseRequested ∨ state.state = .stopRequested) →
    middle.foldlM (Folded.foldEvent host) state = .ok last → settlementsOf middle = [] →
    last.state = .pauseRequested ∨ last.state = .stopRequested
  | [], _, _, asked, folds, _ => by
      cases folds
      exact asked
  | event :: middle, state, last, asked, folds, unsettled => by
      rw [List.foldlM_cons] at folds
      obtain ⟨next, taken, later⟩ := bind_eq_ok.mp folds
      obtain ⟨_, step⟩ := Folded.foldEvent_step taken
      rw [settlementsOf, said_cons, List.append_eq_nil_iff] at unsettled
      refine paused_behind ?_ later unsettled.2
      cases step with
      | started kind startable fresh fixed same =>
          rcases asked with same | same <;>
            · rw [same] at startable
              cases startable
      | seedIntent kind first running | step kind running =>
          rcases asked with same | same <;>
            · rw [same] at running
              cases running
      | seedResult kind held unsettled underWay => exact asked
      | stop kind replaceable => exact .inr rfl
      | pause kind replaceable => exact .inl rfl
      | settled kind measured stops pauses =>
          rw [kind] at unsettled
          cases unsettled.1

theorem before_registered {before behind : List CampaignEvent}
    (registered : Registered (before ++ event :: behind) created)
    (later : event.kind ≠ .created created) : before ≠ [] := by
  rintro rfl
  obtain ⟨first, head, kind⟩ := registered
  cases head
  exact later kind

theorem registered_unique {other : CampaignCreation} {front back : List CampaignEvent}
    (registered : Registered front created) (whole : Registered (front ++ back) other) :
    created = other := by
  obtain ⟨first, head, kind⟩ := registered
  obtain ⟨same, sameHead, sameKind⟩ := whole
  cases front with
  | nil => cases head
  | cons start rest =>
      cases head
      cases sameHead
      rw [kind] at sameKind
      exact CampaignKind.created.inj sameKind

theorem withinBudget_of_accepted (accepted : foldCampaignEvents host history = .ok folded) :
    WithinBudget folded.created history := by
  have tracks := foldCampaignEvents_tracks accepted
  have front : ∀ {before behind : List CampaignEvent} {event : CampaignEvent},
      history = before ++ event :: behind → event.kind ≠ .created folded.created →
      ∃ state next, Tracks before state ∧ state.created = folded.created ∧
        terminalCampaign state.state = false ∧ FoldStep state event next ∧ behind.foldlM
          (Folded.foldEvent host) next = .ok folded := by
    rintro before behind event rfl later
    obtain ⟨state, next, folds, live, taken, rest⟩ :=
      foldCampaignEvents_split (before_registered tracks.registered later) accepted
    have earlier := foldCampaignEvents_tracks folds
    exact ⟨state, next, earlier, registered_unique earlier.registered tracks.registered, live,
    taken, rest⟩
  constructor
  · exact tracks.reserved ▸ tracks.requests
  · exact tracks.generations
  · exact tracks.runIds
  · exact tracks.ordinals
  · intro session member
    obtain ⟨began, same⟩ := tracks.deadline session member
    obtain ⟨atTime, first⟩ := Option.isSome_iff_exists.mp began
    refine ⟨atTime, tracks.startedAt ▸ first, ?_⟩
    rw [same, tracks.deadlineAt, first, Option.bind_some]
  · exact tracks.dispatchOnce
  · intro before event behind spelled kind
    obtain ⟨state, next, _, _, _, taken, rest⟩ := front spelled (by simp [kind])
    refine stopped_behind (.inl ?_) rest
    cases taken with
    | stop kind replaceable => rfl
    | started other | seedIntent other | seedResult other | step other | pause other
    | settled other =>
        rw [other] at kind
        cases kind
  · intro before event middle ending behind settlement spelled kind unsettled ends
    have apart : history = before ++ event :: (middle ++ ending :: behind) := by
      rw [spelled, List.append_assoc, List.cons_append]
    obtain ⟨state, next, _, _, _, taken, rest⟩ := front apart (by simp [kind])
    have pausing : next.state = .pauseRequested := by
      cases taken with
      | pause kind replaceable => rfl
      | started other | seedIntent other | seedResult other | step other | stop other
      | settled other =>
          rw [other] at kind
          cases kind
    rw [List.foldlM_append] at rest
    obtain ⟨last, throughout, finish⟩ := bind_eq_ok.mp rest
    rw [List.foldlM_cons] at finish
    obtain ⟨ended, ending_, _⟩ := bind_eq_ok.mp finish
    obtain ⟨_, settling⟩ := Folded.foldEvent_step ending_
    have asked := paused_behind (.inl pausing) throughout unsettled
    cases settling with
    | @settled same other measured stops pauses =>
        rw [other] at ends
        cases ends
        exact asked.elim pauses fun stopping => .inr (stops stopping)
    | started other | seedIntent other | seedResult other | step other | stop other
    | pause other =>
        rw [other] at ends
        cases ends
  · intro before event behind settlement spelled kind terminal
    obtain ⟨state, next, _, _, _, taken, rest⟩ := front spelled (by simp [kind])
    cases behind with
    | nil => rfl
    | cons extra behind =>
        rw [List.foldlM_cons] at rest
        obtain ⟨extended, more, _⟩ := bind_eq_ok.mp rest
        have live := (Folded.foldEvent_step more).1
        cases taken with
        | @settled same other measured stops pauses =>
            rw [other] at kind
            cases kind
            rw [terminal] at live
            cases live
        | started other | seedIntent other | seedResult other | step other | stop other
        | pause other =>
            rw [other] at kind
            cases kind
  · rw [tracks.seedIntents, tracks.seedResults]
    exact ⟨Option.length_toList_le, Option.length_toList_le⟩
  · intro measures before event behind spelled gated
    obtain ⟨state, next, earlier, same, _, taken, _⟩ := front spelled (by
      rcases gated with steps | ⟨settlement, settled, _⟩
      · intro created
        rw [created] at steps
        cases steps
      · simp [settled])
    cases taken with
    | step kind running measured => exact earlier.measured (measured (same ▸ measures))
    | @settled settlement kind measured =>
        refine earlier.measured (measured ?_ (same ▸ measures))
        rcases gated with steps | ⟨other, settled, completed⟩
        · rw [kind] at steps
          cases steps
        · rw [kind] at settled
          cases settled
          exact completed
    | started kind | seedIntent kind | seedResult kind | stop kind | pause kind =>
        rw [kind] at gated
        rcases gated with steps | ⟨other, settled, _⟩
        · cases steps
        · cases settled

end AshlrHub.Campaign

import AshlrHub.Universe.CampaignStore

namespace AshlrHub.Campaign

open Js Artifacts Lib Universe

/-! What one event of an accepted history does, and how histories fold part by part. -/

variable {host : CampaignHost} {folded next : Folded} {event : CampaignEvent}

def deadlineFrom (created : CampaignCreation) (atTime : JsString) : Option JsString :=
  (dateParse atTime).bind fun start =>
    toISOString (start + (created.definition.budget.maxDurationMs : ℤ))

inductive FoldStep (folded : Folded) (event : CampaignEvent) : Folded → Prop
  | started {session : CampaignSession} {startedAt deadlineAt : Option JsString}
      (kind : event.kind = .started session) (startable : Folded.startable folded.state = true)
      (fresh : ∀ dispatch ∈ session.dispatchId, dispatch ∉ folded.dispatches)
      (fixed : (folded.startedAt.isSome = true ∧ startedAt = folded.startedAt ∧
          deadlineAt = folded.deadlineAt) ∨
        (folded.startedAt = none ∧ startedAt = some event.atTime ∧
          deadlineAt = deadlineFrom folded.created event.atTime))
      (same : some session.deadlineAt = deadlineAt) :
      FoldStep folded event
        { folded with
          startedAt := startedAt
          deadlineAt := deadlineAt
          activeDispatchId := session.dispatchId
          dispatches := folded.dispatches ++ session.dispatchId.toList
          state := .running
          owner := some session.owner
          reason := none
          finishedAt := none
          sessionSequence := some event.sequence
          sessionStartedAt := some event.atTime }
  | seedIntent {intent : UniverseCampaignSeedIntent} (kind : event.kind = .seedEvaluationIntent
    intent)
      (first : folded.seedEvaluation = none) (running : folded.state = .running) :
      FoldStep folded event { folded with seedEvaluation := some ⟨intent, none⟩ }
  | seedResult {evaluation : UniverseCampaignSeedEvaluation} {result : UniverseCampaignSeedResult}
      (kind : event.kind = .seedEvaluationResult result)
      (held : folded.seedEvaluation = some evaluation) (unsettled : evaluation.result = none)
      (underWay : Folded.underWay folded.state = true) :
      FoldStep folded event
        { folded with seedEvaluation := some { evaluation with result := some result } }
  | step {row : CampaignStep} (kind : event.kind = .step row) (running : folded.state = .running)
      (measured : folded.created.definition.measureSeed = true → folded.seedMeasured = true)
      (ordinal : row.ordinal = folded.steps.length + 1)
      (new : row.runId ∉ folded.steps.map (·.runId))
      (generations : row.ordinal ≤ folded.created.definition.budget.maxGenerations)
      (requests : folded.reserved + row.reservedModelRequests ≤
        folded.created.definition.budget.maxModelRequests) :
      FoldStep folded event
        { folded with
          steps := folded.steps ++ [row]
          reserved := folded.reserved + row.reservedModelRequests }
  | stop {reason : JsString} (kind : event.kind = .control .stop)
      (replaceable : folded.state ≠ .stopRequested) :
      FoldStep folded event { folded with state := .stopRequested, reason := some reason }
  | pause {reason : JsString} (kind : event.kind = .control .pause)
      (replaceable : folded.state ≠ .stopRequested) :
      FoldStep folded event { folded with state := .pauseRequested, reason := some reason }
  | settled {settlement : CampaignSettlement} (kind : event.kind = .settled settlement)
      (measured : settlement.state = .completed → folded.created.definition.measureSeed = true →
        folded.seedMeasured = true)
      (stopping : folded.state = .stopRequested → settlement.state = .stopped)
      (pausing : folded.state = .pauseRequested →
        settlement.state = .paused ∨ settlement.state = .stopped) :
      FoldStep folded event
        { folded with
          state := .settled settlement.state
          reason := some settlement.reason
          owner := none
          finishedAt := some event.atTime
          activeDispatchId := none }

namespace Folded

theorem fixDeadline_ok {atTime : JsString} (fixed : folded.fixDeadline atTime = .ok next) :
    ∃ startedAt deadlineAt,
      next = { folded with startedAt := startedAt, deadlineAt := deadlineAt } ∧
      ((folded.startedAt.isSome = true ∧ startedAt = folded.startedAt ∧
          deadlineAt = folded.deadlineAt) ∨
        (folded.startedAt = none ∧ startedAt = some atTime ∧
          deadlineAt = deadlineFrom folded.created atTime)) := by
  unfold fixDeadline at fixed
  by_cases before : folded.startedAt.isSome = true
  · rw [if_pos before] at fixed
    cases fixed
    exact ⟨_, _, rfl, .inl ⟨before, rfl, rfl⟩⟩
  · rw [if_neg before] at fixed
    have none_ : folded.startedAt = none := by simpa using before
    cases spelled : deadlineFrom folded.created atTime with
    | none =>
        rw [deadlineFrom] at spelled
        rw [spelled] at fixed
        cases fixed
    | some deadlineAt =>
        rw [deadlineFrom] at spelled
        rw [spelled] at fixed
        cases fixed
        exact ⟨_, _, rfl, .inr ⟨none_, rfl, rfl⟩⟩

theorem foldStarted_step {session : CampaignSession} (kind : event.kind = .started session)
    (taken : folded.foldStarted event session = .ok next) : FoldStep folded event next := by
  unfold foldStarted at taken
  split_ifs at taken with unstartable unresolved reused
  obtain ⟨base, fixed, answered⟩ := bind_eq_ok.mp taken
  split_ifs at answered with reset
  cases answered
  obtain ⟨startedAt, deadlineAt, rfl, cases_⟩ := fixDeadline_ok fixed
  rw [Bool.not_eq_false] at unstartable
  refine .started kind unstartable ?_ cases_ (not_not.mp reset)
  intro dispatch member used
  exact reused ⟨dispatch, member, used⟩

theorem foldSeedIntent_step {intent : UniverseCampaignSeedIntent}
    (kind : event.kind = .seedEvaluationIntent intent)
    (taken : folded.foldSeedIntent intent = .ok next) : FoldStep folded event next := by
  unfold foldSeedIntent at taken
  split_ifs at taken with refused
  cases taken
  simp only [not_or, not_not, Option.not_isSome_iff_eq_none] at refused
  exact .seedIntent kind refused.2.1 refused.2.2.2.1

theorem foldSeedResult_step {result : UniverseCampaignSeedResult}
    (kind : event.kind = .seedEvaluationResult result)
    (taken : foldSeedResult host folded result = .ok next) : FoldStep folded event next := by
  unfold foldSeedResult at taken
  cases held : folded.seedEvaluation with
  | none =>
      rw [held] at taken
      cases taken
  | some evaluation =>
      rw [held] at taken
      dsimp only at taken
      split_ifs at taken with refused
      cases taken
      rw [not_or, not_or, not_or, Option.not_isSome_iff_eq_none, Bool.not_eq_false] at refused
      exact .seedResult kind held refused.1 refused.2.2.1

theorem foldStep_step {row : CampaignStep} (kind : event.kind = .step row)
    (taken : folded.foldStep row = .ok next) : FoldStep folded event next := by
  unfold foldStep at taken
  split_ifs at taken with refused
  cases taken
  simp only [not_or, not_not, not_and, not_lt, Bool.not_eq_false] at refused
  obtain ⟨running, _, measured, ordinal, new, generations, requests⟩ := refused
  exact .step kind running measured ordinal new generations requests

theorem foldControl_step {action : ControlAction} (kind : event.kind = .control action)
    (taken : folded.foldControl action = .ok next) : FoldStep folded event next := by
  unfold foldControl at taken
  split_ifs at taken with replaced
  cases action with
  | stop =>
      cases taken
      exact .stop kind replaced
  | pause =>
      cases taken
      exact .pause kind replaced

theorem foldSettled_step {settlement : CampaignSettlement} (kind : event.kind = .settled settlement)
    (taken : folded.foldSettled event settlement = .ok next) : FoldStep folded event next := by
  unfold foldSettled at taken
  split_ifs at taken with unmeasured mismatched ignored
  cases taken
  simp only [not_and, Bool.not_eq_false] at unmeasured
  simp only [not_or, not_and, not_not] at ignored
  refine .settled kind unmeasured ignored.1 ?_
  intro pausing
  by_cases paused : settlement.state = .paused
  · exact .inl paused
  · exact .inr (ignored.2 pausing paused)

theorem foldEvent_step (taken : foldEvent host folded event = .ok next) :
    terminalCampaign folded.state = false ∧ FoldStep folded event next := by
  unfold foldEvent at taken
  split_ifs at taken with terminal
  refine ⟨Bool.not_eq_true _ ▸ terminal, ?_⟩
  cases kind : event.kind with
  | created created =>
      rw [kind] at taken
      cases taken
  | started session =>
      rw [kind] at taken
      exact foldStarted_step kind taken
  | seedEvaluationIntent intent =>
      rw [kind] at taken
      exact foldSeedIntent_step kind taken
  | seedEvaluationResult result =>
      rw [kind] at taken
      exact foldSeedResult_step kind taken
  | step row =>
      rw [kind] at taken
      exact foldStep_step kind taken
  | control action =>
      rw [kind] at taken
      exact foldControl_step kind taken
  | settled settlement =>
      rw [kind] at taken
      exact foldSettled_step kind taken

end Folded

def Registered (history : List CampaignEvent) (created : CampaignCreation) : Prop :=
  ∃ first, history.head? = some first ∧ first.kind = .created created

theorem validFrom_append : (front back : List CampaignEvent) → (index : ℕ) →
    validFrom host index (front ++ back) =
      (validFrom host index front && validFrom host (index + front.length) back)
  | [], back, index => by rw [List.nil_append, validFrom, Bool.true_and, List.length_nil,
      Nat.add_zero]
  | event :: front, back, index => by
      rw [List.cons_append, validFrom, validFrom, validFrom_append front back (index + 1),
        ← Bool.and_assoc, List.length_cons, Nat.add_assoc, Nat.add_comm 1]

theorem foldCampaignEvents_ok {history : List CampaignEvent}
    (accepted : foldCampaignEvents host history = .ok folded) :
    ∃ first created rest, history = first :: rest ∧ first.kind = .created created ∧
      validFrom host 0 history = true ∧
      rest.foldlM (Folded.foldEvent host) (Folded.start created) = .ok folded := by
  cases history with
  | nil => cases accepted
  | cons first rest =>
      unfold foldCampaignEvents at accepted
      dsimp only at accepted
      cases kind : first.kind with
      | created created =>
          rw [kind] at accepted
          dsimp only at accepted
          split_ifs at accepted with valid
          exact ⟨first, created, rest, rfl, kind, valid, accepted⟩
      | _ =>
          rw [kind] at accepted
          cases accepted

theorem foldCampaignEvents_cons {first : CampaignEvent} {created : CampaignCreation}
    {rest : List CampaignEvent} (kind : first.kind = .created created)
    (valid : validFrom host 0 (first :: rest) = true) :
    foldCampaignEvents host (first :: rest) =
      rest.foldlM (Folded.foldEvent host) (Folded.start created) := by
  unfold foldCampaignEvents
  dsimp only
  rw [kind]
  dsimp only
  rw [if_pos valid]

section

variable {front back : List CampaignEvent} (some : front ≠ [])
include some

theorem foldCampaignEvents_append
    (accepted : foldCampaignEvents host (front ++ back) = .ok folded) :
    ∃ state, foldCampaignEvents host front = .ok state ∧
      back.foldlM (Folded.foldEvent host) state = .ok folded := by
  cases front with
  | nil => exact absurd rfl some
  | cons first rest =>
      obtain ⟨_, created, _, spelled, kind, valid, folds⟩ := foldCampaignEvents_ok accepted
      cases spelled
      rw [validFrom_append, Bool.and_eq_true] at valid
      replace folds : (rest ++ back).foldlM (Folded.foldEvent host) (Folded.start created) =
        .ok folded := folds
      rw [List.foldlM_append] at folds
      obtain ⟨state, earlier, later⟩ := bind_eq_ok.mp folds
      exact ⟨state, (foldCampaignEvents_cons kind valid.1).trans earlier, later⟩

theorem foldCampaignEvents_split
    (accepted : foldCampaignEvents host (front ++ event :: back) = .ok folded) :
    ∃ state next, foldCampaignEvents host front = .ok state ∧
      terminalCampaign state.state = false ∧ FoldStep state event next ∧
      back.foldlM (Folded.foldEvent host) next = .ok folded := by
  obtain ⟨state, earlier, folds⟩ := foldCampaignEvents_append some accepted
  rw [List.foldlM_cons] at folds
  obtain ⟨next, taken, later⟩ := bind_eq_ok.mp folds
  obtain ⟨live, step⟩ := Folded.foldEvent_step taken
  exact ⟨state, next, earlier, live, step, later⟩

end

theorem foldCampaignEvents_induction {inv : List CampaignEvent → Folded → Prop}
    (first : ∀ {event created}, event.kind = .created created → inv [event] (Folded.start created))
    (later : ∀ {history folded event next}, inv history folded → FoldStep folded event next →
      inv (history ++ [event]) next)
    (history : List CampaignEvent) {folded : Folded}
    (accepted : foldCampaignEvents host history = .ok folded) : inv history folded := by
  induction history using List.reverseRecOn generalizing folded with
  | nil => cases accepted
  | append_singleton history event ih =>
      by_cases empty : history = []
      · subst empty
        obtain ⟨_, created, _, spelled, kind, _, folds⟩ := foldCampaignEvents_ok accepted
        cases spelled
        cases folds
        exact first kind
      · obtain ⟨state, next, earlier, _, step, folds⟩ := foldCampaignEvents_split empty accepted
        cases folds
        exact later (ih earlier) step

end AshlrHub.Campaign

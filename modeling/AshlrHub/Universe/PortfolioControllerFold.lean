import AshlrHub.Universe.PortfolioControllerStore

namespace AshlrHub.Universe

open Js Artifacts Lib

/-! What one event of an accepted history does, and how histories fold part by part. -/

variable {keysInOrder : JsString → JsString → Bool}

inductive FoldStep (keysInOrder : JsString → JsString → Bool) (folded : Folded)
    (event : PortfolioControllerEvent) : Folded → Prop
  | observed (kind : event.kind = .observed) : FoldStep keysInOrder folded event folded
  | drain (kind : event.kind = .drain) (open_ : folded.draining = false) :
      FoldStep keysInOrder folded event
        { folded with control := some ⟨.drain, event.sequence, event.atTime, none⟩ }
  | resume {control : UniversePortfolioControllerControl}
      (kind : event.kind = .resume control.sequence) (held : folded.control = some control)
      (draining : control.mode = .drain) (acknowledged : control.acknowledgedAt ≠ none) :
      FoldStep keysInOrder folded event
        { folded with control := some ⟨.opened, event.sequence, event.atTime, none⟩ }
  | drained {control : UniversePortfolioControllerControl}
      (kind : event.kind = .drained control.sequence) (held : folded.control = some control)
      (draining : control.mode = .drain) (unacknowledged : control.acknowledgedAt = none)
      (idle : ∀ entry ∈ folded.states, entry.2.state ≠ .inFlight) :
      FoldStep keysInOrder folded event
        { folded with control := some { control with acknowledgedAt := some event.atTime } }
  | intent {campaignId : JsString} {dispatchId : Option JsString}
      {current : UniversePortfolioControllerOutcome} {pinned : PortfolioControllerPin}
      {prerequisites : List JsString} (kind : event.kind = .intent campaignId dispatchId)
      (open_ : folded.draining = false) (held : folded.states.get? campaignId = some current)
      (pending : current.state = .pending) (new : campaignId ∉ folded.intents)
      (early : event.atTime < folded.first.deadlineAt)
      (room : folded.inFlight < folded.first.definition.maxParallel)
      (waits : portfolioControllerPrerequisites folded.first campaignId = some prerequisites)
      (completed : folded.allCompleted prerequisites = true) :
      FoldStep keysInOrder folded event
        { folded with
          intents := folded.intents ++ [campaignId]
          intentEvents := folded.intentEvents.set campaignId event
          dispatchIds := folded.dispatchIds ++ dispatchId.toList
          states := folded.states.set campaignId
            { current with
              state := .inFlight
              attempted := pinned.dispatch = .campaign
              reasonCode := js "reconciliation-required" } }
  | diagnostic {campaignId intentDigest : JsString} {phase : DiagnosticPhase}
      {code : DiagnosticCode} {diagnostic : UniversePortfolioControllerDiagnostic}
      (kind : event.kind = .dispatchDiagnostic campaignId intentDigest phase code)
      (new : folded.diagnostics.has campaignId = false) :
      FoldStep keysInOrder folded event
        { folded with diagnostics := folded.diagnostics.set campaignId diagnostic }
  | settled {outcome current : UniversePortfolioControllerOutcome} {recordsDigest : JsString}
      (kind : event.kind = .settled outcome recordsDigest)
      (held : folded.states.get? outcome.campaignId = some current)
      (running : current.state = .inFlight)
      (delivered : outcome.state = .completed → folded.first.planned outcome.campaignId = true →
        outcome.deliveryDigest ≠ none) :
      FoldStep keysInOrder folded event
        { folded with
          settlements := folded.settlements.set outcome.campaignId event
          states := folded.states.set outcome.campaignId outcome }

namespace Folded

variable {folded next : Folded} {event : PortfolioControllerEvent}

variable {campaignId : JsString}

theorem campaign_eq_ok {found : UniversePortfolioControllerOutcome × PortfolioControllerPin}
    (enrolled : folded.campaign campaignId = .ok found) :
    folded.states.get? campaignId = some found.1 := by
  unfold campaign at enrolled
  cases state : folded.states.get? campaignId with
  | none =>
      rw [state] at enrolled
      cases enrolled
  | some current =>
      cases pin : folded.pins.get? campaignId with
      | none =>
          rw [state, pin] at enrolled
          cases enrolled
      | some pinned =>
          rw [state, pin] at enrolled
          cases enrolled
          rfl

theorem foldDrain_step (kind : event.kind = .drain) (taken : folded.foldDrain event = .ok next) :
    FoldStep keysInOrder folded event next := by
  unfold foldDrain at taken
  split_ifs at taken with draining
  cases taken
  exact .drain kind (Bool.not_eq_true _ ▸ draining)

theorem foldResume_step {drainSequence : ℕ} (kind : event.kind = .resume drainSequence)
    (taken : folded.foldResume event drainSequence = .ok next) :
    FoldStep keysInOrder folded event next := by
  unfold foldResume at taken
  cases held : folded.control with
  | none =>
      rw [held] at taken
      cases taken
  | some control =>
      rw [held] at taken
      dsimp only at taken
      split_ifs at taken with refused
      cases taken
      rw [not_or, not_or, not_not, not_not] at refused
      obtain ⟨draining, same, acknowledged⟩ := refused
      exact .resume (same ▸ kind) held draining acknowledged

theorem foldDrained_step {drainSequence : ℕ} (kind : event.kind = .drained drainSequence)
    (taken : folded.foldDrained event drainSequence = .ok next) :
    FoldStep keysInOrder folded event next := by
  unfold foldDrained at taken
  cases held : folded.control with
  | none =>
      rw [held] at taken
      cases taken
  | some control =>
      rw [held] at taken
      dsimp only at taken
      split_ifs at taken with refused
      cases taken
      simp only [not_or, not_not] at refused
      obtain ⟨draining, same, unacknowledged, idle⟩ := refused
      refine .drained (same ▸ kind) held draining unacknowledged ?_
      intro entry member running
      apply idle
      rw [List.any_eq_true]
      exact ⟨entry, member, decide_eq_true running⟩

variable {current : UniversePortfolioControllerOutcome}

theorem foldDiagnostic_step {pinned : PortfolioControllerPin} {intentDigest : JsString}
    {phase : DiagnosticPhase} {code : DiagnosticCode}
    (kind : event.kind = .dispatchDiagnostic campaignId intentDigest phase code)
    (taken : folded.foldDiagnostic keysInOrder event current pinned campaignId intentDigest phase
      code = .ok next) :
    FoldStep keysInOrder folded event next := by
  unfold foldDiagnostic at taken
  cases found : folded.intentEvents.get? campaignId with
  | none =>
      rw [found] at taken
      cases taken
  | some intent =>
      rw [found] at taken
      dsimp only at taken
      split_ifs at taken with refused
      cases taken
      simp only [not_or] at refused
      exact .diagnostic kind (Bool.not_eq_true _ ▸ refused.2.1)

theorem foldIntent_step {pinned : PortfolioControllerPin} {dispatchId : Option JsString}
    (kind : event.kind = .intent campaignId dispatchId)
    (held : folded.states.get? campaignId = some current)
    (taken : folded.foldIntent event current pinned campaignId dispatchId = .ok next) :
    FoldStep keysInOrder folded event next := by
  unfold foldIntent at taken
  split_ifs at taken with draining refused
  rw [not_or, not_not, not_or, not_or, not_or, not_le] at refused
  obtain ⟨pending, new, early, _, room⟩ := refused
  cases waits : portfolioControllerPrerequisites folded.first campaignId with
  | none =>
      rw [waits] at taken
      cases taken
  | some prerequisites =>
      rw [waits] at taken
      dsimp only at taken
      split_ifs at taken with completed
      cases taken
      exact .intent kind (Bool.not_eq_true _ ▸ draining) held pending new (List.not_le.mp early)
        room waits completed

theorem foldSettled_step {outcome : UniversePortfolioControllerOutcome} {recordsDigest : JsString}
    (kind : event.kind = .settled outcome recordsDigest)
    (held : folded.states.get? outcome.campaignId = some current)
    (taken : folded.foldSettled event current outcome = .ok next) :
    FoldStep keysInOrder folded event next := by
  unfold foldSettled at taken
  split_ifs at taken with refused
  cases taken
  simp only [not_or, not_not] at refused
  obtain ⟨running, _, _, delivered, _⟩ := refused
  exact .settled kind held running fun completed planned absent =>
    delivered ⟨completed, planned, absent⟩

theorem foldKind_step (taken : foldKind keysInOrder folded event event.kind = .ok next) :
    FoldStep keysInOrder folded event next := by
  cases kind : event.kind with
  | created enrolled =>
      rw [kind] at taken
      cases taken
  | observed =>
      rw [kind] at taken
      cases taken
      exact .observed kind
  | drain =>
      rw [kind] at taken
      exact foldDrain_step kind taken
  | resume drainSequence =>
      rw [kind] at taken
      exact foldResume_step kind taken
  | drained drainSequence =>
      rw [kind] at taken
      exact foldDrained_step kind taken
  | intent campaignId dispatchId =>
      rw [kind] at taken
      obtain ⟨found, enrolled, answered⟩ := bind_eq_ok.mp taken
      exact foldIntent_step kind (campaign_eq_ok enrolled) answered
  | dispatchDiagnostic campaignId intentDigest phase code =>
      rw [kind] at taken
      obtain ⟨found, enrolled, answered⟩ := bind_eq_ok.mp taken
      exact foldDiagnostic_step kind answered
  | settled outcome recordsDigest =>
      rw [kind] at taken
      obtain ⟨found, enrolled, answered⟩ := bind_eq_ok.mp taken
      exact foldSettled_step kind (campaign_eq_ok enrolled) answered

theorem foldEvent_step {index : ℕ} (later : index ≠ 0)
    (taken : foldEvent keysInOrder index folded event = .ok next) :
    parse keysInOrder event = true ∧ event.sequence = index ∧
      FoldStep keysInOrder { folded with highWaterAt := event.atTime } event next := by
  unfold foldEvent at taken
  split_ifs at taken with refused
  rw [not_or, not_or, Bool.not_eq_false, not_not] at refused
  exact ⟨refused.1, refused.2.1, foldKind_step taken⟩

theorem foldFrom_append : (front back : List PortfolioControllerEvent) → (index : ℕ) →
    (folded : Folded) →
    foldFrom keysInOrder index folded (front ++ back) =
      foldFrom keysInOrder index folded front >>= fun next =>
        foldFrom keysInOrder (index + front.length) next back
  | [], _, _, _ => rfl
  | event :: front, back, index, folded => by
      rw [List.cons_append, foldFrom, foldFrom, bind_assoc, List.length_cons]
      congr 1
      funext next
      rw [foldFrom_append front back (index + 1) next, Nat.add_assoc, Nat.add_comm 1]

end Folded

def Registered (history : List PortfolioControllerEvent) (enrolled : PortfolioControllerEnrollment)
    :
    Prop :=
  ∃ first, history.head? = some first ∧ first.kind = .created enrolled

theorem foldPortfolioController_registered {history : List PortfolioControllerEvent}
    {folded : Folded} (accepted : foldPortfolioController keysInOrder history = .ok folded) :
    ∃ first enrolled rest, history = first :: rest ∧ first.kind = .created enrolled ∧
      Folded.foldFrom keysInOrder 0 (Folded.start enrolled first.atTime) history = .ok folded := by
  cases history with
  | nil => cases accepted
  | cons first rest =>
      unfold foldPortfolioController at accepted
      dsimp only at accepted
      cases kind : first.kind with
      | created enrolled =>
          rw [kind] at accepted
          exact ⟨first, enrolled, rest, rfl, kind, accepted⟩
      | _ =>
          rw [kind] at accepted
          cases accepted

theorem foldPortfolioController_append {front : List PortfolioControllerEvent} (some : front ≠ [])
    (back : List PortfolioControllerEvent) :
    foldPortfolioController keysInOrder (front ++ back) =
      foldPortfolioController keysInOrder front >>= fun folded =>
        Folded.foldFrom keysInOrder front.length folded back := by
  cases front with
  | nil => exact absurd rfl some
  | cons first rest =>
      rw [List.cons_append, foldPortfolioController, foldPortfolioController]
      cases first.kind with
      | created enrolled =>
          dsimp only
          rw [← List.cons_append, Folded.foldFrom_append, Nat.zero_add]
      | _ => rfl

theorem foldPortfolioController_snoc {history : List PortfolioControllerEvent}
    {event : PortfolioControllerEvent} {next : Folded} (some : history ≠ [])
    (accepted : foldPortfolioController keysInOrder (history ++ [event]) = .ok next) :
    ∃ folded, foldPortfolioController keysInOrder history = .ok folded ∧
      Folded.foldEvent keysInOrder history.length folded event = .ok next := by
  rw [foldPortfolioController_append some] at accepted
  obtain ⟨folded, front, back⟩ := bind_eq_ok.mp accepted
  obtain ⟨last, taken, finished⟩ := bind_eq_ok.mp back
  cases finished
  exact ⟨folded, front, taken⟩

theorem foldPortfolioController_first {first : PortfolioControllerEvent} {folded : Folded}
    (accepted : foldPortfolioController keysInOrder [first] = .ok folded) :
    ∃ enrolled, first.kind = .created enrolled ∧ parse keysInOrder first = true ∧
      first.sequence = 0 ∧ folded = Folded.start enrolled first.atTime := by
  obtain ⟨_, enrolled, rest, spelled, kind, answered⟩ := foldPortfolioController_registered accepted
  cases spelled
  obtain ⟨next, taken, finished⟩ := bind_eq_ok.mp answered
  cases finished
  rw [Folded.foldEvent, if_pos rfl] at taken
  split_ifs at taken with refused
  rw [not_or, not_or, Bool.not_eq_false, not_not] at refused
  cases taken
  exact ⟨enrolled, kind, refused.1, refused.2.1, rfl⟩

theorem foldPortfolioController_induction {inv : List PortfolioControllerEvent → Folded → Prop}
    (first : ∀ {event enrolled}, event.kind = .created enrolled →
      parse keysInOrder event = true → inv [event] (Folded.start enrolled event.atTime))
    (later : ∀ {history folded event next}, inv history folded →
      parse keysInOrder event = true → event.sequence = history.length →
      FoldStep keysInOrder { folded with highWaterAt := event.atTime } event next →
      inv (history ++ [event]) next)
    (history : List PortfolioControllerEvent) {folded : Folded}
    (accepted : foldPortfolioController keysInOrder history = .ok folded) : inv history folded := by
  induction history using List.reverseRecOn generalizing folded with
  | nil => cases accepted
  | append_singleton history event ih =>
      by_cases empty : history = []
      · subst empty
        obtain ⟨enrolled, kind, parsed, _, rfl⟩ := foldPortfolioController_first accepted
        exact first kind parsed
      · obtain ⟨before, front, taken⟩ := foldPortfolioController_snoc empty accepted
        obtain ⟨parsed, numbered, step⟩ := Folded.foldEvent_step
          (fun zero => empty (List.length_eq_zero_iff.mp zero)) taken
        exact later (ih front) parsed numbered step

theorem foldPortfolioController_split {front back : List PortfolioControllerEvent}
    {event : PortfolioControllerEvent} {last : Folded} (some : front ≠ [])
    (accepted : foldPortfolioController keysInOrder (front ++ event :: back) = .ok last) :
    ∃ folded next, foldPortfolioController keysInOrder front = .ok folded ∧
      FoldStep keysInOrder { folded with highWaterAt := event.atTime } event next := by
  rw [foldPortfolioController_append some] at accepted
  obtain ⟨folded, folds, behind⟩ := bind_eq_ok.mp accepted
  obtain ⟨next, taken, _⟩ := bind_eq_ok.mp behind
  exact ⟨folded, next, folds, (Folded.foldEvent_step
    (fun zero => some (List.length_eq_zero_iff.mp zero)) taken).2.2⟩

end AshlrHub.Universe

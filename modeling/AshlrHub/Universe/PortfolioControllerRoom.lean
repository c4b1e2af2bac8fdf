import AshlrHub.Universe.PortfolioControllerSafety

namespace AshlrHub.Universe

open Js Artifacts Lib

/-! The room of a ledger: every event pays for the part of the reserve that it takes. -/

variable {keysInOrder : JsString → JsString → Bool} {history : List PortfolioControllerEvent}
  {folded next : Folded} {event : PortfolioControllerEvent}

def reserve (folded : Folded) : ℕ :=
  settlementReserve folded + diagnosticReserve folded + controlReserve folded

theorem bytesOf_snoc : bytesOf keysInOrder (history ++ [event]) =
    bytesOf keysInOrder history + (serialize keysInOrder event).length := by
  rw [bytesOf, List.map_append, List.sum_append, List.map_singleton, List.sum_singleton, bytesOf]

theorem fits_snoc {before behind : ℕ} (room : fits keysInOrder history before = true)
    (share : (serialize keysInOrder event).length ≤ eventBytes) (paid : behind + 1 ≤ before) :
    fits keysInOrder (history ++ [event]) behind = true := by
  unfold fits at room ⊢
  rw [Bool.and_eq_true, decide_eq_true_eq, decide_eq_true_eq] at room ⊢
  rw [List.length_append, List.length_singleton, bytesOf_snoc]
  have bytes : (behind + 1) * eventBytes ≤ before * eventBytes := Nat.mul_le_mul_right _ paid
  rw [Nat.succ_mul] at bytes
  omega

variable {outcome : UniversePortfolioControllerOutcome}

theorem settlementWeight_inFlight (running : outcome.state = .inFlight) :
    settlementWeight outcome = 1 := by
  rw [settlementWeight, running]

section

variable (ended : outcome.state = .completed ∨ outcome.state = .held)
include ended

theorem settlementWeight_ended :
    settlementWeight outcome = 0 := by
  rcases ended with state | state <;> rw [settlementWeight, state]

theorem diagnosticWeight_ended
    {diagnostics : JsMap JsString UniversePortfolioControllerDiagnostic} :
    diagnosticWeight diagnostics outcome = 0 := by
  rcases ended with state | state <;> simp [diagnosticWeight, state]

end

theorem controlReserve_open (opened : folded.draining = false) : controlReserve folded = 2 := by
  unfold controlReserve
  cases held : folded.control with
  | none => rfl
  | some control =>
      rw [Folded.draining, held] at opened
      have mode : control.mode ≠ .drain := fun draining => by simp [draining] at opened
      dsimp only
      rw [if_neg mode]

theorem FoldStep.frees (taken : FoldStep keysInOrder folded event next)
    (parsed : parse keysInOrder event = true) (cleanup : event.kind.cleanup = true) :
    reserve next + 1 ≤ reserve folded := by
  cases taken with
  | drain kind opened =>
      have two := controlReserve_open opened
      have one : controlReserve { folded with
          control := some ⟨.drain, event.sequence, event.atTime, none⟩ } = 1 := rfl
      unfold reserve
      rw [two, one]
      exact le_rfl
  | @drained control kind held draining unacknowledged idle =>
      have one : controlReserve folded = 1 := by
        rw [controlReserve, held]
        dsimp only
        rw [if_pos draining, if_pos unacknowledged]
      have zero : controlReserve { folded with
          control := some { control with acknowledgedAt := some event.atTime } } = 0 := by
        rw [controlReserve]
        dsimp only
        rw [if_pos draining]
        rfl
      unfold reserve
      rw [one, zero]
      exact le_rfl
  | @settled outcome current recordsDigest kind held running delivered =>
      have ended := parse_settled parsed kind
      have settlements := JsMap.sum_set settlementWeight outcome held
      have diagnostics := JsMap.sum_set (diagnosticWeight folded.diagnostics) outcome held
      rw [settlementWeight_inFlight running, settlementWeight_ended ended] at settlements
      rw [diagnosticWeight_ended ended] at diagnostics
      unfold reserve settlementReserve diagnosticReserve
      have control : controlReserve { folded with
          settlements := folded.settlements.set outcome.campaignId event
          states := folded.states.set outcome.campaignId outcome } = controlReserve folded := rfl
      rw [control]
      dsimp only
      omega
  | observed kind | resume kind | intent kind | diagnostic kind =>
      rw [kind] at cleanup
      cases cleanup

def Roomy (keysInOrder : JsString → JsString → Bool) (history : List PortfolioControllerEvent) :
    Prop :=
  ∃ folded, foldPortfolioController keysInOrder history = .ok folded ∧
    fits keysInOrder history (reserve folded) = true

theorem reserve_later (folded : Folded) (atTime : JsString) :
    reserve { folded with highWaterAt := atTime } = reserve folded := rfl

variable {kind : EventKind}

theorem cleanup_later (cleanup : kind.cleanup = true) (enrolled : PortfolioControllerEnrollment) :
    kind ≠ .created enrolled := by
  rintro rfl
  cases cleanup

section

variable (roomy : Roomy keysInOrder history)
  (accepted : foldPortfolioController keysInOrder (history ++ [event]) = .ok next)
  (cleans : event.kind.cleanup = true)
include roomy accepted cleans

theorem Roomy.cleanup :
    fits keysInOrder (history ++ [event]) (reserve next) = true := by
  obtain ⟨folded, folds, room⟩ := roomy
  have some : history ≠ [] := by
    rintro rfl
    cases folds
  obtain ⟨before, same, taken⟩ := foldPortfolioController_snoc some accepted
  rw [folds] at same
  cases same
  obtain ⟨parsed, _, step⟩ := Folded.foldEvent_step
    (fun zero => some (List.length_eq_zero_iff.mp zero)) taken
  have paid := step.frees parsed cleans
  rw [reserve_later] at paid
  exact fits_snoc room (length_serialize_le parsed (cleanup_later cleans)) paid

theorem Roomy.hasCapacity :
    hasCapacity keysInOrder event.kind (history ++ [event]) next = true := by
  rw [Universe.hasCapacity, ← reserve, roomy.cleanup accepted cleans, Bool.true_or, Bool.true_or]

end

variable {records : List PortfolioControllerEvent} {input : EventInput} {options : AppendOptions}

theorem appendUnlocked_roomy {published : List PortfolioControllerEvent}
    (roomy : records = [] ∨ Roomy keysInOrder records)
    (created : records = [] → ∃ enrolled, input.kind = .created enrolled)
    (appended : appendUnlocked keysInOrder records input options = .ok published) :
    Roomy keysInOrder published := by
  obtain ⟨rfl, folded, accepted, room⟩ := appendUnlocked_ok appended
  refine ⟨folded, accepted, ?_⟩
  by_cases cleans : input.kind.cleanup = true
  · refine (roomy.resolve_left ?_).cleanup accepted cleans
    intro empty
    obtain ⟨enrolled, kind⟩ := created empty
    exact cleanup_later cleans enrolled kind
  · have unsettled : input.kind.isSettled = false := by
      cases kind : input.kind with
      | settled outcome recordsDigest =>
          rw [kind] at cleans
          exact absurd rfl cleans
      | _ => rfl
    rw [Bool.not_eq_true] at cleans
    rw [Universe.hasCapacity, cleans, unsettled, Bool.false_and, Bool.false_and, Bool.false_and,
      Bool.or_false, Bool.or_false] at room
    exact room

theorem run_roomy {calls : List ControllerCall}
    (run : Run (ControllerStep keysInOrder) none calls (some records)) :
    records = [] ∨ Roomy keysInOrder records := by
  refine run_ledger ?_ run records rfl
  intro ledger base input options published before starts appended
  rcases starts with ⟨held, _⟩ | ⟨_, empty, created⟩
  · refine appendUnlocked_roomy (.inr (before held)) ?_ appended
    rintro rfl
    obtain ⟨folded, accepted, _⟩ := before held
    cases accepted
  · exact appendUnlocked_roomy (.inl empty) (fun _ => created) appended

/-! No call that cleans up fails for want of capacity. -/

theorem folding_capacity :
    folding keysInOrder records ≠ .error .capacityExhausted := by
  unfold folding
  cases foldPortfolioController keysInOrder records <;> exact fun refused => by cases refused

theorem runPublicationCheck_capacity {label : CheckLabel} {validKind : Bool}
    {check : Option PublicationCheck} :
    runPublicationCheck label validKind check history ≠ .error .capacityExhausted := by
  cases check with
  | none => exact fun refused => by cases refused
  | some check =>
      intro refused
      simp only [runPublicationCheck] at refused
      split_ifs at refused <;> cases refused

theorem drainRefusal_capacity :
    drainRefusal keysInOrder history kind ≠ .error .capacityExhausted := by
  unfold drainRefusal
  split_ifs
  · intro refused
    rcases bind_eq_error.mp refused with unfolded | ⟨folded, _, answered⟩
    · exact folding_capacity unfolded
    · split_ifs at answered
      cases answered
  · exact fun refused => by cases refused

theorem appendUnlocked_capacity
    (refused : appendUnlocked keysInOrder records input options = .error .capacityExhausted) :
    ∃ folded, foldPortfolioController keysInOrder (records ++ [input.event records]) = .ok folded ∧
      hasCapacity keysInOrder input.kind (records ++ [input.event records]) folded = false := by
  unfold appendUnlocked at refused
  obtain ⟨_, _, intents⟩ := (bind_eq_error.mp refused).resolve_left drainRefusal_capacity
  obtain ⟨_, _, settlements⟩ := (bind_eq_error.mp intents).resolve_left runPublicationCheck_capacity
  obtain ⟨_, _, diagnostics⟩ :=
    (bind_eq_error.mp settlements).resolve_left runPublicationCheck_capacity
  obtain ⟨_, _, folds⟩ := (bind_eq_error.mp diagnostics).resolve_left runPublicationCheck_capacity
  obtain ⟨folded, accepted, room⟩ := (bind_eq_error.mp folds).resolve_left folding_capacity
  rcases refuse_eq_error.mp room with ⟨full, _⟩ | ⟨_, finished⟩
  · exact ⟨folded, mapError_eq_ok.mp accepted, full⟩
  · cases finished

theorem Roomy.appendUnlocked (roomy : Roomy keysInOrder history)
    (cleans : input.kind.cleanup = true) :
    appendUnlocked keysInOrder history input options ≠ .error .capacityExhausted := by
  intro refused
  obtain ⟨folded, accepted, full⟩ := appendUnlocked_capacity refused
  have room := roomy.hasCapacity accepted cleans
  rw [EventInput.event] at room full
  rw [room] at full
  cases full

theorem readPortfolioControllerEvents_capacity {ledger : Option (List PortfolioControllerEvent)} :
    readPortfolioControllerEvents keysInOrder ledger ≠ .error .capacityExhausted := by
  cases ledger with
  | none => exact fun refused => by cases refused
  | some records =>
      unfold readPortfolioControllerEvents folding
      dsimp only
      cases foldPortfolioController keysInOrder records <;> exact fun refused => by cases refused

theorem assertExpected_capacity :
    options.assertExpected keysInOrder history ≠ .error .capacityExhausted := by
  unfold AppendOptions.assertExpected
  cases options.expectedRecords with
  | none => exact fun refused => by cases refused
  | some expected =>
      dsimp only [assertExpectedRecords]
      split_ifs <;> exact fun refused => by cases refused

structure Unstranded (keysInOrder : JsString → JsString → Bool)
    (records : List PortfolioControllerEvent) : Prop where
  settlement : ∀ atTime outcome recordsDigest options,
    appendPortfolioControllerEvent keysInOrder (some records)
      ⟨atTime, .settled outcome recordsDigest⟩ options ≠ .error .capacityExhausted
  acknowledgement : ∀ atTime drainSequence options,
    appendPortfolioControllerEvent keysInOrder (some records) ⟨atTime, .drained drainSequence⟩
      options ≠ .error .capacityExhausted
  drain : ∀ atTime options,
    appendPortfolioControllerEvent keysInOrder (some records) ⟨atTime, .drain⟩ options ≠
      .error .capacityExhausted
  request : ∀ controllerId now,
    requestUniversePortfolioControllerControl keysInOrder controllerId (some records) .drain now ≠
      .error .capacityExhausted
  /-- What the history admits of these is recorded. -/
  recorded : ∀ input : EventInput, input.kind.cleanup = true →
    Accepted keysInOrder (records ++ [input.event records]) →
    appendPortfolioControllerEvent keysInOrder (some records) input AppendOptions.none =
      .ok (records ++ [input.event records])
  /-- No reading is cut short by a limit either. -/
  within : records.length ≤ maxEvents ∧ bytesOf keysInOrder records ≤ maxBytes

theorem recordsFor_some :
    recordsFor keysInOrder (some records) kind =
      readPortfolioControllerEvents keysInOrder (some records) := by
  cases kind <;> rfl

theorem append_capacity (roomy : records = [] ∨ Roomy keysInOrder records)
    (cleans : input.kind.cleanup = true) :
    appendPortfolioControllerEvent keysInOrder (some records) input options ≠
      .error .capacityExhausted := by
  intro refused
  unfold appendPortfolioControllerEvent at refused
  rw [recordsFor_some] at refused
  obtain ⟨read, found, expected⟩ :=
    (bind_eq_error.mp refused).resolve_left readPortfolioControllerEvents_capacity
  obtain ⟨same, folded, accepted⟩ := readPortfolioControllerEvents_ok found
  cases same
  obtain ⟨_, _, appended⟩ := (bind_eq_error.mp expected).resolve_left assertExpected_capacity
  refine (roomy.resolve_left ?_).appendUnlocked cleans appended
  rintro rfl
  cases accepted

theorem request_capacity {controllerId now : JsString}
    (roomy : records = [] ∨ Roomy keysInOrder records) :
    requestUniversePortfolioControllerControl keysInOrder controllerId (some records) .drain now ≠
      .error .capacityExhausted := by
  intro refused
  unfold requestUniversePortfolioControllerControl at refused
  rcases refuse_eq_error.mp refused with ⟨invalid, _⟩ | ⟨_, valid⟩
  · cases invalid
  obtain ⟨read, found, known⟩ :=
    (bind_eq_error.mp valid).resolve_left readPortfolioControllerEvents_capacity
  obtain ⟨folded, _, identified⟩ := (bind_eq_error.mp known).resolve_left folding_capacity
  rcases refuse_eq_error.mp identified with ⟨_, other⟩ | ⟨_, answered⟩
  · cases other
  obtain ⟨same, before, accepted⟩ := readPortfolioControllerEvents_ok found
  cases same
  cases repeated : repeatedControl records folded .drain with
  | some control =>
      rw [repeated] at answered
      cases answered
  | none =>
      rw [repeated] at answered
      rcases bind_eq_error.mp answered with appended | ⟨next, _, finished⟩
      · refine (roomy.resolve_left ?_).appendUnlocked rfl appended
        rintro rfl
        cases accepted
      · cases finished

theorem recorded (roomy : Roomy keysInOrder records) (cleans : input.kind.cleanup = true)
    (admitted : Accepted keysInOrder (records ++ [input.event records])) :
    appendPortfolioControllerEvent keysInOrder (some records) input AppendOptions.none =
      .ok (records ++ [input.event records]) := by
  obtain ⟨next, accepted⟩ := admitted
  have room := roomy.hasCapacity accepted cleans
  have noIntent : input.kind.isIntent = false := by
    cases kind : input.kind with
    | intent campaignId dispatchId =>
        rw [kind] at cleans
        cases cleans
    | _ => rfl
  obtain ⟨folded, folds, _⟩ := roomy
  have read : recordsFor keysInOrder (some records) input.kind = .ok records := by
    rw [recordsFor_some, readPortfolioControllerEvents, folding, folds]
    rfl
  have appended : Universe.appendUnlocked keysInOrder records input AppendOptions.none =
      .ok (records ++ [input.event records]) := by
    have open_ : drainRefusal keysInOrder records input.kind = .ok () := by
      rw [drainRefusal, noIntent]
      exact if_neg fun both => Bool.false_ne_true both.1
    have folds : folding keysInOrder (records ++ [input.event records]) = .ok next :=
      mapError_eq_ok.mpr accepted
    unfold Universe.appendUnlocked
    refine bind_eq_ok.mpr ⟨(), open_, bind_eq_ok.mpr ⟨(), rfl, bind_eq_ok.mpr ⟨(), rfl,
      bind_eq_ok.mpr ⟨(), rfl, bind_eq_ok.mpr ⟨next, folds, refuse_eq_ok.mpr ⟨?_, rfl⟩⟩⟩⟩⟩⟩
    intro full
    rw [EventInput.event] at room full
    rw [room] at full
    cases full
  rw [appendPortfolioControllerEvent, read]
  exact appended

/-- Whatever calls build a ledger, it can still record every settlement, a drain and its
acknowledgement. -/
theorem run_unstranded {calls : List ControllerCall} {records : List PortfolioControllerEvent}
    (run : Run (ControllerStep keysInOrder) none calls (some records)) :
    Unstranded keysInOrder records where
  settlement := fun _ _ _ _ => append_capacity (run_roomy run) rfl
  acknowledgement := fun _ _ _ => append_capacity (run_roomy run) rfl
  drain := fun _ _ => append_capacity (run_roomy run) rfl
  request := fun _ _ => request_capacity (run_roomy run)
  recorded := by
    intro input cleans admitted
    rcases run_roomy run with rfl | roomy
    · obtain ⟨next, accepted⟩ := admitted
      obtain ⟨enrolled, kind, _⟩ := foldPortfolioController_first accepted
      exact absurd kind (cleanup_later cleans enrolled)
    · exact recorded roomy cleans admitted
  within := by
    rcases run_roomy run with rfl | ⟨folded, _, room⟩
    · exact ⟨Nat.zero_le _, Nat.zero_le _⟩
    · unfold fits at room
      rw [Bool.and_eq_true, decide_eq_true_eq, decide_eq_true_eq] at room
      omega

theorem run_unstranded_sample : Unstranded unitsInOrder sampleHistory :=
  run_unstranded sample_run

end AshlrHub.Universe

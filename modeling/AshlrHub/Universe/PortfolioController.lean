import AshlrHub.Universe.PortfolioPlan

namespace AshlrHub.Universe

open Js Artifacts Authority Lib

/-! What a portfolio controller records, its JSON, and which records parse. -/

inductive DiagnosticPhase where
  | campaignExecution
  | campaignVerification
  | deliveryExecution
  | deliveryVerification
  | settlementPublication
deriving DecidableEq

inductive DiagnosticCode where
  | campaignCallThrew
  | campaignEvidenceChanged
  | deliveryCallThrew
  | deliveryEvidenceChanged
  | deliveryReceiptUnverified
  | settlementWriteFailed
deriving DecidableEq

/-- `PORTFOLIO_CONTROLLER_DIAGNOSTIC_CODES` -/
def portfolioControllerDiagnosticCodes : DiagnosticPhase → List DiagnosticCode
  | .campaignExecution => [.campaignCallThrew]
  | .campaignVerification => [.campaignEvidenceChanged]
  | .deliveryExecution => [.deliveryCallThrew]
  | .deliveryVerification => [.deliveryEvidenceChanged, .deliveryReceiptUnverified]
  | .settlementPublication => [.settlementWriteFailed]

def DiagnosticPhase.text : DiagnosticPhase → JsString
  | .campaignExecution => js "campaign-execution"
  | .campaignVerification => js "campaign-verification"
  | .deliveryExecution => js "delivery-execution"
  | .deliveryVerification => js "delivery-verification"
  | .settlementPublication => js "settlement-publication"

def DiagnosticCode.text : DiagnosticCode → JsString
  | .campaignCallThrew => js "campaign-call-threw"
  | .campaignEvidenceChanged => js "campaign-evidence-changed"
  | .deliveryCallThrew => js "delivery-call-threw"
  | .deliveryEvidenceChanged => js "delivery-evidence-changed"
  | .deliveryReceiptUnverified => js "delivery-receipt-unverified"
  | .settlementWriteFailed => js "settlement-write-failed"

inductive CampaignState where
  | pending
  | inFlight
  | completed
  | held
deriving DecidableEq

def CampaignState.text : CampaignState → JsString
  | .pending => js "pending"
  | .inFlight => js "in-flight"
  | .completed => js "completed"
  | .held => js "held"

inductive Dispatch where
  | campaign
  | delivery
  | none
deriving DecidableEq

def Dispatch.text : Dispatch → JsString
  | .campaign => js "campaign"
  | .delivery => js "delivery"
  | .none => js "none"

structure UniversePortfolioControllerOutcome where
  campaignId : JsString
  state : CampaignState
  attempted : Bool
  reasonCode : JsString
  campaignDigest : Option JsString
  deliveryDigest : Option JsString
deriving DecidableEq

structure UniversePortfolioControllerDiagnostic where
  campaignId : JsString
  intentDigest : JsString
  phase : DiagnosticPhase
  code : DiagnosticCode
  atTime : JsString

inductive ControlMode where
  | opened
  | drain
deriving DecidableEq

structure UniversePortfolioControllerControl where
  mode : ControlMode
  sequence : ℕ
  requestedAt : JsString
  acknowledgedAt : Option JsString

structure PortfolioControllerPin where
  campaignId : JsString
  universeId : JsString
  definitionDigest : JsString
  manifestDigest : JsString
  comparatorDigest : JsString
  campaignDigest : JsString
  recordsDigest : JsString
  initialState : CampaignState
  dispatch : Dispatch
  reasonCode : JsString
deriving DecidableEq

structure PortfolioControllerGraphDispatch where
  graphRootDigest : JsString
  graphId : JsString
  definitionDigest : JsString
  nodeId : JsString
  intentDigest : JsString
deriving DecidableEq

structure PortfolioControllerEnrollment where
  definition : UniversePortfolioDefinition
  deliveryPlan : Option UniverseCampaignDeliveryPlan
  definitionDigest : JsString
  pins : List PortfolioControllerPin
  deadlineAt : JsString
  graphDispatch : Option PortfolioControllerGraphDispatch
deriving DecidableEq

inductive EventKind where
  | created (enrollment : PortfolioControllerEnrollment)
  | observed
  | drain
  | resume (drainSequence : ℕ)
  | drained (drainSequence : ℕ)
  | intent (campaignId : JsString) (dispatchId : Option JsString)
  | dispatchDiagnostic (campaignId intentDigest : JsString) (phase : DiagnosticPhase)
      (code : DiagnosticCode)
  | settled (outcome : UniversePortfolioControllerOutcome) (recordsDigest : JsString)
deriving DecidableEq

structure PortfolioControllerEvent where
  id : JsString
  sequence : ℕ
  atTime : JsString
  kind : EventKind
deriving DecidableEq

/-! JSON. -/

def UniversePortfolioControllerOutcome.json (outcome : UniversePortfolioControllerOutcome) :
    JsValue :=
  .obj [(js "campaignId", .str outcome.campaignId), (js "state", .str outcome.state.text),
    (js "attempted", .bool outcome.attempted), (js "reasonCode", .str outcome.reasonCode),
    (js "campaignDigest", nullable .str outcome.campaignDigest),
    (js "deliveryDigest", nullable .str outcome.deliveryDigest)]

def PortfolioControllerPin.json (pin : PortfolioControllerPin) : JsValue :=
  .obj [(js "campaignId", .str pin.campaignId), (js "universeId", .str pin.universeId),
    (js "definitionDigest", .str pin.definitionDigest),
    (js "manifestDigest", .str pin.manifestDigest),
    (js "comparatorDigest", .str pin.comparatorDigest),
    (js "campaignDigest", .str pin.campaignDigest), (js "recordsDigest", .str pin.recordsDigest),
    (js "initialState", .str pin.initialState.text), (js "dispatch", .str pin.dispatch.text),
    (js "reasonCode", .str pin.reasonCode)]

def PortfolioControllerGraphDispatch.json (linkage : PortfolioControllerGraphDispatch) : JsValue :=
  .obj [(js "schemaVersion", count 1), (js "graphRootDigest", .str linkage.graphRootDigest),
    (js "graphId", .str linkage.graphId), (js "definitionDigest", .str linkage.definitionDigest),
    (js "nodeId", .str linkage.nodeId), (js "intentDigest", .str linkage.intentDigest)]

section

variable (enrolled : PortfolioControllerEnrollment)

def PortfolioControllerEnrollment.json : JsValue :=
  .obj ([(js "definition", enrolled.definition.json),
    (js "deliveryPlan", nullable (·.json) enrolled.deliveryPlan),
    (js "definitionDigest", .str enrolled.definitionDigest),
    (js "pins", .arr (enrolled.pins.map (·.json))),
    (js "deadlineAt", .str enrolled.deadlineAt)] ++
      optional (js "graphDispatch") (·.json) enrolled.graphDispatch)

def EventKind.members : EventKind → List (JsString × JsValue)
  | .created enrollment => [(js "kind", .str (js "created")), (js "enrollment", enrollment.json)]
  | .observed => [(js "kind", .str (js "observed"))]
  | .drain => [(js "kind", .str (js "control")), (js "action", .str (js "drain"))]
  | .resume drainSequence =>
      [(js "kind", .str (js "control")), (js "action", .str (js "resume")),
        (js "drainSequence", count drainSequence)]
  | .drained drainSequence =>
      [(js "kind", .str (js "drained")), (js "drainSequence", count drainSequence)]
  | .intent campaignId dispatchId =>
      [(js "kind", .str (js "intent")), (js "campaignId", .str campaignId)] ++
        optional (js "dispatchId") .str dispatchId
  | .dispatchDiagnostic campaignId intentDigest phase code =>
      [(js "kind", .str (js "dispatch-diagnostic")), (js "campaignId", .str campaignId),
        (js "intentDigest", .str intentDigest), (js "phase", .str phase.text),
        (js "code", .str code.text)]
  | .settled outcome recordsDigest =>
      [(js "kind", .str (js "settled")), (js "outcome", outcome.json),
        (js "recordsDigest", .str recordsDigest)]

def PortfolioControllerEvent.json (event : PortfolioControllerEvent) : JsValue :=
  .obj ([(js "id", .str event.id), (js "sequence", count event.sequence),
    (js "at", .str event.atTime)] ++ event.kind.members)

/-- `codec.serialize` -/
def serialize (keysInOrder : JsString → JsString → Bool) (event : PortfolioControllerEvent) :
    Bytes :=
  utf8Encode (canonical keysInOrder event.json) ++ [0x0A]

/-! Which records parse. -/

def maxEvents : ℕ := 512

def maxBytes : ℕ := 4 * 1024 * 1024

def eventBytes : ℕ := 4096

/-- `/^[a-z][a-z0-9-]{0,79}$/` -/
def reason (text : JsString) : Bool :=
  headThenUpTo isLower (fun unit => isDigit unit || isLower unit || unit = 0x2D) 79 text

/-- `/^[a-zA-Z0-9][a-zA-Z0-9_-]{0,63}$/` -/
def graphIdPattern (text : JsString) : Bool :=
  headThenUpTo isAlphanumeric (fun unit => isAlphanumeric unit || (js "_-").contains unit) 63 text

def validatePortfolioControllerGraphDispatch (linkage : PortfolioControllerGraphDispatch) : Bool :=
  sha256HexPattern linkage.graphRootDigest && sha256HexPattern linkage.definitionDigest &&
    sha256HexPattern linkage.intentDigest && graphIdPattern linkage.graphId &&
    graphIdPattern linkage.nodeId

def PortfolioControllerPin.valid (pin : PortfolioControllerPin) : Bool :=
  idPattern pin.campaignId && idPattern pin.universeId &&
    [pin.definitionDigest, pin.manifestDigest, pin.comparatorDigest, pin.campaignDigest,
      pin.recordsDigest].all sha256HexPattern &&
    pin.initialState ≠ .inFlight &&
    (if pin.initialState = .pending then pin.dispatch ≠ .none else pin.dispatch = .none) &&
    reason pin.reasonCode

def PortfolioControllerEnrollment.planned (campaignId : JsString) : Bool :=
  enrolled.deliveryPlan.any fun plan => plan.deliveries.any fun row => row.campaignId = campaignId

def PortfolioControllerEnrollment.ids : List JsString :=
  enrolled.definition.tasks.map (·.campaignId)

def PortfolioControllerEnrollment.validPlan : Bool :=
  enrolled.deliveryPlan.all fun plan =>
    (validateUniverseCampaignDeliveryPlan plan enrolled.ids).isOk

end

section

variable (keysInOrder : JsString → JsString → Bool)

def enrollment (enrolled : PortfolioControllerEnrollment) : Bool :=
  enrolled.pins.all (·.valid) && iso enrolled.deadlineAt &&
    enrolled.graphDispatch.all validatePortfolioControllerGraphDispatch &&
    (validateUniversePortfolioDefinition enrolled.definition).isOk &&
    enrolled.definitionDigest = digestOf keysInOrder enrolled.definition.json &&
    enrolled.pins.map (·.campaignId) = enrolled.ids &&
    decide (enrolled.pins.map (·.universeId)).Nodup && enrolled.validPlan &&
    enrolled.pins.all fun pin =>
      (pin.dispatch ≠ .delivery || enrolled.planned pin.campaignId) &&
        !(pin.initialState = .completed && enrolled.planned pin.campaignId)

def UniversePortfolioControllerOutcome.valid (outcome : UniversePortfolioControllerOutcome) :
    Bool :=
  idPattern outcome.campaignId && (outcome.state = .completed || outcome.state = .held) &&
    reason outcome.reasonCode && outcome.campaignDigest.any sha256HexPattern &&
    outcome.deliveryDigest.all sha256HexPattern

def validSequence (n : ℕ) : Bool := n < maxEvents

def EventKind.valid (event : PortfolioControllerEvent) : EventKind → Bool
  | .created enrolled =>
      event.sequence = 0 && enrollment keysInOrder enrolled &&
        dateParse enrolled.deadlineAt =
          (dateParse event.atTime).map (· + (enrolled.definition.maxDurationMs : ℤ))
  | .observed => true
  | .drain => true
  | .resume drainSequence => validSequence drainSequence
  | .drained drainSequence => validSequence drainSequence
  | .intent campaignId dispatchId => idPattern campaignId && dispatchId.all uuidPattern
  | .dispatchDiagnostic campaignId intentDigest phase code =>
      idPattern campaignId && sha256HexPattern intentDigest &&
        (portfolioControllerDiagnosticCodes phase).contains code
  | .settled outcome recordsDigest => outcome.valid && sha256HexPattern recordsDigest

def EventKind.limit : EventKind → ℕ
  | .created _ => 128 * 1024
  | _ => eventBytes - 1

def parse (event : PortfolioControllerEvent) : Bool :=
  event.sequence < maxEvents && event.id = recordId event.sequence && iso event.atTime &&
    event.kind.valid keysInOrder event &&
    (utf8Encode (canonical keysInOrder event.json)).length ≤ event.kind.limit

end

/-! What parsing says of an enrollment and of the size of an event. -/

variable {keysInOrder : JsString → JsString → Bool}

structure PortfolioControllerEnrollment.Sound (enrolled : PortfolioControllerEnrollment) :
    Prop where
  definition : Portfolio.Sound enrolled.definition
  pinned : enrolled.pins.map (·.campaignId) = enrolled.ids
  idle : ∀ pin ∈ enrolled.pins, pin.initialState ≠ .inFlight
  undelivered : ∀ pin ∈ enrolled.pins, pin.initialState = .completed →
    enrolled.planned pin.campaignId = false

variable {enrolled : PortfolioControllerEnrollment}

theorem enrollment_sound (valid : enrollment keysInOrder enrolled = true) : enrolled.Sound := by
  unfold enrollment at valid
  simp only [Bool.and_eq_true, decide_eq_true_eq, List.all_eq_true] at valid
  obtain ⟨⟨⟨⟨⟨⟨⟨⟨pins, _⟩, _⟩, definition⟩, _⟩, pinned⟩, _⟩, _⟩, dispatches⟩ := valid
  obtain ⟨checked, validated⟩ : ∃ checked,
      validateUniversePortfolioDefinition enrolled.definition = .ok checked := by
    cases result : validateUniversePortfolioDefinition enrolled.definition with
    | error refusal =>
        rw [result] at definition
        cases definition
    | ok checked => exact ⟨checked, rfl⟩
  refine ⟨(validateUniversePortfolioDefinition_sound validated).2, pinned, ?_, ?_⟩
  · intro pin member
    have alone := pins pin member
    simp only [PortfolioControllerPin.valid, Bool.and_eq_true, decide_eq_true_eq] at alone
    exact alone.1.1.2
  · intro pin member completed
    have apart := (dispatches pin member).2
    simpa [completed] using apart

theorem PortfolioControllerEnrollment.Sound.once (sound : enrolled.Sound) :
    (enrolled.pins.map (·.campaignId)).Nodup := by
  rw [sound.pinned]
  exact sound.definition.once

variable {event : PortfolioControllerEvent}

section

variable (parsed : parse keysInOrder event = true)
include parsed

theorem parse_created (created : event.kind = .created enrolled) :
    event.sequence = 0 ∧ enrolled.Sound := by
  unfold parse at parsed
  rw [created] at parsed
  simp only [EventKind.valid, Bool.and_eq_true, decide_eq_true_eq] at parsed
  exact ⟨parsed.1.2.1.1, enrollment_sound parsed.1.2.1.2⟩

theorem parse_settled {outcome : UniversePortfolioControllerOutcome} {recordsDigest : JsString}
    (settled : event.kind = .settled outcome recordsDigest) :
    outcome.state = .completed ∨ outcome.state = .held := by
  unfold parse at parsed
  rw [settled] at parsed
  simp only [EventKind.valid, UniversePortfolioControllerOutcome.valid, Bool.and_eq_true,
    Bool.or_eq_true, decide_eq_true_eq] at parsed
  exact parsed.1.2.1.1.1.1.2

theorem length_serialize_le (later : ∀ enrolled, event.kind ≠ .created enrolled) :
    (serialize keysInOrder event).length ≤ eventBytes := by
  unfold parse at parsed
  simp only [Bool.and_eq_true, decide_eq_true_eq] at parsed
  have limit : event.kind.limit = eventBytes - 1 := by
    cases kind : event.kind with
    | created enrolled => exact absurd kind (later enrolled)
    | _ => rfl
  have bounded := parsed.2
  rw [limit] at bounded
  rw [serialize, List.length_append, List.length_singleton]
  unfold eventBytes at bounded ⊢
  omega

end

end AshlrHub.Universe

import AshlrHub.Lib.Run
import AshlrHub.Lib.Worklist
import AshlrHub.Universe.PortfolioController

namespace AshlrHub.Universe

open Js Artifacts Lib

/-! The controller's ledger: how a history folds, and what may be appended to it. -/

inductive HistoryError where
  | registrationMissing
  | historyInvalid
  | registrationReplaced
  | drainRequested
  | resumeInexact
  | drainedInadmissible
  | unenrolled
  | diagnosticMismatch
  | workAfterDrain
  | intentInadmissible
  | settlementMismatch
  /-- A campaign that no task names is looked up. -/
  | prerequisitesUnknown
deriving DecidableEq

def HistoryError.message : HistoryError → JsString
  | .registrationMissing => js "Controller registration is missing"
  | .historyInvalid => js "Controller event history is invalid"
  | .registrationReplaced => js "Controller registration cannot be replaced"
  | .drainRequested => js "Controller drain is already requested"
  | .resumeInexact => js "Controller resume requires the exact acknowledged drain"
  | .drainedInadmissible => js "Controller drain acknowledgement is not admissible"
  | .unenrolled => js "Controller event names an unenrolled campaign"
  | .diagnosticMismatch => js "Controller diagnostic does not match an unresolved dispatch intent"
  | .workAfterDrain => js "Controller history admits work after drain"
  | .intentInadmissible => js "Controller dispatch intent is not admissible"
  | .settlementMismatch => js "Controller settlement does not match dispatch intent"
  | .prerequisitesUnknown => js "Cannot read properties of undefined (reading 'dependsOn')"

inductive CheckLabel where
  | intent
  | settlement
  | diagnostic
deriving DecidableEq

def CheckLabel.text : CheckLabel → JsString
  | .intent => js "intent"
  | .settlement => js "settlement"
  | .diagnostic => js "diagnostic"

inductive ControllerError where
  | history (refusal : HistoryError)
  | registrationMissing
  | evidenceUnavailable
  | changedOutsideControl
  /-- `PortfolioControllerDrainError` -/
  | admissionDrained
  /-- A publication check over an event of another kind. -/
  | checkInvalid (label : CheckLabel)
  /-- A publication check throws, with a message of its own. -/
  | checkThrew
  | capacityExhausted
  | invalidControlRequest
  | identityChanged
deriving DecidableEq

def ControllerError.message : ControllerError → Option JsString
  | .history refusal => some refusal.message
  | .registrationMissing => some (js "Controller registration is missing")
  | .evidenceUnavailable => some (js "Controller evidence is unavailable")
  | .changedOutsideControl => some (js "Controller ledger changed outside owner control")
  | .admissionDrained => some (js "Controller admission is drained")
  | .checkInvalid label => some (js "Controller " ++ label.text ++ js " check is invalid")
  | .checkThrew => none
  | .capacityExhausted => some (js "Controller evidence capacity exhausted")
  | .invalidControlRequest => some (js "Invalid controller control request")
  | .identityChanged => some (js "Controller identity changed")

/-! Prerequisites. -/

/-- `set.add(item)` -/
def addTo (items : List JsString) (item : JsString) : List JsString :=
  if item ∈ items then items else items ++ [item]

section

variable (enrolled : PortfolioControllerEnrollment)

def PortfolioControllerEnrollment.dependencies : JsMap JsString (List JsString) :=
  JsMap.ofEntries (enrolled.definition.tasks.map fun task => (task.campaignId, task.dependsOn))

def PortfolioControllerEnrollment.pushes (campaignId : JsString) : Option (List JsString) :=
  (enrolled.dependencies.get? campaignId).map List.reverse

def PortfolioControllerEnrollment.rounds : ℕ :=
  2 * (enrolled.definition.tasks.map fun task => task.dependsOn.length).sum + 1

def portfolioControllerPrerequisites (campaignId : JsString) : Option (List JsString) :=
  match enrolled.dependencies.get? campaignId with
  | none => none
  | some dependsOn =>
      let direct := dependsOn.foldl addTo []
      explore enrolled.pushes
        (fun result ancestor => if enrolled.planned ancestor then addTo result ancestor else result)
        enrolled.rounds direct.reverse [] direct

/-! The fold of a history. -/

structure Folded where
  first : PortfolioControllerEnrollment
  highWaterAt : JsString
  pins : JsMap JsString PortfolioControllerPin
  intents : List JsString
  dispatchIds : List JsString
  intentEvents : JsMap JsString PortfolioControllerEvent
  settlements : JsMap JsString PortfolioControllerEvent
  diagnostics : JsMap JsString UniversePortfolioControllerDiagnostic
  states : JsMap JsString UniversePortfolioControllerOutcome
  control : Option UniversePortfolioControllerControl

def PortfolioControllerPin.outcome (pin : PortfolioControllerPin) :
    UniversePortfolioControllerOutcome :=
  ⟨pin.campaignId, pin.initialState, false, pin.reasonCode, some pin.campaignDigest, none⟩

def Folded.start (atTime : JsString) : Folded :=
  let pins := JsMap.ofEntries (enrolled.pins.map fun pin => (pin.campaignId, pin))
  { first := enrolled
    highWaterAt := atTime
    pins := pins
    intents := []
    dispatchIds := []
    intentEvents := []
    settlements := []
    diagnostics := []
    states := JsMap.ofEntries (pins.map fun entry => (entry.2.campaignId, entry.2.outcome))
    control := none }

end

namespace Folded

def inFlight (folded : Folded) : ℕ :=
  (folded.states.filter fun entry => entry.2.state = .inFlight).length

section

variable (folded : Folded)

def draining : Bool :=
  folded.control.any fun control => control.mode = .drain

variable (event : PortfolioControllerEvent)

def foldDrain : Except HistoryError Folded :=
  if folded.draining then .error .drainRequested
  else .ok { folded with control := some ⟨.drain, event.sequence, event.atTime, none⟩ }

def foldResume (drainSequence : ℕ) : Except HistoryError Folded :=
  match folded.control with
  | none => .error .resumeInexact
  | some control =>
      if control.mode ≠ .drain ∨ control.sequence ≠ drainSequence ∨
          control.acknowledgedAt = none then .error .resumeInexact
      else .ok { folded with control := some ⟨.opened, event.sequence, event.atTime, none⟩ }

def foldDrained (drainSequence : ℕ) : Except HistoryError Folded :=
  match folded.control with
  | none => .error .drainedInadmissible
  | some control =>
      if control.mode ≠ .drain ∨ control.sequence ≠ drainSequence ∨
          control.acknowledgedAt ≠ none ∨
          folded.states.any fun entry => entry.2.state = .inFlight then
        .error .drainedInadmissible
      else .ok { folded with control := some { control with acknowledgedAt := some event.atTime } }

def foldDiagnostic (keysInOrder : JsString → JsString → Bool) (folded : Folded)
    (event : PortfolioControllerEvent) (current : UniversePortfolioControllerOutcome)
    (pinned : PortfolioControllerPin) (campaignId intentDigest : JsString)
    (phase : DiagnosticPhase) (code : DiagnosticCode) : Except HistoryError Folded :=
  match folded.intentEvents.get? campaignId with
  | none => .error .diagnosticMismatch
  | some intent =>
      if current.state ≠ .inFlight ∨ folded.diagnostics.has campaignId ∨
          intentDigest ≠ digestOf keysInOrder intent.json ∨
          (phase = .campaignExecution ∧ pinned.dispatch ≠ .campaign) ∨
          ((js "delivery-").isPrefixOf phase.text ∧ folded.first.planned campaignId = false) then
        .error .diagnosticMismatch
      else .ok { folded with
        diagnostics := folded.diagnostics.set campaignId
          ⟨campaignId, intentDigest, phase, code, event.atTime⟩ }

def allCompleted (campaignIds : List JsString) : Bool :=
  campaignIds.all fun campaignId =>
    (folded.states.get? campaignId).any fun outcome => outcome.state = .completed

def foldIntent (current : UniversePortfolioControllerOutcome) (pinned : PortfolioControllerPin)
    (campaignId : JsString) (dispatchId : Option JsString) : Except HistoryError Folded :=
  if folded.draining then .error .workAfterDrain
  else if current.state ≠ .pending ∨ campaignId ∈ folded.intents ∨
      folded.first.deadlineAt ≤ event.atTime ∨
      (∃ dispatch ∈ dispatchId, pinned.dispatch ≠ .campaign ∨ dispatch ∈ folded.dispatchIds) ∨
      folded.first.definition.maxParallel ≤ folded.inFlight then .error .intentInadmissible
  else
    match portfolioControllerPrerequisites folded.first campaignId with
    | none => .error .prerequisitesUnknown
    | some prerequisites =>
        if folded.allCompleted prerequisites then
          .ok { folded with
            intents := folded.intents ++ [campaignId]
            intentEvents := folded.intentEvents.set campaignId event
            dispatchIds := folded.dispatchIds ++ dispatchId.toList
            states := folded.states.set campaignId
              { current with
                state := .inFlight
                attempted := pinned.dispatch = .campaign
                reasonCode := js "reconciliation-required" } }
        else .error .intentInadmissible

def foldSettled
    (current outcome : UniversePortfolioControllerOutcome) : Except HistoryError Folded :=
  if current.state ≠ .inFlight ∨ folded.settlements.has outcome.campaignId ∨
      outcome.attempted ≠ current.attempted ∨
      (outcome.state = .completed ∧ folded.first.planned outcome.campaignId ∧
        outcome.deliveryDigest = none) ∨
      (outcome.deliveryDigest ≠ none ∧ folded.first.planned outcome.campaignId = false) then
    .error .settlementMismatch
  else .ok { folded with
    settlements := folded.settlements.set outcome.campaignId event
    states := folded.states.set outcome.campaignId outcome }

def campaign (campaignId : JsString) :
    Except HistoryError (UniversePortfolioControllerOutcome × PortfolioControllerPin) :=
  match folded.states.get? campaignId, folded.pins.get? campaignId with
  | some current, some pinned => .ok (current, pinned)
  | _, _ => .error .unenrolled

end

def foldKind (keysInOrder : JsString → JsString → Bool) (folded : Folded)
    (event : PortfolioControllerEvent) : EventKind → Except HistoryError Folded
  | .created _ => .error .registrationReplaced
  | .observed => .ok folded
  | .drain => folded.foldDrain event
  | .resume drainSequence => folded.foldResume event drainSequence
  | .drained drainSequence => folded.foldDrained event drainSequence
  | .intent campaignId dispatchId =>
      folded.campaign campaignId >>= fun found =>
        folded.foldIntent event found.1 found.2 campaignId dispatchId
  | .dispatchDiagnostic campaignId intentDigest phase code =>
      folded.campaign campaignId >>= fun found =>
        folded.foldDiagnostic keysInOrder event found.1 found.2 campaignId intentDigest phase code
  | .settled outcome _ =>
      folded.campaign outcome.campaignId >>= fun found =>
        folded.foldSettled event found.1 outcome

def foldEvent (keysInOrder : JsString → JsString → Bool) (index : ℕ) (folded : Folded)
    (event : PortfolioControllerEvent) : Except HistoryError Folded :=
  if parse keysInOrder event = false ∨ event.sequence ≠ index ∨
      event.atTime < folded.highWaterAt then .error .historyInvalid
  else if index = 0 then .ok { folded with highWaterAt := event.atTime }
  else foldKind keysInOrder { folded with highWaterAt := event.atTime } event event.kind

def foldFrom (keysInOrder : JsString → JsString → Bool) :
    ℕ → Folded → List PortfolioControllerEvent → Except HistoryError Folded
  | _, folded, [] => .ok folded
  | index, folded, event :: events =>
      foldEvent keysInOrder index folded event >>= fun next =>
        foldFrom keysInOrder (index + 1) next events

end Folded

section

variable (keysInOrder : JsString → JsString → Bool) (records : List PortfolioControllerEvent)

def foldPortfolioController : Except HistoryError Folded :=
  match records with
  | [] => .error .registrationMissing
  | first :: _ =>
      match first.kind with
      | .created enrolled =>
          Folded.foldFrom keysInOrder 0 (Folded.start enrolled first.atTime) records
      | _ => .error .registrationMissing

/-! Appending. -/

structure EventInput where
  atTime : JsString
  kind : EventKind

def folding : Except ControllerError Folded :=
  (foldPortfolioController keysInOrder records).mapError .history

abbrev PublicationCheck := List PortfolioControllerEvent → Bool

structure AppendOptions where
  expectedRecords : Option (List PortfolioControllerEvent)
  beforeIntent : Option PublicationCheck
  beforeSettlement : Option PublicationCheck
  beforeDiagnostic : Option PublicationCheck

def AppendOptions.none : AppendOptions := ⟨.none, .none, .none, .none⟩

def runPublicationCheck (label : CheckLabel) (validKind : Bool) (check : Option PublicationCheck)
    (records : List PortfolioControllerEvent) : Except ControllerError Unit :=
  match check with
  | none => .ok ()
  | some check =>
      if validKind then if check records then .ok () else .error .checkThrew
      else .error (.checkInvalid label)

def EventKind.isIntent : EventKind → Bool
  | .intent _ _ => true
  | _ => false

def EventKind.isSettled : EventKind → Bool
  | .settled _ _ => true
  | _ => false

def EventKind.isDiagnostic : EventKind → Bool
  | .dispatchDiagnostic _ _ _ _ => true
  | _ => false

def EventKind.cleanup : EventKind → Bool
  | .settled _ _ => true
  | .drained _ => true
  | .drain => true
  | _ => false

def controlReserve (folded : Folded) : ℕ :=
  match folded.control with
  | some control =>
      if control.mode = .drain then if control.acknowledgedAt = none then 1 else 0 else 2
  | none => 2

def settlementWeight (outcome : UniversePortfolioControllerOutcome) : ℕ :=
  match outcome.state with
  | .pending => 2
  | .inFlight => 1
  | _ => 0

def settlementReserve (folded : Folded) : ℕ :=
  (folded.states.map fun entry => settlementWeight entry.2).sum

def diagnosticWeight (diagnostics : JsMap JsString UniversePortfolioControllerDiagnostic)
    (outcome : UniversePortfolioControllerOutcome) : ℕ :=
  if (outcome.state = .pending ∨ outcome.state = .inFlight) ∧
      diagnostics.has outcome.campaignId = false then 1 else 0

def diagnosticReserve (folded : Folded) : ℕ :=
  (folded.states.map fun entry => diagnosticWeight folded.diagnostics entry.2).sum

def bytesOf : ℕ :=
  (records.map fun event => (serialize keysInOrder event).length).sum

def fits (reserve : ℕ) : Bool :=
  records.length + reserve ≤ maxEvents &&
    bytesOf keysInOrder records + reserve * eventBytes ≤ maxBytes

def hasCapacity (kind : EventKind)
    (records : List PortfolioControllerEvent) (folded : Folded) : Bool :=
  fits keysInOrder records
      (settlementReserve folded + diagnosticReserve folded + controlReserve folded) ||
    (kind.cleanup && fits keysInOrder records (settlementReserve folded + controlReserve folded)) ||
    (kind.isSettled && folded.control.isNone && fits keysInOrder records (settlementReserve folded))

def drainRefusal (kind : EventKind) : Except ControllerError Unit :=
  if kind.isIntent ∧ records ≠ [] then
    folding keysInOrder records >>= fun folded =>
      if folded.draining then .error .admissionDrained else .ok ()
  else .ok ()

def EventInput.event (input : EventInput) (records : List PortfolioControllerEvent) :
    PortfolioControllerEvent :=
  ⟨recordId records.length, records.length, input.atTime, input.kind⟩

def appendUnlocked (input : EventInput) (options : AppendOptions) :
    Except ControllerError (List PortfolioControllerEvent) := do
  drainRefusal keysInOrder records input.kind
  runPublicationCheck .intent input.kind.isIntent options.beforeIntent records
  runPublicationCheck .settlement input.kind.isSettled options.beforeSettlement records
  runPublicationCheck .diagnostic input.kind.isDiagnostic options.beforeDiagnostic records
  let folded ← folding keysInOrder (records ++ [input.event records])
  if hasCapacity keysInOrder input.kind (records ++ [input.event records]) folded = false then
    throw .capacityExhausted
  pure (records ++ [input.event records])

def assertExpectedRecords
    (records expected : List PortfolioControllerEvent) : Except ControllerError Unit :=
  let text (events : List PortfolioControllerEvent) :=
    canonical keysInOrder (.arr (events.map (·.json)))
  let control (event : PortfolioControllerEvent) :=
    match event.kind with
    | .drain => true
    | .resume _ => true
    | _ => false
  if records.length < expected.length ∨ text (records.take expected.length) ≠ text expected ∨
      !((records.drop expected.length).all control) then .error .changedOutsideControl
  else .ok ()

def AppendOptions.assertExpected
    (options : AppendOptions) (records : List PortfolioControllerEvent) :
    Except ControllerError Unit :=
  match options.expectedRecords with
  | .none => .ok ()
  | some expected => assertExpectedRecords keysInOrder records expected

section

variable (ledger : Option (List PortfolioControllerEvent))

def readPortfolioControllerEvents : Except ControllerError (List PortfolioControllerEvent) :=
  match ledger with
  | none => .error .evidenceUnavailable
  | some records => (folding keysInOrder records).map fun _ => records

def recordsFor (kind : EventKind) : Except ControllerError (List PortfolioControllerEvent) :=
  match ledger, kind with
  | none, .created _ => .ok []
  | none, _ => .error .registrationMissing
  | some records, _ => readPortfolioControllerEvents keysInOrder (some records)

def appendPortfolioControllerEvent (input : EventInput)
    (options : AppendOptions) : Except ControllerError (List PortfolioControllerEvent) := do
  let records ← recordsFor keysInOrder ledger input.kind
  options.assertExpected keysInOrder records
  appendUnlocked keysInOrder records input options

/-! Owner controls. -/

inductive ControlRequest where
  | drain
  | resume (expectedDrainSequence : ℕ)

def ControlRequest.valid : ControlRequest → Bool
  | .drain => true
  | .resume expectedDrainSequence => validSequence expectedDrainSequence

def ControlRequest.kind : ControlRequest → EventKind
  | .drain => .drain
  | .resume expectedDrainSequence => .resume expectedDrainSequence

structure UniversePortfolioControllerControlReceipt where
  controllerId : JsString
  action : ControlRequest
  changed : Bool
  sequence : ℕ
  requestedAt : JsString

def repeatedControl (folded : Folded)
    (request : ControlRequest) : Option UniversePortfolioControllerControl :=
  folded.control.filter fun control =>
    match request with
    | .drain => control.mode = .drain
    | .resume _ =>
        control.mode = .opened && records[control.sequence]?.any fun last => last.kind =
          request.kind

def requestUniversePortfolioControllerControl
    (controllerId : JsString) (ledger : Option (List PortfolioControllerEvent))
    (request : ControlRequest) (now : JsString) :
    Except ControllerError
      (UniversePortfolioControllerControlReceipt × List PortfolioControllerEvent) := do
  if request.valid = false then throw .invalidControlRequest
  let records ← readPortfolioControllerEvents keysInOrder ledger
  let folded ← folding keysInOrder records
  if folded.first.definition.id ≠ controllerId then throw .identityChanged
  match repeatedControl records folded request with
  | some control =>
      pure (⟨controllerId, request, false, control.sequence, control.requestedAt⟩, records)
  | none =>
      let next ← appendUnlocked keysInOrder records ⟨now, request.kind⟩ AppendOptions.none
      pure (⟨controllerId, request, true, records.length, now⟩, next)

/-! Runs of a ledger. -/

inductive ControllerCall where
  | append (input : EventInput) (options : AppendOptions)
  | request (controllerId : JsString) (asked : ControlRequest) (now : JsString)

def ControllerCall.publishes :
    ControllerCall → Except ControllerError (List PortfolioControllerEvent)
  | .append input options => appendPortfolioControllerEvent keysInOrder ledger input options
  | .request controllerId asked now =>
      (requestUniversePortfolioControllerControl keysInOrder controllerId ledger asked now).map
        Prod.snd

end

end

inductive ControllerStep (keysInOrder : JsString → JsString → Bool) :
    Option (List PortfolioControllerEvent) → ControllerCall →
      Option (List PortfolioControllerEvent) → Prop
  | published {ledger : Option (List PortfolioControllerEvent)} {call : ControllerCall}
      {records : List PortfolioControllerEvent}
      (publishes : call.publishes keysInOrder ledger = .ok records) :
      ControllerStep keysInOrder ledger call (some records)
  | unpublished {ledger : Option (List PortfolioControllerEvent)} {call : ControllerCall} :
      ControllerStep keysInOrder ledger call ledger
  | emptied {call : ControllerCall} : ControllerStep keysInOrder none call (some [])

end AshlrHub.Universe

import AshlrHub.Fleet.SharedStoreCalls

namespace AshlrHub.Fleet

open Js Authority Lib

/-! Machines over one queue file: transactions under the lock, and the readings behind them. -/

inductive MutationResult where
  | success (value : Option QueueClaimRef)
  | contended
  | authorityLost

inductive WaitingCall where
  | begin (ref : QueueClaimRef)
  | beginCurrent (ref : QueueClaimRef) (installedReadable : Bool)
  | complete (ref : QueueClaimRef) (completionId : JsString)
  | completeCurrent (ref : QueueClaimRef)
  | settle (ref : QueueClaimRef)
  | settleCurrent (ref : QueueClaimRef)

inductive Probe where
  | answers (result : MutationResult)
  | waits (call : WaitingCall)

def Probe.waiting : Probe → List WaitingCall
  | .answers _ => []
  | .waits call => [call]

def currentResult (reading : Option SharedFleetQueue) (ref : QueueClaimRef) (now : ℤ) :
    MutationResult :=
  match reading with
  | none => .contended
  | some queue =>
      if (readExactClaim queue ref ref.phase).any fun current => now < current.leaseUntil then
        .contended
      else .authorityLost

def WaitingCall.probe (call : WaitingCall) (reading : Option SharedFleetQueue) (now : ℤ) : Probe :=
  match call with
  | .begin ref =>
      match reading.bind fun queue => readExactClaim queue ref .executing with
      | some value => .answers (.success (some value))
      | none => .waits (.beginCurrent ref reading.isSome)
  | .beginCurrent ref installedReadable =>
      .answers (if installedReadable then currentResult reading ref now else .contended)
  | .complete ref completionId =>
      match reading with
      | none => .answers .contended
      | some queue =>
          if queue.worked.any fun event => event.claimCompletionId = some completionId then
            .answers (.success none)
          else .waits (.completeCurrent ref)
  | .settle ref =>
      match reading with
      | none => .answers .contended
      | some queue =>
          if (queue.claims.lookup ref.itemId).isNone then .answers (.success none)
          else .waits (.settleCurrent ref)
  | .completeCurrent ref => .answers (currentResult reading ref now)
  | .settleCurrent ref => .answers (currentResult reading ref now)

/-- `withLock`: a change is installed and reads back valid, or nothing is written. -/
inductive Transacts {α : Type} (change : SharedFleetQueue → SharedFleetQueue × α)
    (file : Option SharedFleetQueue) : Option α → Option SharedFleetQueue → Prop
  | unwritten : Transacts change file none file
  | installed {queue : SharedFleetQueue} (read : readQueueResult file = some queue)
      (valid : validQueue (bounded (change queue).1) = true) :
      Transacts change file (some (change queue).2) (some (bounded (change queue).1))

def Reports {α : Type} (done : Option α) (fallback answer : α) : Prop :=
  some answer = done ∨ answer = fallback

structure QueueSystem where
  file : Option SharedFleetQueue
  waiting : List WaitingCall

/-- A step of some machine, with what it installed and what it answered. -/
inductive QueueLabel where
  | claim (call : ClaimCall) (done : Option (List QueueClaimRef)) (answer : List QueueClaimRef)
  | renew (refs : List QueueClaimRef) (done : Option (List QueueClaimRef))
      (answer : List QueueClaimRef)
  | begin (ref : QueueClaimRef) (now : ℤ) (done : Option (Option QueueClaimRef))
      (answer : Option QueueClaimRef)
  | release (refs : List QueueClaimRef) (done : Option (List JsString)) (answer : List JsString)
  | complete (call : CompleteCall) (done : Option Bool) (answer : Bool)
  | settle (ref : QueueClaimRef) (done : Option Bool) (answer : Bool)
  | probe (call : WaitingCall) (now : ℤ) (result : Probe)

def waitingIf (unanswered : Bool) (call : WaitingCall) : List WaitingCall :=
  if unanswered then [call] else []

inductive QueueStep (system : QueueSystem) : QueueLabel → QueueSystem → Prop
  | claim {call : ClaimCall} {done : Option (List QueueClaimRef)} {answer : List QueueClaimRef}
      {file : Option SharedFleetQueue} (admitted : call.admitted = true)
      (transacts : Transacts (claimLeasesByLane call) system.file done file)
      (reports : Reports done [] answer) :
      QueueStep system (.claim call done answer) { system with file := file }
  | renew {refs : List QueueClaimRef} {leaseMs : ℕ} {now : ℤ}
      {done : Option (List QueueClaimRef)} {answer : List QueueClaimRef}
      {file : Option SharedFleetQueue}
      (transacts : Transacts (renewClaims leaseMs now refs) system.file done file)
      (reports : Reports done [] answer) :
      QueueStep system (.renew refs done answer) { system with file := file }
  | begin {ref : QueueClaimRef} {now : ℤ} {done : Option (Option QueueClaimRef)}
      {answer : Option QueueClaimRef} {file : Option SharedFleetQueue}
      (transacts : Transacts (beginClaimExecution ref now) system.file done file)
      (reports : Reports done none answer) :
      QueueStep system (.begin ref now done answer)
        ⟨file, waitingIf answer.isNone (.begin ref) ++ system.waiting⟩
  | release {refs : List QueueClaimRef} {done : Option (List JsString)} {answer : List JsString}
      {file : Option SharedFleetQueue}
      (transacts : Transacts (releaseClaims refs) system.file done file)
      (reports : Reports done [] answer) :
      QueueStep system (.release refs done answer) { system with file := file }
  | complete {call : CompleteCall} {done : Option Bool} {answer : Bool}
      {file : Option SharedFleetQueue} (admitted : call.admitted = true)
      (transacts : Transacts (completeClaim call) system.file done file)
      (reports : Reports done false answer) :
      QueueStep system (.complete call done answer)
        ⟨file, waitingIf (!answer) (.complete call.ref call.completionId) ++ system.waiting⟩
  | settle {ref : QueueClaimRef} {now : ℤ} {done : Option Bool} {answer : Bool}
      {file : Option SharedFleetQueue}
      (transacts : Transacts (settleClaim ref now) system.file done file)
      (reports : Reports done false answer) :
      QueueStep system (.settle ref done answer)
        ⟨file, waitingIf (!answer) (.settle ref) ++ system.waiting⟩
  /-- A reading, which may also fail, at the clock of its machine. -/
  | probe {front back : List WaitingCall} {call : WaitingCall}
      {reading : Option SharedFleetQueue} {now : ℤ} (calls : system.waiting = front ++ call :: back)
      (read : reading = none ∨ reading = readQueueResult system.file) :
      QueueStep system (.probe call now (call.probe reading now))
        { system with waiting := front ++ (call.probe reading now).waiting ++ back }

/-! What a run installed. -/

def QueueLabel.created : QueueLabel → List QueueClaimRef
  | .claim _ (some refs) _ => refs
  | _ => []

def QueueLabel.completed : QueueLabel → List CompleteCall
  | .complete call (some true) _ => [call]
  | _ => []

def QueueLabel.cleared : QueueLabel → List QueueClaimRef
  | .complete call (some true) _ => [call.ref]
  | .settle ref (some true) _ => [ref]
  | _ => []

def createdIn (labels : List QueueLabel) : List QueueClaimRef :=
  labels.flatMap QueueLabel.created

def completedIn (labels : List QueueLabel) : List CompleteCall :=
  labels.flatMap QueueLabel.completed

def Presents (ref : QueueClaimRef) (itemId : JsString) (epoch : ℕ) (tokenHash : JsString) : Prop :=
  ref.itemId = itemId ∧ ref.epoch = epoch ∧ ref.phase = .executing ∧
    ownerTokenHash ref.ownerToken = tokenHash

def Executing (file : Option SharedFleetQueue) (itemId : JsString) (epoch : ℕ)
    (tokenHash : JsString) : Prop :=
  ∃ queue claim owner, readQueueResult file = some queue ∧
    queue.claims.lookup itemId = some claim ∧ claim.owner? = some owner ∧
    owner.phase = .executing ∧ owner.epoch = epoch ∧ owner.tokenHash = tokenHash

def BegunUnexpired (file : Option SharedFleetQueue) (ref value : QueueClaimRef) (now : ℤ) : Prop :=
  ∃ queue claim owner, readQueueResult file = some queue ∧
    queue.claims.lookup ref.itemId = some claim ∧ claim.owner? = some owner ∧
    owner.phase = .executing ∧ owner.epoch = ref.epoch ∧
    owner.tokenHash = ownerTokenHash ref.ownerToken ∧ value.ownerKey = claim.machineId ∧
    value.leaseUntil = owner.leaseUntil ∧ now < owner.leaseUntil

inductive QueueLabel.Begins : QueueLabel → QueueClaimRef → QueueClaimRef → ℤ → Prop
  | answered {ref value : QueueClaimRef} {now : ℤ} {done : Option (Option QueueClaimRef)} :
      Begins (.begin ref now done (some value)) ref value now
  | readBack {ref value : QueueClaimRef} {now : ℤ} :
      Begins (.probe (.begin ref) now (.answers (.success (some value)))) ref value now

def CarefulStep (system : QueueSystem) (label : QueueLabel) (next : QueueSystem) : Prop :=
  QueueStep system label next ∧
    ∀ {ref now result}, label = .probe (.begin ref) now result → ∀ queue owner,
      readQueueResult system.file = some queue →
      claimCapabilityMatches queue { ref with phase := .executing } = some owner →
      now < owner.leaseUntil

def SingleUse (labels : List QueueLabel) : Prop :=
  ∀ {first second : CompleteCall} {done other answer again},
    .complete first done answer ∈ labels → .complete second other again ∈ labels →
    first.completionId = second.completionId →
    first.ref.itemId = second.ref.itemId ∧ first.ref.epoch = second.ref.epoch

end AshlrHub.Fleet

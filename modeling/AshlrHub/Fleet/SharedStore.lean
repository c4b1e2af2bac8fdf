import AshlrHub.Authority.Patterns
import AshlrHub.Js.Encoding
import Mathlib.Data.List.AList

namespace AshlrHub.Fleet

open Js Authority

/-! The shared queue: claims under owner keys, worked events, and what a write has to pass. -/

inductive QueueClaimPhase where
  | claimed
  | executing
deriving DecidableEq

inductive WorkedOutcome where
  | diff
  | empty
  | dispatchBlocked
  | judgedReview
  | judgedNoise
  | judgedDecline
deriving DecidableEq

def isSuppressibleWorkedOutcome (outcome : WorkedOutcome) : Bool :=
  outcome ≠ .diff

structure WorkedEvent where
  itemId : JsString
  outcome : WorkedOutcome
  ts : JsString
  proposalId : Option JsString
  claimCompletionId : Option JsString
deriving DecidableEq

structure UsageEntry where
  machineId : JsString
  engine : JsString
  ts : JsString
  usedPercent : Option Double
  windowLabel : Option JsString
  resetsAt : Option ℕ
deriving DecidableEq

structure ItemClaim where
  machineId : JsString
  leaseUntil : ℤ
deriving DecidableEq

structure QueueFence where
  queueId : JsString
  nextClaimEpoch : ℕ
deriving DecidableEq

structure SharedFleetQueue where
  /-- All of the metadata, or none of it. -/
  fence : Option QueueFence
  /-- By item. -/
  claims : AList fun _ : JsString => ItemClaim
  worked : List WorkedEvent
  usage : List UsageEntry

theorem SharedFleetQueue.ext {first second : SharedFleetQueue}
    (same : (first.fence, first.claims.entries, first.worked, first.usage) =
      (second.fence, second.claims.entries, second.worked, second.usage)) : first = second := by
  obtain ⟨_, ⟨_, _⟩, _, _⟩ := first
  obtain ⟨_, ⟨_, _⟩, _, _⟩ := second
  cases same
  rfl

instance : DecidableEq SharedFleetQueue := fun _ _ =>
  decidable_of_iff _ ⟨SharedFleetQueue.ext, fun same => same ▸ rfl⟩

def emptyQueue : SharedFleetQueue := ⟨none, ∅, [], []⟩

structure QueueClaimRef where
  itemId : JsString
  machineId : JsString
  ownerKey : JsString
  ownerToken : JsString
  queueId : JsString
  epoch : ℕ
  phase : QueueClaimPhase
  leaseUntil : ℤ
deriving DecidableEq

structure ModernClaimOwner where
  machineId : JsString
  tokenHash : JsString
  epoch : ℕ
  phase : QueueClaimPhase
  leaseUntil : ℤ
deriving DecidableEq

def maxWorked : ℕ := 2000

def maxMachineIdBytes : ℕ := 512

def maxOwnerKeyBytes : ℕ := 1024

def maxItemIdBytes : ℕ := 2048

def maxClaims : ℕ := 20000

def maxUsage : ℕ := 2000

def legacyExecutingLease : ℤ := JsNumber.maxSafeInteger

/-- `Buffer.byteLength(text, 'utf8')` -/
def byteLength (text : JsString) : ℕ :=
  (utf8Encode text).length

/-- The template's `h` is a hexadecimal digit, `n` one of `1-8` and `v` one of `89ab`. -/
def matchesUuid : JsString → JsString → Bool
  | [], [] => true
  | mark :: template, unit :: text =>
      (if mark = 0x68 then (js "0123456789abcdefABCDEF").contains unit
        else if mark = 0x6E then (js "12345678").contains unit
        else if mark = 0x76 then (js "89abAB").contains unit
        else mark = unit) && matchesUuid template text
  | _, _ => false

/-- `UUID_RE` -/
def isUuid (text : JsString) : Bool :=
  matchesUuid (js "hhhhhhhh-hhhh-nhhh-vhhh-hhhhhhhhhhhh") text

/-! Owner keys. -/

def modernOwnerPrefix : JsString := js "ashlr-q2"

def colon : CodeUnit := 0x3A

def ownerTokenHash (ownerToken : JsString) : JsString :=
  Sha256.digest (utf8Encode (js "ashlr:shared-queue-owner:v2" ++ [0]) ++ utf8Encode ownerToken)

def phaseMark : QueueClaimPhase → JsString
  | .claimed => js "c"
  | .executing => js "e"

/-- `leaseUntil.toString(36)` of a whole number. -/
def leaseText (leaseUntil : ℤ) : JsString :=
  if leaseUntil < 0 then js "-" ++ toString36 leaseUntil.natAbs else toString36 leaseUntil.natAbs

def encodeOwner (ref : QueueClaimRef) : JsString :=
  [colon].intercalate
    [modernOwnerPrefix, phaseMark ref.phase, toString36 ref.epoch,
      toBase64Url (utf8Encode ref.machineId), ownerTokenHash ref.ownerToken,
      leaseText ref.leaseUntil]

/-- What `parseModernOwner` answers; a key of an older format answers `legacy`. -/
inductive ParsedOwner where
  | legacy
  | invalid
  | modern (owner : ModernClaimOwner)
deriving DecidableEq

def parsePhase (mark : JsString) : Option QueueClaimPhase :=
  if mark = js "c" then some .claimed else if mark = js "e" then some .executing else none

def parseCount36 (text : JsString) : Option ℕ := do
  guard (text ≠ [] ∧ text.all isDigit36 = true)
  guard (toString36 (parseInt36 text) = text)
  guard (1 ≤ parseInt36 text ∧ (parseInt36 text : ℤ) ≤ JsNumber.maxSafeInteger)
  pure (parseInt36 text)

def parseMachine (encodedMachine : JsString) : Option JsString := do
  let bytes ← ofBase64Url encodedMachine
  let machineId := utf8Decode bytes
  guard (machineId ≠ [] ∧ byteLength machineId ≤ maxMachineIdBytes)
  guard (toBase64Url (utf8Encode machineId) = encodedMachine)
  pure machineId

def parseOwnerParts : List JsString → Option ModernClaimOwner
  | [mark, phase, epoch, encodedMachine, tokenHash, leaseUntil] => do
      guard (mark = modernOwnerPrefix)
      let phase ← parsePhase phase
      let epoch ← parseCount36 epoch
      let leaseUntil ← parseCount36 leaseUntil
      guard (sha256HexPattern tokenHash = true)
      let machineId ← parseMachine encodedMachine
      pure ⟨machineId, tokenHash, epoch, phase, leaseUntil⟩
  | _ => none

def parseModernOwner (value : JsString) : ParsedOwner :=
  if (modernOwnerPrefix ++ [colon]).isPrefixOf value = false then .legacy
  else if maxOwnerKeyBytes < byteLength value then .invalid
  else
    match parseOwnerParts (value.splitOn colon) with
    | some owner => .modern owner
    | none => .invalid

def ItemClaim.owner? (claim : ItemClaim) : Option ModernClaimOwner :=
  match parseModernOwner claim.machineId with
  | .modern owner => some owner
  | _ => none

/-! What `parseQueue` accepts. -/

def validClaim (itemId : JsString) (claim : ItemClaim) : Bool :=
  byteLength itemId ≤ maxItemIdBytes && claim.machineId ≠ [] &&
    byteLength claim.machineId ≤ maxOwnerKeyBytes &&
    1 ≤ claim.leaseUntil && claim.leaseUntil ≤ JsNumber.maxSafeInteger &&
    match parseModernOwner claim.machineId with
    | .legacy => true
    | .invalid => false
    | .modern owner =>
        claim.leaseUntil =
          match owner.phase with
          | .claimed => owner.leaseUntil
          | .executing => legacyExecutingLease

def validWorkedEvent (event : WorkedEvent) : Bool :=
  byteLength event.itemId ≤ maxItemIdBytes && byteLength event.ts ≤ 128 &&
    (event.proposalId.all fun proposalId => byteLength proposalId ≤ maxItemIdBytes) &&
    event.claimCompletionId.all isUuid

def validUsageEntry (entry : UsageEntry) : Bool :=
  entry.machineId ≠ [] && byteLength entry.machineId ≤ maxMachineIdBytes &&
    entry.engine ≠ [] && byteLength entry.engine ≤ 128 && byteLength entry.ts ≤ 128 &&
    (entry.usedPercent.all fun percent => 0 ≤ percent.val && percent.val ≤ 100) &&
    (entry.windowLabel.all fun windowLabel => byteLength windowLabel ≤ 128) &&
    entry.resetsAt.all fun resetsAt => (resetsAt : ℤ) ≤ JsNumber.maxSafeInteger

section

variable (queue : SharedFleetQueue)

def SharedFleetQueue.owners : List ModernClaimOwner :=
  queue.claims.entries.filterMap fun entry => entry.2.owner?

def validFence : Bool :=
  match queue.fence with
  | none => queue.owners = []
  | some fence =>
      isUuid fence.queueId && 1 ≤ fence.nextClaimEpoch &&
        (fence.nextClaimEpoch : ℤ) ≤ JsNumber.maxSafeInteger &&
        queue.owners.all fun owner => owner.epoch < fence.nextClaimEpoch

def validQueue : Bool :=
  queue.claims.entries.length ≤ maxClaims && queue.worked.length ≤ maxWorked &&
    queue.usage.length ≤ maxUsage &&
    (queue.claims.entries.all fun entry => validClaim entry.1 entry.2) &&
    queue.worked.all validWorkedEvent && queue.usage.all validUsageEntry && validFence queue

/-- `readQueueResult` of a file that can be read at all. -/
def readQueueResult (file : Option SharedFleetQueue) : Option SharedFleetQueue :=
  match file with
  | none => some emptyQueue
  | some queue => if validQueue queue then some queue else none

/-- The last events and entries, as `writeQueue` keeps them. -/
def bounded : SharedFleetQueue :=
  { queue with
    worked := queue.worked.drop (queue.worked.length - maxWorked)
    usage := queue.usage.drop (queue.usage.length - maxUsage) }

@[simp] theorem fence_bounded : (bounded queue).fence = queue.fence := by
  simp only [bounded]

@[simp] theorem claims_bounded : (bounded queue).claims = queue.claims := by
  simp only [bounded]

end

end AshlrHub.Fleet

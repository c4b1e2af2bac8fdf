import AshlrHub.Authority.Patterns
import AshlrHub.Js.Object

namespace AshlrHub.HostMerge

open Js Authority

/-! The host-merge revocation protocol: one record an authority, of at most three receipts. -/

def protocol : JsString := js "ashlr.host-merge-revocation.v1"

def receiptDigestDomain : JsString := js "ashlr.host-merge-revocation.receipt-digest.v1"

def authorityIdDomain : JsString := js "ashlr.host-merge-revocation.authority-id.v1"

def requestDigestDomain : JsString := js "ashlr.host-merge-revocation.request-digest.v1"

def maxReceipts : ℕ := 3

def maxTtlMs : ℤ := 15 * 60 * 1000

inductive HostMergeRevocationPhaseV1 where
  | prepared
  | armed
  | revoked
  | consumed
deriving DecidableEq

instance : JsEnum HostMergeRevocationPhaseV1 where
  text
    | .prepared => js "prepared"
    | .armed => js "armed"
    | .revoked => js "revoked"
    | .consumed => js "consumed"
  all := [.prepared, .armed, .revoked, .consumed]
  complete phase := by cases phase <;> decide
  distinct := by decide

inductive HostMergeRevocationActionV1 where
  | prepare
  | arm
  | revoke
  | consume
deriving DecidableEq

instance : JsEnum HostMergeRevocationActionV1 where
  text
    | .prepare => js "prepare"
    | .arm => js "arm"
    | .revoke => js "revoke"
    | .consume => js "consume"
  all := [.prepare, .arm, .revoke, .consume]
  complete action := by cases action <;> decide
  distinct := by decide

structure HostMergeRevocationIdentityV1 where
  nameWithOwner : JsString
  repositoryId : JsString
  baseRef : JsString
  baseOid : JsString
  headRef : JsString
  headOid : JsString
  pullRequestId : JsString
  pullRequestNumber : ℤ
  evidencePackDigest : JsString
  verifierManifestDigest : JsString
  protectionPolicyDigest : JsString
  killEpoch : JsString
  policyEpoch : JsString
  expiresAt : JsString

structure HostMergeRevocationReceiptV1 where
  authorityId : JsString
  sequence : ℕ
  action : HostMergeRevocationActionV1
  phase : HostMergeRevocationPhaseV1
  operationId : JsString
  requestDigest : JsString
  previousReceiptDigest : Option JsString
  recordedAt : JsString
  signingKeyId : JsString
  receiptDigest : JsString

structure HostMergeRevocationStateV1 where
  authorityId : JsString
  identity : HostMergeRevocationIdentityV1
  phase : HostMergeRevocationPhaseV1
  sequence : ℕ
  receipts : List HostMergeRevocationReceiptV1

inductive HostMergeRevocationReadResult where
  | missing
  | healthy (record : HostMergeRevocationStateV1)
  | degraded (reason : JsString)

inductive HostMergeRevocationWriteResult where
  | applied (receipt : HostMergeRevocationReceiptV1) (record : HostMergeRevocationStateV1)
  | replayed (receipt : HostMergeRevocationReceiptV1) (record : HostMergeRevocationStateV1)
  | refused (reason : JsString)
  | degraded (reason : JsString)

structure PrepareHostMergeRevocationInputV1 where
  identity : HostMergeRevocationIdentityV1
  operationId : JsString
  now : ℤ

structure TransitionHostMergeRevocationInputV1 where
  identity : HostMergeRevocationIdentityV1
  action : HostMergeRevocationActionV1
  operationId : JsString
  expectedSequence : ℕ
  expectedReceiptDigest : JsString
  now : ℤ

/-! What an identity may say. -/

section

variable (text : JsString)

def isDigest : Bool :=
  isHexOfLength 64 text

/-- `OID_RE` -/
def isOid : Bool :=
  isHexOfLength 40 text || isHexOfLength 64 text

/-- `/^[class]{1,max}$/` -/
def oneUpTo (allowed : CodeUnit → Bool) (max : ℕ) (text : JsString) : Bool :=
  1 ≤ text.length && text.length ≤ max && text.all allowed

/-- `REPO_RE` -/
def isRepo : Bool :=
  let part := oneUpTo (fun unit => isAlphanumeric unit || (js "_.-").contains unit) 100
  match text.dropWhile (· ≠ 0x2F) with
  | [] => false
  | _ :: name => part (text.takeWhile (· ≠ 0x2F)) && part name

def isNodeId : Bool :=
  oneUpTo (fun unit => isAlphanumeric unit || (js "_+/=-").contains unit) 240 text

def isOperationId : Bool :=
  headThenUpTo isAlphanumeric (fun unit => isAlphanumeric unit || (js "_.:-").contains unit) 159
    text

/-- `REF_RE` and what `validRef` asks for besides. A slash first, last or doubled leaves an
empty component. -/
def validRef : Bool :=
  oneUpTo (fun unit => isAlphanumeric unit || (js "._/-").contains unit) 240 text &&
    !(js ".").isSuffixOf text && !(js ".lock").isSuffixOf text &&
    (text.splitOn 0x2F).all fun component =>
      component ≠ [] && component ≠ js "." && component ≠ js ".."

end

section

variable (identity : HostMergeRevocationIdentityV1)

def sanitizeIdentity : Bool :=
  isRepo identity.nameWithOwner && isNodeId identity.repositoryId &&
    validRef identity.baseRef && isOid identity.baseOid &&
    validRef identity.headRef && isOid identity.headOid &&
    identity.baseRef ≠ identity.headRef && identity.baseOid ≠ identity.headOid &&
    isNodeId identity.pullRequestId &&
    1 ≤ identity.pullRequestNumber && identity.pullRequestNumber ≤ JsNumber.maxSafeInteger &&
    isDigest identity.evidencePackDigest && isDigest identity.verifierManifestDigest &&
    isDigest identity.protectionPolicyDigest && isDigest identity.killEpoch &&
    isDigest identity.policyEpoch && isCanonicalInstant identity.expiresAt

/-- `Date.parse` of the expiry, which an identity that passes `sanitizeIdentity` has. -/
def HostMergeRevocationIdentityV1.expiry : ℤ :=
  (dateParse identity.expiresAt).getD 0

/-! Digests. -/

def hash (domain payload : JsString) : JsString :=
  Sha256.digest (utf8Encode domain ++ utf8Encode [0x0A] ++ utf8Encode payload)

def equalDigest (left right : JsString) : Bool :=
  isDigest left && isDigest right && left = right

def textOrNull : Option JsString → JsValue
  | some text => .str text
  | none => .null

def identityPayload : JsString :=
  writeValue <| .obj [(js "baseOid", .str identity.baseOid), (js "baseRef", .str identity.baseRef),
    (js "evidencePackDigest", .str identity.evidencePackDigest),
    (js "expiresAt", .str identity.expiresAt), (js "headOid", .str identity.headOid),
    (js "headRef", .str identity.headRef), (js "killEpoch", .str identity.killEpoch),
    (js "nameWithOwner", .str identity.nameWithOwner),
    (js "policyEpoch", .str identity.policyEpoch),
    (js "protectionPolicyDigest", .str identity.protectionPolicyDigest),
    (js "pullRequestId", .str identity.pullRequestId),
    (js "pullRequestNumber", jsInt identity.pullRequestNumber),
    (js "repositoryId", .str identity.repositoryId),
    (js "verifierManifestDigest", .str identity.verifierManifestDigest)]

def hostMergeRevocationAuthorityId : JsString :=
  hash authorityIdDomain (identityPayload identity)

end

def receiptPayload (receipt : HostMergeRevocationReceiptV1) : JsString :=
  writeValue <| .obj [(js "action", .str (JsEnum.text receipt.action)),
    (js "authorityId", .str receipt.authorityId), (js "hostAutoMergeEnabled", .bool false),
    (js "operationId", .str receipt.operationId), (js "operationalAuthority", .bool false),
    (js "phase", .str (JsEnum.text receipt.phase)),
    (js "previousReceiptDigest", textOrNull receipt.previousReceiptDigest),
    (js "protocol", .str protocol), (js "recordedAt", .str receipt.recordedAt),
    (js "requestDigest", .str receipt.requestDigest), (js "schemaVersion", jsInt 1),
    (js "sequence", jsInt receipt.sequence), (js "signatureAlgorithm", .str (js "hmac-sha256")),
    (js "signingKeyId", .str receipt.signingKeyId)]

def requestDigest (action : HostMergeRevocationActionV1) (authorityId operationId : JsString)
    (expectedSequence : ℕ) (expectedReceiptDigest : Option JsString) : JsString :=
  hash requestDigestDomain <| writeValue <| .obj [(js "action", .str (JsEnum.text action)),
    (js "authorityId", .str authorityId),
    (js "expectedReceiptDigest", textOrNull expectedReceiptDigest),
    (js "expectedSequence", jsInt expectedSequence), (js "operationId", .str operationId)]

/-! Receipts and records. -/

def buildReceipt (signingKeyId authorityId : JsString) (sequence : ℕ)
    (action : HostMergeRevocationActionV1) (phase : HostMergeRevocationPhaseV1)
    (operationId request : JsString) (previousReceiptDigest : Option JsString)
    (recordedAt : JsString) : HostMergeRevocationReceiptV1 :=
  let unsigned : HostMergeRevocationReceiptV1 :=
    { authorityId, sequence, action, phase, operationId, requestDigest := request,
      previousReceiptDigest, recordedAt, signingKeyId, receiptDigest := [] }
  { unsigned with receiptDigest := hash receiptDigestDomain (receiptPayload unsigned) }

def buildState (authorityId : JsString) (identity : HostMergeRevocationIdentityV1)
    (receipts : List HostMergeRevocationReceiptV1) (latest : HostMergeRevocationReceiptV1) :
    HostMergeRevocationStateV1 :=
  { authorityId, identity, phase := latest.phase, sequence := latest.sequence, receipts }

inductive Decision where
  | answer (result : HostMergeRevocationWriteResult)
  | write (receipt : HostMergeRevocationReceiptV1) (record : HostMergeRevocationStateV1)

def Decision.refuse (reason : String) : Decision := .answer (.refused (js reason))

def replayReceipt (record : HostMergeRevocationStateV1) (operationId expected : JsString) :
    Option HostMergeRevocationWriteResult :=
  (record.receipts.find? fun receipt => receipt.operationId = operationId).map fun receipt =>
    if equalDigest receipt.requestDigest expected then .replayed receipt record
    else .refused (js "operation-id-conflict")

/-- `elapsed` and `later` are what `performance.now` says has passed since the call, at the first
and at the last look at the expiry. -/
def prepareHostMergeRevocation (input : PrepareHostMergeRevocationInputV1)
    (signingKeyId : JsString) (current : HostMergeRevocationReadResult) (elapsed later : ℕ) :
    Decision :=
  let authorityId := hostMergeRevocationAuthorityId input.identity
  let expiresAt := input.identity.expiry
  match toISOString input.now with
  | none => .refuse "prepare-input-invalid"
  | some recordedAt =>
    if sanitizeIdentity input.identity = false ∨ isOperationId input.operationId = false then
      .refuse "prepare-input-invalid"
    else if expiresAt ≤ input.now ∨ maxTtlMs < expiresAt - input.now then
      .refuse "expiry-invalid"
    else if expiresAt ≤ input.now + elapsed then .refuse "expiry-invalid"
    else
      let request := requestDigest .prepare authorityId input.operationId 0 none
      match current with
      | .degraded reason => .answer (.degraded reason)
      | .healthy record =>
          .answer ((replayReceipt record input.operationId request).getD
            (.refused (js "authority-already-exists")))
      | .missing =>
          if expiresAt ≤ input.now + later then .refuse "expiry-invalid"
          else
            let receipt := buildReceipt signingKeyId authorityId 1 .prepare .prepared
              input.operationId request none recordedAt
            .write receipt (buildState authorityId input.identity [receipt] receipt)

def targetPhase : HostMergeRevocationActionV1 → HostMergeRevocationPhaseV1
  | .arm => .armed
  | .revoke => .revoked
  | _ => .consumed

def HostMergeRevocationActionV1.advances : HostMergeRevocationActionV1 → Bool
  | .arm | .consume => true
  | _ => false

/-- `transitionHostMergeRevocation`, from the record that was read under the lock. -/
def transitionFrom (input : TransitionHostMergeRevocationInputV1)
    (signingKeyId recordedAt : JsString) (record : HostMergeRevocationStateV1)
    (elapsed later : ℕ) : Decision :=
  let authorityId := hostMergeRevocationAuthorityId input.identity
  match record.receipts.getLast? with
  | none => .answer (.degraded (js "state-authentication-failed"))
  | some latest =>
    let request := requestDigest input.action authorityId input.operationId
      input.expectedSequence (some input.expectedReceiptDigest)
    if input.now < (dateParse latest.recordedAt).getD 0 then .refuse "clock-rollback"
    else if input.action.advances ∧ input.identity.expiry ≤ input.now + elapsed then
      .refuse "authority-expired"
    else
      match replayReceipt record input.operationId request with
      | some replay => .answer replay
      | none =>
        if record.sequence ≠ input.expectedSequence ∨
            equalDigest latest.receiptDigest input.expectedReceiptDigest = false then
          .refuse "compare-and-swap-mismatch"
        else if record.phase = .revoked ∨ record.phase = .consumed then
          .refuse "authority-terminal"
        else if (input.action = .arm ∧ record.phase ≠ .prepared) ∨
            ((input.action = .revoke ∨ input.action = .consume) ∧ record.phase ≠ .armed) then
          .refuse "transition-invalid"
        else if maxReceipts ≤ record.receipts.length then
          .answer (.degraded (js "receipt-limit-exceeded"))
        else if input.action.advances ∧ input.identity.expiry ≤ input.now + later then
          .refuse "authority-expired"
        else
          let receipt := buildReceipt signingKeyId authorityId (record.sequence + 1)
            input.action (targetPhase input.action) input.operationId request
            (some latest.receiptDigest) recordedAt
          .write receipt
            (buildState authorityId input.identity (record.receipts ++ [receipt]) receipt)

def transitionHostMergeRevocation (input : TransitionHostMergeRevocationInputV1)
    (signingKeyId : JsString) (current : HostMergeRevocationReadResult) (elapsed later : ℕ) :
    Decision :=
  match toISOString input.now with
  | none => .refuse "transition-input-invalid"
  | some recordedAt =>
    if sanitizeIdentity input.identity = false ∨ input.action = .prepare ∨
        isOperationId input.operationId = false ∨
        input.expectedSequence < 1 ∨ JsNumber.maxSafeInteger < input.expectedSequence ∨
        isDigest input.expectedReceiptDigest = false then
      .refuse "transition-input-invalid"
    else
      match current with
      | .missing => .refuse "authority-missing"
      | .degraded reason => .answer (.degraded reason)
      | .healthy record => transitionFrom input signingKeyId recordedAt record elapsed later

/-- `applied`, of a result. -/
def HostMergeRevocationWriteResult.accepted : HostMergeRevocationWriteResult →
    Option (HostMergeRevocationReceiptV1 × HostMergeRevocationStateV1)
  | .applied receipt record => some (receipt, record)
  | .replayed receipt record => some (receipt, record)
  | .refused _ => none
  | .degraded _ => none

def writeReason : HostMergeRevocationWriteResult → JsString
  | .refused reason => reason
  | .degraded reason => reason
  | .applied _ _ => js "applied"
  | .replayed _ _ => js "replayed"

end AshlrHub.HostMerge

import AshlrHub.Fleet.HostMergeRevocation
import AshlrHub.Fleet.PostMergeWatch
import AshlrHub.Lib.Dialogue

namespace AshlrHub.Authority

open Js

/-! `HUB_REPOSITORY_IDENTITY`: one GitHub repository under two names. -/

def hubRepositoryId : ℤ := 1263526319

def hubRepositoryNodeId : JsString := js "R_kgDOS0_hrw"

def hubOwnerId : ℤ := 258113726

def hubOwnerLogin : JsString := js "ashlrai"

def hubDefaultBranch : JsString := js "master"

def hubLegacyName : JsString := js "ashlrai/ashlr-hub"

def hubRenamedName : JsString := js "ashlrai/phantom"

def isHubRepositoryLabel (name : JsString) : Bool :=
  toLowerCase name = hubLegacyName || toLowerCase name = hubRenamedName

/-- Whether `requireHubRepositoryReference` lets the answer pass. -/
def hubRepositoryReference (requestedName : JsString) (raw : JsValue) : Bool :=
  let repo := raw.asRecord.getD []
  let owner := (getMember repo (js "owner")).asRecord.getD []
  (requestedName = hubLegacyName || requestedName = hubRenamedName) &&
    (getMember repo (js "full_name")).asString = some requestedName &&
    (getMember repo (js "id")).asSafeInteger = some hubRepositoryId &&
    (getMember repo (js "node_id")).asString = some hubRepositoryNodeId &&
    (getMember owner (js "id")).asSafeInteger = some hubOwnerId &&
    (getMember owner (js "login")).asString = some hubOwnerLogin

/-- Whether `requireHubRepositoryMetadata` does. -/
def hubRepositoryMetadata (requestedName : JsString) (raw : JsValue) : Bool :=
  let repo := raw.asRecord.getD []
  hubRepositoryReference requestedName raw &&
    (getMember repo (js "default_branch")).asString = some hubDefaultBranch &&
    (getMember repo (js "private")).asBool = some false &&
    (getMember repo (js "visibility")).asString = some (js "public")

end AshlrHub.Authority

namespace AshlrHub.HostMerge

open Js Authority

/-! The fleet merge state: one record a proposal or revert. -/

inductive PrState where
  | opened
  | closed
  | merged
deriving DecidableEq

/-- `FleetActor`, or `github` where someone other than the fleet closed the pull request. -/
inductive ClosedBy where
  | actor (name : JsString)
  | github

structure FleetPrMemo where
  number : ℤ
  nodeId : JsString
  repositoryId : JsString
  branch : JsString
  baseBranch : JsString
  baseSha : JsString
  headSha : JsString
  ownerLane : Bool
  state : PrState
  closedBy : Option ClosedBy
  nextCheckAt : Option JsString

inductive MergeAttemptPhase where
  | prepared
  | armed
  | consumed
  | merged
  | failed
  | revoked
deriving DecidableEq

structure MergeTrailers where
  grantId : JsString
  gatesDigest : JsString
  ledgerHead : JsString
  stageId : JsString

structure MergeAttemptMemo where
  identity : HostMergeRevocationIdentityV1
  operationPrefix : JsString
  startedAt : JsString
  phase : MergeAttemptPhase
  mergeSha : Option JsString
  error : Option JsString
  trailers : Option MergeTrailers

structure FleetMergeStateV1 where
  key : JsString
  repo : JsString
  pr : Option FleetPrMemo
  merge : Option MergeAttemptMemo
  landing : Option PostMerge.LandingRecord
  landingLedgered : Bool

/-! What GitHub answers. -/

structure GithubReply where
  status : ℕ
  body : JsValue

def GithubReply.member (reply : GithubReply) (name : String) : JsValue :=
  getMember (reply.body.asRecord.getD []) (js name)

/-- `body?.['merged']`, where it is a boolean. -/
def GithubReply.merged (reply : GithubReply) : Option Bool :=
  (reply.member "merged").asBool

/-- `sha(value)` -/
def sha (value : JsValue) : Option JsString :=
  value.asString.filter fun text => isHexOfLength 40 text

def GithubReply.failure (status : ℕ) (message : String) : GithubReply :=
  ⟨status, .obj [(js "message", .str (js message))]⟩

def noAnswer : JsString := js "GitHub did not answer (network error or timeout)"

def answeredHttp : JsString := js "GitHub answered HTTP "

def githubMessage (scrubSecrets : JsString → JsString) (reply : GithubReply) : JsString :=
  if reply.status = 0 then noAnswer
  else answeredHttp ++ decimal reply.status ++
    match (reply.member "message").asString with
    | none => []
    | some [] => []
    | some message => js ": " ++ (scrubSecrets message).take 200

/-! Attempts whose outcome is open. -/

/-- `/^GitHub answered HTTP (?:200|5\d\d)(?:$|:)/` -/
def answeredAmbiguously (error : JsString) : Bool :=
  match afterPrefix answeredHttp error with
  | some (first :: second :: third :: rest) =>
      ([first, second, third] = js "200" ||
        (first = 0x35 && isDigit second && isDigit third)) && (rest = [] || rest.head? = some 0x3A)
  | _ => false

/-- No repeat contact while a request may already have landed remotely. -/
def MergeAttemptMemo.needsReconciliation (attempt : MergeAttemptMemo) : Bool :=
  attempt.phase = .consumed || attempt.phase = .merged ||
    (attempt.phase = .failed && (attempt.error = some noAnswer ||
      answeredAmbiguously (attempt.error.getD [])))

def mergeAttemptNeedsReconciliation (state : FleetMergeStateV1) : Bool :=
  state.merge.any MergeAttemptMemo.needsReconciliation

/-! The names under which the steps of an attempt are known to the revocation protocol. -/

def operationName (operationPrefix : JsString) (name : String) : JsString :=
  operationPrefix ++ 0x2E :: js name

def lastName (operationId : JsString) : JsString :=
  (operationId.reverse.takeWhile (· ≠ 0x2E)).reverse

theorem lastName_append {operationPrefix name : JsString} (plain : 0x2E ∉ name) :
    lastName (operationPrefix ++ 0x2E :: name) = name := by
  have other : ∀ unit ∈ name.reverse, decide (unit ≠ 0x2E) = true := by
    intro unit member
    have different : unit ≠ 0x2E := fun same => plain (same ▸ List.mem_reverse.mp member)
    simp [different]
  rw [lastName, List.reverse_append, List.reverse_cons, List.append_assoc,
    List.takeWhile_append_of_pos other]
  simp

open Lib

/-! `mergeFleetPrPinned`, as a dialogue with everything outside the process. -/

def mergeAuthorityTtlMs : ℤ := 10 * 60 * 1000

structure MergeIdentity where
  evidencePackDigest : JsString
  verifierManifestDigest : JsString
  protectionPolicyDigest : JsString
  policyEpoch : JsString

structure PinnedMergeInput where
  trailers : MergeTrailers
  identity : MergeIdentity

inductive PinnedMergeCode where
  | protocol
  | fence
  | recheck
  | revoked
  | killed
  | headChanged
  | notMergeable
  | github

inductive PinnedMergeOutcome where
  | merged (mergeSha : JsString) (landedAt : JsString)
  | refused (code : PinnedMergeCode) (retryable mergeCalled : Bool)
  /-- An exception out of a date or out of the re-check. -/
  | threw

inductive Recheck where
  | clear
  | refused (why : JsString)
  | threw

/-- What the re-check at the transport boundary found. -/
inductive ContactRefusal where
  | fence
  | killed
  | recheck
  | revoked

def ContactRefusal.code : ContactRefusal → PinnedMergeCode
  | .fence => .fence
  | .killed => .killed
  | .recheck => .recheck
  | .revoked => .revoked

inductive GithubCall where
  | metadata (repo : JsString)
  | putMerge (repo : JsString) (number : ℤ) (headSha : JsString)

inductive Contact where
  | refused (refusal : ContactRefusal)
  | replied (reply : GithubReply)

inductive FleetMergeStateRead where
  | missing
  | ok (record : FleetMergeStateV1)
  | corrupt

inductive PassStep where
  | finish
  | rewrite (record : FleetMergeStateV1)
  | merge (input : PinnedMergeInput)

/-- `randomBytes(n).toString('hex')` -/
structure HexText where
  text : JsString
  hex : text.all isLowerHex = true

/-- What is asked of the surroundings. -/
inductive Request where
  | nowMs
  | killEpoch
  | killActive
  | policyEpoch (repo : JsString)
  | randomBytes
  | noteBegun (identity : HostMergeRevocationIdentityV1)
  | writeState (state : FleetMergeStateV1)
  | prepareAuthority (input : PrepareHostMergeRevocationInputV1)
  | transitionAuthority (input : TransitionHostMergeRevocationInputV1)
  | acquireFence
  | ownsFence
  | releaseFence
  | recheck
  | beforeConsume
  | token (repo : JsString)
  | beforeDispatch (repo : JsString)
  /-- The re-check and, with no await in between, the contact. -/
  | contact (repo : JsString) (identity : HostMergeRevocationIdentityV1) (call : GithubCall)
  | nextPassStep
  | listKeys
  | readState (key : JsString)
  | readAuthority (identity : HostMergeRevocationIdentityV1)

@[reducible] def Answer : Request → Type
  | .nowMs => ℤ
  | .killEpoch => JsString
  | .killActive => Bool
  | .policyEpoch _ => Option JsString
  | .randomBytes => HexText
  | .noteBegun _ => Unit
  | .writeState _ => Bool
  | .prepareAuthority _ => HostMergeRevocationWriteResult
  | .transitionAuthority _ => HostMergeRevocationWriteResult
  | .acquireFence => Bool
  | .ownsFence => Bool
  | .releaseFence => Unit
  | .recheck => Recheck
  | .beforeConsume => Bool
  | .token _ => Bool
  | .beforeDispatch _ => Bool
  | .contact _ _ _ => Contact
  | .nextPassStep => PassStep
  | .listKeys => Option (List JsString)
  | .readState _ => FleetMergeStateRead
  | .readAuthority _ => HostMergeRevocationReadResult

abbrev Merging (α : Type) := Dialogue Request Answer α

def ask (asked : Request) : Merging (Answer asked) := Dialogue.request asked

/-! The memo of the attempt. -/

def FleetMergeStateV1.at (state : FleetMergeStateV1) (attempt : MergeAttemptMemo)
    (phase : MergeAttemptPhase) (error : Option JsString) : FleetMergeStateV1 :=
  { state with merge := some { attempt with phase, error } }

def settle (state : FleetMergeStateV1) (attempt : MergeAttemptMemo) (phase : MergeAttemptPhase)
    (error : Option JsString) : Merging FleetMergeStateV1 := do
  let _ ← ask (.writeState (state.at attempt phase error))
  pure (state.at attempt phase error)

abbrev Attempted := PinnedMergeOutcome × FleetMergeStateV1

/-! The request to GitHub. -/

inductive MergeReply where
  | refused (refusal : ContactRefusal)
  | notSent (reply : GithubReply)
  | sent (reply : GithubReply)

def contactPut (repo : JsString) (identity : HostMergeRevocationIdentityV1) (call : GithubCall) :
    Merging MergeReply := do
  match ← ask (.contact repo identity call) with
  | .refused refusal => pure (.refused refusal)
  | .replied reply => pure (.sent reply)

def contactHub (repo : JsString) (identity : HostMergeRevocationIdentityV1) (call : GithubCall) :
    Merging MergeReply := do
  match ← ask (.contact repo identity (.metadata repo)) with
  | .refused refusal => pure (.refused refusal)
  | .replied reply =>
    if reply.status ≠ 200 then
      pure (.notSent (.failure reply.status "Fresh exact repository metadata is unavailable."))
    else if hubRepositoryMetadata repo reply.body = false then
      pure (.notSent (.failure 409
        "Repository metadata does not match the reviewed exact Hub identity."))
    else if ← ask (.beforeDispatch repo) then contactPut repo identity call
    else pure (.notSent (.failure 409 "GitHub effect authority changed before contact."))

/-- `gh`, for a `PUT` that is guarded where it is sent. -/
def gh (repo : JsString) (identity : HostMergeRevocationIdentityV1) (call : GithubCall) :
    Merging MergeReply := do
  if ← ask (.token repo) then
    if isHubRepositoryLabel repo then contactHub repo identity call
    else contactPut repo identity call
  else pure (.notSent ⟨0, .null⟩)

/-! The attempt. -/

structure ArmedAttempt where
  state : FleetMergeStateV1
  pr : FleetPrMemo
  attempt : MergeAttemptMemo
  receipt : HostMergeRevocationReceiptV1
  record : HostMergeRevocationStateV1

def ArmedAttempt.transition (armed : ArmedAttempt) (action : HostMergeRevocationActionV1)
    (name : String) (now : ℤ) : Request :=
  .transitionAuthority {
    identity := armed.attempt.identity
    action
    operationId := operationName armed.attempt.operationPrefix name
    expectedSequence := armed.record.sequence
    expectedReceiptDigest := armed.receipt.receiptDigest
    now }

def revokeOwn (armed : ArmedAttempt) (why : JsString) : Merging FleetMergeStateV1 := do
  let now ← ask .nowMs
  let revoked ← ask (armed.transition .revoke "revoke" now)
  settle armed.state armed.attempt (if revoked.accepted.isSome then .revoked else .failed) why

def cancel (armed : ArmedAttempt) (why : JsString) (code : PinnedMergeCode) :
    Merging Attempted := do
  let state ← revokeOwn armed why
  pure (.refused code true false, state)

/-- A lost or malformed answer or a server error may follow a real merge. -/
def GithubReply.unresolved (reply : GithubReply) : Bool :=
  reply.status = 0 || 500 ≤ reply.status || (reply.status = 200 && reply.merged ≠ some false)

def declined : JsString := js "GitHub definitively declined merge (merged:false)"

def GithubReply.refusal (reply : GithubReply) : PinnedMergeOutcome :=
  if reply.status = 409 then .refused .headChanged false true
  else if reply.status = 405 ∨ reply.status = 422 then .refused .notMergeable true true
  else .refused .github true true

def GithubReply.mergeSha (reply : GithubReply) : Option JsString :=
  if reply.status = 200 ∧ reply.merged = some true then sha (reply.member "sha") else none

section

variable (scrubSecrets : JsString → JsString)

section

variable (armed : ArmedAttempt)

def concludeReply (reply : GithubReply) : Merging Attempted := do
  match reply.mergeSha with
  | some mergeSha => do
    let state ← settle armed.state { armed.attempt with mergeSha := some mergeSha } .merged none
    let now ← ask .nowMs
    match toISOString now with
    | some landedAt => pure (.merged mergeSha landedAt, state)
    | none => pure (.threw, state)
  | none => do
    let state ← settle armed.state armed.attempt
      (if reply.unresolved then .consumed else .failed)
      (some (if reply.status = 200 ∧ reply.merged = some false then declined
        else githubMessage scrubSecrets reply))
    pure (reply.refusal, state)

/-- From the recorded consumption to what GitHub answers. -/
def sendMerge : Merging Attempted := do
  if ¬ (← ask .ownsFence) then
    let state ← settle armed.state armed.attempt .failed
      (some (js "Stop landed after consume and before the merge call"))
    pure (.refused .killed true false, state)
  else if ← ask .killActive then
    let state ← settle armed.state armed.attempt .failed
      (some (js "Stop landed after consume and before the merge call"))
    pure (.refused .killed true false, state)
  else
    match ← gh armed.state.repo armed.attempt.identity (.putMerge armed.state.repo armed.pr.number
      armed.pr.headSha) with
    | .refused refusal => do
      let state ← settle armed.state armed.attempt .failed (some (js "merge request not sent"))
      pure (.refused refusal.code true false, state)
    | .notSent _ => do
      let state ← settle armed.state armed.attempt .failed (some (js "merge request not sent"))
      pure (.refused .github true false, state)
    | .sent reply => concludeReply scrubSecrets armed reply

def consumeAuthority : Merging Attempted := do
  let now ← ask .nowMs
  let consumed ← ask (armed.transition .consume "consume" now)
  match consumed.accepted with
  | none => do
    let why := writeReason consumed
    let state ← settle armed.state armed.attempt
      (if why = js "authority-terminal" ∨ why = js "compare-and-swap-mismatch" then .revoked
        else .failed) (some (js "consume refused: " ++ why))
    pure (.refused .revoked true false, state)
  | some _ =>
    let state := armed.state.at armed.attempt .consumed none
    if ← ask (.writeState state) then sendMerge scrubSecrets { armed with state }
    else pure (.refused .protocol true false, state)

def checkSwitches : Merging Attempted := do
  let stopped := js "Stop was set before the merge authority was consumed"
  if ← ask .killActive then cancel armed stopped .killed
  else if (← ask .killEpoch) ≠ armed.attempt.identity.killEpoch then
    cancel armed stopped .killed
  else if (← ask (.policyEpoch armed.state.repo)) ≠ some armed.attempt.identity.policyEpoch then
    cancel armed (js "the standing policy changed before the merge authority was consumed") .recheck
  else consumeAuthority scrubSecrets armed

def underFence : Merging Attempted := do
  match ← ask .recheck with
  | .threw => pure (.threw, armed.state)
  | .refused why => cancel armed why .recheck
  | .clear =>
    if ← ask .beforeConsume then checkSwitches scrubSecrets armed
    else pure (.threw, armed.state)

def fenced : Merging Attempted := do
  let acquired ← ask .acquireFence
  if acquired ∧ (← ask .ownsFence) then
    let attempted ← underFence scrubSecrets armed
    ask .releaseFence
    pure attempted
  else
    ask .releaseFence
    cancel armed (js "outward mutation fence unavailable") .fence

end

def armAuthority (state : FleetMergeStateV1) (pr : FleetPrMemo) (attempt : MergeAttemptMemo)
    (prepared : HostMergeRevocationReceiptV1 × HostMergeRevocationStateV1) :
    Merging Attempted := do
  let now ← ask .nowMs
  let armed ← ask (.transitionAuthority {
    identity := attempt.identity
    action := .arm
    operationId := operationName attempt.operationPrefix "arm"
    expectedSequence := prepared.2.sequence
    expectedReceiptDigest := prepared.1.receiptDigest
    now })
  match armed.accepted with
  | none => do
    let state ← settle state attempt .failed (some (js "arm refused: " ++ writeReason armed))
    pure (.refused .protocol true false, state)
  | some (receipt, record) => do
    let state ← settle state attempt .armed none
    fenced scrubSecrets { state, pr, attempt, receipt, record }

def prepareAuthority (scrubSecrets : JsString → JsString) (state : FleetMergeStateV1)
    (pr : FleetPrMemo) (attempt : MergeAttemptMemo) : Merging Attempted := do
  let now ← ask .nowMs
  let prepared ← ask (.prepareAuthority {
    identity := attempt.identity
    operationId := operationName attempt.operationPrefix "prepare"
    now })
  match prepared.accepted with
  | none => do
    let state ← settle state attempt .failed (some (js "prepare refused: " ++ writeReason prepared))
    pure (.refused .protocol true false, state)
  | some accepted => armAuthority scrubSecrets state pr attempt accepted

def beginAttempt (input : PinnedMergeInput)
    (state : FleetMergeStateV1) (pr : FleetPrMemo) : Merging Attempted := do
  let nowMs ← ask .nowMs
  let killEpoch ← ask .killEpoch
  match toISOString (nowMs + mergeAuthorityTtlMs), toISOString nowMs with
  | some expiresAt, some startedAt => do
    let identity : HostMergeRevocationIdentityV1 := {
      nameWithOwner := state.repo
      repositoryId := pr.repositoryId
      baseRef := pr.baseBranch
      baseOid := pr.baseSha
      headRef := pr.branch
      headOid := pr.headSha
      pullRequestId := pr.nodeId
      pullRequestNumber := pr.number
      evidencePackDigest := input.identity.evidencePackDigest
      verifierManifestDigest := input.identity.verifierManifestDigest
      protectionPolicyDigest := input.identity.protectionPolicyDigest
      killEpoch
      policyEpoch := input.identity.policyEpoch
      expiresAt }
    ask (.noteBegun identity)
    let random ← ask .randomBytes
    let attempt : MergeAttemptMemo := {
      identity
      operationPrefix := js "merge-" ++ random.text
      startedAt
      phase := .prepared
      mergeSha := none
      error := none
      trailers := some input.trailers }
    let state := { state with merge := some attempt }
    if ← ask (.writeState state) then prepareAuthority scrubSecrets state pr attempt
    else pure (.refused .protocol true false, state)
  | _, _ => pure (.threw, state)

def mergeFleetPrPinned (input : PinnedMergeInput) (state : FleetMergeStateV1) : Merging Attempted :=
  match state.pr with
  | none => pure (.refused .protocol false false, state)
  | some pr =>
    if pr.state ≠ .opened ∨ pr.ownerLane then pure (.refused .protocol false false, state)
    else if mergeAttemptNeedsReconciliation state then
      pure (.refused .protocol false false, state)
    else beginAttempt scrubSecrets input state pr

end

/-- What is done under the record's lock: whatever else a pass writes to the record, it leaves the
memo of the attempt to `mergeFleetPrPinned`. `reconcileMerged`, which rewrites the memo of a pull
request that was merged, is no part of it. -/
def passUnderLock (scrubSecrets : JsString → JsString) : ℕ → FleetMergeStateV1 → Merging Unit
  | 0, _ => pure ()
  | count + 1, state => do
    match ← ask .nextPassStep with
    | .finish => pure ()
    | .rewrite record => do
      let state := { record with key := state.key, merge := state.merge }
      let _ ← ask (.writeState state)
      passUnderLock scrubSecrets count state
    | .merge input => do
      let attempted ← mergeFleetPrPinned scrubSecrets input state
      passUnderLock scrubSecrets count attempted.2

/-! `revokeArmedHostMerges` -/

structure RevokeResult where
  revoked : ℕ
  failed : List JsString

def revokeArmed (key : JsString) (attempt : MergeAttemptMemo) (out : RevokeResult) :
    HostMergeRevocationReadResult → Merging RevokeResult
  | .healthy record =>
    match record.receipts.getLast? with
    | none => pure out
    | some latest =>
      if record.phase ≠ .armed then pure out
      else do
        let random ← ask .randomBytes
        let now ← ask .nowMs
        let result ← ask (.transitionAuthority {
          identity := attempt.identity
          action := .revoke
          operationId := attempt.operationPrefix ++ 0x2E :: (js "stop-" ++ random.text)
          expectedSequence := record.sequence
          expectedReceiptDigest := latest.receiptDigest
          now })
        match result.accepted with
        | some _ => pure { out with revoked := out.revoked + 1 }
        | none => pure { out with failed := out.failed ++ [key ++ js ": " ++ writeReason result] }
  | .missing => pure out
  | .degraded _ => pure out

def revokeArmedOf (key : JsString) (out : RevokeResult) : FleetMergeStateRead →
    Merging RevokeResult
  | .ok record =>
    match record.merge with
    | none => pure out
    | some attempt =>
      if attempt.phase = .armed ∨ attempt.phase = .prepared then do
        let current ← ask (.readAuthority attempt.identity)
        revokeArmed key attempt out current
      else pure out
  | .missing => pure out
  | .corrupt => pure out

def revokeArmedKeys : List JsString → RevokeResult → Merging RevokeResult
  | [], out => pure out
  | key :: keys, out => do
    let read ← ask (.readState key)
    let out ← revokeArmedOf key out read
    revokeArmedKeys keys out

def revokeArmedHostMerges : Merging RevokeResult := do
  match ← ask .listKeys with
  | none => pure ⟨0, [js "fleet merge state directory unreadable"]⟩
  | some keys => revokeArmedKeys keys ⟨0, []⟩

end AshlrHub.HostMerge

import AshlrHub.Authority.Clamp
import AshlrHub.Js.LowerCase

namespace AshlrHub.PostMerge

open Js Authority

/-! The records of the post-merge watch, and what is computed from them alone. Times are the
milliseconds that the stored instants stand for; the prose of reports is left out. -/

def minuteMs : ℤ := 60000

def hourMs : ℤ := 60 * minuteMs

def dayMs : ℤ := 24 * hourMs

def postMergeWatchMs : ℤ := 2 * hourMs

def secondQuarantineWindowMs : ℤ := 7 * dayMs

def redReposWindowMs : ℤ := 6 * hourMs

def redReposKillCount : ℕ := 2

def revertsWindowMs : ℤ := dayMs

def revertsKillCount : ℕ := 3

def ciNoneGraceMs : ℤ := 15 * minuteMs

def maxRevertAttempts : ℕ := 3

def revertPendingDeadlineMs : ℤ := 60 * minuteMs

def maxSuiteInfraAttempts : ℕ := 3

def maxWatchWindowMs : ℤ := dayMs

def historyRetentionMs : ℤ := 30 * dayMs

def doneWatchRetentionMs : ℤ := 7 * dayMs

def maxWatches : ℕ := 1000

def maxHistoryRows : ℕ := 5000

def fleetBotLogin : JsString := js "ashlr-fleet[bot]"

/-! Observations. -/

inductive CiState where
  | green
  | red
  | pending
  | none
  | unknown
deriving DecidableEq

structure CiObservation where
  state : CiState
  failing : List JsString
deriving DecidableEq

/-- `notRun` could not execute: never a verdict. -/
inductive SuiteResult where
  | pass
  | fail
  | notRun
deriving DecidableEq

structure CommitInfo where
  sha : JsString
  parents : List JsString
  authorLogin : Option JsString
  authorEmail : Option JsString
  message : JsString
deriving DecidableEq

/-! Landings. -/

inductive LandingKind where
  | merge
  | revert
deriving DecidableEq

structure LandingRecord where
  id : JsString
  kind : LandingKind
  repo : JsString
  prNumber : ℤ
  headSha : JsString
  mergeSha : JsString
  revertsLandingId : Option JsString
  grantId : JsString
  landedAt : ℤ
  /-- None where the text is no instant. -/
  watchUntil : Option ℤ
deriving DecidableEq

/-- `/^[A-Za-z0-9][A-Za-z0-9_.:@/#-]{0,239}$/` -/
def landingIdPattern (text : JsString) : Bool :=
  headThenUpTo isAlphanumeric (fun unit => isAlphanumeric unit || (js "_.:@/#-").contains unit) 239
    text

def gitShaPattern (text : JsString) : Bool :=
  isHexOfLength 40 text

/-- Why a record is unusable; its version, the types of its fields and its time are right. -/
def landingRefusal (landing : LandingRecord) : Option JsString :=
  if landingIdPattern landing.id = false then some (js "the landing id is malformed")
  else if nameWithOwnerPattern landing.repo = false then
    some (js "the landing repo is not owner/name")
  else if gitShaPattern landing.mergeSha = false then
    some (js "the landing merge SHA is malformed")
  else if gitShaPattern landing.headSha = false then some (js "the landing head SHA is malformed")
  else if landing.grantId = [] then some (js "the landing carries no grant id")
  else if landing.prNumber ≤ 0 then some (js "the landing PR number is malformed")
  else if landing.kind = .revert ∧ landing.revertsLandingId.getD [] = [] then
    some (js "a revert landing must name the landing it reverts")
  else none

/-- `landing.watchUntil` where it is sane, else two hours; never beyond a day. -/
def effectiveWatchUntil (landing : LandingRecord) : ℤ :=
  match landing.watchUntil with
  | some claimed =>
      if landing.landedAt < claimed then min claimed (landing.landedAt + maxWatchWindowMs)
      else landing.landedAt + postMergeWatchMs
  | none => landing.landedAt + postMergeWatchMs

/-! Whose commit it is. -/

def lowerAscii (unit : CodeUnit) : CodeUnit :=
  if isUpper unit then unit + 0x20 else unit

/-- `/^\d+\+ashlr-fleet\[bot\]@users\.noreply\.github\.com$/i` -/
def fleetBotEmailPattern (email : JsString) : Bool :=
  email.takeWhile isDigit ≠ [] &&
    (email.dropWhile isDigit).map lowerAscii = js "+ashlr-fleet[bot]@users.noreply.github.com"

def isLineEnd (unit : CodeUnit) : Bool :=
  unit = 0x0A || unit = 0x0D || unit = 0x2028 || unit = 0x2029

def isBlank (unit : CodeUnit) : Bool :=
  unit = 0x20 || unit = 0x09

/-- `/^Ashlr-Grant:[ \t]*(\S+)[ \t]*$/`, on one line: what the group holds. -/
def grantTrailer (line : JsString) : Option JsString :=
  (afterPrefix (js "Ashlr-Grant:") line).bind fun rest =>
    let value := rest.dropWhile isBlank
    let token := value.takeWhile fun unit => isJsSpace unit = false
    if token ≠ [] ∧ (value.dropWhile fun unit => isJsSpace unit = false).all isBlank then some token
    else none

def grantTrailers (message : JsString) : List JsString :=
  (message.splitOnP isLineEnd).filterMap grantTrailer

inductive RevertRefusal where
  | revertLanding
  | otherCommit
  | notFleetAuthored
  | noTrailer
  | otherGrant
  | notSingleParent

def fleetRevertRefusal (commit : CommitInfo) (landing : LandingRecord) : Option RevertRefusal :=
  if landing.kind ≠ .merge then some .revertLanding
  else if toLowerCase commit.sha ≠ toLowerCase landing.mergeSha then some .otherCommit
  else if commit.authorLogin ≠ some fleetBotLogin ∧
      ¬ (commit.authorLogin = none ∧ commit.authorEmail.any fleetBotEmailPattern) then
    some .notFleetAuthored
  else if grantTrailers commit.message = [] then some .noTrailer
  else if grantTrailers commit.message ≠ [landing.grantId] then some .otherGrant
  else if commit.parents.length ≠ 1 then some .notSingleParent
  else none

/-! The history that escalation reads. -/

structure HistoryRow where
  repo : JsString
  atTime : ℤ
  landingId : Option JsString

inductive KillReason where
  | revertRed
  | reposRed (repos : List JsString)
  | unproven (refusal : RevertRefusal)
  | revertFailed
  | reverts (count : ℕ)

structure Kill where
  atTime : ℤ
  reason : KillReason

structure EscalationHistory where
  quarantines : List HistoryRow
  reds : List HistoryRow
  reverts : List HistoryRow
  kills : List Kill

def emptyHistory : EscalationHistory := ⟨[], [], [], []⟩

def withinWindow (rows : List HistoryRow) (nowMs windowMs : ℤ) : List HistoryRow :=
  rows.filter fun row => row.atTime ≤ nowMs && nowMs - row.atTime < windowMs

section

variable (history : EscalationHistory)

def redReposWithin (nowMs : ℤ) : List JsString :=
  ((withinWindow history.reds nowMs redReposWindowMs).map fun row =>
    toLowerCase row.repo).dedup.insertionSort (· ≤ ·)

def revertsWithin (nowMs : ℤ) : ℕ :=
  (withinWindow history.reverts nowMs revertsWindowMs).length

def priorQuarantineWithin (repo : JsString) (nowMs : ℤ)
    (landingId : Option JsString) : Option HistoryRow :=
  (withinWindow history.quarantines nowMs secondQuarantineWindowMs).find? fun row =>
    toLowerCase row.repo = toLowerCase repo && (landingId = none || row.landingId ≠ landingId)

/-- `rows.slice(-count)` -/
def lastRows {α : Type} (count : ℕ) (rows : List α) : List α :=
  rows.drop (rows.length - count)

def keepRecent {α : Type} (time : α → ℤ) (nowMs : ℤ) (rows : List α) : List α :=
  lastRows maxHistoryRows (rows.filter fun row => nowMs - time row < historyRetentionMs)

def pruneHistory (nowMs : ℤ) : EscalationHistory where
  quarantines := keepRecent HistoryRow.atTime nowMs history.quarantines
  reds := keepRecent HistoryRow.atTime nowMs history.reds
  reverts := keepRecent HistoryRow.atTime nowMs history.reverts
  kills := keepRecent Kill.atTime nowMs history.kills

end

def pushOnce (rows : List HistoryRow) (row : HistoryRow) : List HistoryRow :=
  if row.landingId ≠ none ∧
      rows.any (fun other => other.landingId = row.landingId && other.repo = row.repo) then rows
  else rows ++ [row]

/-! Watches. -/

inductive WatchPhase where
  | watching
  | reverting
  | done
deriving DecidableEq

inductive WatchOutcome where
  | green
  | reverted
  | revertFailed
  | revertRefused
  | inheritedRed
  | unproven
  | revertRed

inductive SuitePhase where
  | pending
  | pass
  | fail
  | notRun
deriving DecidableEq

def SuiteResult.phase : SuiteResult → SuitePhase
  | .pass => .pass
  | .fail => .fail
  | .notRun => .notRun

structure SuiteState where
  state : SuitePhase
  runs : ℕ
  infraAttempts : ℕ
  parent : Option SuiteResult
  /-- A single failure that awaits its confirming run. -/
  unconfirmedFail : Bool
deriving DecidableEq

inductive ResultCi where
  | green
  | red
  | none
  | unknown

inductive Verdict where
  | green
  | red

structure PostMergeResult where
  landingId : JsString
  repo : JsString
  mergeSha : JsString
  ci : ResultCi
  suite : SuiteResult
  verdict : Verdict
  checkedAt : ℤ

structure RevertState where
  attempts : ℕ
  revertLandingId : Option JsString
  authorshipProven : Bool
  startedAt : Option ℤ

inductive PendingLedgerRow where
  | postMergeResult (result : PostMergeResult)
  | revertLanded (landing : LandingRecord)
  | revertFailed (landingId repo : JsString)
  | killOn (reason : KillReason)

structure PostMergeWatch where
  landing : LandingRecord
  phase : WatchPhase
  registeredAt : ℤ
  watchUntil : ℤ
  lastCheckedAt : Option ℤ
  ci : Option CiObservation
  suite : SuiteState
  result : Option PostMergeResult
  outcome : Option WatchOutcome
  revert : Option RevertState
  repairTaskId : Option JsString
  pendingLedger : List PendingLedgerRow

structure WatchStore where
  watches : List PostMergeWatch
  history : EscalationHistory
  ledgerCursor : Option ℕ

def emptyStore : WatchStore := ⟨[], emptyHistory, none⟩

def newWatch (landing : LandingRecord) (nowMs : ℤ) : PostMergeWatch where
  landing := landing
  phase := .watching
  registeredAt := nowMs
  watchUntil := effectiveWatchUntil landing
  lastCheckedAt := none
  ci := none
  suite := ⟨.pending, 0, 0, none, false⟩
  result := none
  outcome := none
  revert := none
  repairTaskId := none
  pendingLedger := []

def registerInto (store : WatchStore) (landing : LandingRecord) (nowMs : ℤ) :
    Option (WatchStore × Bool) :=
  if store.watches.any fun watch => watch.landing.id = landing.id then some (store, false)
  else if store.watches.length < maxWatches then
    some ({ store with watches := store.watches ++ [newWatch landing nowMs] }, true)
  else if store.watches.any fun watch => watch.phase = .done then
    some ({ store with
      watches := store.watches.eraseP (fun watch => watch.phase = .done) ++
        [newWatch landing nowMs] }, true)
  else none

def buildResult (watch : PostMergeWatch) (nowMs : ℤ) (ci : ResultCi) (verdict : Verdict) :
    PostMergeResult where
  landingId := watch.landing.id
  repo := watch.landing.repo
  mergeSha := watch.landing.mergeSha
  ci := ci
  suite := match watch.suite.state with
    | .pass => .pass
    | .fail => .fail
    | _ => .notRun
  verdict := verdict
  checkedAt := nowMs

def ciForResult : Option CiObservation → ResultCi
  | none => .unknown
  | some ci =>
      match ci.state with
      | .green => .green
      | .red => .red
      | .none => .none
      | _ => .unknown

def revertLandingRefused (revert of' : LandingRecord) : Bool :=
  (landingRefusal revert).isSome || revert.kind ≠ .revert ||
    toLowerCase revert.repo ≠ toLowerCase of'.repo || revert.revertsLandingId ≠ some of'.id

end AshlrHub.PostMerge

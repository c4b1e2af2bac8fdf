import AshlrHub.Authority.CanonicalJson
import AshlrHub.Authority.Patterns
import AshlrHub.Js.Object
import AshlrHub.Js.Map

namespace AshlrHub.Authority

open Js

/-! The records of the authority ledger. -/

inductive FleetActor where
  | mason
  | daemon
  | leader
  | postMergeWatch
  | backpressure
deriving DecidableEq

def FleetActor.text : FleetActor → JsString
  | .mason => js "mason"
  | .daemon => js "daemon"
  | .leader => js "leader"
  | .postMergeWatch => js "post-merge-watch"
  | .backpressure => js "backpressure"

instance : JsEnum FleetActor where
  text := FleetActor.text
  all := [.mason, .daemon, .leader, .postMergeWatch, .backpressure]
  complete := by intro a; cases a <;> simp
  distinct := by decide +kernel

/-- `LEDGER_EVENT_KINDS` -/
inductive LedgerEventKind where
  | ledgerGenesis
  | ledgerRecovered
  | grantAccepted
  | grantRejected
  | grantPaused
  | grantRevoked
  | grantExpired
  | switchChanged
  | killOn
  | killOff
  | rolloutAdvanced
  | rolloutRegressed
  | gateResult
  | gateWouldMerge
  | prOpened
  | prClosed
  | prReopened
  | mergeLanded
  | postMergeResult
  | revertLanded
  | revertFailed
  | holdSet
  | holdCleared
  | sandboxViolation
  | reserveBreach
  | sandboxEvidenceUnknown
  | leaderMemo
  | leaderAction
  | leaderVetoed
  | leaderOutcome
  | harnessExperiment
  | harnessAdopted
  | harnessRolledBack
  | harnessRejected
  | note
deriving DecidableEq

def LedgerEventKind.text : LedgerEventKind → JsString
  | .ledgerGenesis => js "ledger:genesis"
  | .ledgerRecovered => js "ledger:recovered"
  | .grantAccepted => js "grant:accepted"
  | .grantRejected => js "grant:rejected"
  | .grantPaused => js "grant:paused"
  | .grantRevoked => js "grant:revoked"
  | .grantExpired => js "grant:expired"
  | .switchChanged => js "switch:changed"
  | .killOn => js "kill:on"
  | .killOff => js "kill:off"
  | .rolloutAdvanced => js "rollout:advanced"
  | .rolloutRegressed => js "rollout:regressed"
  | .gateResult => js "gate:result"
  | .gateWouldMerge => js "gate:would-merge"
  | .prOpened => js "pr:opened"
  | .prClosed => js "pr:closed"
  | .prReopened => js "pr:reopened"
  | .mergeLanded => js "merge:landed"
  | .postMergeResult => js "post-merge:result"
  | .revertLanded => js "revert:landed"
  | .revertFailed => js "revert:failed"
  | .holdSet => js "hold:set"
  | .holdCleared => js "hold:cleared"
  | .sandboxViolation => js "sandbox:violation"
  | .reserveBreach => js "reserve:breach"
  | .sandboxEvidenceUnknown => js "sandbox:evidence-unknown"
  | .leaderMemo => js "leader:memo"
  | .leaderAction => js "leader:action"
  | .leaderVetoed => js "leader:vetoed"
  | .leaderOutcome => js "leader:outcome"
  | .harnessExperiment => js "harness:experiment"
  | .harnessAdopted => js "harness:adopted"
  | .harnessRolledBack => js "harness:rolled-back"
  | .harnessRejected => js "harness:rejected"
  | .note => js "note"

instance : JsEnum LedgerEventKind where
  text := LedgerEventKind.text
  all :=
    [.ledgerGenesis, .ledgerRecovered, .grantAccepted, .grantRejected, .grantPaused,
      .grantRevoked, .grantExpired, .switchChanged, .killOn, .killOff, .rolloutAdvanced,
      .rolloutRegressed, .gateResult, .gateWouldMerge, .prOpened, .prClosed, .prReopened,
      .mergeLanded, .postMergeResult, .revertLanded, .revertFailed, .holdSet,
      .holdCleared, .sandboxViolation, .reserveBreach, .sandboxEvidenceUnknown,
      .leaderMemo, .leaderAction, .leaderVetoed, .leaderOutcome, .harnessExperiment,
      .harnessAdopted, .harnessRolledBack, .harnessRejected, .note]
  complete := by intro a; cases a <;> simp
  distinct := by decide +kernel

/-- A hash function with hexadecimal digests, as `createHash('sha256')` is. -/
structure HashFunction where
  digest : Bytes → JsString
  hex : ∀ bytes, sha256HexPattern (digest bytes) = true

def sha256 : HashFunction where
  digest := Sha256.digest
  hex bytes := by
    have digits : ∀ n < 16, isLowerHex (Sha256.hexDigit n) = true := by decide
    rw [sha256HexPattern, isHexOfLength, Sha256.length_digest]
    simp only [decide_true, Bool.true_and, List.all_eq_true]
    intro unit member
    obtain ⟨n, small, rfl⟩ := Sha256.mem_digest member
    exact digits n small

structure LedgerHead where
  seq : ℕ
  hash : JsString
  at' : JsString

/-- One row of the ledger, without its version `v: 1`. -/
structure LedgerEntry where
  seq : ℕ
  at' : JsString
  actor : FleetActor
  grantId : Option JsString
  repo : Option JsString
  prevHash : JsString
  kind : LedgerEventKind
  data : List (JsString × JsValue)
  hash : JsString

def ledgerHashDomain : JsString :=
  js "ashlr:authority-ledger:v1" ++ [0]

def ledgerGenesisPrevHash : JsString :=
  List.replicate 64 0x30

def ledgerMaxLineBytes : ℕ := 64 * 1024

def ledgerMaxBytes : ℕ := 1024 * 1024 * 1024

@[irreducible] def recentHashes : ℕ := 512

theorem recentHashes_eq : recentHashes = 512 := by
  rw [recentHashes]

def nullable : Option JsString → JsValue
  | none => .null
  | some text => .str text

namespace LedgerEntry

def head (entry : LedgerEntry) : LedgerHead :=
  ⟨entry.seq, entry.hash, entry.at'⟩

def baseMembers (entry : LedgerEntry) : List (JsString × JsValue) :=
  [(js "v", jsInt 1), (js "seq", jsInt entry.seq), (js "at", .str entry.at'),
    (js "actor", .str (JsEnum.text entry.actor)), (js "grantId", nullable entry.grantId),
    (js "repo", nullable entry.repo), (js "prevHash", .str entry.prevHash),
    (js "kind", .str (JsEnum.text entry.kind)), (js "data", .obj entry.data)]

def members (entry : LedgerEntry) : List (JsString × JsValue) :=
  entry.baseMembers ++ [(js "hash", .str entry.hash)]

end LedgerEntry

/-- `ENTRY_KEYS` -/
def entryKeys : List JsString :=
  [js "v", js "seq", js "at", js "actor", js "grantId", js "repo", js "prevHash", js "hash",
    js "kind", js "data"]

/-! The authority index: what authority decisions read, folded from verified rows. -/

structure LedgerAcceptedGrant where
  grantId : JsString
  grantSeq : ℕ
  /-- Ledger seq of the `grant:accepted` row. -/
  seq : ℕ
  at' : JsString
  stageIds : List JsString
  expiresAt : JsString
  authoritySurfaceDigest : JsString
  envelopeDigest : JsString

inductive RolloutMove where
  | advanced
  | regressed
deriving DecidableEq

structure LedgerRolloutPosition where
  grantId : JsString
  stageIndex : ℕ
  stageId : JsString
  enteredAt : JsString
  /-- Evidence counts rows after this one. -/
  entrySeq : ℕ
  move : RolloutMove
  fromStageId : Option JsString
  breach : Option JsString

inductive LedgerEvidenceKind where
  | mergeLanded
  | revertLanded
  | revertFailed
  | postMergeResult
  | gateWouldMerge
  | sandboxViolation
  | reserveBreach
  | sandboxEvidenceUnknown
deriving DecidableEq

inductive Verdict where
  | green
  | red
deriving DecidableEq

inductive QuotaWindow where
  | session
  | weekly
deriving DecidableEq

structure LedgerEvidenceRow where
  seq : ℕ
  at' : JsString
  kind : LedgerEvidenceKind
  repo : Option JsString
  landingId : Option JsString
  verdict : Option Verdict
  /-- The merge a revert undoes; the stage of that merge is charged. -/
  revertsLandingId : Option JsString
  seatId : Option JsString
  window : Option QuotaWindow

inductive AutonomySwitch where
  | off
  | propose
  | autonomous
deriving DecidableEq

def AutonomySwitch.text : AutonomySwitch → JsString
  | .off => js "off"
  | .propose => js "propose"
  | .autonomous => js "autonomous"

instance : JsEnum AutonomySwitch where
  text := AutonomySwitch.text
  all := [.off, .propose, .autonomous]
  complete := by intro a; cases a <;> simp
  distinct := by decide +kernel

structure RecoveredRow where
  seq : ℕ
  at' : JsString
  grantSeqFloor : ℕ

structure LedgerAuthorityIndex where
  genesisHostBinding : Option JsString
  accepted : JsMap JsString LedgerAcceptedGrant
  lastAccepted : Option LedgerAcceptedGrant
  maxAcceptedGrantSeq : ℕ
  /-- A grant whose grantSeq is below this is dead. -/
  minGrantSeq : ℕ
  revokedGrantIds : List JsString
  rollout : JsMap JsString LedgerRolloutPosition
  pausedCodes : JsMap JsString (List JsString)
  expiredGrantIds : List JsString
  lastSwitch : Option (AutonomySwitch × JsString)
  /-- Oldest first. -/
  evidence : List LedgerEvidenceRow
  recovered : Option RecoveredRow

def emptyIndex : LedgerAuthorityIndex where
  genesisHostBinding := none
  accepted := []
  lastAccepted := none
  maxAcceptedGrantSeq := 0
  minGrantSeq := 0
  revokedGrantIds := []
  rollout := []
  pausedCodes := []
  expiredGrantIds := []
  lastSwitch := none
  evidence := []
  recovered := none

def int? (value : JsValue) : Option ℕ :=
  match value.asSafeInteger with
  | some n => if 0 ≤ n then some n.toNat else none
  | none => none

def nonEmpty (value : JsValue) : Option JsString :=
  match value.asString with
  | some [] => none
  | text => text

theorem int?_jsInt {n : ℕ} (bound : (n : ℤ) ≤ JsNumber.maxSafeInteger) :
    int? (jsInt n) = some n := by
  rw [int?, asSafeInteger_jsInt (by rwa [abs_of_nonneg (Int.natCast_nonneg n)])]
  simp

theorem nonEmpty_str {text : JsString} (full : text ≠ []) : nonEmpty (.str text) = some text := by
  cases text with
  | nil => exact absurd rfl full
  | cons => rfl

/-- What an append stores under a key reads back from the stored data. -/
theorem getMember_normalized {members data : List (JsString × JsValue)} {key : JsString}
    {value : JsValue} {member : JsString × JsValue} (distinct : distinctKeys (.obj members) = true)
    (normal : normalize (.obj members) = .obj data) (present : member ∈ members)
    (kept : keepMember member = some (key, value)) : getMember data key = value := by
  rw [distinctKeys, Bool.and_eq_true, decide_eq_true_eq] at distinct
  rw [normalize, JsValue.obj.injEq] at normal
  subst normal
  refine getMember_of_mem (nodup_sortByKey.mpr
    ((normalizeMembers_keys members).nodup distinct.1)) (mem_sortByKey.mpr ?_)
  rw [normalizeMembers_eq_filterMap]
  exact List.mem_filterMap.mpr ⟨member, present, kept⟩

def stringItems (value : JsValue) : List JsString :=
  match value with
  | .arr items => items.filterMap JsValue.asString
  | _ => []

def addToSet [DecidableEq α] (item : α) (set : List α) : List α :=
  if item ∈ set then set else set ++ [item]

theorem mem_addToSet [DecidableEq α] {item other : α} {set : List α} :
    other ∈ addToSet item set ↔ other = item ∨ other ∈ set := by
  unfold addToSet
  split_ifs with present
  · refine ⟨.inr, ?_⟩
    rintro (rfl | member)
    · exact present
    · exact member
  · rw [List.mem_append, List.mem_singleton, or_comm]

def evidenceKind (entry : LedgerEntry) : Option LedgerEvidenceKind :=
  match entry.kind with
  | .mergeLanded =>
      if (getMember entry.data (js "kind")).asString = some (js "revert") then some .revertLanded
      else some .mergeLanded
  | .revertLanded => some .revertLanded
  | .revertFailed => some .revertFailed
  | .postMergeResult => some .postMergeResult
  | .gateWouldMerge => some .gateWouldMerge
  | .sandboxViolation => some .sandboxViolation
  | .reserveBreach => some .reserveBreach
  | .sandboxEvidenceUnknown => some .sandboxEvidenceUnknown
  | _ => none

def evidenceRow (entry : LedgerEntry) (kind : LedgerEvidenceKind) : LedgerEvidenceRow where
  seq := entry.seq
  at' := entry.at'
  kind := kind
  repo := entry.repo
  landingId :=
    match kind with
    | .postMergeResult | .revertFailed => (getMember entry.data (js "landingId")).asString
    | .mergeLanded | .revertLanded => (getMember entry.data (js "id")).asString
    | _ => none
  verdict :=
    if kind = .postMergeResult then
      if (getMember entry.data (js "verdict")).asString = some (js "green") then some .green
      else if (getMember entry.data (js "verdict")).asString = some (js "red") then some .red
      else none
    else none
  revertsLandingId :=
    if kind = .revertLanded then (getMember entry.data (js "revertsLandingId")).asString else none
  seatId :=
    if kind = .reserveBreach then (getMember entry.data (js "seatId")).asString else none
  window :=
    if kind = .reserveBreach then
      if (getMember entry.data (js "window")).asString = some (js "session") then some .session
      else if (getMember entry.data (js "window")).asString = some (js "weekly") then some .weekly
      else none
    else none

def acceptedGrant (entry : LedgerEntry) (grantId : JsString) (grantSeq : ℕ) :
    LedgerAcceptedGrant where
  grantId := grantId
  grantSeq := grantSeq
  seq := entry.seq
  at' := entry.at'
  stageIds := stringItems (getMember entry.data (js "stageIds"))
  expiresAt := (getMember entry.data (js "expiresAt")).asString.getD []
  authoritySurfaceDigest := (getMember entry.data (js "authoritySurfaceDigest")).asString.getD []
  envelopeDigest := (getMember entry.data (js "envelopeDigest")).asString.getD []

def indexRollout (index : LedgerAuthorityIndex) (entry : LedgerEntry) (move : RolloutMove) :
    LedgerAuthorityIndex :=
  match nonEmpty (getMember entry.data (js "grantId")),
      int? (getMember entry.data (js "toStageIndex")),
      nonEmpty (getMember entry.data (js "toStageId")) with
  | some grantId, some stageIndex, some stageId =>
      { index with
        rollout := index.rollout.set grantId
          { grantId := grantId
            stageIndex := stageIndex
            stageId := stageId
            enteredAt := entry.at'
            entrySeq := entry.seq
            move := move
            fromStageId := (getMember entry.data (js "fromStageId")).asString
            breach :=
              if move = .regressed then (getMember entry.data (js "breach")).asString
              else none } }
  | _, _, _ => index

def indexEntry (index : LedgerAuthorityIndex) (entry : LedgerEntry) : LedgerAuthorityIndex :=
  match entry.kind with
  | .ledgerGenesis =>
      { index with genesisHostBinding := (getMember entry.data (js "hostBinding")).asString }
  | .ledgerRecovered =>
      let floor := (int? (getMember entry.data (js "grantSeqFloor"))).getD 0
      { index with
        recovered := some ⟨entry.seq, entry.at', floor⟩
        minGrantSeq := max index.minGrantSeq (floor + 1) }
  | .grantAccepted =>
      match nonEmpty (getMember entry.data (js "grantId")),
          int? (getMember entry.data (js "grantSeq")) with
      | some grantId, some grantSeq =>
          let accepted := acceptedGrant entry grantId grantSeq
          { index with
            accepted := index.accepted.set grantId accepted
            lastAccepted := some accepted
            maxAcceptedGrantSeq := max index.maxAcceptedGrantSeq grantSeq
            -- a re-acceptance restarts the ladder at the first stage
            rollout := index.rollout.delete grantId
            pausedCodes := index.pausedCodes.delete grantId
            expiredGrantIds := index.expiredGrantIds.filter (· ≠ grantId) }
      | _, _ => index
  | .grantRevoked =>
      let revoked :=
        match nonEmpty (getMember entry.data (js "grantId")) with
        | some grantId => addToSet grantId index.revokedGrantIds
        | none => index.revokedGrantIds
      let floor := (int? (getMember entry.data (js "minGrantSeq"))).getD 0
      { index with revokedGrantIds := revoked, minGrantSeq := max index.minGrantSeq floor }
  | .grantPaused =>
      match nonEmpty (getMember entry.data (js "grantId")),
          nonEmpty (getMember entry.data (js "code")) with
      | some grantId, some code =>
          let codes := (index.pausedCodes.get? grantId).getD []
          { index with pausedCodes := index.pausedCodes.set grantId (addToSet code codes) }
      | _, _ => index
  | .grantExpired =>
      match nonEmpty (getMember entry.data (js "grantId")) with
      | some grantId => { index with expiredGrantIds := addToSet grantId index.expiredGrantIds }
      | none => index
  | .switchChanged =>
      match JsEnum.ofValue (getMember entry.data (js "to")) with
      | some target => { index with lastSwitch := some (target, entry.at') }
      | none => index
  | .rolloutAdvanced => indexRollout index entry .advanced
  | .rolloutRegressed => indexRollout index entry .regressed
  | _ =>
      match evidenceKind entry with
      | some kind => { index with evidence := index.evidence ++ [evidenceRow entry kind] }
      | none => index

end AshlrHub.Authority

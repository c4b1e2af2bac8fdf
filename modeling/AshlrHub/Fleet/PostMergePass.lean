import AshlrHub.Fleet.PostMergeWatch
import AshlrHub.Lib.Dialogue

namespace AshlrHub.PostMerge

open Js Lib

/-! `advancePostMergeWatches`, as a dialogue with everything outside the process. -/

inductive FleetRevertFailureCode where
  | conflict
  | gateRefused
  | checksRed
  | github
  | killed
  | unavailable
  | notFleet
  | invalidResponse
  | pending

inductive FleetRevertOutcome where
  | landed (landing : LandingRecord)
  | failed (code : FleetRevertFailureCode) (retryable : Bool)

inductive Side where
  | merged
  | parent
deriving DecidableEq

inductive HoldKind where
  | quarantine
  | ownerHold

structure SoftKillAnswer where
  ok : Bool
  changed : Bool

/-- A `merge:landed` or `revert:landed` row. -/
structure LandedRow where
  seq : ℕ
  /-- None where the data is no landing record. -/
  landing : Option LandingRecord
deriving DecidableEq

inductive LedgerRead where
  | threw
  | broken
  | rows (rows : List LandedRow)

/-- What is remarked on in the course of the passes. -/
inductive Event where
  | registered (landing : LandingRecord)
  /-- A reading, with the suite's state that the store then has of the landing. -/
  | ci (landing : LandingRecord) (side : Side) (observed : CiObservation) (atTime : ℤ)
    (stored : Option SuiteState)
  | suite (landing : LandingRecord) (side : Side) (result : SuiteResult)
  | commit (landing : LandingRecord) (read : Option CommitInfo)
  | green (landing : LandingRecord)
  | fleetRed (landing : LandingRecord) (atTime : ℤ)
  | revertRequested (landing : LandingRecord)
  | reverted (landing : LandingRecord) (atTime : ℤ)
  | softKill
  /-- All that the ledger was read to hold is stored. -/
  | discovered
  | passEnded
deriving DecidableEq

inductive Request where
  | now
  | killActive
  | aborted
  | ciStatus (landing : LandingRecord) (side : Side) (sha : JsString)
  | runSuiteAt (landing : LandingRecord) (side : Side) (sha : JsString)
  | readCommit (landing : LandingRecord)
  | landRevert (landing : LandingRecord)
  | enqueueRepairTask (landing : LandingRecord)
  | setHold (repo : JsString) (kind : HoldKind)
  | softKill (reason : KillReason)
  | revokeArmedMerges
  | recordHalt (reason : KillReason)
  | appendLedger (row : PendingLedgerRow) (repo : JsString)
  | readLedger (sinceSeq : Option ℕ)
  | storeExists
  | acquirePassLock
  | readStore
  /-- Read, change and write under the store's lock; the change may throw. -/
  | mutateStore (change : WatchStore → Option (WatchStore × ℕ))
  /-- Nothing in the source: the point in the course that the event marks. -/
  | note (event : Event)

@[reducible] def Answer : Request → Type
  | .now => ℤ
  | .killActive => Bool
  | .aborted => Bool
  | .ciStatus _ _ _ => CiObservation
  | .runSuiteAt _ _ _ => SuiteResult
  | .readCommit _ => Option CommitInfo
  | .landRevert _ => FleetRevertOutcome
  | .enqueueRepairTask _ => Option JsString
  | .setHold _ _ => Bool
  | .softKill _ => SoftKillAnswer
  | .revokeArmedMerges => Unit
  | .recordHalt _ => Unit
  | .appendLedger _ _ => Bool
  | .readLedger _ => LedgerRead
  | .storeExists => Bool
  | .acquirePassLock => Bool
  | .readStore => Option WatchStore
  | .mutateStore _ => Option ℕ
  | .note _ => Unit

abbrev Watching := Dialogue Request Answer

def ask (asked : Request) : Watching (Answer asked) := Dialogue.request asked

structure Pass where
  budget : ℕ
  finalized : List PostMergeResult
  reverted : List JsString
  softKilled : Bool
  suiteRuns : ℕ

def Pass.spend (pass : Pass) : Pass :=
  { pass with budget := pass.budget - 1, suiteRuns := pass.suiteRuns + 1 }

def Pass.finalize (pass : Pass) (result : PostMergeResult) : Pass :=
  { pass with finalized := pass.finalized ++ [result] }

/-! The store. -/

def WatchStore.find (store : WatchStore) (landingId : JsString) : Option PostMergeWatch :=
  store.watches.find? fun watch => watch.landing.id = landingId

def WatchStore.put (store : WatchStore) (watch : PostMergeWatch) : WatchStore :=
  if store.watches.any fun other => other.landing.id = watch.landing.id then
    { store with
      watches := store.watches.map fun other =>
        if other.landing.id = watch.landing.id then watch else other }
  else { store with watches := store.watches ++ [watch] }

section

variable (watch : PostMergeWatch)

/-- `saveWatch`: false where it throws. -/
def saveWatch (change : EscalationHistory → EscalationHistory) : Watching Bool := do
  let saved ← ask (.mutateStore fun store =>
    some ({ store.put watch with history := change store.history }, 0))
  pure saved.isSome

/-! The ledger. -/

def ledgerOrQueue (row : PendingLedgerRow) : Watching PostMergeWatch := do
  let queued := { watch with pendingLedger := watch.pendingLedger ++ [row] }
  if watch.pendingLedger = [] then
    let appended ← ask (.appendLedger row watch.landing.repo)
    pure (if appended then watch else queued)
  else pure queued

def flushRows (repo : JsString) : List PendingLedgerRow → Watching (List PendingLedgerRow)
  | [] => pure []
  | row :: rows => do
      let appended ← ask (.appendLedger row repo)
      if appended then flushRows repo rows else pure (row :: rows)

def flushWatches : List PostMergeWatch → Watching (List PostMergeWatch)
  | [] => pure []
  | watch :: watches => do
      let rows ← flushRows watch.landing.repo watch.pendingLedger
      let rest ← flushWatches watches
      pure ({ watch with pendingLedger := rows } :: rest)

def WatchStore.requeue (store : WatchStore) (flushed : List PostMergeWatch) : WatchStore :=
  { store with
    watches := store.watches.map fun watch =>
      match flushed.find? fun other => other.landing.id = watch.landing.id with
      | none => watch
      | some other => { watch with pendingLedger := other.pendingLedger } }

def flushPendingLedger : Watching Unit := do
  match ← ask .readStore with
  | none => pure ()
  | some store => do
      let flushed ← flushWatches store.watches
      let _ ← ask (.mutateStore fun store => some (store.requeue flushed, 0))
      pure ()

/-! Holds and the soft kill. -/

def ownerHold (watch : PostMergeWatch) : Watching Unit := do
  let _ ← ask (.setHold watch.landing.repo .ownerHold)
  pure ()

def quarantine (watch : PostMergeWatch) (history : EscalationHistory) (nowMs : ℤ) :
    Watching Unit := do
  let _ ← ask (.setHold watch.landing.repo .quarantine)
  if (priorQuarantineWithin history watch.landing.repo nowMs (some watch.landing.id)).isSome then
    ownerHold watch
  else pure ()

def softKill (watch : PostMergeWatch) (nowMs : ℤ) (reason : KillReason) (pass : Pass) :
    Watching (Kill × PostMergeWatch × Pass) := do
  let armed ← ask (.softKill reason)
  let pass := { pass with softKilled := pass.softKilled || armed.ok }
  ask .revokeArmedMerges
  let watch ← if armed.changed then ledgerOrQueue watch (.killOn reason) else pure watch
  ask (.recordHalt reason)
  pure (⟨nowMs, reason⟩, watch, pass)

def pushKills (kills : List Kill) (history : EscalationHistory) : EscalationHistory :=
  { history with kills := history.kills ++ kills }

/-! Reverting. -/

def failRevert (nowMs : ℤ) (pass : Pass) : Watching Pass := do
  let watch := { watch with outcome := some .revertFailed, phase := .done }
  let watch ← ledgerOrQueue watch (.revertFailed watch.landing.id watch.landing.repo)
  ownerHold watch
  let (kill, watch, pass) ← softKill watch nowMs .revertFailed pass
  let _ ← saveWatch watch (pushKills [kill])
  pure pass

def refuseRevert (nowMs : ℤ) (refusal : RevertRefusal)
    (change : EscalationHistory → EscalationHistory) (pass : Pass) : Watching Pass := do
  let watch := { watch with outcome := some .revertRefused, phase := .done }
  let watch ← ledgerOrQueue watch (.revertFailed watch.landing.id watch.landing.repo)
  ownerHold watch
  let (kill, watch, pass) ← softKill watch nowMs (.unproven refusal) pass
  let _ ← saveWatch watch fun history => pushKills [kill] (change history)
  pure pass

def fileRepair : Watching PostMergeWatch := do
  match ← ask (.enqueueRepairTask watch.landing) with
  | some task => pure { watch with repairTaskId := some task }
  | none => pure watch

def countRevert (kills : List Kill) (revertLanding : LandingRecord)
    (nowMs : ℤ) (pass : Pass) : Watching Pass := do
  let row : HistoryRow := ⟨watch.landing.repo, nowMs, some watch.landing.id⟩
  let saved ← saveWatch watch fun history =>
    pushKills kills { history with reverts := pushOnce history.reverts row }
  if saved then
    let _ ← ask (.mutateStore fun store =>
      (registerInto store revertLanding nowMs).map fun registered => (registered.1, 0))
    pure pass
  else pure pass

def recordRevert (state : RevertState) (revertLanding : LandingRecord)
    (nowMs : ℤ) (pass : Pass) : Watching Pass := do
  let landing := watch.landing
  ask (.note (.reverted landing nowMs))
  let watch := { watch with
    revert := some { state with revertLandingId := some revertLanding.id }
    outcome := some .reverted
    phase := .done }
  let watch ← ledgerOrQueue watch (.revertLanded revertLanding)
  let pass := { pass with reverted := pass.reverted ++ [landing.id] }
  let watch ← fileRepair watch
  match ← ask .readStore with
  | none => pure pass
  | some store =>
      let row : HistoryRow := ⟨landing.repo, nowMs, some landing.id⟩
      let history := if (store.find landing.id).isSome then store.history else emptyHistory
      let others := history.reverts.filter fun other => other.landingId ≠ some landing.id
      let reverts := revertsWithin { history with reverts := others ++ [row] } nowMs
      if revertsKillCount ≤ reverts then do
        let (kill, watch, pass) ← softKill watch nowMs (.reverts reverts) pass
        countRevert watch [kill] revertLanding nowMs pass
      else countRevert watch [] revertLanding nowMs pass

def FleetRevertOutcome.vetted (outcome : FleetRevertOutcome) (of' : LandingRecord) :
    FleetRevertOutcome :=
  match outcome with
  | .landed landing =>
      if revertLandingRefused landing of' then .failed .invalidResponse false else .landed landing
  | .failed code retryable => .failed code retryable

def takeOutcome (state : RevertState) (nowMs : ℤ) (pass : Pass) : FleetRevertOutcome → Watching Pass
  | .landed landing => recordRevert watch state landing nowMs pass
  | .failed .killed _ => do
      let _ ← saveWatch { watch with revert := some state } id
      pure pass
  | .failed .pending _ => do
      let started := state.startedAt.getD nowMs
      let watch := { watch with revert := some { state with startedAt := some started } }
      if nowMs - started < revertPendingDeadlineMs then
        let _ ← saveWatch watch id
        pure pass
      else failRevert watch nowMs pass
  | .failed _ retryable => do
      let state := { state with attempts := state.attempts + 1 }
      let watch := { watch with revert := some state }
      if retryable ∧ state.attempts < maxRevertAttempts then
        let _ ← saveWatch watch id
        pure pass
      else failRevert watch nowMs pass

def landRevert (watch : PostMergeWatch) (state : RevertState) (nowMs : ℤ) (pass : Pass) :
    Watching Pass := do
  let answered : FleetRevertOutcome ← ask (.landRevert watch.landing)
  takeOutcome watch state nowMs pass (answered.vetted watch.landing)

def attemptRevert (pass : Pass) : Watching Pass := do
  let nowMs ← ask .now
  let state := watch.revert.getD ⟨0, none, false, some nowMs⟩
  if state.authorshipProven then landRevert { watch with revert := some state } state nowMs pass
  else
    match ← ask (.readCommit watch.landing) with
    | none => do
        let state := { state with attempts := state.attempts + 1 }
        let watch := { watch with revert := some state }
        if state.attempts < maxRevertAttempts then
          let _ ← saveWatch watch id
          pure pass
        else failRevert watch nowMs pass
    | some commit =>
        match fleetRevertRefusal commit watch.landing with
        | some refusal => refuseRevert { watch with revert := some state } nowMs refusal id pass
        | none => do
            let state := { state with authorshipProven := true }
            landRevert { watch with revert := some state } state nowMs pass

/-! Verdicts. -/

def finalizeGreen (nowMs : ℤ) (ci : ResultCi) (pass : Pass) : Watching Pass := do
  ask (.note (.green watch.landing))
  let result := buildResult watch nowMs ci .green
  let watch := { watch with result := some result, outcome := some .green, phase := .done }
  let watch ← ledgerOrQueue watch (.postMergeResult result)
  let saved ← saveWatch watch id
  pure (if saved then pass.finalize result else pass)

variable (history : EscalationHistory)

def finalizeRed (nowMs : ℤ) (outcome : WatchOutcome) (pass : Pass) : Watching Pass := do
  let result := buildResult watch nowMs (ciForResult watch.ci) .red
  let watch := { watch with result := some result, outcome := some outcome, phase := .done }
  let watch ← ledgerOrQueue watch (.postMergeResult result)
  quarantine watch history nowMs
  let row : HistoryRow := ⟨watch.landing.repo, nowMs, some watch.landing.id⟩
  let saved ← saveWatch watch fun history =>
    { history with quarantines := pushOnce history.quarantines row }
  pure (if saved then pass.finalize result else pass)

def finalizeRevertRed (nowMs : ℤ) (pass : Pass) : Watching Pass := do
  let result := buildResult watch nowMs (ciForResult watch.ci) .red
  let watch := { watch with result := some result, outcome := some .revertRed, phase := .done }
  let watch ← ledgerOrQueue watch (.postMergeResult result)
  ownerHold watch
  let (kill, watch, pass) ← softKill watch nowMs .revertRed pass
  let saved ← saveWatch watch (pushKills [kill])
  pure (if saved then pass.finalize result else pass)

def culpritChecks (parent : Option JsString) : Watching (List JsString) :=
  match watch.ci with
  | none => pure []
  | some ci =>
      if ci.state = .red then
        match parent with
        | none => pure ci.failing
        | some sha => do
            let parentCi ← ask (.ciStatus watch.landing .parent sha)
            pure (if parentCi.state = .red then
              ci.failing.filter fun name => name ∉ parentCi.failing else ci.failing)
      else pure []

def parentSuite (parent : Option JsString) (pass : Pass) : Watching (PostMergeWatch × Pass) :=
  match watch.suite.state, watch.suite.parent, parent with
  | .fail, none, some sha => do
      let killed ← ask .killActive
      if killed = false ∧ 0 < pass.budget then
        let aborted ← ask .aborted
        if aborted then pure (watch, pass)
        else
          let run ← ask (.runSuiteAt watch.landing .parent sha)
          pure ({ watch with suite := { watch.suite with parent := some run } }, pass.spend)
      else pure (watch, pass)
  | _, _, _ => pure (watch, pass)

def beginRevert (kills : List Kill) (commit : Option CommitInfo)
    (nowMs : ℤ) (pass : Pass) : Watching Pass :=
  let row : HistoryRow := ⟨watch.landing.repo, nowMs, some watch.landing.id⟩
  let pushed := fun history : EscalationHistory => pushKills kills { history with
    reds := pushOnce history.reds row
    quarantines := pushOnce history.quarantines row }
  match commit with
  | none => do
      let _ ← saveWatch { watch with
        phase := .reverting, revert := some ⟨0, none, false, some nowMs⟩ } pushed
      pure pass
  | some commit =>
      match fleetRevertRefusal commit watch.landing with
      | some refusal => refuseRevert watch nowMs refusal pushed pass
      | none => do
          let watch := { watch with
            phase := .reverting, revert := some ⟨0, none, true, some nowMs⟩ }
          let saved ← saveWatch watch pushed
          if saved then attemptRevert watch pass else pure pass

def revertCulprit (commit : Option CommitInfo) (nowMs : ℤ) (pass : Pass) : Watching Pass := do
  let result := buildResult watch nowMs (ciForResult watch.ci) .red
  let watch := { watch with result := some result }
  let watch ← ledgerOrQueue watch (.postMergeResult result)
  let pass := pass.finalize result
  quarantine watch history nowMs
  let row : HistoryRow := ⟨watch.landing.repo, nowMs, some watch.landing.id⟩
  let redRepos := redReposWithin { history with reds := history.reds ++ [row] } nowMs
  ask (.note (.fleetRed watch.landing nowMs))
  if redReposKillCount ≤ redRepos.length then do
    let (kill, watch, pass) ← softKill watch nowMs (.reposRed redRepos) pass
    beginRevert watch [kill] commit nowMs pass
  else beginRevert watch [] commit nowMs pass

def attributeRed (commit : Option CommitInfo) (nowMs : ℤ) (pass : Pass) : Watching Pass := do
  -- An empty text is no parent.
  let parent := (commit.bind fun commit => commit.parents.head?).filter (· ≠ [])
  let culprits ← culpritChecks watch parent
  let (watch, pass) ← parentSuite watch parent pass
  let suiteCulprit := watch.suite.state = .fail ∧ watch.suite.parent ≠ some .fail
  if culprits ≠ [] ∨ suiteCulprit then revertCulprit watch history commit nowMs pass
  else finalizeRed watch history nowMs .inheritedRed pass

def onRed (pass : Pass) : Watching Pass := do
  let nowMs ← ask .now
  if watch.landing.kind = .revert then finalizeRevertRed watch nowMs pass
  else
    let commit ← ask (.readCommit watch.landing)
    attributeRed watch history commit nowMs pass

/-! The suite. -/

def SuiteState.wanted (suite : SuiteState) : Bool :=
  (suite.state = .pending || suite.state = .notRun) && suite.infraAttempts < maxSuiteInfraAttempts

def SuiteState.settle (suite : SuiteState) (run : SuiteResult) : SuiteState :=
  { suite with
    unconfirmedFail := false
    state := run.phase
    infraAttempts := if run = .notRun then suite.infraAttempts + 1 else suite.infraAttempts }

def PostMergeWatch.withSuite (suite : SuiteState) : PostMergeWatch :=
  { watch with suite := suite }

def waitFor (pass : Pass) : Watching (Option PostMergeWatch × Pass) := do
  let _ ← saveWatch watch id
  pure (none, pass)

def runSuite (pass : Pass) : Watching (Option PostMergeWatch × Pass) := do
  let pass := pass.spend
  let run : SuiteResult ← ask (.runSuiteAt watch.landing .merged watch.landing.mergeSha)
  let suite : SuiteState := { watch.suite with runs := watch.suite.runs + 1 }
  if run = .fail ∧ suite.unconfirmedFail = false then
    if pass.budget = 0 then
      waitFor (watch.withSuite { suite with unconfirmedFail := true }) pass
    else
      let pass := pass.spend
      let again : SuiteResult ← ask (.runSuiteAt watch.landing .merged watch.landing.mergeSha)
      let suite : SuiteState := { suite with runs := suite.runs + 1 }
      match again with
      | .pass => pure (some (watch.withSuite (suite.settle .pass)), pass)
      | .notRun => waitFor (watch.withSuite { suite with unconfirmedFail := true }) pass
      | .fail => pure (some (watch.withSuite (suite.settle .fail)), pass)
  else if run = .notRun ∧ suite.unconfirmedFail then
    waitFor (watch.withSuite { suite with infraAttempts := suite.infraAttempts + 1 }) pass
  else pure (some (watch.withSuite (suite.settle run)), pass)

def runWantedSuite (killed : Bool) (pass : Pass) : Watching (Option PostMergeWatch × Pass) :=
  if watch.suite.wanted ∧ killed = false ∧ 0 < pass.budget then do
    let aborted ← ask .aborted
    if aborted then pure (some watch, pass) else runSuite watch pass
  else pure (some watch, pass)

/-! One watch. -/

def conclude (ci : CiObservation) (nowMs : ℤ) (pass : Pass) : Watching Pass :=
  let graceOver := ciNoneGraceMs ≤ nowMs - watch.landing.landedAt
  let ciSettled := ci.state = .green ∨ (ci.state = .none ∧ graceOver)
  let suiteGaveUp :=
    watch.suite.state = .notRun ∧ maxSuiteInfraAttempts ≤ watch.suite.infraAttempts
  if ci.state = .red ∨ watch.suite.state = .fail then onRed watch history pass
  else if watch.suite.state = .pass ∧ ciSettled then
    finalizeGreen watch nowMs (if ci.state = .none then .none else .green) pass
  else if ci.state = .green ∧ suiteGaveUp then finalizeGreen watch nowMs .green pass
  else if watch.watchUntil ≤ nowMs then
    if watch.suite.state = .pass then
      finalizeGreen watch nowMs (if ci.state = .none then .none else .unknown) pass
    else if ci.state = .green then finalizeGreen watch nowMs .green pass
    else finalizeRed watch history nowMs .unproven pass
  else do
    let _ ← saveWatch watch id
    pure pass

def progressWatch (pass : Pass) : Watching Pass := do
  let nowMs ← ask .now
  let killed ← ask .killActive
  let ci ← ask (.ciStatus watch.landing .merged watch.landing.mergeSha)
  let watch := { watch with ci := some ci, lastCheckedAt := some nowMs }
  match ← runWantedSuite watch killed pass with
  | (none, pass) => pure pass
  | (some watch, pass) => conclude watch history ci nowMs pass

end

def stepWatch (landingId : JsString) (pass : Pass) : Watching Pass := do
  match ← ask .readStore with
  | none => pure pass
  | some store =>
      match store.find landingId with
      | none => pure pass
      | some watch =>
          match watch.phase with
          | .done => pure pass
          | .reverting => attemptRevert watch pass
          | .watching => progressWatch watch store.history pass

def stepWatches : List JsString → Pass → Watching Pass
  | [], pass => pure pass
  | landingId :: rest, pass => do
      let aborted ← ask .aborted
      if aborted then pure pass
      else
        let pass ← stepWatch landingId pass
        stepWatches rest pass

/-! The pass. -/

def registerAll (store : WatchStore) (nowMs : ℤ) : List LandingRecord → ℕ →
    Option (WatchStore × ℕ)
  | [], added => some (store, added)
  | landing :: landings, added =>
      match registerInto store landing nowMs with
      | none => none
      | some (store, registered) =>
          registerAll store nowMs landings (if registered then added + 1 else added)

def landingsOf (rows : List LandedRow) : List LandingRecord :=
  (rows.filterMap LandedRow.landing).filter fun landing => (landingRefusal landing).isNone

def maxSeqOf (cursor : Option ℕ) (rows : List LandedRow) : Option ℕ :=
  rows.foldl (fun maxSeq row => some (maxSeq.elim row.seq fun seq => max seq row.seq)) cursor

def discovered (cursor : Option ℕ) (rows : List LandedRow) (nowMs : ℤ) (store : WatchStore) :
    Option (WatchStore × ℕ) :=
  (registerAll store nowMs (landingsOf rows) 0).map fun registered =>
    match maxSeqOf cursor rows with
    | none => registered
    | some seq => ({ registered.1 with ledgerCursor := some seq }, registered.2)

def discoverFromLedger (cursor : Option ℕ) : Watching ℕ := do
  match ← ask (.readLedger (cursor.map (· + 1))) with
  | .threw => pure 0
  | .broken => pure 0
  | .rows read => do
      let rows := read.filter fun row => cursor.all fun seq => seq < row.seq
      if landingsOf rows = [] ∧ maxSeqOf cursor rows = cursor then
        ask (.note .discovered)
        pure 0
      else
        let nowMs ← ask .now
        match ← ask (.mutateStore (discovered cursor rows nowMs)) with
        | none => pure 0
        | some added => do
            ask (.note .discovered)
            pure added

def stepsBefore (first second : PostMergeWatch) : Prop :=
  if first.phase = second.phase then first.landing.landedAt ≤ second.landing.landedAt
  else first.phase = .reverting

instance : DecidableRel stepsBefore := fun _ _ => by
  unfold stepsBefore
  infer_instance

def WatchStore.openWatches (store : WatchStore) : List PostMergeWatch :=
  (store.watches.filter fun watch => watch.phase ≠ .done).insertionSort stepsBefore

def housekeeping (nowMs : ℤ) (store : WatchStore) : WatchStore :=
  { store with
    history := pruneHistory store.history nowMs
    watches := store.watches.filter fun watch =>
      watch.phase ≠ .done || watch.pendingLedger ≠ [] ||
        nowMs - (watch.result.elim watch.registeredAt PostMergeResult.checkedAt) <
          doneWatchRetentionMs }

structure PassResult where
  ok : Bool
  opened : ℕ
  discovered : ℕ
  pass : Pass

def emptyPass (maxSuiteRuns : ℕ) : Pass := ⟨maxSuiteRuns, [], [], false, 0⟩

def advancePostMergeWatches (maxSuiteRuns : ℕ) : Watching PassResult := do
  let pass := emptyPass maxSuiteRuns
  match ← ask .readStore with
  | none => pure ⟨false, 0, 0, pass⟩
  | some initial => do
      let added ← discoverFromLedger initial.ledgerCursor
      let written ← ask .storeExists
      if written = false then pure ⟨true, 0, added, pass⟩
      else
        let acquired ← ask .acquirePassLock
        if acquired = false then pure ⟨true, 0, added, pass⟩
        else
          flushPendingLedger
          match ← ask .readStore with
          | none => pure ⟨false, 0, added, pass⟩
          | some store => do
              let pass ← stepWatches (store.openWatches.map fun watch => watch.landing.id) pass
              let nowMs ← ask .now
              let final ← ask (.mutateStore fun store =>
                let kept := housekeeping nowMs store
                some (kept, (kept.watches.filter fun watch => watch.phase ≠ .done).length))
              ask (.note .passEnded)
              pure ⟨final.isSome, final.getD 0, added, pass⟩

/-! Surroundings in which nothing is in the way, for runs that are played. -/

def calm (time : ℤ) (suite : SuiteResult) : (asked : Request) → Answer asked
  | .now => time
  | .killActive => false
  | .aborted => false
  | .ciStatus _ _ _ => ⟨.green, []⟩
  | .runSuiteAt _ _ _ => suite
  | .readCommit _ => none
  | .landRevert _ => .failed .github true
  | .enqueueRepairTask _ => none
  | .setHold _ _ => true
  | .softKill _ => ⟨true, true⟩
  | .revokeArmedMerges => ()
  | .recordHalt _ => ()
  | .appendLedger _ _ => true
  | .readLedger _ => .rows []
  | .storeExists => true
  | .acquirePassLock => true
  | .readStore => none
  | .mutateStore _ => none
  | .note _ => ()

def sampleLanding (id : JsString) : LandingRecord where
  id := id
  kind := .merge
  repo := js "owner/name"
  prNumber := 1
  headSha := List.replicate 40 0x61
  mergeSha := List.replicate 40 0x61
  revertsLandingId := none
  grantId := js "grant-1"
  landedAt := 0
  watchUntil := none

end AshlrHub.PostMerge

import AshlrHub.Fleet.PostMergeTurn

namespace AshlrHub.PostMerge

open Js Lib

/-! The turn of a landing that is to be reverted. -/

section

variable {events : List Event} {landing : LandingRecord} {history : EscalationHistory} {time : ℤ}

theorem HistoryTied.red (tied : HistoryTied time history events)
    (unred : ∀ named time, .fleetRed named time ∈ events → named.id ≠ landing.id) :
    HistoryTied time { history with
      reds := pushOnce history.reds ⟨landing.repo, time, some landing.id⟩ }
        (events ++ [.fleetRed landing time]) := by
  have grown : historyOf (events ++ [.fleetRed landing time]) = ⟨[], (historyOf events).reds ++
      [⟨landing.repo, time, some landing.id⟩], (historyOf events).reverts, []⟩ := by
    rw [historyOf_append]
    simp [historyOf, redRow, revertRow]
  refine ⟨?_, ?_⟩
  · rw [grown]
    refine tied.reds.push (le_refl time) fun other member same => ?_
    obtain ⟨event, happened, counted⟩ := List.mem_filterMap.mp member
    cases event with
    | fleetRed named before =>
        cases counted
        exact unred named before happened (Option.some.inj same)
    | _ => cases counted
  · rw [grown]
    exact tied.reverts

theorem HistoryTied.revert (tied : HistoryTied time history events)
    (unreverted : ∀ named time, .reverted named time ∈ events → named.id ≠ landing.id) :
    HistoryTied time { history with
      reverts := pushOnce history.reverts ⟨landing.repo, time, some landing.id⟩ }
        (events ++ [.reverted landing time]) := by
  have grown : historyOf (events ++ [.reverted landing time]) = ⟨[], (historyOf events).reds,
      (historyOf events).reverts ++ [⟨landing.repo, time, some landing.id⟩], []⟩ := by
    rw [historyOf_append]
    simp [historyOf, redRow, revertRow]
  refine ⟨?_, ?_⟩
  · rw [grown]
    exact tied.reds
  · rw [grown]
    refine tied.reverts.push (le_refl time) fun other member same => ?_
    obtain ⟨event, happened, counted⟩ := List.mem_filterMap.mp member
    cases event with
    | reverted named before =>
        cases counted
        exact unreverted named before happened (Option.some.inj same)
    | _ => cases counted

theorem withinWindow_append {rows more : List HistoryRow} {window : ℤ} :
    withinWindow (rows ++ more) time window =
      withinWindow rows time window ++ withinWindow more time window :=
  List.filter_append rows more

theorem killDue_fleetRed (tied : HistoryTied time history events) :
    KillDue events (.fleetRed landing time) ↔
      redReposKillCount ≤ (redReposWithin { history with
        reds := history.reds ++ [⟨landing.repo, time, some landing.id⟩] } time).length := by
  have same : redReposWithin (historyOf (events ++ [.fleetRed landing time])) time =
      redReposWithin { history with
        reds := history.reds ++ [⟨landing.repo, time, some landing.id⟩] } time := by
    rw [historyOf_append, redReposWithin, redReposWithin, withinWindow_append, withinWindow_append,
      tied.reds.within (by decide)]
    rfl
  rw [KillDue, same]

theorem killDue_reverted (tied : HistoryTied time history events)
    (unreverted : ∀ named time, .reverted named time ∈ events → named.id ≠ landing.id) :
    KillDue events (.reverted landing time) ↔
      revertsKillCount ≤ revertsWithin { history with
        reverts := (history.reverts.filter fun other => other.landingId ≠ some landing.id) ++
          [⟨landing.repo, time, some landing.id⟩] } time := by
  have others : (history.reverts.filter fun other => other.landingId ≠ some landing.id) =
      history.reverts := by
    refine List.filter_eq_self.mpr fun other member => ?_
    obtain ⟨event, happened, counted⟩ := List.mem_filterMap.mp (tied.reverts.known other member)
    cases event with
    | reverted named before =>
        cases counted
        exact decide_eq_true fun same => unreverted named before happened (Option.some.inj same)
    | _ => cases counted
  have same : revertsWithin (historyOf (events ++ [.reverted landing time])) time =
      revertsWithin { history with
        reverts := history.reverts ++ [⟨landing.repo, time, some landing.id⟩] } time := by
    rw [historyOf_append, revertsWithin, revertsWithin, withinWindow_append, withinWindow_append,
      tied.reverts.within (by decide)]
    rfl
  rw [KillDue, same, others]

theorem kind_of_allowed {commit : CommitInfo} (allowed : fleetRevertRefusal commit landing = none) :
    landing.kind = .merge := by
  unfold fleetRevertRefusal at allowed
  by_cases merge : landing.kind = .merge
  · exact merge
  · rw [if_pos merge] at allowed
    cases allowed

theorem Proven.kind (proven : Proven events landing) : landing.kind = .merge := by
  obtain ⟨_, _, allowed⟩ := proven
  exact kind_of_allowed allowed

end

section

variable {world : World} {watch : PostMergeWatch} {nowMs : ℤ} {pass : Pass}

theorem During.softKill {landing : LandingRecord} {history : EscalationHistory}
    (during : During landing history world) (careful : Careful (world.remark .softKill).events)
    (sound : Sound (world.remark .softKill).events) :
    During landing history (world.remark .softKill) :=
  during.remark nofun ⟨rfl, rfl⟩ careful sound

theorem not_killOwed_softKill : ¬ KillOwed (world.remark .softKill).events :=
  killOwed_snoc.not.mpr id

/-- A revert is given up: its row, the hold, the soft kill and the watch done. -/
theorem ends_givenUp {outcome : WatchOutcome} {reason : KillReason}
    {change : EscalationHistory → EscalationHistory}
    (during : During watch.landing (change world.store.history) world)
    (deadline : watch.watchUntil = effectiveWatchUntil watch.landing) :
    Ends (do
      let watch := { watch with outcome := some outcome, phase := .done }
      let watch ← ledgerOrQueue watch (.revertFailed watch.landing.id watch.landing.repo)
      ownerHold watch
      let (kill, watch, pass) ← softKill watch nowMs reason pass
      let _ ← saveWatch watch fun history => pushKills [kill] (change history)
      pure pass) world := by
  refine keeping_ledgerOrQueue during.sound fun rows => ?_
  refine keeping_ownerHold during.sound ?_
  refine keeping_softKill during.sound fun rows pass careful sound => ?_
  have killed := during.softKill careful sound
  refine keeping_saveWatch (killed.kills _) not_killOwed_softKill ?_ fun after tied _ => tied
  exact WatchTied.done killed.registered deadline rfl

theorem ends_failRevert (during : During watch.landing world.store.history world)
    (deadline : watch.watchUntil = effectiveWatchUntil watch.landing) :
    Ends (failRevert watch nowMs pass) world :=
  ends_givenUp during deadline

theorem ends_refuseRevert {refusal : RevertRefusal} {change : EscalationHistory → EscalationHistory}
    (during : During watch.landing (change world.store.history) world)
    (deadline : watch.watchUntil = effectiveWatchUntil watch.landing) :
    Ends (refuseRevert watch nowMs refusal change pass) world :=
  ends_givenUp during deadline

variable {revertLanding : LandingRecord}

theorem ends_register (tied : Tied world) :
    Ends (do
      let _ ← ask (.mutateStore fun store =>
        (registerInto store revertLanding nowMs).map fun registered => (registered.1, 0))
      pure pass) world := by
  refine keeping_ask fun answer after reacted careful => ?_
  cases into : registerInto world.store revertLanding nowMs with
  | none =>
      simp only [reacts, into, Option.map_none] at reacted
      obtain ⟨_, rfl⟩ := reacted
      exact ⟨tied.sound, tied⟩
  | some registered =>
      simp only [reacts, into, Option.map_some] at reacted
      obtain ⟨_, rfl⟩ := reacted
      have grown := tied.grow ((Grown.refl tied.distinct).registerInto into) careful
      exact ⟨grown.sound, grown⟩

theorem ends_countRevert {kills : List Kill}
    (during : During watch.landing { world.store.history with
      reverts := pushOnce world.store.history.reverts
        ⟨watch.landing.repo, nowMs, some watch.landing.id⟩ } world)
    (paid : ¬ KillOwed world.events) (tied : WatchTied world.events watch) :
    Ends (countRevert watch kills revertLanding nowMs pass) world := by
  unfold countRevert
  refine keeping_saveWatch (during.kills kills) paid tied fun after tied _ => ?_
  exact ends_register tied

variable {state : RevertState}

theorem ends_recordRevert
    (during : During watch.landing world.store.history world) (paid : ¬ KillOwed world.events)
    (now : world.clock = nowMs) (deadline : watch.watchUntil = effectiveWatchUntil watch.landing)
    (unreverted : ∀ named time, .reverted named time ∈ world.events → named.id ≠ watch.landing.id) :
    Ends (recordRevert watch state revertLanding nowMs pass) world := by
  obtain ⟨origin, found, _⟩ := during.stored
  subst now
  unfold recordRevert
  refine keeping_remark (fun _ _ reacted => reacted) fun _ careful => ?_
  have sound : Sound (world.remark (.reverted watch.landing world.clock)).events :=
    during.sound.snoc trivial (.inl paid)
  refine ⟨sound, keeping_ledgerOrQueue sound fun rows => ?_⟩
  refine keeping_fileRepair sound fun task => keeping_readStore sound ?_
  have counted : During watch.landing { world.store.history with
      reverts := pushOnce world.store.history.reverts
        ⟨watch.landing.repo, world.clock, some watch.landing.id⟩ }
      (world.remark (.reverted watch.landing world.clock)) :=
    during.counted (fun named about => (Option.some.inj about).symm)
      (during.history.revert unreverted) careful sound
  have due := killDue_reverted during.history unreverted
  have present : ((world.remark (.reverted watch.landing world.clock)).store.find
      watch.landing.id).isSome = true := by
    rw [show (world.remark (.reverted watch.landing world.clock)).store.find watch.landing.id =
      some origin from found]
    rfl
  simp only [present, if_true]
  refine keeping_ite (fun _ => ?_) (fun few => ?_)
  · refine keeping_softKill sound fun rows pass careful sound => ?_
    have killed := counted.softKill careful sound
    exact ends_countRevert killed not_killOwed_softKill
      (WatchTied.done killed.registered deadline rfl)
  · have paid : ¬ KillOwed (world.remark (.reverted watch.landing world.clock)).events :=
      killOwed_snoc.not.mpr (due.not.mpr few)
    exact ends_countRevert counted paid (WatchTied.done counted.registered deadline rfl)

theorem Reverting.revised {events : List Event} (reverting : Reverting events watch)
    (proven : state.authorshipProven = true → Proven events watch.landing) :
    Reverting events { watch with revert := some state } where
  red := reverting.red
  proven other stored := by
    obtain rfl := Option.some.inj stored
    exact proven
  unreverted := reverting.unreverted

theorem Reverting.snoc {events : List Event} {event : Event} (reverting : Reverting events watch)
    (uncounted : revertRow event = none) : Reverting (events ++ [event]) watch where
  red := by
    obtain ⟨time, member⟩ := reverting.red
    exact ⟨time, List.mem_append_left _ member⟩
  proven state stored shown := (reverting.proven state stored shown).append
  unreverted named time member := by
    rcases List.mem_append.mp member with member | member
    · exact reverting.unreverted named time member
    · obtain rfl := List.mem_singleton.mp member
      cases uncounted

theorem WatchTied.reverted {events : List Event} (registered : .registered watch.landing ∈ events)
    (deadline : watch.watchUntil = effectiveWatchUntil watch.landing)
    (phase : watch.phase = .reverting) (reverting : Reverting events watch) :
    WatchTied events watch where
  registered := registered
  deadline := deadline
  waiting watching := by
    rw [phase] at watching
    cases watching
  reverting _ := reverting

section

variable (during : During watch.landing world.store.history world) (paid : ¬ KillOwed world.events)
include during paid

theorem ends_wait (deadline : watch.watchUntil = effectiveWatchUntil watch.landing)
    (phase : watch.phase = .reverting) (reverting : Reverting world.events watch)
    (proven : state.authorshipProven = true → Proven world.events watch.landing) :
    Ends (do
      let _ ← saveWatch { watch with revert := some state } id
      pure pass) world := by
  refine keeping_saveWatch during paid ?_ fun after tied _ => tied
  exact WatchTied.reverted during.registered deadline phase (reverting.revised proven)

theorem ends_takeOutcome {outcome : FleetRevertOutcome}
    (now : world.clock = nowMs) (deadline : watch.watchUntil = effectiveWatchUntil watch.landing)
    (phase : watch.phase = .reverting) (reverting : Reverting world.events watch)
    (proven : Proven world.events watch.landing) :
    Ends (takeOutcome watch state nowMs pass outcome) world := by
  have attempted : ∀ retryable : Bool, Ends (do
      let state := { state with attempts := state.attempts + 1 }
      let watch := { watch with revert := some state }
      if retryable ∧ state.attempts < maxRevertAttempts then
        let _ ← saveWatch watch id
        pure pass
      else failRevert watch nowMs pass) world := by
    intro retryable
    refine keeping_ite (fun _ => ?_) (fun _ => ends_failRevert during deadline)
    exact ends_wait during paid deadline phase reverting fun _ => proven
  cases outcome with
  | landed landing => exact ends_recordRevert during paid now deadline reverting.unreverted
  | failed code retryable =>
      cases code with
      | killed => exact ends_wait during paid deadline phase reverting fun _ => proven
      | pending =>
          refine keeping_ite (fun _ => ?_) (fun _ => ends_failRevert during deadline)
          exact ends_wait during paid deadline phase reverting fun _ => proven
      | _ => exact attempted retryable

theorem ends_landRevert (now : world.clock = nowMs)
    (deadline : watch.watchUntil = effectiveWatchUntil watch.landing)
    (phase : watch.phase = .reverting) (reverting : Reverting world.events watch)
    (proven : Proven world.events watch.landing) :
    Ends (landRevert watch state nowMs pass) world := by
  unfold landRevert
  refine keeping_remark (fun _ _ reacted => reacted) fun answered careful => ?_
  have rests : Rests world.events (.revertRequested watch.landing) := by
    obtain ⟨time, member⟩ := reverting.red
    obtain ⟨red, rest, same⟩ := List.append_of_mem member
    exact ⟨proven.kind, proven, red, time, rest, same⟩
  have sound : Sound (world.remark (.revertRequested watch.landing)).events :=
    during.sound.snoc rests (.inl paid)
  have asked : During watch.landing world.store.history
      (world.remark (.revertRequested watch.landing)) :=
    during.remark (fun named about => (Option.some.inj about).symm) ⟨rfl, rfl⟩ careful sound
  exact ⟨sound, ends_takeOutcome asked (killOwed_snoc.not.mpr id) now deadline phase
    (reverting.snoc rfl) proven.append⟩

end

theorem ends_attemptRevert (tied : Tied world)
    (found : world.store.find watch.landing.id = some watch) (phase : watch.phase = .reverting) :
    Ends (attemptRevert watch pass) world := by
  have open' : watch.phase ≠ .done := by
    rw [phase]
    decide
  have held := tied.watches watch (WatchStore.mem_of_find found).1
  have reverting := held.reverting phase
  unfold attemptRevert
  refine keeping_now tied.sound fun nowMs after => ?_
  have during := (During.start tied found rfl open').tick after
  -- What the stored state says of the authorship is so.
  have known : (watch.revert.getD ⟨0, none, false, some nowMs⟩).authorshipProven = true →
      Proven world.events watch.landing := by
    intro shown
    cases stored : watch.revert with
    | none =>
        rw [stored] at shown
        cases shown
    | some state =>
        rw [stored] at shown
        exact reverting.proven state stored shown
  refine keeping_ite (fun shown => ?_) (fun unproven => ?_)
  · exact ends_landRevert during tied.paid rfl held.deadline phase
      (reverting.revised fun _ => known shown) (known shown)
  refine keeping_remark (fun _ _ reacted => reacted) fun commit careful => ?_
  have sound : Sound (({ world with clock := nowMs } : World).remark
      (.commit watch.landing commit)).events :=
    during.sound.snoc trivial (.inl tied.paid)
  have read : During watch.landing world.store.history
      (({ world with clock := nowMs } : World).remark (.commit watch.landing commit)) :=
    during.remark (fun named about => (Option.some.inj about).symm) ⟨rfl, rfl⟩ careful sound
  have paid : ¬ KillOwed (({ world with clock := nowMs } : World).remark
      (.commit watch.landing commit)).events := killOwed_snoc.not.mpr id
  have later : Reverting (({ world with clock := nowMs } : World).remark
      (.commit watch.landing commit)).events watch := reverting.snoc rfl
  refine ⟨sound, ?_⟩
  cases commit with
  | none =>
      refine keeping_ite (fun _ => ?_) (fun _ => ends_failRevert read held.deadline)
      exact ends_wait read paid held.deadline phase later fun shown => (known shown).append
  | some commit =>
      cases refusal : fleetRevertRefusal commit watch.landing with
      | some refusal =>
          simp only [refusal]
          exact ends_refuseRevert read held.deadline
      | none =>
          have proven : Proven (({ world with clock := nowMs } : World).remark
              (.commit watch.landing (some commit))).events watch.landing :=
            ⟨commit, List.mem_append_right _ (List.mem_singleton.mpr rfl), refusal⟩
          simp only [refusal]
          exact ends_landRevert read paid rfl held.deadline phase (later.revised fun _ => proven)
            proven

end

end AshlrHub.PostMerge

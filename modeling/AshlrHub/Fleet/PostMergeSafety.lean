import AshlrHub.Fleet.PostMergeVerdicts

namespace AshlrHub.PostMerge

open Js Lib

/-! Whole passes, and every run of them. -/

section

variable {world : World} {watch : PostMergeWatch} {observed : CiObservation} {pass : Pass}

section

variable (judging : Judging watch observed world)
include judging

theorem keeping_runWantedSuite {killed : Bool} :
    Keeping (fun value after => Ran watch observed world value after ∨
      (value.1 = some watch ∧ after = world)) (runWantedSuite watch killed pass) world := by
  unfold runWantedSuite
  refine keeping_ite (fun may => ?_) (fun _ => .inr ⟨rfl, rfl⟩)
  have wanted : watch.suite.state ≠ .fail ∧ watch.suite.state ≠ .pass := by
    have shown := may.1
    unfold SuiteState.wanted at shown
    cases state : watch.suite.state with
    | pending => exact ⟨nofun, nofun⟩
    | notRun => exact ⟨nofun, nofun⟩
    | pass | fail =>
        rw [state] at shown
        cases shown
  refine keeping_silent (fun _ _ reacted => reacted) judging.charging.during.sound fun aborted => ?_
  refine keeping_ite (fun _ => .inr ⟨rfl, rfl⟩) (fun _ => ?_)
  exact (keeping_runSuite judging wanted).imp _ fun _ _ => .inl

theorem rests_green (notRed : observed.state ≠ .red)
    (notFailed : watch.suite.state ≠ .fail)
    (asked : watch.suite.unconfirmedFail = true → ∃ front, world.events = front ++
      [.ci watch.landing .merged observed world.clock (some watch.suite)])
    (spent : watch.suite.unconfirmedFail = true →
      Unconfirmed watch.landing observed world.clock watch.suite)
    (careful : Careful (world.remark (.green watch.landing)).events) :
    Rests world.events (.green watch.landing) := by
  refine ⟨judging.reading.ciNotRed notRed, judging.charging.suite.settled notFailed ?_⟩
  cases state : watch.suite.unconfirmedFail with
  | false => rfl
  | true =>
      obtain ⟨front, same⟩ := asked state
      have whole : (world.remark (.green watch.landing)).events = front ++
          .ci watch.landing .merged observed world.clock (some watch.suite) ::
            [.green watch.landing] := by
        change world.events ++ [.green watch.landing] = _
        rw [same, List.append_assoc]
        rfl
      obtain ⟨run, rest, follows⟩ := careful.confirms front watch.landing observed world.clock
        watch.suite _ whole (spent state) (List.cons_ne_nil _ _)
      cases follows

theorem ends_conclude
    (asked : watch.suite.unconfirmedFail = true → ∃ front, world.events = front ++
      [.ci watch.landing .merged observed world.clock (some watch.suite)]) :
    Ends (conclude watch world.store.history observed world.clock pass) world := by
  have charging := judging.charging
  have passed : watch.suite.state = .pass → watch.suite.unconfirmedFail = true →
      Unconfirmed watch.landing observed world.clock watch.suite := by
    intro pass unconfirmed
    rw [charging.suite.confirmed pass] at unconfirmed
    cases unconfirmed
  unfold conclude
  refine keeping_ite (fun _ => ends_onRed charging judging.ci judging.reading) (fun calm => ?_)
  obtain ⟨notRed, notFailed⟩ := not_or.mp calm
  refine keeping_ite (fun settled => ?_) (fun _ => keeping_ite (fun gaveUp => ?_) (fun _ => ?_))
  · exact ends_finalizeGreen charging.during charging.paid charging.deadline
      (rests_green judging notRed notFailed asked (passed settled.1))
  · refine ends_finalizeGreen charging.during charging.paid charging.deadline
      (rests_green judging notRed notFailed asked fun unconfirmed => ?_)
    exact ⟨gaveUp.1, unconfirmed, .inr gaveUp.2⟩
  refine keeping_ite (fun due => ?_) (fun _ => ?_)
  · refine keeping_ite (fun settled => ?_) (fun _ => keeping_ite (fun green => ?_) (fun _ => ?_))
    · exact ends_finalizeGreen charging.during charging.paid charging.deadline
        (rests_green judging notRed notFailed asked (passed settled))
    · refine ends_finalizeGreen charging.during charging.paid charging.deadline
        (rests_green judging notRed notFailed asked fun unconfirmed => ?_)
      exact ⟨green, unconfirmed, .inl (charging.deadline ▸ due)⟩
    · exact ends_finalizeRed charging.during charging.paid charging.deadline
  · refine keeping_saveWatch charging.during charging.paid ?_ fun after tied _ => tied
    exact charging.watchTied judging.phase notFailed

end

theorem ends_progressWatch (tied : Tied world)
    (found : world.store.find watch.landing.id = some watch) (phase : watch.phase = .watching) :
    Ends (progressWatch watch world.store.history pass) world := by
  have held := tied.watches watch (WatchStore.mem_of_find found).1
  have waiting := held.waiting phase
  have still : watch.phase ≠ .done := by
    rw [phase]
    decide
  unfold progressWatch
  refine keeping_now tied.sound fun nowMs after => ?_
  refine keeping_silent (fun _ _ reacted => reacted) tied.sound fun killed => ?_
  have ticked : Charging watch { world with clock := nowMs } :=
    ⟨(During.start tied found rfl still).tick after, tied.paid, held.deadline,
      ⟨waiting.unred, waiting.unreverted⟩, waiting.suiteTied⟩
  refine keeping_remark (fun _ _ reacted => reacted) fun ci careful => ?_
  have stored :
      (world.store.find watch.landing.id).map PostMergeWatch.suite = some watch.suite := by
    rw [found, Option.map_some]
  have judging := ticked.read ci nowMs phase careful
  refine ⟨judging.charging.during.sound, ?_⟩
  refine keeping_andThen _ (keeping_runWantedSuite judging) ?_
  rintro ⟨value, pass⟩ after ((⟨over', tied⟩ | ⟨suite, same, judging, beside, clean⟩) | ⟨same, rfl⟩)
  · obtain rfl : value = none := over'
    exact tied
  · obtain rfl : value = some _ := same
    have history : after.store.history = world.store.history := by rw [beside.2.1]; rfl
    have clock : after.clock = nowMs := beside.1
    subst clock
    rw [← history]
    refine ends_conclude judging fun unconfirmed => ?_
    rw [show suite.unconfirmedFail = true from unconfirmed] at clean
    cases clean
  · obtain rfl : value = some _ := same
    refine ends_conclude judging fun _ => ⟨world.events, ?_⟩
    rw [← stored]
    rfl

theorem ends_stepWatch {landingId : JsString} (tied : Tied world) :
    Ends (stepWatch landingId pass) world := by
  unfold stepWatch
  refine keeping_readStore tied.sound ?_
  cases found : world.store.find landingId with
  | none =>
      simp only [found]
      exact tied
  | some watch =>
      obtain ⟨_, rfl⟩ := WatchStore.mem_of_find found
      simp only [found]
      cases phase : watch.phase with
      | done => exact tied
      | reverting => exact ends_attemptRevert tied found phase
      | watching => exact ends_progressWatch tied found phase

theorem ends_stepWatches : (landingIds : List JsString) → {pass : Pass} → {world : World} →
    Tied world → Ends (stepWatches landingIds pass) world
  | [], _, _, tied => tied
  | landingId :: rest, _, _, tied => by
      unfold stepWatches
      refine keeping_silent (fun _ _ reacted => reacted) tied.sound fun aborted => ?_
      refine keeping_ite (fun _ => tied) (fun _ => ?_)
      exact keeping_andThen _ (ends_stepWatch tied) fun _ _ tied => ends_stepWatches rest tied

end

/-! The pass. -/

section

variable {world : World}

theorem keeping_flushRows {repo : JsString} : (rows : List PendingLedgerRow) → {world : World} →
    Sound world.events → Keeping (fun _ after => after = world) (flushRows repo rows) world
  | [], _, _ => rfl
  | row :: rows, _, sound => by
      unfold flushRows
      refine keeping_silent (fun _ _ reacted => reacted) sound fun appended => ?_
      exact keeping_ite (fun _ => keeping_flushRows rows sound) (fun _ => rfl)

theorem keeping_flushWatches : (watches : List PostMergeWatch) → {world : World} →
    Sound world.events → Keeping (fun _ after => after = world) (flushWatches watches) world
  | [], _, _ => rfl
  | watch :: watches, _, sound => by
      unfold flushWatches
      refine keeping_andThen _ (keeping_flushRows watch.pendingLedger sound) ?_
      rintro rows _ rfl
      refine keeping_andThen _ (keeping_flushWatches watches sound) ?_
      rintro rest _ rfl
      rfl

theorem requeue_mem {store : WatchStore} {flushed : List PostMergeWatch} {watch : PostMergeWatch}
    (member : watch ∈ (store.requeue flushed).watches) :
    ∃ other ∈ store.watches, ∃ rows, watch = { other with pendingLedger := rows } := by
  obtain ⟨other, stored, rfl⟩ := List.mem_map.mp member
  refine ⟨other, stored, ?_⟩
  cases flushed.find? fun flush => flush.landing.id = other.landing.id with
  | none => exact ⟨other.pendingLedger, rfl⟩
  | some flush => exact ⟨flush.pendingLedger, rfl⟩

theorem requeue_ids (store : WatchStore) (flushed : List PostMergeWatch) :
    ((store.requeue flushed).watches.map fun watch => watch.landing.id) =
      store.watches.map fun watch => watch.landing.id := by
  unfold WatchStore.requeue
  rw [List.map_map]
  refine List.map_congr_left fun watch _ => ?_
  rw [Function.comp_apply]
  cases flushed.find? fun flush => flush.landing.id = watch.landing.id with
  | none => rfl
  | some flush => rfl

section

variable (tied : Tied world)
include tied

theorem Tied.flush (flushed : List PostMergeWatch) :
    Tied (world.install (world.store.requeue flushed)) := by
  refine tied.rewrite tied.history ?_ ?_ ?_
  · rw [requeue_ids]
    exact tied.distinct
  · intro watch member
    obtain ⟨other, stored, rows, rfl⟩ := requeue_mem member
    exact fun still => (tied.continued stored : Continued _ other) still
  · intro watch member
    obtain ⟨other, stored, rows, rfl⟩ := requeue_mem member
    exact (tied.watches other stored).queued rows

theorem ends_flushPendingLedger : Ends flushPendingLedger world := by
  unfold flushPendingLedger
  refine keeping_readStore tied.sound ?_
  refine keeping_andThen _ (keeping_flushWatches world.store.watches tied.sound) ?_
  rintro flushed _ rfl
  refine keeping_ask fun answer after reacted _ => ?_
  obtain ⟨_, rfl⟩ := reacted
  exact ⟨(tied.flush flushed).sound, tied.flush flushed⟩

theorem Tied.remark {event : Event} (about : event.landing? = none)
    (uncounted : redRow event = none ∧ revertRow event = none)
    (rests : Rests world.events event) (due : ¬ KillDue world.events event)
    (careful : Careful (world.remark event).events) : Tied (world.remark event) where
  careful := careful
  sound := tied.sound.snoc rests (.inl tied.paid)
  paid := killOwed_snoc.not.mpr due
  history := by
    refine tied.history.append fun other member => ?_
    obtain rfl := List.mem_singleton.mp member
    exact uncounted
  distinct := tied.distinct
  known other member landing names := by
    rcases List.mem_append.mp member with member | member
    · obtain ⟨begun, registered, same⟩ := tied.known other member landing names
      exact ⟨begun, List.mem_append_left _ registered, same⟩
    · obtain rfl := List.mem_singleton.mp member
      rw [about] at names
      cases names
  watches watch member := by
    refine (tied.watches watch member).append fun other member named names => ?_
    obtain rfl := List.mem_singleton.mp member
    rw [about] at names
    cases names

theorem ends_note_discovered (value : ℕ) :
    Ends (do
      ask (.note .discovered)
      pure value) world := by
  refine keeping_remark (fun _ _ reacted => reacted) fun _ careful => ?_
  have remarked : Tied (world.remark .discovered) :=
    tied.remark rfl ⟨rfl, rfl⟩ trivial id careful
  exact ⟨remarked.sound, remarked⟩

theorem ends_discoverFromLedger {cursor : Option ℕ} :
    Ends (discoverFromLedger cursor) world := by
  unfold discoverFromLedger
  refine keeping_silent (fun _ _ reacted => reacted) tied.sound fun read => ?_
  cases read with
  | threw => exact tied
  | broken => exact tied
  | rows rows =>
      refine keeping_ite (fun _ => ends_note_discovered tied 0) (fun _ => ?_)
      refine keeping_now tied.sound fun nowMs after => ?_
      refine keeping_ask fun answer next reacted careful => ?_
      have ticked := tied.advance after
      unfold reacts at reacted
      cases grew : registerAll world.store nowMs
          (landingsOf (rows.filter fun row => cursor.all fun seq => seq < row.seq)) 0 with
      | none =>
          simp only [discovered, grew, Option.map_none] at reacted
          obtain ⟨rfl, rfl⟩ := reacted
          exact ⟨ticked.sound, ticked⟩
      | some registered =>
          have grown := (Grown.refl tied.distinct).registerAll grew
          simp only [discovered, grew, Option.map_some] at reacted
          cases latest : maxSeqOf cursor
              (rows.filter fun row => cursor.all fun seq => seq < row.seq) with
          | none =>
              rw [latest] at reacted
              obtain ⟨rfl, rfl⟩ := reacted
              have watched := ticked.grow grown careful
              exact ⟨watched.sound, ends_note_discovered watched _⟩
          | some seq =>
              rw [latest] at reacted
              obtain ⟨rfl, rfl⟩ := reacted
              have moved : Grown world.store nowMs { registered.1 with ledgerCursor := some seq } :=
                ⟨grown.1, grown.2, grown.3⟩
              have watched := ticked.grow moved careful
              exact ⟨watched.sound, ends_note_discovered watched _⟩

end

theorem pruneHistory_reds (history : EscalationHistory) (nowMs : ℤ) :
    (pruneHistory history nowMs).reds = keepRecent HistoryRow.atTime nowMs history.reds := by
  rw [pruneHistory]

theorem pruneHistory_reverts (history : EscalationHistory) (nowMs : ℤ) :
    (pruneHistory history nowMs).reverts = keepRecent HistoryRow.atTime nowMs history.reverts := by
  rw [pruneHistory]

theorem Tied.housekeep (tied : Tied world) :
    Tied (world.install (housekeeping world.clock world.store)) := by
  have room := tied.careful.roomy world.clock
  have history : HistoryTied world.clock (pruneHistory world.store.history world.clock)
      world.events := by
    constructor
    · rw [pruneHistory_reds]
      exact tied.history.reds.prune room.1
    · rw [pruneHistory_reverts]
      exact tied.history.reverts.prune room.2
  refine tied.rewrite history ?_ ?_ ?_
  · exact tied.distinct.sublist (List.filter_sublist.map _)
  · intro watch member
    exact tied.continued (List.mem_of_mem_filter member)
  · intro watch member
    exact tied.watches watch (List.mem_of_mem_filter member)

theorem ends_advance {maxSuiteRuns : ℕ} (tied : Tied world) :
    Ends (advancePostMergeWatches maxSuiteRuns) world := by
  unfold advancePostMergeWatches
  refine keeping_readStore tied.sound ?_
  refine keeping_andThen _ (ends_discoverFromLedger tied) fun added world tied => ?_
  refine keeping_silent (fun _ _ reacted => reacted) tied.sound fun written => ?_
  refine keeping_ite (fun _ => tied) (fun _ => ?_)
  refine keeping_silent (fun _ _ reacted => reacted) tied.sound fun acquired => ?_
  refine keeping_ite (fun _ => tied) (fun _ => ?_)
  refine keeping_andThen _ (ends_flushPendingLedger tied) fun _ world tied => ?_
  refine keeping_readStore tied.sound ?_
  refine keeping_andThen _ (ends_stepWatches _ tied) fun pass world tied => ?_
  refine keeping_now tied.sound fun nowMs after => ?_
  refine keeping_ask fun answer next reacted _ => ?_
  obtain ⟨_, rfl⟩ := reacted
  have kept := (tied.advance after).housekeep
  refine ⟨kept.sound, keeping_remark (fun _ _ reacted => reacted) fun _ careful => ?_⟩
  have ended : Tied ((({ world with clock := nowMs } : World).install _).remark .passEnded) :=
    kept.remark rfl ⟨rfl, rfl⟩ trivial id careful
  exact ⟨ended.sound, ended⟩

end

/-! Runs. -/

theorem tied_start (careful : Careful start.world.events) : Tied start.world where
  careful := careful
  sound := Sound.nil
  paid := not_killOwed_nil
  history := by
    constructor <;> exact ⟨rfl, fun _ => id, fun _ none => absurd none List.not_mem_nil⟩
  distinct := List.nodup_nil
  known _ member := absurd member List.not_mem_nil
  watches _ member := absurd member List.not_mem_nil

theorem reacts_grows {world after : World} {asked : Request} {answer : Answer asked}
    (reacted : reacts world asked answer after) :
    ∃ added, after.events = world.events ++ added := by
  have kept : after = world → ∃ added, after.events = world.events ++ added := by
    rintro rfl
    exact ⟨[], (List.append_nil _).symm⟩
  cases asked with
  | now =>
      obtain ⟨_, rfl⟩ := reacted
      exact ⟨[], (List.append_nil _).symm⟩
  | readStore => exact kept reacted.2
  | mutateStore change =>
      unfold reacts at reacted
      cases changed : change world.store with
      | none =>
          simp only [changed] at reacted
          exact kept reacted.2
      | some next =>
          simp only [changed] at reacted
          obtain ⟨_, rfl⟩ := reacted
          exact ⟨_, rfl⟩
  | ciStatus landing side sha => exact ⟨_, congrArg World.events reacted⟩
  | runSuiteAt landing side sha | readCommit landing => exact ⟨_, congrArg World.events reacted⟩
  | landRevert landing | softKill reason | note event => exact ⟨_, congrArg World.events reacted⟩
  | _ => exact kept reacted

theorem step_grows {state next : State} {mark : Unit} (step : WatchStep state mark next) :
    ∃ added, next.world.events = state.world.events ++ added := by
  cases step with
  | opened begun =>
      cases begun
      exact ⟨[], (List.append_nil _).symm⟩
  | answered reacted => exact reacts_grows reacted
  | ended => exact ⟨[], (List.append_nil _).symm⟩
  | broken broke => exact broke.elim
  | moved move =>
      cases move
      exact ⟨_, rfl⟩

theorem run_holds {marks : List Unit} {state : State} (run : Run WatchStep start marks state)
    (careful : Careful state.world.events) :
    state.Holds carefully Tied fun world => Sound world.events := by
  induction run with
  | nil => exact tied_start careful
  | snoc _ taken ih =>
      obtain ⟨added, grown⟩ := step_grows taken
      have before := ih (grown ▸ careful).front
      cases taken with
      | opened begun =>
          cases begun with
          | advance maxSuiteRuns => exact ⟨Tied.sound before, ends_advance before⟩
      | answered reacted => exact before.2 _ _ ⟨reacted, careful⟩
      | ended => exact before.2
      | broken broke => exact broke.elim
      | moved move =>
          cases move with
          | registered accepted later into =>
              have ticked := Tied.advance before later
              exact ticked.grow ((Grown.refl ticked.distinct).registerInto into) careful

def respond (time : ℤ) (suite : SuiteResult) (world : World) (asked : Request) :
    Answer asked × World :=
  match asked with
  | .now => (time, { world with clock := time })
  | .ciStatus landing side _ => (⟨.green, []⟩, world.remark (.ci landing side ⟨.green, []⟩
      world.clock ((world.store.find landing.id).map PostMergeWatch.suite)))
  | .runSuiteAt landing side _ => (suite, world.remark (.suite landing side suite))
  | .readCommit landing => (none, world.remark (.commit landing none))
  | .landRevert landing => (.failed .github true, world.remark (.revertRequested landing))
  | .softKill _ => (⟨true, true⟩, world.remark .softKill)
  | .readStore => (some world.store, world)
  | .mutateStore change =>
      match change world.store with
      | none => (none, world)
      | some (store, value) => (some value, world.install store)
  | .note event => ((), world.remark event)
  | asked => (calm time suite asked, world)

def landed : LandingRecord := sampleLanding (js "landing-1")

end AshlrHub.PostMerge

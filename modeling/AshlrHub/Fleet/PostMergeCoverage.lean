import AshlrHub.Fleet.PostMergeDiscovery

namespace AshlrHub.PostMerge

open Js Lib

/-! Behind its discovery, a pass loses finished watches at most, and those when they may go. -/

def Shelters (change : WatchStore → Option (WatchStore × ℕ)) : Prop :=
  ∀ nowMs store next value, change store = some (next, value) →
    Sheltered nowMs store next ∧ next.ledgerCursor = store.ledgerCursor

def Harmless : Request → Prop
  | .mutateStore change => Shelters change
  | .note .discovered => False
  | _ => True

theorem WatchStore.put_sheltered {nowMs : ℤ} (store : WatchStore) (watch : PostMergeWatch) :
    Sheltered nowMs store (store.put watch) := by
  intro other member _
  unfold WatchStore.put
  by_cases present : store.watches.any fun other => other.landing.id = watch.landing.id
  · rw [if_pos present]
    by_cases own : other.landing.id = watch.landing.id
    · exact ⟨watch, List.mem_map.mpr ⟨other, member, if_pos own⟩, own.symm⟩
    · exact ⟨other, List.mem_map.mpr ⟨other, member, if_neg own⟩, rfl⟩
  · rw [if_neg present]
    exact ⟨other, List.mem_append_left _ member, rfl⟩

theorem WatchStore.put_cursor (store : WatchStore) (watch : PostMergeWatch) :
    (store.put watch).ledgerCursor = store.ledgerCursor := by
  unfold WatchStore.put
  by_cases present : store.watches.any fun other => other.landing.id = watch.landing.id
  · rw [if_pos present]
  · rw [if_neg present]

theorem requeue_sheltered {nowMs : ℤ} (store : WatchStore) (flushed : List PostMergeWatch) :
    Sheltered nowMs store (store.requeue flushed) := by
  intro watch member _
  refine ⟨_, List.mem_map.mpr ⟨watch, member, rfl⟩, ?_⟩
  cases flushed.find? fun other => other.landing.id = watch.landing.id with
  | none => rfl
  | some other => rfl

theorem housekeeping_sheltered (nowMs : ℤ) (store : WatchStore) :
    Sheltered nowMs store (housekeeping nowMs store) := by
  intro watch member held
  refine ⟨watch, List.mem_filter.mpr ⟨member, ?_⟩, rfl⟩
  simp only [WatchStore.releases, Bool.and_eq_false_iff, Bool.or_eq_false_iff,
    decide_eq_false_iff_not, not_le] at held
  simp only [Bool.or_eq_true, decide_eq_true_eq]
  rcases held with open' | ⟨_, queued | recent⟩
  · exact .inl (.inl open')
  · exact .inl (.inr queued)
  · exact .inr recent

section

variable {α β : Type}

abbrev Tame (talk : Watching α) : Prop := talk.Only Harmless

theorem tame_ask {asked : Request} {more : Answer asked → Watching α} (harmless : Harmless asked)
    (rest : ∀ answer, Tame (more answer)) : Tame (ask asked >>= more) := ⟨harmless, rest⟩

theorem tame_andThen {talk : Watching β} {more : β → Watching α} (first : Tame talk)
    (rest : ∀ value, Tame (more value)) : Tame (talk >>= more) := first.andThen rest

theorem tame_ite {condition : Prop} [Decidable condition] {yes no : Watching α}
    (positive : Tame yes) (negative : Tame no) :
    Tame (if condition then yes else no) := positive.ite negative

end

section

variable (watch : PostMergeWatch) (history : EscalationHistory) (nowMs : ℤ) (pass : Pass)

theorem tame_saveWatch (change : EscalationHistory → EscalationHistory) :
    Tame (saveWatch watch change) := by
  refine tame_ask ?_ fun saved => trivial
  intro _ store next value changed
  obtain ⟨rfl, _⟩ := Prod.mk.inj (Option.some.inj changed)
  exact ⟨store.put_sheltered watch, store.put_cursor watch⟩

theorem tame_save {α : Type} (change : EscalationHistory → EscalationHistory) (value : α) :
    Tame (do
      let _ ← saveWatch watch change
      pure value) :=
  tame_andThen (tame_saveWatch watch change) fun _ => trivial

theorem tame_ledgerOrQueue (row : PendingLedgerRow) : Tame (ledgerOrQueue watch row) :=
  tame_ite (tame_ask trivial fun _ => trivial) trivial

theorem tame_flushRows (repo : JsString) : (rows : List PendingLedgerRow) →
    Tame (flushRows repo rows)
  | [] => trivial
  | _ :: rows => tame_ask trivial fun _ => tame_ite (tame_flushRows repo rows) trivial

theorem tame_flushWatches : (watches : List PostMergeWatch) → Tame (flushWatches watches)
  | [] => trivial
  | _ :: watches => tame_andThen (tame_flushRows _ _) fun _ =>
      tame_andThen (tame_flushWatches watches) fun _ => trivial

theorem tame_flushPendingLedger : Tame flushPendingLedger := by
  refine tame_ask trivial fun stored => ?_
  cases stored with
  | none => trivial
  | some store =>
      refine tame_andThen (tame_flushWatches _) fun flushed => tame_ask ?_ fun _ => trivial
      intro _ store next value changed
      obtain ⟨rfl, _⟩ := Prod.mk.inj (Option.some.inj changed)
      exact ⟨requeue_sheltered store flushed, rfl⟩

theorem tame_ownerHold : Tame (ownerHold watch) := tame_ask trivial fun _ => trivial

theorem tame_quarantine : Tame (quarantine watch history nowMs) :=
  tame_ask trivial fun _ => tame_ite (tame_ownerHold watch) trivial

theorem tame_softKill (reason : KillReason) : Tame (softKill watch nowMs reason pass) := by
  refine tame_ask trivial fun armed => tame_ask trivial fun _ => tame_ite ?_ ?_
  · exact tame_andThen (tame_ledgerOrQueue _ _) fun _ => tame_ask trivial fun _ => trivial
  · exact tame_ask trivial fun _ => trivial

theorem tame_failRevert : Tame (failRevert watch nowMs pass) := by
  refine tame_andThen (tame_ledgerOrQueue _ _) fun watch => ?_
  refine tame_andThen (tame_ownerHold watch) fun _ => ?_
  exact tame_andThen (tame_softKill watch nowMs pass _) fun _ => tame_save _ _ _

theorem tame_refuseRevert (refusal : RevertRefusal)
    (change : EscalationHistory → EscalationHistory) :
    Tame (refuseRevert watch nowMs refusal change pass) := by
  refine tame_andThen (tame_ledgerOrQueue _ _) fun watch => ?_
  refine tame_andThen (tame_ownerHold watch) fun _ => ?_
  exact tame_andThen (tame_softKill watch nowMs pass _) fun _ => tame_save _ _ _

theorem tame_fileRepair : Tame (fileRepair watch) := by
  refine tame_ask trivial fun task => ?_
  cases task with
  | none => trivial
  | some task => trivial

theorem shelters_register (landing : LandingRecord) :
    Shelters fun store =>
      (registerInto store landing nowMs).map fun registered => (registered.1, 0) := by
  intro _ store next value changed
  obtain ⟨registered, into, same⟩ := Option.map_eq_some_iff.mp changed
  obtain ⟨rfl, _⟩ := Prod.mk.inj same
  have enrolled := (enrolled_registerInto into).1
  exact ⟨enrolled.sheltered, enrolled.cursor⟩

theorem tame_countRevert (kills : List Kill) (revertLanding : LandingRecord) :
    Tame (countRevert watch kills revertLanding nowMs pass) := by
  refine tame_andThen (tame_saveWatch watch _) fun saved => tame_ite ?_ trivial
  exact tame_ask (shelters_register nowMs revertLanding) fun _ => trivial

theorem tame_recordRevert (state : RevertState) (revertLanding : LandingRecord) :
    Tame (recordRevert watch state revertLanding nowMs pass) := by
  refine tame_ask trivial fun _ => tame_andThen (tame_ledgerOrQueue _ _) fun watch => ?_
  refine tame_andThen (tame_fileRepair watch) fun watch => tame_ask trivial fun stored => ?_
  cases stored with
  | none => trivial
  | some store =>
      refine tame_ite ?_ (tame_countRevert _ _ _ _ _)
      exact tame_andThen (tame_softKill _ _ _ _) fun _ => tame_countRevert _ _ _ _ _

theorem tame_takeOutcome (state : RevertState) (outcome : FleetRevertOutcome) :
    Tame (takeOutcome watch state nowMs pass outcome) := by
  have attempted : ∀ retryable : Bool, Tame (do
      let state := { state with attempts := state.attempts + 1 }
      let watch := { watch with revert := some state }
      if retryable ∧ state.attempts < maxRevertAttempts then
        let _ ← saveWatch watch id
        pure pass
      else failRevert watch nowMs pass) :=
    fun _ => tame_ite (tame_save _ _ _) (tame_failRevert _ _ _)
  cases outcome with
  | landed landing => exact tame_recordRevert _ _ _ _ _
  | failed code retryable =>
      cases code with
      | killed => exact tame_save _ _ _
      | pending => exact tame_ite (tame_save _ _ _) (tame_failRevert _ _ _)
      | _ => exact attempted retryable

theorem tame_landRevert (state : RevertState) : Tame (landRevert watch state nowMs pass) :=
  tame_ask trivial fun _ => tame_takeOutcome _ _ _ _ _

theorem tame_attemptRevert : Tame (attemptRevert watch pass) := by
  refine tame_ask trivial fun nowMs => tame_ite (tame_landRevert _ _ _ _) ?_
  refine tame_ask trivial fun commit => ?_
  cases commit with
  | none => exact tame_ite (tame_save _ _ _) (tame_failRevert _ _ _)
  | some commit =>
      cases refusal : fleetRevertRefusal commit watch.landing with
      | none =>
          simp only [refusal]
          exact tame_landRevert _ _ _ _
      | some refusal =>
          simp only [refusal]
          exact tame_refuseRevert _ _ _ _ _

theorem tame_finalizeGreen (ci : ResultCi) : Tame (finalizeGreen watch nowMs ci pass) :=
  tame_ask trivial fun _ => tame_andThen (tame_ledgerOrQueue _ _) fun _ =>
    tame_andThen (tame_saveWatch _ _) fun _ => trivial

theorem tame_finalizeRed (outcome : WatchOutcome) :
    Tame (finalizeRed watch history nowMs outcome pass) :=
  tame_andThen (tame_ledgerOrQueue _ _) fun _ => tame_andThen (tame_quarantine _ _ _) fun _ =>
    tame_andThen (tame_saveWatch _ _) fun _ => trivial

theorem tame_finalizeRevertRed : Tame (finalizeRevertRed watch nowMs pass) := by
  refine tame_andThen (tame_ledgerOrQueue _ _) fun watch => ?_
  refine tame_andThen (tame_ownerHold watch) fun _ => ?_
  exact tame_andThen (tame_softKill _ _ _ _) fun _ => tame_andThen (tame_saveWatch _ _) fun _ =>
    trivial

theorem tame_culpritChecks (parent : Option JsString) : Tame (culpritChecks watch parent) := by
  unfold culpritChecks
  cases watch.ci with
  | none => trivial
  | some ci =>
      refine tame_ite ?_ trivial
      cases parent with
      | none => trivial
      | some sha => exact tame_ask trivial fun _ => trivial

theorem tame_parentSuite (parent : Option JsString) : Tame (parentSuite watch parent pass) := by
  unfold parentSuite
  split
  · refine tame_ask trivial fun killed => tame_ite ?_ trivial
    exact tame_ask trivial fun aborted => tame_ite trivial (tame_ask trivial fun _ => trivial)
  · trivial

theorem tame_beginRevert (kills : List Kill) (commit : Option CommitInfo) :
    Tame (beginRevert watch kills commit nowMs pass) := by
  unfold beginRevert
  cases commit with
  | none => exact tame_save _ _ _
  | some commit =>
      cases refusal : fleetRevertRefusal commit watch.landing with
      | none =>
          simp only [refusal]
          exact tame_andThen (tame_saveWatch _ _) fun _ => tame_ite (tame_attemptRevert _ _) trivial
      | some refusal =>
          simp only [refusal]
          exact tame_refuseRevert _ _ _ _ _

theorem tame_revertCulprit (commit : Option CommitInfo) :
    Tame (revertCulprit watch history commit nowMs pass) := by
  refine tame_andThen (tame_ledgerOrQueue _ _) fun watch => ?_
  refine tame_andThen (tame_quarantine _ _ _) fun _ => tame_ask trivial fun _ => tame_ite ?_ ?_
  · exact tame_andThen (tame_softKill _ _ _ _) fun _ => tame_beginRevert _ _ _ _ _
  · exact tame_beginRevert _ _ _ _ _

theorem tame_attributeRed (commit : Option CommitInfo) :
    Tame (attributeRed watch history commit nowMs pass) :=
  tame_andThen (tame_culpritChecks _ _) fun _ => tame_andThen (tame_parentSuite _ _ _) fun _ =>
    tame_ite (tame_revertCulprit _ _ _ _ _) (tame_finalizeRed _ _ _ _ _)

theorem tame_onRed : Tame (onRed watch history pass) :=
  tame_ask trivial fun _ => tame_ite (tame_finalizeRevertRed _ _ _)
    (tame_ask trivial fun _ => tame_attributeRed _ _ _ _ _)

theorem tame_runSuite : Tame (runSuite watch pass) := by
  refine tame_ask trivial fun run => tame_ite (tame_ite (tame_save _ _ _) ?_) (tame_ite ?_ trivial)
  · refine tame_ask trivial fun again => ?_
    cases again with
    | pass => trivial
    | fail => trivial
    | notRun => exact tame_save _ _ _
  · exact tame_save _ _ _

theorem tame_runWantedSuite (killed : Bool) : Tame (runWantedSuite watch killed pass) :=
  tame_ite (tame_ask trivial fun _ => tame_ite trivial (tame_runSuite _ _)) trivial

theorem tame_conclude (ci : CiObservation) : Tame (conclude watch history ci nowMs pass) := by
  refine tame_ite (tame_onRed _ _ _) (tame_ite (tame_finalizeGreen _ _ _ _) ?_)
  refine tame_ite (tame_finalizeGreen _ _ _ _) (tame_ite ?_ (tame_save _ _ _))
  refine tame_ite (tame_finalizeGreen _ _ _ _) (tame_ite (tame_finalizeGreen _ _ _ _) ?_)
  exact tame_finalizeRed _ _ _ _ _

theorem tame_progressWatch : Tame (progressWatch watch history pass) := by
  refine tame_ask trivial fun nowMs => tame_ask trivial fun killed => tame_ask trivial fun ci => ?_
  refine tame_andThen (tame_runWantedSuite _ _ _) fun ran => ?_
  rcases ran with ⟨_ | watch, pass⟩
  · trivial
  · exact tame_conclude _ _ _ _ _

theorem tame_stepWatch (landingId : JsString) : Tame (stepWatch landingId pass) := by
  refine tame_ask trivial fun stored => ?_
  cases stored with
  | none => trivial
  | some store =>
      cases found : store.find landingId with
      | none =>
          simp only [found]
          trivial
      | some watch =>
          simp only [found]
          cases watch.phase with
          | done => trivial
          | reverting => exact tame_attemptRevert _ _
          | watching => exact tame_progressWatch _ _ _

theorem tame_stepWatches : (landingIds : List JsString) → (pass : Pass) →
    Tame (stepWatches landingIds pass)
  | [], _ => trivial
  | _ :: rest, _ => tame_ask trivial fun _ => tame_ite trivial
      (tame_andThen (tame_stepWatch _ _) fun pass => tame_stepWatches rest pass)

end

/-! The discovery. -/

structure Found (ledger : LedgerState) (cursor : Option ℕ) (world : LedgerWorld) : Prop where
  follows : Follows ledger world
  read : world.read = some ledger
  below : ∀ seq, cursor = some seq → seq < ledger.horizon
  numbered : ∀ row ∈ ledger.rows, row.seq < ledger.nextSeq
  earlier : Owed ledger (fun seq => ∃ last, cursor = some last ∧ seq ≤ last) world

def freshRows (ledger : LedgerState) (cursor : Option ℕ) : List LandedRow :=
  (ledger.rows.filter fun row => (cursor.map (· + 1)).all fun seq => seq ≤ row.seq).filter
    fun row => cursor.all fun seq => seq < row.seq

section

variable {world after : LedgerWorld} {ledger : LedgerState} {cursor : Option ℕ}

variable {last : ℕ}

theorem Passed.marked {read : Option LedgerState} {covered : List LedgerState}
    (passed : Passed world last) :
    Passed { world with read := read, covered := covered } last :=
  ⟨passed.below, passed.owed⟩

theorem Found.later (found : Found ledger cursor world) (later : Later world after) :
    Found ledger cursor after :=
  ⟨found.follows.trans later.follows, later.read.trans found.read, found.below, found.numbered,
    found.earlier.imp later.accounted⟩

theorem mem_freshRows {row : LandedRow} (member : row ∈ ledger.rows)
    (beyond : ∀ last, cursor = some last → last < row.seq) : row ∈ freshRows ledger cursor := by
  refine List.mem_filter.mpr ⟨List.mem_filter.mpr ⟨member, ?_⟩, ?_⟩
  · cases cursor with
    | none => rfl
    | some last => exact decide_eq_true (beyond last rfl)
  · cases cursor with
    | none => rfl
    | some last => exact decide_eq_true (beyond last rfl)

theorem Found.owed (found : Found ledger cursor world)
    (fresh : ∀ landing ∈ landingsOf (freshRows ledger cursor), world.Accounted landing) :
    Owed ledger (fun _ => True) world := by
  intro row member beyond _ landing names accepted
  by_cases earlier : ∃ last, cursor = some last ∧ row.seq ≤ last
  · exact found.earlier row member beyond earlier landing names accepted
  · have held : row ∈ freshRows ledger cursor := by
      refine mem_freshRows member fun last same => ?_
      by_contra before
      exact earlier ⟨last, same, not_lt.mp before⟩
    refine fresh landing (List.mem_filter.mpr ⟨List.mem_filterMap.mpr ⟨row, held, names⟩, ?_⟩)
    rw [accepted]
    rfl

theorem maxSeqOf_mem : (rows : List LandedRow) → {cursor : Option ℕ} → {last : ℕ} →
    maxSeqOf cursor rows = some last → cursor = some last ∨ ∃ row ∈ rows, row.seq = last
  | [], _, _, same => .inl same
  | row :: rows, cursor, last, same => by
      rcases maxSeqOf_mem rows same with first | ⟨other, member, equal⟩
      · cases cursor with
        | none => exact .inr ⟨row, List.mem_cons_self, Option.some.inj first⟩
        | some seq =>
            rcases max_choice seq row.seq with kept | taken
            · exact .inl (congrArg some (kept.symm.trans (Option.some.inj first)))
            · exact .inr ⟨row, List.mem_cons_self, taken.symm.trans (Option.some.inj first)⟩
      · exact .inr ⟨other, List.mem_cons_of_mem _ member, equal⟩

theorem Found.maxSeq_below (found : Found ledger cursor world)
    (max : maxSeqOf cursor (freshRows ledger cursor) = some last) : last < ledger.horizon := by
  rcases maxSeqOf_mem _ max with same | ⟨row, member, rfl⟩
  · exact found.below last same
  · have held := List.mem_of_mem_filter (List.mem_of_mem_filter member)
    exact (found.numbered row held).trans_le (le_max_left _ _)

theorem Passed.of_owed (follows : Follows ledger world) (below : last < ledger.horizon)
    (owed : Owed ledger (fun _ => True) world) : Passed world last where
  below := below.trans_le follows.horizon
  owed row member beyond inside landing names accepted := by
    obtain ⟨earlier, before⟩ := follows.since row member beyond (lt_of_le_of_lt inside below)
    exact owed row earlier before trivial landing names accepted

theorem Tracked.discovered (tracked : Tracked world) (found : Found ledger cursor world)
    {nowMs : ℤ} {store : WatchStore} {added : ℕ}
    (stored : PostMerge.discovered cursor (freshRows ledger cursor) nowMs world.store =
      some (store, added)) :
    Tracked (world.replace store) ∧ Found ledger cursor (world.replace store) ∧
      Owed ledger (fun _ => True) (world.replace store) := by
  obtain ⟨registered, grew, moved⟩ := Option.map_eq_some_iff.mp stored
  obtain ⟨enrolled, watched⟩ := enrolled_registerAll _ grew
  have same : store.watches = registered.1.watches := by
    cases max : maxSeqOf cursor (freshRows ledger cursor) with
    | none | some seq =>
        rw [max] at moved
        exact congrArg (fun pair => pair.1.watches) moved.symm
  have sheltered : Sheltered world.clock world.store store := by
    intro watch member held
    rw [WatchStore.releases, same] at held
    obtain ⟨other, held, equal⟩ := enrolled.sheltered watch member held
    exact ⟨other, same ▸ held, equal⟩
  have accounted : ∀ landing, world.Accounted landing → (world.replace store).Accounted landing :=
    fun _ held => held.replace sheltered
  have follows : Follows ledger (world.replace store) :=
    ⟨found.follows.horizon, found.follows.since⟩
  have still : Found ledger cursor (world.replace store) :=
    ⟨follows, found.read, found.below, found.numbered, found.earlier.imp accounted⟩
  have owed : Owed ledger (fun _ => True) (world.replace store) := by
    refine still.owed fun landing member => ?_
    rcases watched landing member with ⟨other, held, equal⟩ | before
    · exact .inl ⟨other, same ▸ held, equal⟩
    · exact accounted landing (.inl before)
  refine
    ⟨⟨tracked.numbered, ?_, fun other covered => (tracked.covered other covered).imp accounted⟩,
    still, owed⟩
  intro last moves
  cases max : maxSeqOf cursor (freshRows ledger cursor) with
  | none =>
      rw [max] at moved
      have kept : store.ledgerCursor = world.store.ledgerCursor :=
        (congrArg (fun pair => pair.1.ledgerCursor) moved.symm).trans enrolled.cursor
      have passed := tracked.cursor last (kept.symm.trans moves)
      exact ⟨passed.below, passed.owed.imp accounted⟩
  | some seq =>
      rw [max] at moved
      have moved : store.ledgerCursor = some seq :=
        congrArg (fun pair => pair.1.ledgerCursor) moved.symm
      obtain rfl := Option.some.inj (moves.symm.trans moved)
      exact Passed.of_owed follows (found.maxSeq_below max) owed

theorem keeps_note_discovered (value : ℕ) (tracked : Tracked world)
    (found : Found ledger cursor world) (owed : Owed ledger (fun _ => True) world) :
    Dialogue.Keeps reactsMeanwhile Tracked (fun _ after => Tracked after) (do
      ask (.note .discovered)
      pure value) world := by
  rintro _ _ ⟨between, steps, rfl⟩
  have later := later_of_meanwhile steps
  have held := tracked.later later
  have noted : Tracked { between with covered := between.covered ++ between.read.toList } := by
    refine ⟨held.numbered, fun last same => (held.cursor last same).marked, fun other covered => ?_⟩
    rw [later.read.trans found.read] at covered
    rcases List.mem_append.mp covered with earlier | new
    · exact held.covered other earlier
    · rw [List.mem_singleton.mp new]
      exact owed.imp later.accounted
  exact ⟨noted, noted⟩

theorem keeps_discoverFromLedger (tracked : Tracked world)
    (passed : ∀ seq, cursor = some seq → Passed world seq) :
    Dialogue.Keeps reactsMeanwhile Tracked (fun _ after => Tracked after)
      (discoverFromLedger cursor) world := by
  unfold discoverFromLedger
  rintro read after ⟨between, steps, answered⟩
  have later := later_of_meanwhile steps
  have held := tracked.later later
  cases read with
  | threw | broken =>
      obtain rfl := answered
      exact ⟨held, held⟩
  | rows rows =>
      obtain ⟨rfl, rfl⟩ := answered
      have held : Tracked { between with read := some between.ledger } :=
        ⟨held.numbered, fun last same => (held.cursor last same).marked, held.covered⟩
      have found : Found between.ledger cursor { between with read := some between.ledger } := by
        refine ⟨⟨le_refl _, fun _ member beyond _ => ⟨member, beyond⟩⟩, rfl, fun seq same => ?_,
          held.numbered, ?_⟩
        · exact ((passed seq same).later later).below
        · rintro row member beyond ⟨last, same, inside⟩ landing names accepted
          exact ((passed last same).later later).owed row member beyond inside landing names
            accepted
      refine ⟨held, Dialogue.Keeps.ite (fun none => ?_) (fun _ => ?_)⟩
      · refine keeps_note_discovered 0 held found (found.owed fun landing member => ?_)
        rw [show landingsOf (freshRows between.ledger cursor) = [] from none.1] at member
        cases member
      · rintro nowMs _ ⟨ticked, steps, rfl⟩
        have later := (later_of_meanwhile steps).trans (Later.tick nowMs)
        refine ⟨held.later later, ?_⟩
        rintro answer after ⟨stored, more, written⟩
        have further := later.trans (later_of_meanwhile more)
        rcases written with ⟨rfl, rfl⟩ | ⟨store, value, changed, rfl, rfl⟩
        · exact ⟨held.later further, held.later further⟩
        · obtain ⟨tracked, found, owed⟩ :=
            (held.later further).discovered (found.later further) changed
          exact ⟨tracked, keeps_note_discovered value tracked found owed⟩

theorem Tracked.harmless {asked : Request} {answer : Answer asked} (tracked : Tracked world)
    (harmless : Harmless asked) (heard : reactsMeanwhile world asked answer after) :
    Tracked after := by
  obtain ⟨between, steps, answered⟩ := heard
  have held := tracked.later (later_of_meanwhile steps)
  have kept : after = between → Tracked after := by
    rintro rfl
    exact held
  cases asked with
  | now =>
      obtain rfl := answered
      exact held.later (Later.tick answer)
  | readStore => exact kept answered.2
  | mutateStore change =>
      rcases answered with ⟨_, rfl⟩ | ⟨store, value, changed, _, rfl⟩
      · exact held
      · obtain ⟨sheltered, cursor⟩ := harmless _ _ _ _ changed
        exact held.later (Later.replace sheltered cursor)
  | readLedger since =>
      cases answer with
      | rows rows =>
          obtain ⟨_, rfl⟩ := answered
          exact ⟨held.numbered, fun last same => (held.cursor last same).marked, held.covered⟩
      | _ => exact kept answered
  | note event =>
      cases event with
      | discovered => exact harmless.elim
      | _ => exact kept answered
  | _ => exact kept answered

theorem keeps_ask {α : Type} {asked : Request} {more : Answer asked → Watching α}
    (tracked : Tracked world) (harmless : Harmless asked)
    (rest : ∀ answer after, Tracked after →
      Dialogue.Keeps reactsMeanwhile Tracked (fun _ after => Tracked after) (more answer) after) :
    Dialogue.Keeps reactsMeanwhile Tracked (fun _ after => Tracked after) (ask asked >>= more)
      world := by
  intro answer after heard
  have held := tracked.harmless harmless heard
  exact ⟨held, rest answer after held⟩

/-- What housekeeping drops was due by the clock that the pass has read just before. -/
theorem keeps_housekeeping (added : ℕ) (pass : Pass) (tracked : Tracked world) :
    Dialogue.Keeps reactsMeanwhile Tracked (fun _ after => Tracked after) (do
      let nowMs ← ask .now
      let final ← ask (.mutateStore fun store =>
        let kept := housekeeping nowMs store
        some (kept, (kept.watches.filter fun watch => watch.phase ≠ .done).length))
      ask (.note .passEnded)
      pure (⟨final.isSome, final.getD 0, added, pass⟩ : PassResult)) world := by
  rintro nowMs _ ⟨ticked, steps, rfl⟩
  have held := tracked.later ((later_of_meanwhile steps).trans (Later.tick nowMs))
  refine ⟨held, ?_⟩
  rintro answer after ⟨stored, more, written⟩
  have held := held.later (later_of_meanwhile more)
  have tracked : Tracked after := by
    rcases written with ⟨_, rfl⟩ | ⟨store, value, changed, _, rfl⟩
    · exact held
    · obtain ⟨rfl, _⟩ := Prod.mk.inj (Option.some.inj changed)
      refine held.later (Later.replace ?_ rfl)
      rw [show stored.clock = nowMs from clock_of_meanwhile more]
      exact housekeeping_sheltered nowMs stored.store
  exact ⟨tracked, keeps_ask tracked trivial fun _ _ held => held⟩

theorem keeps_advance {maxSuiteRuns : ℕ} (tracked : Tracked world) :
    Dialogue.Keeps reactsMeanwhile Tracked (fun _ after => Tracked after)
      (advancePostMergeWatches maxSuiteRuns) world := by
  have tame : ∀ {α : Type} {talk : Watching α} {world : LedgerWorld}, Tame talk → Tracked world →
      Dialogue.Keeps reactsMeanwhile Tracked (fun _ after => Tracked after) talk world :=
    fun only held => only.keeps (fun _ _ _ _ held harmless => held.harmless harmless) _ held
  unfold advancePostMergeWatches
  rintro stored after ⟨between, steps, read, rfl⟩
  have held := tracked.later (later_of_meanwhile steps)
  refine ⟨held, ?_⟩
  rcases read with rfl | rfl
  · exact held
  show Dialogue.Keeps reactsMeanwhile Tracked (fun _ after => Tracked after)
    (discoverFromLedger after.store.ledgerCursor >>= _) after
  refine Dialogue.Keeps.andThen (keeps_discoverFromLedger held held.cursor) fun added world held =>
    ?_
  refine keeps_ask held trivial fun written world held => ?_
  refine Dialogue.Keeps.ite (fun _ => held) fun _ => ?_
  refine keeps_ask held trivial fun acquired world held => ?_
  refine Dialogue.Keeps.ite (fun _ => held) fun _ => ?_
  refine Dialogue.Keeps.andThen (tame tame_flushPendingLedger held) fun _ world held => ?_
  refine keeps_ask held trivial fun stored world held => ?_
  cases stored with
  | none => exact held
  | some store =>
      refine Dialogue.Keeps.andThen (tame (tame_stepWatches _ _) held) fun pass world held => ?_
      exact keeps_housekeeping added pass held

end

/-! Runs. -/

theorem tracked_start : Tracked ledgerStart.world where
  numbered _ none := absurd none List.not_mem_nil
  cursor _ none := by cases none
  covered _ none := absurd none List.not_mem_nil

/-- Each usable landing that a discovery read in the ledger, and that is numbered beyond the
ledgers archived before, is watched from then on, or its finished watch was dropped. -/
theorem landings_covered {marks : List Unit} {state : Parley LedgerWorld Request Answer PassResult}
    (run : Run DiscoveryStep ledgerStart marks state) {ledger : LedgerState}
    (covered : ledger ∈ state.world.covered) {row : LandedRow} (member : row ∈ ledger.rows)
    (beyond : ledger.archived ≤ row.seq) {landing : LandingRecord}
    (names : row.landing = some landing) (accepted : landingRefusal landing = none) :
    state.world.Accounted landing := by
  have opened : ∀ world dialogue next, Tracked world → OpensAfresh world dialogue next →
      Tracked next ∧ dialogue.Keeps reactsMeanwhile Tracked (fun _ after => Tracked after)
        next := by
    intro world dialogue next held begun
    cases begun with
    | advance maxSuiteRuns =>
        have afresh : Tracked { world with read := none } :=
          ⟨held.numbered, fun last same => (held.cursor last same).marked, held.covered⟩
        exact ⟨afresh, keeps_advance afresh⟩
  have moved : ∀ world after, Tracked world → Meanwhile world after → Tracked after :=
    fun _ _ held move => held.later move.later
  have broke : ∀ world after : LedgerWorld, Tracked world → after = world → Tracked after := by
    rintro _ _ held rfl
    exact held
  have holds := Parley.run_holds opened moved broke run tracked_start
  have tracked : Tracked state.world := by
    unfold Parley.Holds at holds
    cases talk : state.talk with
    | none =>
        rw [talk] at holds
        exact holds
    | some dialogue =>
        rw [talk] at holds
        exact holds.1
  exact tracked.covered ledger covered row member beyond trivial landing names accepted

/-! Courses in which a landing of the ledger goes unwatched. -/

def respondLedger (time : ℤ) (fails : WatchStore → Bool) (world : LedgerWorld) (asked : Request) :
    Answer asked × LedgerWorld :=
  match asked with
  | .now => (time, { world with clock := time })
  | .readStore => (some world.store, world)
  | .mutateStore change =>
      match (change world.store).filter fun next => fails next.1 = false with
      | none => (none, world)
      | some (store, value) => (some value, world.replace store)
  | .readLedger since =>
      (.rows (world.ledger.rows.filter fun row => since.all fun seq => seq ≤ row.seq),
        { world with read := some world.ledger })
  | .note .discovered => ((), { world with covered := world.covered ++ world.read.toList })
  | asked => (calm time .pass asked, world)

theorem reacts_respondLedger {time : ℤ} {fails : WatchStore → Bool} (world : LedgerWorld)
    (asked : Request) (held : True) :
    reactsMeanwhile world asked (respondLedger time fails world asked).1
      (respondLedger time fails world asked).2 ∧ True := by
  refine ⟨⟨world, .refl, ?_⟩, held⟩
  cases asked with
  | readStore => exact ⟨.inr rfl, rfl⟩
  | mutateStore change =>
      cases changed : (change world.store).filter fun next => fails next.1 = false with
      | none =>
          simp only [respondLedger, changed]
          exact .inl ⟨rfl, rfl⟩
      | some next =>
          simp only [respondLedger, changed]
          exact .inr ⟨next.1, next.2, Option.eq_some_of_filter_eq_some changed, rfl, rfl⟩
  | readLedger since => exact ⟨rfl, rfl⟩
  | note event => cases event <;> rfl
  | _ => rfl

abbrev LedgerRun (state : Parley LedgerWorld Request Answer PassResult) : Prop :=
  ∃ marks, Run DiscoveryStep ledgerStart marks state

def playLedgerPass (time : ℤ) (fails : WatchStore → Bool) (count : ℕ) (world : LedgerWorld) :
    Parley LedgerWorld Request Answer PassResult :=
  Parley.play (respondLedger time fails) count
    ⟨{ world with read := none }, some (advancePostMergeWatches 1)⟩

theorem run_playLedgerPass (time : ℤ) (fails : WatchStore → Bool) (count : ℕ) {world : LedgerWorld}
    (run : LedgerRun ⟨world, none⟩) : LedgerRun (playLedgerPass time fails count world) := by
  obtain ⟨marks, run⟩ := run
  have opened := run.snoc (Parley.Step.opened (OpensAfresh.advance 1))
  obtain ⟨_, more, played⟩ := Parley.run_play (@reacts_respondLedger time fails) count
    ⟨{ world with read := none }, some (advancePostMergeWatches 1)⟩ trivial
  exact ⟨_, opened.append played⟩

theorem LedgerRun.closed {state : Parley LedgerWorld Request Answer PassResult}
    (run : LedgerRun state) (ends : state.talk.isNone) : LedgerRun ⟨state.world, none⟩ := by
  rw [← Option.isNone_iff_eq_none.mp ends]
  exact run

theorem LedgerRun.moved {world after : LedgerWorld} (run : LedgerRun ⟨world, none⟩)
    (move : Meanwhile world after) : LedgerRun ⟨after, none⟩ := by
  obtain ⟨marks, run⟩ := run
  exact ⟨_, run.snoc (.moved move)⟩

def append (world : LedgerWorld) (landing : LandingRecord) : LedgerWorld :=
  { world with ledger := { world.ledger with
    rows := world.ledger.rows ++ [⟨world.ledger.nextSeq, some landing⟩]
    nextSeq := world.ledger.nextSeq + 1 } }

def recover (world : LedgerWorld) : LedgerWorld :=
  { world with ledger := ⟨[], 2, max world.ledger.nextSeq world.ledger.archived⟩ }

def coveredWorld : LedgerWorld :=
  (playLedgerPass 0 (fun _ => false) 40
    (append ledgerStart.world (sampleLanding (js "landing-1")))).world

theorem run_coveredWorld : LedgerRun ⟨coveredWorld, none⟩ := by
  have start : LedgerRun ⟨ledgerStart.world, none⟩ := ⟨_, .nil⟩
  exact (run_playLedgerPass 0 _ 40 (start.moved (.landed _))).closed (by decide +kernel)

/-- A pass has just come to its end, and well. -/
def succeeds (state : Parley LedgerWorld Request Answer PassResult) : Bool :=
  match state.talk with
  | some (.done result) => result.ok
  | _ => false

def AfterPasses (rows : LedgerWorld → LandedRow → Prop)
    (kept : LedgerWorld → LandingRecord → Prop) : Prop :=
  ∀ state, LedgerRun state → succeeds state → ∀ row, rows state.world row →
    ∀ landing, row.landing = some landing → landingRefusal landing = none →
      kept state.world landing

def droppingPass : Parley LedgerWorld Request Answer PassResult :=
  playLedgerPass (8 * dayMs) (fun _ => false) 11 coveredWorld

/-- The finished watch went in the second pass. -/
theorem landings_covered_droppingPass :
    droppingPass.world.Accounted (sampleLanding (js "landing-1")) := by
  obtain ⟨marks, run⟩ := run_playLedgerPass (8 * dayMs) (fun _ => false) 11 run_coveredWorld
  have covered : ⟨[⟨1, some (sampleLanding (js "landing-1"))⟩], 2, 0⟩ ∈
      droppingPass.world.covered := by decide +kernel
  exact landings_covered run covered List.mem_cons_self (Nat.zero_le 1) rfl (by decide)

def hiddenWorld : LedgerWorld :=
  append (recover (playLedgerPass 0 (fun _ => false) 40
    (append (append ledgerStart.world (sampleLanding (js "landing-1")))
      (sampleLanding (js "landing-2")))).world) (sampleLanding (js "landing-3"))

theorem run_hiddenWorld : LedgerRun ⟨hiddenWorld, none⟩ := by
  have start : LedgerRun ⟨ledgerStart.world, none⟩ := ⟨_, .nil⟩
  have before := (start.moved (.landed (some (sampleLanding (js "landing-1"))))).moved
    (.landed (some (sampleLanding (js "landing-2"))))
  have first := (run_playLedgerPass 0 (fun _ => false) 40 before).closed (by decide +kernel)
  exact (first.moved .recovered).moved (.landed (some (sampleLanding (js "landing-3"))))

def hidingPass : Parley LedgerWorld Request Answer PassResult :=
  playLedgerPass 0 (fun _ => false) 21 hiddenWorld

/-- The one write that fails is that of the discovery. -/
def missingPass : Parley LedgerWorld Request Answer PassResult :=
  playLedgerPass 0 (fun store => store.ledgerCursor = some 2) 12
    (append coveredWorld (sampleLanding (js "landing-2")))

theorem not_accounted {world : LedgerWorld} {landing : LandingRecord}
    (open' : landing.id ∉ world.store.watches.map fun watch => watch.landing.id)
    (dropped : landing.id ∉ world.dropped) : ¬ world.Accounted landing := by
  rintro (⟨watch, member, same⟩ | gone)
  · exact open' (same ▸ List.mem_map_of_mem member)
  · exact dropped gone

/-- Neither is every landing of the ledger watched behind a pass that succeeds, nor is it where
just one of the three exceptions is left out: that a finished watch was dropped, that the
landing is numbered below an archived ledger, that the discovery could not store it. -/
theorem landing_escapes :
    ¬ AfterPasses (fun world row => row ∈ world.ledger.rows)
      (fun world => world.store.watched) ∧
    ¬ AfterPasses (fun world row => ∃ ledger ∈ world.covered, row ∈ ledger.rows ∧
      ledger.archived ≤ row.seq) (fun world => world.store.watched) ∧
    ¬ AfterPasses (fun world row => ∃ ledger ∈ world.covered, row ∈ ledger.rows)
      LedgerWorld.Accounted ∧
    ¬ AfterPasses (fun world row => row ∈ world.ledger.rows ∧ world.ledger.archived ≤ row.seq)
      LedgerWorld.Accounted := by
  have missed : ¬ AfterPasses
      (fun world row => row ∈ world.ledger.rows ∧ world.ledger.archived ≤ row.seq)
      LedgerWorld.Accounted := by
    intro all
    have member : ⟨2, some (sampleLanding (js "landing-2"))⟩ ∈ missingPass.world.ledger.rows ∧
        missingPass.world.ledger.archived ≤ 2 := by decide +kernel
    have run := run_playLedgerPass 0 (fun store => store.ledgerCursor = some 2) 12
      (run_coveredWorld.moved (.landed (some (sampleLanding (js "landing-2")))))
    exact not_accounted (by decide +kernel) (by decide +kernel)
      (all missingPass run (by decide +kernel) _ member _ rfl (by decide))
  refine ⟨fun all => missed fun state run ends row member landing names accepted =>
    .inl (all state run ends row member.1 landing names accepted), fun all => ?_, fun all => ?_,
    missed⟩
  · have covered : ⟨[⟨1, some (sampleLanding (js "landing-1"))⟩], 2, 0⟩ ∈
        droppingPass.world.covered := by decide +kernel
    have empty : droppingPass.world.store.watches.isEmpty := by decide +kernel
    obtain ⟨watch, member, _⟩ := all droppingPass
      (run_playLedgerPass (8 * dayMs) _ 11 run_coveredWorld) (by decide +kernel) _
      ⟨_, covered, List.mem_cons_self, Nat.zero_le 1⟩ _ rfl (by decide)
    rw [List.isEmpty_iff.mp empty] at member
    cases member
  · have covered : ⟨[⟨2, some (sampleLanding (js "landing-3"))⟩], 3, 3⟩ ∈
        hidingPass.world.covered := by decide +kernel
    exact not_accounted (by decide +kernel) (by decide +kernel)
      (all hidingPass (run_playLedgerPass 0 _ 21 run_hiddenWorld) (by decide +kernel) _
        ⟨_, covered, List.mem_cons_self⟩ _ rfl (by decide))

end AshlrHub.PostMerge

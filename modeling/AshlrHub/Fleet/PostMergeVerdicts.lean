import AshlrHub.Fleet.PostMergeReverts

namespace AshlrHub.PostMerge

open Js Lib

/-! The turn of a landing that is still watched, up to its verdict. -/

def Plain (event : Event) : Prop :=
  event ≠ .passEnded ∧ ∀ landing side observed time stored,
    event ≠ .ci landing side observed time stored

variable {commit : Option CommitInfo}

theorem plain_commit {landing : LandingRecord} :
    Plain (.commit landing commit) := by
  refine ⟨fun same => ?_, fun _ _ _ _ _ same => ?_⟩ <;> cases same

theorem plain_suite {landing : LandingRecord} {side : Side} {run : SuiteResult} :
    Plain (.suite landing side run) := by
  refine ⟨fun same => ?_, fun _ _ _ _ _ same => ?_⟩ <;> cases same

def Reading (events : List Event) (landing : LandingRecord) (observed : CiObservation) : Prop :=
  ∃ front time stored back, events = front ++ .ci landing .merged observed time stored :: back ∧
    ∀ event ∈ back, Plain event

section

variable {events : List Event} {event : Event} {landing : LandingRecord} {observed : CiObservation}

theorem Reading.snoc (reading : Reading events landing observed) (plain : Plain event) :
    Reading (events ++ [event]) landing observed := by
  obtain ⟨front, time, stored, back, rfl, since⟩ := reading
  refine ⟨front, time, stored, back ++ [event], ?_, fun other member => ?_⟩
  · rw [List.append_assoc, List.cons_append]
  · rcases List.mem_append.mp member with member | member
    · exact since other member
    · rw [List.mem_singleton.mp member]
      exact plain

section

variable (reading : Reading events landing observed)
include reading

theorem Reading.ciNotRed (notRed : observed.state ≠ .red) : CiNotRed events landing := by
  obtain ⟨front, time, stored, back, same, since⟩ := reading
  refine ⟨front, observed, time, stored, back, same, notRed, fun member => ?_, ?_⟩
  · exact (since _ member).1 rfl
  · intro other later before member
    exact (since _ member).2 _ _ _ _ _ rfl

theorem Reading.culprit (red : observed.state = .red)
    (failing : observed.failing ≠ []) :
    CulpritCheck events landing := by
  obtain ⟨front, time, stored, back, same, since⟩ := reading
  obtain ⟨check, member⟩ := List.exists_mem_of_ne_nil _ failing
  refine ⟨front, observed, time, stored, back, same, red, check, member, ?_⟩
  intro parent later before read
  exact absurd rfl ((since _ read).2 _ _ _ _ _)

theorem Reading.culprit_parent {parent : CiObservation} {later : ℤ} {before : Option SuiteState}
    (red : observed.state = .red)
    (failing : (if parent.state = .red then
      observed.failing.filter fun name => name ∉ parent.failing else observed.failing) ≠ []) :
    CulpritCheck (events ++ [.ci landing .parent parent later before]) landing := by
  obtain ⟨front, time, stored, back, rfl, since⟩ := reading
  obtain ⟨check, member⟩ := List.exists_mem_of_ne_nil _ failing
  have both : check ∈ observed.failing ∧ (parent.state = .red → check ∉ parent.failing) := by
    by_cases parentRed : parent.state = .red
    · rw [if_pos parentRed, List.mem_filter, decide_eq_true_eq] at member
      exact ⟨member.1, fun _ => member.2⟩
    · rw [if_neg parentRed] at member
      exact ⟨member, fun parentRed' => absurd parentRed' parentRed⟩
  refine ⟨front, observed, time, stored, back ++ [.ci landing .parent parent later before], ?_, red,
    check, both.1, ?_⟩
  · rw [List.append_assoc, List.cons_append]
  · intro other otherTime otherStored read otherRed
    rcases List.mem_append.mp read with read | read
    · exact absurd rfl ((since _ read).2 _ _ _ _ _)
    · cases List.mem_singleton.mp read
      exact both.2 otherRed

end

end

structure Uncharged (events : List Event) (landing : LandingRecord) : Prop where
  unred : ∀ named time, .fleetRed named time ∈ events → named.id ≠ landing.id
  unreverted : ∀ named time, .reverted named time ∈ events → named.id ≠ landing.id

theorem Uncharged.snoc {events : List Event} {event : Event} {landing : LandingRecord}
    (uncharged : Uncharged events landing)
    (uncounted : redRow event = none ∧ revertRow event = none) :
    Uncharged (events ++ [event]) landing where
  unred named time member := by
    rcases List.mem_append.mp member with member | member
    · exact uncharged.unred named time member
    · obtain rfl := List.mem_singleton.mp member
      cases uncounted.1
  unreverted named time member := by
    rcases List.mem_append.mp member with member | member
    · exact uncharged.unreverted named time member
    · obtain rfl := List.mem_singleton.mp member
      cases uncounted.2

section

variable {world : World} {watch : PostMergeWatch} {history : EscalationHistory} {nowMs : ℤ}
  {pass : Pass}

section

variable (during : During watch.landing world.store.history world)
include during

section

variable (paid : ¬ KillOwed world.events)
  (deadline : watch.watchUntil = effectiveWatchUntil watch.landing)
include paid deadline

theorem ends_finalizeGreen {ci : ResultCi}
    (rests : Careful (world.remark (.green watch.landing)).events →
      Rests world.events (.green watch.landing)) :
    Ends (finalizeGreen watch nowMs ci pass) world := by
  unfold finalizeGreen
  refine keeping_remark (fun _ _ reacted => reacted) fun _ careful => ?_
  have sound : Sound (world.remark (.green watch.landing)).events :=
    during.sound.snoc (rests careful) (.inl paid)
  have green : During watch.landing world.store.history
      (world.remark (.green watch.landing)) :=
    during.remark (fun named about => (Option.some.inj about).symm) ⟨rfl, rfl⟩ careful sound
  refine ⟨sound, keeping_ledgerOrQueue sound fun rows => ?_⟩
  refine keeping_saveWatch green (killOwed_snoc.not.mpr id) ?_ fun after tied _ => tied
  exact WatchTied.done green.registered deadline rfl

theorem ends_finalizeRed {outcome : WatchOutcome} :
    Ends (finalizeRed watch history nowMs outcome pass) world := by
  unfold finalizeRed
  refine keeping_ledgerOrQueue during.sound fun rows => ?_
  refine keeping_quarantine during.sound ?_
  refine keeping_saveWatch (during.quarantines _) paid ?_ fun after tied _ => tied
  exact WatchTied.done during.registered deadline rfl

end

theorem ends_finalizeRevertRed (deadline : watch.watchUntil = effectiveWatchUntil watch.landing) :
    Ends (finalizeRevertRed watch nowMs pass) world := by
  unfold finalizeRevertRed
  refine keeping_ledgerOrQueue during.sound fun rows => ?_
  refine keeping_ownerHold during.sound ?_
  refine keeping_softKill during.sound fun rows pass careful sound => ?_
  have killed := during.softKill careful sound
  refine keeping_saveWatch (killed.kills _) not_killOwed_softKill ?_ fun after tied _ => tied
  exact WatchTied.done killed.registered deadline rfl

end

theorem ends_beginRevert {kills : List Kill}
    (during : During watch.landing { world.store.history with
      reds := pushOnce world.store.history.reds
        ⟨watch.landing.repo, nowMs, some watch.landing.id⟩ } world)
    (paid : ¬ KillOwed world.events)
    (deadline : watch.watchUntil = effectiveWatchUntil watch.landing)
    (red : ∃ time, .fleetRed watch.landing time ∈ world.events)
    (unreverted : ∀ named time, .reverted named time ∈ world.events → named.id ≠ watch.landing.id)
    (read : .commit watch.landing commit ∈ world.events) :
    Ends (beginRevert watch kills commit nowMs pass) world := by
  unfold beginRevert
  cases commit with
  | none =>
      refine keeping_saveWatch ((during.quarantines _).kills kills) paid ?_ fun after tied _ => tied
      refine WatchTied.reverted during.registered deadline rfl ⟨red, ?_, unreverted⟩
      intro state stored shown
      cases stored
      cases shown
  | some commit =>
      cases refusal : fleetRevertRefusal commit watch.landing with
      | some refusal =>
          simp only [refusal]
          exact ends_refuseRevert ((during.quarantines _).kills kills) deadline
      | none =>
          simp only [refusal]
          refine keeping_saveWatch ((during.quarantines _).kills kills) paid ?_ ?_
          · refine WatchTied.reverted during.registered deadline rfl ⟨red, ?_, unreverted⟩
            exact fun _ _ _ => ⟨commit, read, refusal⟩
          · intro after tied stored
            exact ends_attemptRevert tied stored rfl

theorem ends_revertCulprit (during : During watch.landing world.store.history world)
    (paid : ¬ KillOwed world.events) (now : world.clock = nowMs)
    (deadline : watch.watchUntil = effectiveWatchUntil watch.landing)
    (uncharged : Uncharged world.events watch.landing)
    (evidence : Evidence world.events watch.landing)
    (read : .commit watch.landing commit ∈ world.events) :
    Ends (revertCulprit watch world.store.history commit nowMs pass) world := by
  subst now
  unfold revertCulprit
  refine keeping_ledgerOrQueue during.sound fun rows => ?_
  refine keeping_quarantine during.sound ?_
  refine keeping_remark (fun _ _ reacted => reacted) fun _ careful => ?_
  have sound : Sound (world.remark (.fleetRed watch.landing world.clock)).events :=
    during.sound.snoc evidence (.inl paid)
  have counted : During watch.landing { world.store.history with
      reds := pushOnce world.store.history.reds
        ⟨watch.landing.repo, world.clock, some watch.landing.id⟩ }
      (world.remark (.fleetRed watch.landing world.clock)) :=
    during.counted (fun named about => (Option.some.inj about).symm)
      (during.history.red uncharged.unred) careful sound
  have due : KillDue world.events (.fleetRed watch.landing world.clock) ↔ _ :=
    killDue_fleetRed during.history
  have red : .fleetRed watch.landing world.clock ∈
      (world.remark (.fleetRed watch.landing world.clock)).events :=
    List.mem_append_right _ (List.mem_singleton.mpr rfl)
  have unreverted : ∀ named time, .reverted named time ∈
      (world.remark (.fleetRed watch.landing world.clock)).events →
        named.id ≠ watch.landing.id := by
    intro named time member
    rcases List.mem_append.mp member with member | member
    · exact uncharged.unreverted named time member
    · cases List.mem_singleton.mp member
  have known := List.mem_append_left [.fleetRed watch.landing world.clock] read
  refine ⟨sound, keeping_ite (fun _ => ?_) (fun few => ?_)⟩
  · refine keeping_softKill sound fun rows pass careful sound => ?_
    refine ends_beginRevert (counted.softKill careful sound) not_killOwed_softKill deadline
      ⟨_, List.mem_append_left _ red⟩ ?_ (List.mem_append_left _ known)
    intro named time member
    rcases List.mem_append.mp member with member | member
    · exact unreverted named time member
    · cases List.mem_singleton.mp member
  · have paid : ¬ KillOwed (world.remark (.fleetRed watch.landing world.clock)).events :=
      killOwed_snoc.not.mpr (due.not.mpr few)
    exact ends_beginRevert counted paid deadline ⟨_, red⟩ unreverted known

end

/-! Red. -/

structure SuiteTied (events : List Event) (landing : LandingRecord) (suite : SuiteState) :
    Prop where
  twice : suite.state = .fail → 2 ≤ events.count (.suite landing .merged .fail)
  settled : suite.state ≠ .fail → suite.unconfirmedFail = false → Settled events landing
  confirmed : suite.state = .pass → suite.unconfirmedFail = false
  failed : suite.unconfirmedFail = true → .suite landing .merged .fail ∈ events

theorem SuiteTied.snoc {events : List Event} {event : Event} {landing : LandingRecord}
    {suite : SuiteState} (tied : SuiteTied events landing suite)
    (other : event ≠ .suite landing .merged .fail) :
    SuiteTied (events ++ [event]) landing suite where
  twice fail := by
    rw [List.count_append]
    exact (tied.twice fail).trans (Nat.le_add_right _ _)
  settled notFail clean := (tied.settled notFail clean).append fun member =>
    other (List.mem_singleton.mp member).symm
  confirmed := tied.confirmed
  failed unconfirmed := List.mem_append_left _ (tied.failed unconfirmed)

structure Charging (watch : PostMergeWatch) (world : World) : Prop where
  during : During watch.landing world.store.history world
  paid : ¬ KillOwed world.events
  deadline : watch.watchUntil = effectiveWatchUntil watch.landing
  uncharged : Uncharged world.events watch.landing
  suite : SuiteTied world.events watch.landing watch.suite

def Beside (world after : World) : Prop :=
  after.clock = world.clock ∧ after.store = world.store ∧ world.events ⊆ after.events

theorem Beside.refl (world : World) : Beside world world := ⟨rfl, rfl, fun _ => id⟩

theorem Beside.remark (world : World) (event : Event) : Beside world (world.remark event) :=
  ⟨rfl, rfl, List.subset_append_left world.events [event]⟩

theorem Beside.trans {world middle after : World} (first : Beside world middle)
    (second : Beside middle after) : Beside world after :=
  ⟨second.1.trans first.1, second.2.1.trans first.2.1, List.Subset.trans first.2.2 second.2.2⟩

structure Observation (landing : LandingRecord) (event : Event) : Prop where
  about : event.landing? = some landing
  uncounted : redRow event = none ∧ revertRow event = none
  rests : ∀ events, Rests events event
  due : ∀ events, ¬ KillDue events event

section

variable {world : World} {watch : PostMergeWatch} {event : Event}

theorem Charging.snoc (charging : Charging watch world) (seen : Observation watch.landing event)
    (careful : Careful (world.remark event).events) {suite : SuiteState}
    (tied : SuiteTied (world.remark event).events watch.landing suite) :
    Charging (watch.withSuite suite) (world.remark event) where
  during := charging.during.remark
    (fun _ about => (Option.some.inj (seen.about.symm.trans about)).symm) seen.uncounted careful
    (charging.during.sound.snoc (seen.rests _) (.inl charging.paid))
  paid := killOwed_snoc.not.mpr (seen.due _)
  deadline := charging.deadline
  uncharged := charging.uncharged.snoc seen.uncounted
  suite := tied

variable {α : Type} {final : α → World → Prop} {observed : CiObservation}
  {parent : Option JsString} {pass : Pass}

section

variable (charging : Charging watch world)
include charging

theorem keeping_culpritChecks (ci : watch.ci = some observed)
    (reading : Reading world.events watch.landing observed) :
    Keeping (fun culprits after => Charging watch after ∧ Beside world after ∧
      (culprits ≠ [] → CulpritCheck after.events watch.landing))
      (culpritChecks watch parent) world := by
  unfold culpritChecks
  simp only [ci]
  refine keeping_ite (fun red => ?_) (fun _ => ⟨charging, Beside.refl world, absurd rfl⟩)
  cases parent with
  | none => exact ⟨charging, Beside.refl world, reading.culprit red⟩
  | some sha =>
      refine keeping_remark (fun _ _ reacted => reacted) fun parentCi careful => ?_
      have seen : Observation watch.landing (.ci watch.landing .parent parentCi world.clock
          ((world.store.find watch.landing.id).map PostMergeWatch.suite)) :=
        ⟨rfl, ⟨rfl, rfl⟩, fun _ => trivial, fun _ => id⟩
      have later := charging.snoc seen careful (charging.suite.snoc nofun)
      exact ⟨later.during.sound, later, Beside.remark world _, reading.culprit_parent red⟩

theorem keeping_parentSuite :
    Keeping (fun value after => ∃ suite, value.1 = watch.withSuite suite ∧
      Charging (watch.withSuite suite) after ∧ Beside world after ∧
        (CulpritCheck world.events watch.landing → CulpritCheck after.events watch.landing))
      (parentSuite watch parent pass) world := by
  unfold parentSuite
  split
  · rename_i sha failed unrun
    refine keeping_silent (fun _ _ reacted => reacted) charging.during.sound fun killed => ?_
    refine keeping_ite (fun _ => ?_) (fun _ => ⟨watch.suite, rfl, charging, Beside.refl world, id⟩)
    refine keeping_silent (fun _ _ reacted => reacted) charging.during.sound fun aborted => ?_
    refine keeping_ite (fun _ => ⟨watch.suite, rfl, charging, Beside.refl world, id⟩) (fun _ => ?_)
    refine keeping_remark (fun _ _ reacted => reacted) fun run careful => ?_
    have seen : Observation watch.landing (.suite watch.landing .parent run) :=
      ⟨rfl, ⟨rfl, rfl⟩, fun _ => trivial, fun _ => id⟩
    have suite : SuiteTied (world.remark (.suite watch.landing .parent run)).events watch.landing
        watch.suite := charging.suite.snoc nofun
    have later : Charging (watch.withSuite { watch.suite with parent := some run })
        (world.remark (.suite watch.landing .parent run)) :=
      charging.snoc seen careful ⟨suite.twice, suite.settled, suite.confirmed, suite.failed⟩
    refine ⟨later.during.sound, _, rfl, later, Beside.remark world _, ?_⟩
    intro culprit
    refine culprit.append ?_
    intro other time stored member
    cases List.mem_singleton.mp member
  · exact ⟨watch.suite, rfl, charging, Beside.refl world, id⟩

section

variable (ci : watch.ci = some observed) (reading : Reading world.events watch.landing observed)
include ci reading

theorem ends_attributeRed (read : .commit watch.landing commit ∈ world.events) :
    Ends (attributeRed watch world.store.history commit world.clock pass) world := by
  unfold attributeRed
  refine keeping_andThen _ (keeping_culpritChecks charging ci reading) ?_
  rintro culprits middle ⟨charging, beside, culprit⟩
  refine keeping_andThen _ (keeping_parentSuite charging) ?_
  rintro ⟨_, pass⟩ after ⟨suite, rfl, charging, further, carried⟩
  have all := beside.trans further
  have history : after.store.history = world.store.history := by rw [all.2.1]
  refine keeping_ite (fun red => ?_) (fun _ => ?_)
  · have evidence : Evidence after.events watch.landing := by
      rcases red with named | ⟨failed, _⟩
      · exact .inr (carried (culprit named))
      · exact .inl (charging.suite.twice failed)
    rw [← history, ← all.1]
    exact ends_revertCulprit charging.during charging.paid rfl charging.deadline
      charging.uncharged evidence (all.2.2 read)
  · exact ends_finalizeRed charging.during charging.paid charging.deadline

theorem ends_onRed :
    Ends (onRed watch world.store.history pass) world := by
  unfold onRed
  refine keeping_now charging.during.sound fun nowMs after => ?_
  have ticked : Charging watch { world with clock := nowMs } :=
    ⟨charging.during.tick after, charging.paid, charging.deadline, charging.uncharged,
      charging.suite⟩
  refine keeping_ite (fun _ => ?_) fun _ => ?_
  · exact ends_finalizeRevertRed ticked.during ticked.deadline
  refine keeping_remark (fun _ _ reacted => reacted) fun commit careful => ?_
  have seen : Observation watch.landing (.commit watch.landing commit) :=
    ⟨rfl, ⟨rfl, rfl⟩, fun _ => trivial, fun _ => id⟩
  have suite : SuiteTied (({ world with clock := nowMs } : World).remark
      (.commit watch.landing commit)).events watch.landing watch.suite := ticked.suite.snoc nofun
  have read : Charging watch (({ world with clock := nowMs } : World).remark
      (.commit watch.landing commit)) := ticked.snoc seen careful suite
  have known : .commit watch.landing commit ∈
      (({ world with clock := nowMs } : World).remark (.commit watch.landing commit)).events :=
    List.mem_append_right _ (List.mem_singleton.mpr rfl)
  exact ⟨read.during.sound, ends_attributeRed read ci (reading.snoc plain_commit) known⟩

end

end

end

/-! The suite. -/

section

variable {events : List Event} {landing : LandingRecord} {suite : SuiteState} {run : SuiteResult}

theorem SuiteTied.settle (tied : SuiteTied events landing suite) (notFailed : suite.state ≠ .fail)
    (passed : run = .pass ∨ (run = .notRun ∧ suite.unconfirmedFail = false)) :
    SuiteTied (events ++ [.suite landing .merged run]) landing (suite.settle run) where
  twice fail := by
    rcases passed with rfl | ⟨rfl, _⟩ <;> cases fail
  settled _ _ := by
    rcases passed with rfl | ⟨rfl, clean⟩
    · exact settled_of_pass
    · refine (tied.settled notFailed clean).append fun member => ?_
      cases List.mem_singleton.mp member
  confirmed _ := rfl
  failed unconfirmed := by cases unconfirmed

theorem SuiteTied.settle_fail (before : .suite landing .merged .fail ∈ events) :
    SuiteTied (events ++ [.suite landing .merged .fail]) landing (suite.settle .fail) where
  twice _ := by
    have once := List.count_pos_iff.mpr before
    rw [List.count_append, List.count_singleton_self]
    exact Nat.succ_le_succ once
  settled notFail := absurd rfl notFail
  confirmed _ := rfl
  failed unconfirmed := by cases unconfirmed

theorem SuiteTied.more (tied : SuiteTied events landing suite) (runs : ℕ) :
    SuiteTied events landing { suite with runs := runs } :=
  ⟨tied.twice, tied.settled, tied.confirmed, tied.failed⟩

theorem SuiteTied.waiting {watch : PostMergeWatch}
    (tied : SuiteTied events watch.landing watch.suite) (notFailed : watch.suite.state ≠ .fail)
    (uncharged : Uncharged events watch.landing) : Waiting events watch where
  notFailed := notFailed
  confirmed := tied.confirmed
  settled := tied.settled notFailed
  failed := tied.failed
  unred := uncharged.unred
  unreverted := uncharged.unreverted

theorem Waiting.suiteTied {watch : PostMergeWatch} (waiting : Waiting events watch) :
    SuiteTied events watch.landing watch.suite where
  twice fail := absurd fail waiting.notFailed
  settled _ := waiting.settled
  confirmed := waiting.confirmed
  failed := waiting.failed

theorem observation_suite {side : Side} : Observation landing (.suite landing side run) :=
  ⟨rfl, ⟨rfl, rfl⟩, fun _ => trivial, fun _ => id⟩

end

structure Judging (watch : PostMergeWatch) (observed : CiObservation) (world : World) : Prop where
  charging : Charging watch world
  ci : watch.ci = some observed
  reading : Reading world.events watch.landing observed
  phase : watch.phase = .watching

section

variable {world : World} {watch : PostMergeWatch} {observed : CiObservation} {pass : Pass}

section

variable (charging : Charging watch world) (phase : watch.phase = .watching)
  (notFailed : watch.suite.state ≠ .fail)
include charging phase notFailed

theorem Charging.watchTied : WatchTied world.events watch where
  registered := charging.during.registered
  deadline := charging.deadline
  waiting _ := charging.suite.waiting notFailed charging.uncharged
  reverting begun := by
    rw [phase] at begun
    cases begun

theorem ends_waitFor :
    Keeping (fun value after => value.1 = none ∧ Tied after) (waitFor watch pass) world := by
  unfold waitFor
  exact keeping_saveWatch charging.during charging.paid (charging.watchTied phase notFailed)
    fun after tied _ => ⟨rfl, tied⟩

end

theorem Charging.read (charging : Charging watch world) (observed : CiObservation) (nowMs : ℤ)
    (phase : watch.phase = .watching) {stored : Option SuiteState}
    (careful : Careful
      (world.remark (.ci watch.landing .merged observed world.clock stored)).events) :
    Judging { watch with ci := some observed, lastCheckedAt := some nowMs } observed
      (world.remark (.ci watch.landing .merged observed world.clock stored)) := by
  have seen : Observation watch.landing
      (.ci watch.landing .merged observed world.clock stored) :=
    ⟨rfl, ⟨rfl, rfl⟩, fun _ => trivial, fun _ => id⟩
  have suite : SuiteTied (world.remark (.ci watch.landing .merged observed world.clock
      stored)).events watch.landing watch.suite := charging.suite.snoc nofun
  have later := charging.snoc seen careful suite
  exact ⟨⟨later.during, later.paid, later.deadline, later.uncharged, later.suite⟩, rfl,
    ⟨world.events, world.clock, stored, [], rfl, fun _ none => absurd none List.not_mem_nil⟩, phase⟩

def Ran (watch : PostMergeWatch) (observed : CiObservation) (world : World)
    (value : Option PostMergeWatch × Pass) (after : World) : Prop :=
  (value.1 = none ∧ Tied after) ∨ ∃ suite, value.1 = some (watch.withSuite suite) ∧
    Judging (watch.withSuite suite) observed after ∧ Beside world after ∧
      suite.unconfirmedFail = false

theorem Judging.snoc (judging : Judging watch observed world) {run : SuiteResult}
    {suite : SuiteState}
    (careful : Careful (world.remark (.suite watch.landing .merged run)).events)
    (tied : SuiteTied (world.remark (.suite watch.landing .merged run)).events watch.landing suite)
      :
    Judging (watch.withSuite suite) observed (world.remark (.suite watch.landing .merged run)) where
  charging := judging.charging.snoc observation_suite careful tied
  ci := judging.ci
  reading := judging.reading.snoc plain_suite
  phase := judging.phase

theorem SuiteTied.unconfirmed {events : List Event} {landing : LandingRecord} {suite : SuiteState}
    (failed : .suite landing .merged .fail ∈ events)
    (wanted : suite.state ≠ .fail ∧ suite.state ≠ .pass) (clear : suite.unconfirmedFail = true) :
    SuiteTied events landing suite where
  twice fail := absurd fail wanted.1
  settled _ clean := by
    rw [clear] at clean
    cases clean
  confirmed pass := absurd pass wanted.2
  failed _ := failed

theorem keeping_runSuite (judging : Judging watch observed world)
    (wanted : watch.suite.state ≠ .fail ∧ watch.suite.state ≠ .pass) :
    Keeping (Ran watch observed world) (runSuite watch pass) world := by
  have suite := judging.charging.suite
  unfold runSuite
  refine keeping_remark (fun _ _ reacted => reacted) fun run careful => ?_
  have ran : .suite watch.landing .merged run ∈
      (world.remark (.suite watch.landing .merged run)).events :=
    List.mem_append_right _ (List.mem_singleton.mpr rfl)
  refine ⟨judging.charging.during.sound.snoc trivial (.inl judging.charging.paid), ?_⟩
  refine keeping_ite (fun first => ?_) (fun known => keeping_ite (fun idle => ?_) (fun more => ?_))
  · obtain ⟨rfl, _⟩ := first
    have once : SuiteTied (world.remark (.suite watch.landing .merged .fail)).events watch.landing
        { watch.suite with runs := watch.suite.runs + 1, unconfirmedFail := true } :=
      SuiteTied.unconfirmed ran wanted rfl
    have later := judging.snoc careful once
    refine keeping_ite (fun _ => ?_) (fun _ => ?_)
    · exact (ends_waitFor later.charging later.phase wanted.1).imp _ fun _ _ => .inl
    refine keeping_remark (fun _ _ reacted => reacted) fun again careful => ?_
    refine ⟨later.charging.during.sound.snoc trivial (.inl later.charging.paid), ?_⟩
    have beside := (Beside.remark world (.suite watch.landing .merged .fail)).trans
      (Beside.remark _ (.suite watch.landing .merged again))
    cases again with
    | pass =>
        have settled := (once.more (watch.suite.runs + 1 + 1)).settle wanted.1 (.inl rfl)
        exact .inr ⟨_, rfl, later.snoc careful settled, beside, rfl⟩
    | fail => exact .inr ⟨_, rfl, later.snoc careful (SuiteTied.settle_fail ran), beside, rfl⟩
    | notRun =>
        have last : Judging (watch.withSuite { watch.suite with
            runs := watch.suite.runs + 1 + 1, unconfirmedFail := true }) observed _ :=
          later.snoc careful (SuiteTied.unconfirmed (List.mem_append_left _ ran) wanted rfl)
        exact (ends_waitFor last.charging last.phase wanted.1).imp _ fun _ _ => .inl
  · obtain ⟨rfl, unconfirmed⟩ := idle
    have before := List.mem_append_left [.suite watch.landing .merged .notRun]
      (suite.failed unconfirmed)
    have later : Judging (watch.withSuite { watch.suite with
        runs := watch.suite.runs + 1, infraAttempts := watch.suite.infraAttempts + 1 }) observed
          _ :=
      judging.snoc careful (SuiteTied.unconfirmed before wanted unconfirmed)
    exact (ends_waitFor later.charging later.phase wanted.1).imp _ fun _ _ => .inl
  · have beside := Beside.remark world (.suite watch.landing .merged run)
    cases run with
    | pass =>
        have settled := (suite.more (watch.suite.runs + 1)).settle wanted.1 (.inl rfl)
        exact .inr ⟨_, rfl, judging.snoc careful settled, beside, rfl⟩
    | fail =>
        have before : .suite watch.landing .merged .fail ∈ world.events := by
          refine suite.failed ?_
          by_contra clean
          exact known ⟨rfl, Bool.eq_false_iff.mpr clean⟩
        exact .inr ⟨_, rfl, judging.snoc careful (SuiteTied.settle_fail before), beside, rfl⟩
    | notRun =>
        have clean : watch.suite.unconfirmedFail = false := by
          refine Bool.eq_false_iff.mpr fun unconfirmed => ?_
          exact more ⟨rfl, unconfirmed⟩
        have settled := (suite.more (watch.suite.runs + 1)).settle wanted.1 (.inr ⟨rfl, clean⟩)
        exact .inr ⟨_, rfl, judging.snoc careful settled, beside, rfl⟩

end

end AshlrHub.PostMerge

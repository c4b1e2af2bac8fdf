import AshlrHub.Fleet.PostMergeWorld

namespace AshlrHub.PostMerge

open Js Lib

/-! What the store of the watch keeps of the events so far. -/

variable {events added first second : List Event} {event : Event} {landing : LandingRecord}

def Event.landing? : Event → Option LandingRecord
  | .registered landing => some landing
  | .ci landing _ _ _ _ => some landing
  | .suite landing _ _ => some landing
  | .commit landing _ => some landing
  | .green landing => some landing
  | .fleetRed landing _ => some landing
  | .revertRequested landing => some landing
  | .reverted landing _ => some landing
  | .softKill => none
  | .discovered => none
  | .passEnded => none

def Silent (events : List Event) (landing : LandingRecord) : Prop :=
  ∀ event ∈ events, ∀ named, event.landing? = some named → named.id ≠ landing.id

/-! Justifications carry over to longer courses. -/

theorem Sound.nil : Sound [] := by
  intro front event back same
  exact absurd same (List.append_ne_nil_of_right_ne_nil front (List.cons_ne_nil _ _)).symm

theorem Sound.snoc (sound : Sound events) (rests : Rests events event)
    (paid : ¬ KillOwed events ∨ event = .softKill) : Sound (events ++ [event]) := by
  intro front middle back same
  rcases List.eq_nil_or_concat back with rfl | ⟨init, last, rfl⟩
  · obtain ⟨rfl, tail⟩ := List.append_inj' same rfl
    obtain rfl := List.singleton_inj.mp tail
    exact ⟨rests, fun _ more => absurd rfl more⟩
  · rw [List.concat_eq_append, ← List.cons_append, ← List.append_assoc] at same
    obtain ⟨rfl, tail⟩ := List.append_inj' same rfl
    obtain rfl := List.singleton_inj.mp tail
    obtain ⟨held, follows⟩ := sound front middle init rfl
    refine ⟨held, fun due _ => ?_⟩
    cases init with
    | nil =>
        rcases paid with paid | rfl
        · exact absurd ⟨front, middle, rfl, due⟩ paid
        · exact ⟨[], rfl⟩
    | cons next init =>
        obtain ⟨rest, begins⟩ := follows due (List.cons_ne_nil next init)
        obtain ⟨rfl, rfl⟩ := List.cons.inj begins
        exact ⟨init ++ [event], List.concat_eq_append⟩

theorem not_killOwed_nil : ¬ KillOwed [] := by
  rintro ⟨front, event, same, _⟩
  exact List.append_ne_nil_of_right_ne_nil front (List.cons_ne_nil event []) same.symm

theorem killOwed_snoc : KillOwed (events ++ [event]) ↔ KillDue events event := by
  constructor
  · rintro ⟨front, last, same, due⟩
    obtain ⟨rfl, tail⟩ := List.append_inj' same rfl
    obtain rfl := List.singleton_inj.mp tail
    exact due
  · intro due
    exact ⟨events, event, rfl, due⟩

theorem append_split {front back : List Event} (same : first ++ second = front ++ event :: back) :
    (∃ rest, first = front ++ event :: rest ∧ back = rest ++ second) ∨
      ∃ more, second = more ++ event :: back ∧ front = first ++ more := by
  rcases List.append_eq_append_iff.mp same with ⟨more, rfl, rest⟩ | ⟨more, rfl, rest⟩
  · exact .inr ⟨more, rest, rfl⟩
  · cases more with
    | nil =>
        refine .inr ⟨[], rest.symm, ?_⟩
        rw [List.append_nil, List.append_nil]
    | cons next more =>
        obtain ⟨rfl, rfl⟩ := List.cons.inj rest
        exact .inl ⟨more, rfl, rfl⟩

theorem Settled.append (settled : Settled events landing)
    (none : .suite landing .merged .fail ∉ added) : Settled (events ++ added) landing := by
  intro front back same
  rcases append_split same with ⟨rest, held, rfl⟩ | ⟨more, held, _⟩
  · exact List.mem_append_left _ (settled front rest held)
  · exact absurd (held ▸ List.mem_append_right _ List.mem_cons_self) none

theorem settled_of_absent (absent : .suite landing .merged .fail ∉ events) :
    Settled events landing := by
  intro front back same
  exact absurd (same ▸ List.mem_append_right _ List.mem_cons_self) absent

theorem settled_of_pass : Settled (events ++ [.suite landing .merged .pass]) landing := by
  intro front back same
  rcases append_split same with ⟨rest, _, rfl⟩ | ⟨more, held, _⟩
  · exact List.mem_append_right _ List.mem_cons_self
  · cases more with
    | nil => cases held
    | cons _ more =>
        have long := congrArg List.length held
        simp only [List.length_cons, List.length_append, List.length_nil] at long
        omega

theorem CulpritCheck.append (culprit : CulpritCheck events landing)
    (none : ∀ parent time stored, .ci landing .parent parent time stored ∉ added) :
    CulpritCheck (events ++ added) landing := by
  obtain ⟨front, observed, time, stored, back, rfl, red, check, failing, unexcused⟩ := culprit
  refine ⟨front, observed, time, stored, back ++ added, ?_, red, check, failing, ?_⟩
  · rw [List.append_assoc, List.cons_append]
  · intro parent later before member
    rcases List.mem_append.mp member with member | member
    · exact unexcused parent later before member
    · exact absurd member (none parent later before)

theorem Proven.append (proven : Proven events landing) : Proven (events ++ added) landing := by
  obtain ⟨commit, read, allowed⟩ := proven
  exact ⟨commit, List.mem_append_left _ read, allowed⟩

/-! The history. -/

theorem historyOf_append : historyOf (events ++ added) =
    ⟨[], (historyOf events).reds ++ (historyOf added).reds,
      (historyOf events).reverts ++ (historyOf added).reverts, []⟩ := by
  simp only [historyOf, List.filterMap_append]

variable {time : ℤ}

theorem recentRows_append {rows more : List HistoryRow} :
    recentRows time (rows ++ more) = recentRows time rows ++ recentRows time more :=
  List.filter_append rows more

theorem recentRows_later {later : ℤ} (after : time ≤ later) {rows : List HistoryRow}
    (timed : ∀ row ∈ rows, row.atTime ≤ time) :
    recentRows later rows = (recentRows time rows).filter fun row =>
      later - row.atTime < historyRetentionMs := by
  unfold recentRows
  rw [List.filter_filter]
  refine List.filter_congr fun row member => ?_
  have early := timed row member
  rw [decide_eq_true early, decide_eq_true (early.trans after), Bool.true_and, Bool.true_and]
  by_cases recent : later - row.atTime < historyRetentionMs
  · have before : time - row.atTime < historyRetentionMs := by omega
    rw [decide_eq_true recent, decide_eq_true before]
    rfl
  · rw [decide_eq_false recent, Bool.false_and]

theorem withinWindow_recent {window : ℤ} (short : window ≤ historyRetentionMs)
    (rows : List HistoryRow) :
    withinWindow rows time window = withinWindow (recentRows time rows) time window := by
  unfold withinWindow recentRows
  rw [List.filter_filter]
  refine List.filter_congr fun row _ => ?_
  by_cases early : row.atTime ≤ time
  · by_cases recent : time - row.atTime < window
    · have kept : time - row.atTime < historyRetentionMs := by omega
      simp [early, recent, kept]
    · simp [recent]
  · simp [early]

structure RowsTied (clock : ℤ) (stored were : List HistoryRow) : Prop where
  recent : recentRows clock stored = recentRows clock were
  known : ∀ row ∈ stored, row ∈ were
  timed : ∀ row ∈ were, row.atTime ≤ clock

namespace RowsTied

variable {clock later : ℤ} {stored were : List HistoryRow} {row : HistoryRow}

section

variable (tied : RowsTied clock stored were)
include tied

theorem advance (after : clock ≤ later) :
    RowsTied later stored were where
  recent := by
    rw [recentRows_later after tied.timed,
      recentRows_later after fun row member => tied.timed row (tied.known row member), tied.recent]
  known := tied.known
  timed row member := (tied.timed row member).trans after

theorem push (now : row.atTime ≤ clock)
    (fresh : ∀ other ∈ were, other.landingId ≠ row.landingId) :
    RowsTied clock (pushOnce stored row) (were ++ [row]) := by
  have pushed : pushOnce stored row = stored ++ [row] := by
    unfold pushOnce
    refine if_neg fun both => ?_
    obtain ⟨other, member, same⟩ := List.any_eq_true.mp both.2
    rw [Bool.and_eq_true, decide_eq_true_eq] at same
    exact fresh other (tied.known other member) same.1
  rw [pushed]
  refine ⟨?_, ?_, ?_⟩
  · rw [recentRows_append, recentRows_append, tied.recent]
  · intro other member
    rcases List.mem_append.mp member with member | member
    · exact List.mem_append_left _ (tied.known other member)
    · exact List.mem_append_right _ member
  · intro other member
    rcases List.mem_append.mp member with member | member
    · exact tied.timed other member
    · rw [List.mem_singleton.mp member]
      exact now

theorem prune (room : (recentRows clock were).length ≤ maxHistoryRows) :
    RowsTied clock (keepRecent HistoryRow.atTime clock stored) were := by
  have kept : keepRecent HistoryRow.atTime clock stored = recentRows clock stored := by
    have early : (stored.filter fun row => clock - row.atTime < historyRetentionMs) =
        recentRows clock stored := by
      refine List.filter_congr fun row member => ?_
      rw [decide_eq_true (tied.timed row (tied.known row member)), Bool.true_and]
    have short : (recentRows clock stored).length - maxHistoryRows = 0 := by
      rw [tied.recent]
      omega
    rw [keepRecent, early, lastRows, short, List.drop_zero]
  rw [kept]
  refine ⟨?_, ?_, tied.timed⟩
  · have twice : recentRows clock (recentRows clock stored) = recentRows clock stored := by
      unfold recentRows
      rw [List.filter_filter]
      simp only [Bool.and_self]
    rw [twice, tied.recent]
  · intro row member
    exact tied.known row (List.mem_of_mem_filter member)

end

theorem within (tied : RowsTied clock stored were) {window : ℤ}
    (short : window ≤ historyRetentionMs) :
    withinWindow stored clock window = withinWindow were clock window := by
  rw [withinWindow_recent short, tied.recent, ← withinWindow_recent short]

end RowsTied

structure HistoryTied (clock : ℤ) (history : EscalationHistory) (events : List Event) : Prop where
  reds : RowsTied clock history.reds (historyOf events).reds
  reverts : RowsTied clock history.reverts (historyOf events).reverts

theorem HistoryTied.advance {clock later : ℤ} {history : EscalationHistory}
    (tied : HistoryTied clock history events) (after : clock ≤ later) :
    HistoryTied later history events :=
  ⟨tied.reds.advance after, tied.reverts.advance after⟩

def Uncounted (events : List Event) : Prop :=
  ∀ event ∈ events, redRow event = none ∧ revertRow event = none

theorem historyOf_uncounted (uncounted : Uncounted added) : historyOf added = emptyHistory := by
  have reds : added.filterMap redRow = [] :=
    List.filterMap_eq_nil_iff.mpr fun event member => (uncounted event member).1
  have reverts : added.filterMap revertRow = [] :=
    List.filterMap_eq_nil_iff.mpr fun event member => (uncounted event member).2
  rw [historyOf, reds, reverts]
  rfl

theorem historyOf_append_uncounted (uncounted : Uncounted added) :
    historyOf (events ++ added) = historyOf events := by
  rw [historyOf_append, historyOf_uncounted uncounted]
  simp [historyOf, emptyHistory]

theorem HistoryTied.append {clock : ℤ} {history : EscalationHistory}
    (tied : HistoryTied clock history events) (uncounted : Uncounted added) :
    HistoryTied clock history (events ++ added) := by
  obtain ⟨reds, reverts⟩ := tied
  exact ⟨by rw [historyOf_append_uncounted uncounted]; exact reds,
    by rw [historyOf_append_uncounted uncounted]; exact reverts⟩

/-! Watches. -/

structure Waiting (events : List Event) (watch : PostMergeWatch) : Prop where
  notFailed : watch.suite.state ≠ .fail
  confirmed : watch.suite.state = .pass → watch.suite.unconfirmedFail = false
  settled : watch.suite.unconfirmedFail = false → Settled events watch.landing
  failed : watch.suite.unconfirmedFail = true → .suite watch.landing .merged .fail ∈ events
  unred : ∀ landing time, .fleetRed landing time ∈ events → landing.id ≠ watch.landing.id
  unreverted : ∀ landing time, .reverted landing time ∈ events → landing.id ≠ watch.landing.id

structure Reverting (events : List Event) (watch : PostMergeWatch) : Prop where
  red : ∃ time, .fleetRed watch.landing time ∈ events
  proven : ∀ state, watch.revert = some state → state.authorshipProven = true →
    Proven events watch.landing
  unreverted : ∀ landing time, .reverted landing time ∈ events → landing.id ≠ watch.landing.id

structure WatchTied (events : List Event) (watch : PostMergeWatch) : Prop where
  registered : .registered watch.landing ∈ events
  deadline : watch.watchUntil = effectiveWatchUntil watch.landing
  waiting : watch.phase = .watching → Waiting events watch
  reverting : watch.phase = .reverting → Reverting events watch

theorem Silent.not_mem {named : LandingRecord} (silent : Silent added landing)
    (same : named.id = landing.id) {event : Event} (about : event.landing? = some named) :
    event ∉ added :=
  fun member => silent event member named about same

section

variable {watch : PostMergeWatch}

theorem unnamed_append {make : LandingRecord → ℤ → Event}
    (about : ∀ named time, (make named time).landing? = some named)
    (unnamed : ∀ named time, make named time ∈ events → named.id ≠ landing.id)
    (silent : Silent added landing) :
    ∀ named time, make named time ∈ events ++ added → named.id ≠ landing.id := by
  intro named time member
  rcases List.mem_append.mp member with member | member
  · exact unnamed named time member
  · exact silent _ member named (about named time)

theorem Waiting.append (waiting : Waiting events watch) (silent : Silent added watch.landing) :
    Waiting (events ++ added) watch where
  notFailed := waiting.notFailed
  confirmed := waiting.confirmed
  settled clean := (waiting.settled clean).append (silent.not_mem rfl rfl)
  failed unconfirmed := List.mem_append_left _ (waiting.failed unconfirmed)
  unred := unnamed_append (fun _ _ => rfl) waiting.unred silent
  unreverted := unnamed_append (fun _ _ => rfl) waiting.unreverted silent

theorem Reverting.append (reverting : Reverting events watch)
    (silent : Silent added watch.landing) : Reverting (events ++ added) watch where
  red := by
    obtain ⟨time, member⟩ := reverting.red
    exact ⟨time, List.mem_append_left _ member⟩
  proven state stored shown := (reverting.proven state stored shown).append
  unreverted := unnamed_append (fun _ _ => rfl) reverting.unreverted silent

theorem WatchTied.append (tied : WatchTied events watch) (silent : Silent added watch.landing) :
    WatchTied (events ++ added) watch where
  registered := List.mem_append_left _ tied.registered
  deadline := tied.deadline
  waiting phase := (tied.waiting phase).append silent
  reverting phase := (tied.reverting phase).append silent

theorem WatchTied.queued (tied : WatchTied events watch) (rows : List PendingLedgerRow) :
    WatchTied events { watch with pendingLedger := rows } where
  registered := tied.registered
  deadline := tied.deadline
  waiting phase :=
    have waiting := tied.waiting phase
    ⟨waiting.notFailed, waiting.confirmed, waiting.settled, waiting.failed, waiting.unred,
      waiting.unreverted⟩
  reverting phase :=
    have reverting := tied.reverting phase
    ⟨reverting.red, reverting.proven, reverting.unreverted⟩

end

/-! The whole of it, between one watch's turn and the next. -/

structure Tied (world : World) : Prop where
  careful : Careful world.events
  sound : Sound world.events
  paid : ¬ KillOwed world.events
  history : HistoryTied world.clock world.store.history world.events
  distinct : (world.store.watches.map fun watch => watch.landing.id).Nodup
  known : ∀ event ∈ world.events, ∀ landing, event.landing? = some landing →
    ∃ other, .registered other ∈ world.events ∧ other.id = landing.id
  watches : ∀ watch ∈ world.store.watches, WatchTied world.events watch

/-! Writes of the store. -/

variable {store : WatchStore} {watch : PostMergeWatch}

theorem WatchStore.find_of_mem (distinct : (store.watches.map fun watch => watch.landing.id).Nodup)
    (member : watch ∈ store.watches) : store.find watch.landing.id = some watch := by
  have present : (store.watches.find? fun other =>
      other.landing.id = watch.landing.id).isSome :=
    List.find?_isSome.mpr ⟨watch, member, by rw [decide_eq_true rfl]⟩
  obtain ⟨found, first⟩ := Option.isSome_iff_exists.mp present
  have same := List.find?_some first
  rw [decide_eq_true_eq] at same
  have equal := List.inj_on_of_nodup_map distinct (List.mem_of_find?_eq_some first) member same
  rw [WatchStore.find, first, equal]

theorem WatchStore.mem_of_find {id : JsString}
    (found : store.find id = some watch) : watch ∈ store.watches ∧ watch.landing.id = id := by
  unfold WatchStore.find at found
  have same := List.find?_some found
  rw [decide_eq_true_eq] at same
  exact ⟨List.mem_of_find?_eq_some found, same⟩

def Continued (store : WatchStore) (watch : PostMergeWatch) : Prop :=
  watch.phase ≠ .done → ∃ other, store.find watch.landing.id = some other ∧ other.phase ≠ .done

theorem World.opened_eq_false {world : World}
    (continued : Continued world.store watch) : world.opened watch = false := by
  unfold World.opened
  by_cases done : watch.phase = .done
  · simp [done]
  · obtain ⟨other, found, still⟩ := continued done
    rw [found]
    simp [still]

theorem World.install_continued {world : World}
    (continued : ∀ watch ∈ store.watches, Continued world.store watch) :
    world.install store = { world with store := store } := by
  have none : store.watches.filter world.opened = [] :=
    List.filter_eq_nil_iff.mpr fun watch member => by
      rw [World.opened_eq_false (continued watch member)]
      exact Bool.false_ne_true
  unfold World.install
  rw [none, List.map_nil, List.append_nil]

section

variable {world : World}

theorem Tied.continued (tied : Tied world) {watch : PostMergeWatch}
    (member : watch ∈ world.store.watches) : Continued world.store watch :=
  fun still => ⟨watch, WatchStore.find_of_mem tied.distinct member, still⟩

theorem Tied.rewrite (tied : Tied world) {store : WatchStore}
    (history : HistoryTied world.clock store.history world.events)
    (distinct : (store.watches.map fun watch => watch.landing.id).Nodup)
    (continued : ∀ watch ∈ store.watches, Continued world.store watch)
    (watches : ∀ watch ∈ store.watches, WatchTied world.events watch) :
    Tied (world.install store) := by
  rw [World.install_continued continued]
  exact ⟨tied.careful, tied.sound, tied.paid, history, distinct, tied.known, watches⟩

theorem Tied.advance (tied : Tied world) {later : ℤ} (after : world.clock ≤ later) :
    Tied { world with clock := later } :=
  ⟨tied.careful, tied.sound, tied.paid, tied.history.advance after, tied.distinct, tied.known,
    tied.watches⟩

end

/-- `base` with new watches; only finished ones made room. -/
structure Grown (base : WatchStore) (nowMs : ℤ) (store : WatchStore) : Prop where
  split : ∃ (kept : List PostMergeWatch) (fresh : List LandingRecord), store.watches =
    kept ++ fresh.map (newWatch · nowMs) ∧ kept.Sublist base.watches ∧
      ∀ watch ∈ base.watches, watch.phase ≠ .done → watch ∈ kept
  distinct : (store.watches.map fun watch => watch.landing.id).Nodup
  history : store.history = base.history

namespace Grown

variable {base store : WatchStore} {nowMs : ℤ} {landing : LandingRecord}

theorem refl (distinct : (base.watches.map fun watch => watch.landing.id).Nodup) :
    Grown base nowMs base where
  split := by
    refine ⟨base.watches, [], ?_, List.Sublist.refl _, fun _ member _ => member⟩
    rw [List.map_nil, List.append_nil]
  distinct := distinct
  history := rfl

theorem distinct_snoc {watches : List PostMergeWatch} {watch : PostMergeWatch}
    (distinct : (watches.map fun watch => watch.landing.id).Nodup)
    (absent : ∀ other ∈ watches, other.landing.id ≠ watch.landing.id) :
    ((watches ++ [watch]).map fun watch => watch.landing.id).Nodup := by
  rw [List.map_append, List.map_singleton]
  refine List.nodup_append.mpr ⟨distinct, List.nodup_singleton _, ?_⟩
  intro id member other last
  obtain ⟨watch, stored, rfl⟩ := List.mem_map.mp member
  rw [List.mem_singleton.mp last]
  exact absent watch stored

theorem eraseP_done {kept : List PostMergeWatch} {fresh : List LandingRecord} :
    (kept ++ fresh.map (newWatch · nowMs)).eraseP (fun watch => watch.phase = .done) =
      kept.eraseP (fun watch => watch.phase = .done) ++ fresh.map (newWatch · nowMs) := by
  rw [List.eraseP_append]
  by_cases some : kept.any fun watch => watch.phase = .done
  · rw [if_pos some]
  · rw [if_neg some, List.eraseP_of_forall_not (l := kept), List.eraseP_of_forall_not]
    · intro watch member
      obtain ⟨landing, _, rfl⟩ := List.mem_map.mp member
      simp [newWatch]
    · intro watch member done
      exact some (List.any_eq_true.mpr ⟨watch, member, done⟩)

theorem registerInto (grown : Grown base nowMs store) {next : WatchStore} {added : Bool}
    (into : PostMerge.registerInto store landing nowMs = some (next, added)) :
    Grown base nowMs next := by
  obtain ⟨⟨kept, fresh, same, sublist, still⟩, distinct, history⟩ := grown
  unfold PostMerge.registerInto at into
  by_cases present : store.watches.any fun watch => watch.landing.id = landing.id
  · rw [if_pos present, Option.some.injEq, Prod.mk.injEq] at into
    obtain ⟨rfl, _⟩ := into
    exact ⟨⟨kept, fresh, same, sublist, still⟩, distinct, history⟩
  · have absent : ∀ other ∈ store.watches, other.landing.id ≠ landing.id := by
      intro other member equal
      exact present (List.any_eq_true.mpr ⟨other, member, decide_eq_true equal⟩)
    have snoc : ∀ watches : List PostMergeWatch, watches ++ fresh.map (newWatch · nowMs) ++
        [newWatch landing nowMs] = watches ++ (fresh ++ [landing]).map (newWatch · nowMs) := by
      intro watches
      rw [List.map_append, List.append_assoc, List.map_singleton]
    rw [if_neg present] at into
    by_cases room : store.watches.length < maxWatches
    · rw [if_pos room, Option.some.injEq, Prod.mk.injEq] at into
      obtain ⟨rfl, _⟩ := into
      refine ⟨⟨kept, fresh ++ [landing], ?_, sublist, still⟩, distinct_snoc distinct absent,
        history⟩
      rw [← snoc, ← same]
    · rw [if_neg room] at into
      by_cases finished : store.watches.any fun watch => watch.phase = .done
      · rw [if_pos finished, Option.some.injEq, Prod.mk.injEq] at into
        obtain ⟨rfl, _⟩ := into
        refine ⟨⟨kept.eraseP (fun watch => watch.phase = .done), fresh ++ [landing], ?_,
          List.eraseP_sublist.trans sublist, ?_⟩, ?_, history⟩
        · rw [← snoc, ← eraseP_done, ← same]
        · intro watch member notDone
          refine (List.mem_eraseP_of_neg ?_).mpr (still watch member notDone)
          rw [decide_eq_true_eq]
          exact notDone
        · refine distinct_snoc ?_ fun other member => absent other (List.mem_of_mem_eraseP member)
          exact distinct.sublist (List.eraseP_sublist.map _)
      · rw [if_neg finished] at into
        cases into

theorem registerAll : {landings : List LandingRecord} → {store next : WatchStore} →
    {added total : ℕ} → Grown base nowMs store →
      PostMerge.registerAll store nowMs landings added = some (next, total) → Grown base nowMs next
  | [], _, _, _, _, grown, into => by
      rw [PostMerge.registerAll, Option.some.injEq, Prod.mk.injEq] at into
      exact into.1 ▸ grown
  | landing :: landings, store, next, added, total, grown, into => by
      rw [PostMerge.registerAll] at into
      cases first : PostMerge.registerInto store landing nowMs with
      | none =>
          rw [first] at into
          cases into
      | some step =>
          rw [first] at into
          exact registerAll (grown.registerInto first) into

end Grown

theorem Tied.grow {world : World} (tied : Tied world) {nowMs : ℤ} {store : WatchStore}
    (grown : Grown world.store nowMs store) (careful : Careful (world.install store).events) :
    Tied (world.install store) := by
  obtain ⟨⟨kept, fresh, same, sublist, still⟩, distinct, history⟩ := grown
  -- What is new are the landings without an open watch before.
  have opened : store.watches.filter world.opened = fresh.map (newWatch · nowMs) := by
    have none : kept.filter world.opened = [] :=
      List.filter_eq_nil_iff.mpr fun watch member => by
        rw [World.opened_eq_false (tied.continued (sublist.subset member))]
        exact Bool.false_ne_true
    rw [same, List.filter_append, none, List.nil_append]
    refine List.filter_eq_self.mpr fun watch member => ?_
    obtain ⟨landing, _, rfl⟩ := List.mem_map.mp member
    unfold World.opened
    cases found : world.store.find (newWatch landing nowMs).landing.id with
    | none => rfl
    | some other =>
        by_cases done : other.phase = .done
        · rw [Option.all_some, decide_eq_true done]
          rfl
        · have held := WatchStore.mem_of_find found
          rw [same, List.map_append] at distinct
          exact absurd held.2 ((List.nodup_append.mp distinct).2.2 _
            (List.mem_map_of_mem (still other held.1 done)) _ (List.mem_map_of_mem member))
  have events : (world.install store).events =
      world.events ++ fresh.map Event.registered := by
    unfold World.install
    rw [opened, List.map_map]
    rfl
  have ids : (fresh.map Event.registered).filterMap registeredId =
      fresh.map LandingRecord.id := by
    rw [List.filterMap_map]
    exact congrFun List.filterMap_eq_map fresh
  have once := careful.once
  rw [events, WatchedOnce, List.filterMap_append, ids] at once
  have unheard : ∀ landing ∈ fresh, ∀ event ∈ world.events, ∀ named, event.landing? = some named →
      named.id ≠ landing.id := by
    intro landing member event heard named about equal
    obtain ⟨other, registered, named⟩ := tied.known event heard named about
    exact (List.nodup_append.mp once).2.2 _ (List.mem_filterMap.mpr ⟨_, registered, rfl⟩) _
      (List.mem_map_of_mem member) (named.trans equal)
  have uncounted : Uncounted (fresh.map Event.registered) := by
    intro event member
    obtain ⟨landing, _, rfl⟩ := List.mem_map.mp member
    exact ⟨rfl, rfl⟩
  have sound : ∀ more : List LandingRecord, Sound (world.events ++ more.map Event.registered) ∧
      ¬ KillOwed (world.events ++ more.map Event.registered) := by
    intro more
    induction more using List.reverseRecOn with
    | nil =>
        rw [List.map_nil, List.append_nil]
        exact ⟨tied.sound, tied.paid⟩
    | append_singleton more landing induction =>
        rw [List.map_append, List.map_singleton, ← List.append_assoc]
        exact ⟨induction.1.snoc trivial (.inl induction.2), killOwed_snoc.not.mpr id⟩
  refine ⟨careful, ?_, ?_, ?_, distinct, ?_, ?_⟩
  · rw [events]
    exact (sound fresh).1
  · rw [events]
    exact (sound fresh).2
  · rw [events]
    have before := tied.history.append uncounted
    rw [← history] at before
    exact before
  · rw [events]
    intro event member landing about
    rcases List.mem_append.mp member with member | member
    · obtain ⟨other, registered, equal⟩ := tied.known event member landing about
      exact ⟨other, List.mem_append_left _ registered, equal⟩
    · refine ⟨landing, List.mem_append_right _ ?_, rfl⟩
      obtain ⟨named, _, rfl⟩ := List.mem_map.mp member
      cases about
      exact member
  · intro watch member
    rw [events]
    change watch ∈ store.watches at member
    rw [same] at member
    rcases List.mem_append.mp member with member | new
    · refine (tied.watches watch (sublist.subset member)).append ?_
      intro event added named about equal
      obtain ⟨landing, begun, rfl⟩ := List.mem_map.mp added
      cases about
      exact unheard named begun _ (tied.watches watch (sublist.subset member)).registered _ rfl
        equal.symm
    · obtain ⟨landing, begun, rfl⟩ := List.mem_map.mp new
      have silent : ∀ event ∈ world.events ++ fresh.map Event.registered,
          event.landing? = some landing → event ∈ fresh.map Event.registered := by
        intro event heard about
        rcases List.mem_append.mp heard with heard | heard
        · exact absurd rfl (unheard landing begun event heard landing about)
        · exact heard
      refine ⟨List.mem_append_right _ (List.mem_map_of_mem begun), rfl, fun _ => ?_, by rintro ⟨⟩⟩
      refine ⟨by rintro ⟨⟩, by rintro ⟨⟩, fun _ => settled_of_absent ?_, by rintro ⟨⟩, ?_, ?_⟩
      · intro failed
        obtain ⟨_, _, other⟩ := List.mem_map.mp (silent _ failed rfl)
        cases other
      · intro named time red
        rcases List.mem_append.mp red with red | red
        · exact unheard landing begun _ red named rfl
        · obtain ⟨_, _, other⟩ := List.mem_map.mp red
          cases other
      · intro named time reverted
        rcases List.mem_append.mp reverted with reverted | reverted
        · exact unheard landing begun _ reverted named rfl
        · obtain ⟨_, _, other⟩ := List.mem_map.mp reverted
          cases other

end AshlrHub.PostMerge

import AshlrHub.Fleet.PostMergeTies

namespace AshlrHub.PostMerge

open Js Lib

/-! One turn: what is done between a read of the store and the write that ends it. -/

def carefully (world : World) (asked : Request) (answer : Answer asked) (after : World) : Prop :=
  reacts world asked answer after ∧ Careful after.events

/-- The dialogue stays sound, and where it is done `final` is met. -/
abbrev Keeping {α : Type} (final : α → World → Prop) (talk : Watching α) (world : World) : Prop :=
  talk.Keeps carefully (fun after => Sound after.events) final world

/-- It stays sound, and the store is tied to the events again where it is done. -/
abbrev Ends {α : Type} (talk : Watching α) (world : World) : Prop :=
  Keeping (fun _ after => Tied after) talk world

section

variable {α β : Type} {final : α → World → Prop} {world : World}

variable {asked : Request} {more : Answer asked → Watching α}

theorem keeping_ask (each : ∀ answer after, reacts world asked answer after → Careful after.events →
      Sound after.events ∧ Keeping final (more answer) after) :
    Keeping final (ask asked >>= more) world :=
  fun answer after reacted => each answer after reacted.1 reacted.2

theorem keeping_silent (silent : ∀ answer after, reacts world asked answer after → after = world)
    (sound : Sound world.events) (each : ∀ answer, Keeping final (more answer) world) :
    Keeping final (ask asked >>= more) world := by
  refine keeping_ask fun answer after reacted _ => ?_
  obtain rfl := silent answer after reacted
  exact ⟨sound, each answer⟩

theorem keeping_remark {event : Answer asked → Event}
    (remarked : ∀ answer after, reacts world asked answer after →
      after = world.remark (event answer))
    (each : ∀ answer, Careful (world.remark (event answer)).events →
      Sound (world.remark (event answer)).events ∧
        Keeping final (more answer) (world.remark (event answer))) :
    Keeping final (ask asked >>= more) world := by
  refine keeping_ask fun answer after reacted careful => ?_
  obtain rfl := remarked answer after reacted
  exact each answer careful

theorem keeping_now {more : ℤ → Watching α} (sound : Sound world.events)
    (each : ∀ time, world.clock ≤ time → Keeping final (more time) { world with clock := time }) :
    Keeping final (ask .now >>= more) world := by
  refine keeping_ask fun time after reacted _ => ?_
  obtain ⟨later, rfl⟩ := reacted
  exact ⟨sound, each time later⟩

theorem keeping_readStore {more : Option WatchStore → Watching α} (sound : Sound world.events)
    (each : Keeping final (more (some world.store)) world) :
    Keeping final (ask .readStore >>= more) world := by
  refine keeping_ask fun stored after reacted _ => ?_
  obtain ⟨rfl, rfl⟩ := reacted
  exact ⟨sound, each⟩

theorem keeping_andThen (middle : β → World → Prop) {talk : Watching β} {more : β → Watching α}
    (first : Keeping middle talk world)
    (rest : ∀ value after, middle value after → Keeping final (more value) after) :
    Keeping final (talk >>= more) world :=
  Dialogue.Keeps.andThen first rest

theorem keeping_ite {condition : Prop} [Decidable condition] {yes no : Watching α}
    (positive : condition → Keeping final yes world)
    (negative : ¬ condition → Keeping final no world) :
    Keeping final (if condition then yes else no) world :=
  Dialogue.Keeps.ite positive negative

variable {watch : PostMergeWatch}

section

variable (sound : Sound world.events)
include sound

theorem keeping_ledgerOrQueue {row : PendingLedgerRow}
    {more : PostMergeWatch → Watching α}
    (each : ∀ rows, Keeping final (more { watch with pendingLedger := rows }) world) :
    Keeping final (ledgerOrQueue watch row >>= more) world := by
  refine keeping_andThen
    (fun value after => after = world ∧ ∃ rows, value = { watch with pendingLedger := rows }) ?_ ?_
  · unfold ledgerOrQueue
    refine keeping_ite (fun _ => ?_) (fun _ => ⟨rfl, _, rfl⟩)
    refine keeping_silent (fun _ _ reacted => reacted) sound fun appended => ?_
    cases appended with
    | false => exact ⟨rfl, _, rfl⟩
    | true => exact ⟨rfl, watch.pendingLedger, rfl⟩
  · rintro _ _ ⟨rfl, rows, rfl⟩
    exact each rows

section

variable {more : Unit → Watching α} (each : Keeping final (more ()) world)
include each

theorem keeping_ownerHold :
    Keeping final (ownerHold watch >>= more) world := by
  refine keeping_andThen (fun _ after => after = world) ?_ ?_
  · unfold ownerHold
    exact keeping_silent (fun _ _ reacted => reacted) sound fun _ => rfl
  · rintro _ _ rfl
    exact each

theorem keeping_quarantine {history : EscalationHistory} {nowMs : ℤ} :
    Keeping final (quarantine watch history nowMs >>= more) world := by
  refine keeping_andThen (fun _ after => after = world) ?_ ?_
  · unfold quarantine
    refine keeping_silent (fun _ _ reacted => reacted) sound fun _ => ?_
    refine keeping_ite (fun _ => ?_) (fun _ => rfl)
    unfold ownerHold
    exact keeping_silent (fun _ _ reacted => reacted) sound fun _ => rfl
  · rintro _ _ rfl
    exact each

end

theorem keeping_fileRepair {more : PostMergeWatch → Watching α}
    (each : ∀ task, Keeping final (more { watch with repairTaskId := task }) world) :
    Keeping final (fileRepair watch >>= more) world := by
  refine keeping_andThen
    (fun value after => after = world ∧ ∃ task, value = { watch with repairTaskId := task }) ?_ ?_
  · unfold fileRepair
    refine keeping_silent (fun _ _ reacted => reacted) sound fun task => ?_
    cases task with
    | none => exact ⟨rfl, watch.repairTaskId, rfl⟩
    | some task => exact ⟨rfl, _, rfl⟩
  · rintro _ _ ⟨rfl, task, rfl⟩
    exact each task

theorem keeping_softKill {nowMs : ℤ} {reason : KillReason} {pass : Pass}
    {more : Kill × PostMergeWatch × Pass → Watching α}
    (each : ∀ rows pass, Careful (world.remark .softKill).events →
      Sound (world.remark .softKill).events →
        Keeping final (more (⟨nowMs, reason⟩, { watch with pendingLedger := rows }, pass))
          (world.remark .softKill)) :
    Keeping final (softKill watch nowMs reason pass >>= more) world := by
  refine keeping_andThen
    (fun value after => after = world.remark .softKill ∧ Careful after.events ∧
      Sound after.events ∧ ∃ rows pass,
        value = (⟨nowMs, reason⟩, { watch with pendingLedger := rows }, pass)) ?_ ?_
  · unfold softKill
    refine keeping_remark (fun _ _ reacted => reacted) fun armed careful => ?_
    have killed : Sound (world.remark .softKill).events := sound.snoc trivial (.inr rfl)
    refine ⟨killed, keeping_silent (fun _ _ reacted => reacted) killed fun _ => ?_⟩
    refine keeping_ite (fun _ => ?_) (fun _ => ?_)
    · refine keeping_ledgerOrQueue killed fun rows => ?_
      refine keeping_silent (fun _ _ reacted => reacted) killed fun _ => ?_
      exact ⟨rfl, careful, killed, rows, _, rfl⟩
    · refine keeping_silent (fun _ _ reacted => reacted) killed fun _ => ?_
      exact ⟨rfl, careful, killed, watch.pendingLedger, _, rfl⟩
  · rintro _ _ ⟨rfl, careful, killed, rows, pass, rfl⟩
    exact each rows pass careful killed

end

end

/-! A turn under way. -/

/-- All is tied but the watch of one landing, whose turn it is; `history` is what has to be
stored with it. -/
structure During (landing : LandingRecord) (history : EscalationHistory) (world : World) :
    Prop where
  careful : Careful world.events
  sound : Sound world.events
  history : HistoryTied world.clock history world.events
  distinct : (world.store.watches.map fun watch => watch.landing.id).Nodup
  known : ∀ event ∈ world.events, ∀ named, event.landing? = some named →
    ∃ other, .registered other ∈ world.events ∧ other.id = named.id
  registered : .registered landing ∈ world.events
  stored : ∃ watch, world.store.find landing.id = some watch ∧ watch.phase ≠ .done
  others : ∀ watch ∈ world.store.watches, watch.landing.id ≠ landing.id →
    WatchTied world.events watch

namespace During

variable {landing : LandingRecord} {history later : EscalationHistory} {world : World}
  {watch : PostMergeWatch} {event : Event}

theorem start (tied : Tied world) (found : world.store.find landing.id = some watch)
    (own : watch.landing = landing) (still : watch.phase ≠ .done) :
    During landing world.store.history world where
  careful := tied.careful
  sound := tied.sound
  history := tied.history
  distinct := tied.distinct
  known := tied.known
  registered := own ▸ (tied.watches watch (WatchStore.mem_of_find found).1).registered
  stored := ⟨watch, found, still⟩
  others other member _ := tied.watches other member

section

variable (during : During landing history world)
include during

theorem tick {time : ℤ} (after : world.clock ≤ time) :
    During landing history { world with clock := time } where
  careful := during.careful
  sound := during.sound
  history := during.history.advance after
  distinct := during.distinct
  known := during.known
  registered := during.registered
  stored := during.stored
  others := during.others

section

variable (about : ∀ named, event.landing? = some named → named = landing)
include about

theorem counted (history : HistoryTied world.clock later (world.events ++ [event]))
    (careful : Careful (world.remark event).events) (sound : Sound (world.remark event).events) :
    During landing later (world.remark event) where
  careful := careful
  sound := sound
  history := history
  distinct := during.distinct
  known := by
    intro other member named names
    rcases List.mem_append.mp member with member | member
    · obtain ⟨begun, registered, same⟩ := during.known other member named names
      exact ⟨begun, List.mem_append_left _ registered, same⟩
    · obtain rfl := List.mem_singleton.mp member
      exact ⟨landing, List.mem_append_left _ during.registered, by rw [about named names]⟩
  registered := List.mem_append_left _ during.registered
  stored := during.stored
  others other member apart := by
    refine (during.others other member apart).append ?_
    intro added member named names
    obtain rfl := List.mem_singleton.mp member
    rw [about named names]
    exact fun same => apart same.symm

theorem remark (uncounted : redRow event = none ∧ revertRow event = none)
    (careful : Careful (world.remark event).events) (sound : Sound (world.remark event).events) :
    During landing history (world.remark event) := by
  refine during.counted about (during.history.append ?_) careful sound
  intro added member
  obtain rfl := List.mem_singleton.mp member
  exact uncounted

end

theorem kills (kills : List Kill) :
    During landing (pushKills kills history) world :=
  { during with history := ⟨during.history.reds, during.history.reverts⟩ }

theorem quarantines (rows : List HistoryRow) :
    During landing { history with quarantines := rows } world :=
  { during with history := ⟨during.history.reds, during.history.reverts⟩ }

end

theorem save (during : During watch.landing history world) (paid : ¬ KillOwed world.events)
    (tied : WatchTied world.events watch) :
    world.install { world.store.put watch with history := history } =
        { world with store := { world.store.put watch with history := history } } ∧
      Tied { world with store := { world.store.put watch with history := history } } := by
  obtain ⟨before, found, still⟩ := during.stored
  have present : world.store.watches.any fun other => other.landing.id = watch.landing.id :=
    List.any_eq_true.mpr ⟨before, (WatchStore.mem_of_find found).1,
      decide_eq_true (WatchStore.mem_of_find found).2⟩
  have put : world.store.put watch = { world.store with
      watches := world.store.watches.map fun other =>
        if other.landing.id = watch.landing.id then watch else other } := by
    unfold WatchStore.put
    exact if_pos present
  rw [put]
  have ids : (world.store.watches.map fun other =>
      if other.landing.id = watch.landing.id then watch else other).map
        (fun watch => watch.landing.id) = world.store.watches.map fun watch =>
          watch.landing.id := by
    rw [List.map_map]
    refine List.map_congr_left fun other _ => ?_
    by_cases own : other.landing.id = watch.landing.id
    · rw [Function.comp_apply, if_pos own, own]
    · rw [Function.comp_apply, if_neg own]
  refine ⟨World.install_continued ?_, during.careful, during.sound, paid, during.history,
    ids ▸ during.distinct, during.known, ?_⟩
  · intro other member
    obtain ⟨base, stored, rfl⟩ := List.mem_map.mp member
    by_cases own : base.landing.id = watch.landing.id
    · rw [if_pos own]
      exact fun _ => ⟨before, found, still⟩
    · rw [if_neg own]
      exact fun open' => ⟨base, WatchStore.find_of_mem during.distinct stored, open'⟩
  · intro other member
    obtain ⟨base, stored, rfl⟩ := List.mem_map.mp member
    by_cases own : base.landing.id = watch.landing.id
    · rw [if_pos own]
      exact tied
    · rw [if_neg own]
      exact during.others base stored own

end During

section

variable {α : Type} {final : α → World → Prop} {world : World} {watch : PostMergeWatch}

theorem keeping_saveWatch {change : EscalationHistory → EscalationHistory}
    {more : Bool → Watching α}
    (during : During watch.landing (change world.store.history) world)
    (paid : ¬ KillOwed world.events) (tied : WatchTied world.events watch)
    (each : ∀ after, Tied after → after.store.find watch.landing.id = some watch →
      Keeping final (more true) after) :
    Keeping final (saveWatch watch change >>= more) world := by
  obtain ⟨installed, saved⟩ := during.save paid tied
  refine keeping_andThen (fun value after => value = true ∧ Tied after ∧
    after.store.find watch.landing.id = some watch) ?_ ?_
  · unfold saveWatch
    refine keeping_ask fun answer after reacted _ => ?_
    obtain ⟨rfl, rfl⟩ := reacted
    rw [installed]
    refine ⟨saved.sound, rfl, saved, WatchStore.find_of_mem saved.distinct ?_⟩
    obtain ⟨before, found, _⟩ := during.stored
    have held := WatchStore.mem_of_find found
    have present : world.store.watches.any fun other => other.landing.id = watch.landing.id :=
      List.any_eq_true.mpr ⟨before, held.1, decide_eq_true held.2⟩
    have put : (world.store.put watch).watches = world.store.watches.map fun other =>
        if other.landing.id = watch.landing.id then watch else other := by
      unfold WatchStore.put
      rw [if_pos present]
    change watch ∈ (world.store.put watch).watches
    rw [put]
    exact List.mem_map.mpr ⟨before, held.1, if_pos held.2⟩
  · rintro _ after ⟨rfl, tied, stored⟩
    exact each after tied stored

theorem WatchTied.done (registered : .registered watch.landing ∈ world.events)
    (deadline : watch.watchUntil = effectiveWatchUntil watch.landing) (done : watch.phase = .done) :
    WatchTied world.events watch where
  registered := registered
  deadline := deadline
  waiting watching := by
    rw [done] at watching
    cases watching
  reverting begun := by
    rw [done] at begun
    cases begun

end

end AshlrHub.PostMerge

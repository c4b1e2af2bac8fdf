import AshlrHub.Fleet.PostMergeTies

namespace AshlrHub.PostMerge

open Js Lib

/-! How landings come from the ledger into the watch, while the ledger is appended to and
recovered, watches are dropped and passes break off. -/

structure LedgerState where
  rows : List LandedRow
  nextSeq : ℕ
  archived : ℕ
deriving DecidableEq

structure LedgerWorld where
  ledger : LedgerState
  store : WatchStore
  /-- The clock as a pass last read it. -/
  clock : ℤ
  /-- The landings of the finished watches that went when they may. -/
  dropped : List JsString
  /-- The ledger as it was last read. -/
  read : Option LedgerState
  /-- The ledgers as the discoveries read them that stored what they found. -/
  covered : List LedgerState

/-- When a finished watch may go: after seven days, or out of a full store for a new one. -/
def WatchStore.releases (store : WatchStore) (nowMs : ℤ) (watch : PostMergeWatch) : Bool :=
  watch.phase = .done && (maxWatches ≤ store.watches.length || watch.pendingLedger = [] &&
    doneWatchRetentionMs ≤ nowMs - watch.result.elim watch.registeredAt PostMergeResult.checkedAt)

def WatchStore.watched (store : WatchStore) (landing : LandingRecord) : Prop :=
  ∃ watch ∈ store.watches, watch.landing.id = landing.id

namespace LedgerWorld

def replace (world : LedgerWorld) (store : WatchStore) : LedgerWorld :=
  { world with
    store := store
    dropped := world.dropped ++ ((world.store.watches.filter fun watch =>
      store.releases world.clock watch && (store.find watch.landing.id).isNone).map fun watch =>
        watch.landing.id) }

def Accounted (world : LedgerWorld) (landing : LandingRecord) : Prop :=
  world.store.watched landing ∨ landing.id ∈ world.dropped

end LedgerWorld

/-- What others do, at any time. -/
inductive Meanwhile (world : LedgerWorld) : LedgerWorld → Prop
  | landed (landing : Option LandingRecord) : Meanwhile world
    { world with ledger := { world.ledger with
      rows := world.ledger.rows ++ [⟨world.ledger.nextSeq, landing⟩]
      nextSeq := world.ledger.nextSeq + 1 } }
  /-- An entry of another kind. -/
  | appended : Meanwhile world { world with ledger := { world.ledger with
      nextSeq := world.ledger.nextSeq + 1 } }
  /-- A new ledger, with its genesis and the entry of the recovery. -/
  | recovered : Meanwhile world { world with
      ledger := ⟨[], 2, max world.ledger.nextSeq world.ledger.archived⟩ }
  | registered {landing : LandingRecord} {nowMs : ℤ} {store : WatchStore} {fresh : Bool}
      (accepted : landingRefusal landing = none)
      (into : registerInto world.store landing nowMs = some (store, fresh)) :
      Meanwhile world (world.replace store)

def answers (world : LedgerWorld) : (asked : Request) → Answer asked → LedgerWorld → Prop
  | .readStore, stored, after => (stored = none ∨ stored = some world.store) ∧ after = world
  | .mutateStore change, answer, after => (answer = none ∧ after = world) ∨
      ∃ store value, change world.store = some (store, value) ∧ answer = some value ∧
        after = world.replace store
  | .readLedger since, .rows rows, after =>
      rows = (world.ledger.rows.filter fun row => since.all fun seq => seq ≤ row.seq) ∧
        after = { world with read := some world.ledger }
  | .now, nowMs, after => after = { world with clock := nowMs }
  | .note .discovered, _, after =>
      after = { world with covered := world.covered ++ world.read.toList }
  | _, _, after => after = world

def reactsMeanwhile (world : LedgerWorld) (asked : Request) (answer : Answer asked)
    (after : LedgerWorld) : Prop :=
  ∃ between, Relation.ReflTransGen Meanwhile world between ∧ answers between asked answer after

inductive OpensAfresh (world : LedgerWorld) : Watching PassResult → LedgerWorld → Prop
  | advance (maxSuiteRuns : ℕ) :
      OpensAfresh world (advancePostMergeWatches maxSuiteRuns)
        { world with read := none }

abbrev DiscoveryStep : Parley LedgerWorld Request Answer PassResult → Unit →
    Parley LedgerWorld Request Answer PassResult → Prop :=
  Parley.Step reactsMeanwhile OpensAfresh Meanwhile fun world after => after = world

def ledgerStart : Parley LedgerWorld Request Answer PassResult :=
  ⟨⟨⟨[], 1, 0⟩, emptyStore, 0, [], none, []⟩, none⟩

/-! What is owed to the rows of a ledger. -/

def Owed (ledger : LedgerState) (within : ℕ → Prop) (world : LedgerWorld) : Prop :=
  ∀ row ∈ ledger.rows, ledger.archived ≤ row.seq → within row.seq →
    ∀ landing, row.landing = some landing → landingRefusal landing = none → world.Accounted landing

def LedgerState.horizon (ledger : LedgerState) : ℕ := max ledger.nextSeq ledger.archived

structure Passed (world : LedgerWorld) (cursor : ℕ) : Prop where
  below : cursor < world.ledger.horizon
  owed : Owed world.ledger (· ≤ cursor) world

structure Tracked (world : LedgerWorld) : Prop where
  numbered : ∀ row ∈ world.ledger.rows, row.seq < world.ledger.nextSeq
  cursor : ∀ cursor, world.store.ledgerCursor = some cursor → Passed world cursor
  covered : ∀ ledger ∈ world.covered, Owed ledger (fun _ => True) world

structure Follows (ledger : LedgerState) (world : LedgerWorld) : Prop where
  horizon : ledger.horizon ≤ world.ledger.horizon
  since : ∀ row ∈ world.ledger.rows, world.ledger.archived ≤ row.seq → row.seq < ledger.horizon →
    row ∈ ledger.rows ∧ ledger.archived ≤ row.seq

def Sheltered (nowMs : ℤ) (base store : WatchStore) : Prop :=
  ∀ watch ∈ base.watches, store.releases nowMs watch = false → store.watched watch.landing

section

variable {world after : LedgerWorld} {ledger : LedgerState} {within : ℕ → Prop} {cursor : ℕ}
  {store : WatchStore}

variable {landing : LandingRecord}

theorem LedgerWorld.Accounted.replace (accounted : world.Accounted landing)
    (sheltered : Sheltered world.clock world.store store) :
    (world.replace store).Accounted landing := by
  rcases accounted with ⟨watch, member, same⟩ | dropped
  · cases found : store.find landing.id with
    | some other =>
        obtain ⟨stored, equal⟩ := WatchStore.mem_of_find found
        exact .inl ⟨other, stored, equal⟩
    | none =>
        cases released : store.releases world.clock watch with
        | true =>
            refine .inr (List.mem_append_right _ (List.mem_map.mpr ⟨watch, ?_, same⟩))
            refine List.mem_filter.mpr ⟨member, ?_⟩
            rw [released, same, found]
            rfl
        | false =>
            obtain ⟨other, stored, equal⟩ := sheltered watch member released
            exact .inl ⟨other, stored, equal.trans same⟩
  · exact .inr (List.mem_append_left _ dropped)

theorem Owed.imp (owed : Owed ledger within world)
    (keeps : ∀ landing, world.Accounted landing → after.Accounted landing) :
    Owed ledger within after :=
  fun row member beyond inside landing names accepted =>
    keeps landing (owed row member beyond inside landing names accepted)

/-! What registration makes of the watches. -/

structure Enrolled (base store : WatchStore) : Prop where
  cursor : store.ledgerCursor = base.ledgerCursor
  still : ∀ watch ∈ base.watches, watch.phase ≠ .done → watch ∈ store.watches
  finished : ∀ watch ∈ store.watches, watch.phase = .done → watch ∈ base.watches
  grown : base.watches.length ≤ store.watches.length
  room : store.watches.length < maxWatches → ∀ watch ∈ base.watches, watch ∈ store.watches

theorem Enrolled.refl (store : WatchStore) : Enrolled store store :=
  ⟨rfl, fun _ member _ => member, fun _ member _ => member, le_refl _, fun _ _ member => member⟩

variable {base : WatchStore}

theorem Enrolled.trans {middle store : WatchStore} (first : Enrolled base middle)
    (second : Enrolled middle store) : Enrolled base store where
  cursor := second.cursor.trans first.cursor
  still watch member notDone := second.still watch (first.still watch member notDone) notDone
  finished watch member done := first.finished watch (second.finished watch member done) done
  grown := first.grown.trans second.grown
  room room watch member :=
    second.room room watch (first.room (second.grown.trans_lt room) watch member)

variable {nowMs : ℤ}

theorem Enrolled.sheltered {store : WatchStore} (enrolled : Enrolled base store) :
    Sheltered nowMs base store := by
  intro watch member held
  refine ⟨watch, ?_, rfl⟩
  rcases lt_or_ge store.watches.length maxWatches with room | full
  · exact enrolled.room room watch member
  · refine enrolled.still watch member fun done => ?_
    rw [WatchStore.releases, decide_eq_true done, decide_eq_true full] at held
    cases held

theorem Enrolled.watched {middle store : WatchStore} (first : Enrolled base middle)
    (second : Enrolled middle store) (watched : middle.watched landing) :
    store.watched landing ∨ base.watched landing := by
  obtain ⟨watch, member, same⟩ := watched
  by_cases done : watch.phase = .done
  · exact .inr ⟨watch, first.finished watch member done, same⟩
  · exact .inl ⟨watch, second.still watch member done, same⟩

theorem Enrolled.snoc {watches : List PostMergeWatch}
    (still : ∀ watch ∈ base.watches, watch.phase ≠ .done → watch ∈ watches)
    (known : ∀ watch ∈ watches, watch ∈ base.watches)
    (grown : base.watches.length ≤ watches.length + 1)
    (room : watches.length + 1 < maxWatches → ∀ watch ∈ base.watches, watch ∈ watches) :
    Enrolled base { base with watches := watches ++ [newWatch landing nowMs] } where
  cursor := rfl
  still watch member notDone := List.mem_append_left _ (still watch member notDone)
  finished watch member done := by
    rcases List.mem_append.mp member with member | new
    · exact known watch member
    · rw [List.mem_singleton.mp new] at done
      cases done
  grown := by
    rw [List.length_append]
    exact grown
  room below watch member := by
    rw [List.length_append] at below
    exact List.mem_append_left _ (room below watch member)

theorem enrolled_registerInto {next : WatchStore} {fresh : Bool}
    (into : registerInto store landing nowMs = some (next, fresh)) :
    Enrolled store next ∧ next.watched landing := by
  unfold registerInto at into
  have new : ∀ watches : List PostMergeWatch,
      newWatch landing nowMs ∈ watches ++ [newWatch landing nowMs] :=
    fun watches => List.mem_append_right _ (List.mem_singleton.mpr rfl)
  by_cases present : store.watches.any fun watch => watch.landing.id = landing.id
  · rw [if_pos present, Option.some.injEq, Prod.mk.injEq] at into
    obtain ⟨rfl, _⟩ := into
    obtain ⟨watch, member, same⟩ := List.any_eq_true.mp present
    exact ⟨Enrolled.refl store, watch, member, of_decide_eq_true same⟩
  rw [if_neg present] at into
  by_cases room : store.watches.length < maxWatches
  · rw [if_pos room, Option.some.injEq, Prod.mk.injEq] at into
    obtain ⟨rfl, _⟩ := into
    exact ⟨Enrolled.snoc (fun _ member _ => member) (fun _ => id) (Nat.le_succ _) fun _ _ => id,
      _, new _, rfl⟩
  rw [if_neg room] at into
  by_cases finished : store.watches.any fun watch => watch.phase = .done
  · rw [if_pos finished, Option.some.injEq, Prod.mk.injEq] at into
    obtain ⟨rfl, _⟩ := into
    obtain ⟨_, stored, done⟩ := List.any_eq_true.mp finished
    have length := List.length_eraseP_add_one (p := fun watch => watch.phase = .done) stored done
    refine ⟨Enrolled.snoc (fun watch member notDone => ?_) (fun _ => List.mem_of_mem_eraseP)
      length.ge fun below => absurd (length ▸ below) room, _, new _, rfl⟩
    refine (List.mem_eraseP_of_neg ?_).mpr member
    rw [decide_eq_true_eq]
    exact notDone
  · rw [if_neg finished] at into
    cases into

theorem enrolled_registerAll : (landings : List LandingRecord) →
    {store next : WatchStore} → {added total : ℕ} →
      registerAll store nowMs landings added = some (next, total) →
        Enrolled store next ∧ ∀ landing ∈ landings, next.watched landing ∨ store.watched landing
  | [], store, next, _, _, into => by
      rw [registerAll, Option.some.injEq, Prod.mk.injEq] at into
      obtain ⟨rfl, _⟩ := into
      exact ⟨Enrolled.refl store, fun _ none => absurd none List.not_mem_nil⟩
  | landing :: landings, store, next, _, _, into => by
      rw [registerAll] at into
      cases first : registerInto store landing nowMs with
      | none =>
          rw [first] at into
          cases into
      | some step =>
          rw [first] at into
          obtain ⟨enrolled, watched⟩ := enrolled_registerInto first
          obtain ⟨rest, all⟩ := enrolled_registerAll landings into
          refine ⟨enrolled.trans rest, fun other member => ?_⟩
          rcases List.mem_cons.mp member with rfl | member
          · exact enrolled.watched rest watched
          · rcases all other member with last | middle
            · exact .inl last
            · exact enrolled.watched rest middle

/-! What happens meanwhile. -/

/-- Nothing that was accounted for is lost, and no number comes again. -/
structure Later (world after : LedgerWorld) : Prop where
  accounted : ∀ landing, world.Accounted landing → after.Accounted landing
  follows : Follows world.ledger after
  cursor : after.store.ledgerCursor = world.store.ledgerCursor
  read : after.read = world.read
  covered : after.covered = world.covered
  numbered : (∀ row ∈ world.ledger.rows, row.seq < world.ledger.nextSeq) →
    ∀ row ∈ after.ledger.rows, row.seq < after.ledger.nextSeq

theorem Follows.refl (world : LedgerWorld) : Follows world.ledger world :=
  ⟨le_refl _, fun _ member beyond _ => ⟨member, beyond⟩⟩

theorem Follows.trans (first : Follows ledger world) (second : Follows world.ledger after) :
    Follows ledger after where
  horizon := first.horizon.trans second.horizon
  since row member beyond below := by
    obtain ⟨earlier, before⟩ := second.since row member beyond (below.trans_le first.horizon)
    exact first.since row earlier before below

theorem Later.refl (world : LedgerWorld) : Later world world :=
  ⟨fun _ => id, Follows.refl world, rfl, rfl, rfl, id⟩

theorem Later.trans {last : LedgerWorld} (first : Later world after) (second : Later after last) :
    Later world last where
  accounted landing held := second.accounted landing (first.accounted landing held)
  follows := first.follows.trans second.follows
  cursor := second.cursor.trans first.cursor
  read := second.read.trans first.read
  covered := second.covered.trans first.covered
  numbered held := second.numbered (first.numbered held)

theorem Later.tick (nowMs : ℤ) : Later world { world with clock := nowMs } :=
  ⟨fun _ => id, ⟨le_refl _, fun _ member beyond _ => ⟨member, beyond⟩⟩, rfl, rfl, rfl, id⟩

theorem Later.append {next : LedgerState}
    (follows : Follows world.ledger { world with ledger := next })
    (numbered : (∀ row ∈ world.ledger.rows, row.seq < world.ledger.nextSeq) →
      ∀ row ∈ next.rows, row.seq < next.nextSeq) : Later world { world with ledger := next } :=
  ⟨fun _ => id, follows, rfl, rfl, rfl, numbered⟩

theorem Later.replace (sheltered : Sheltered world.clock world.store store)
    (cursor : store.ledgerCursor = world.store.ledgerCursor) : Later world (world.replace store) :=
  ⟨fun _ held => held.replace sheltered, Follows.refl (world.replace store), cursor, rfl, rfl, id⟩

theorem Meanwhile.later (step : Meanwhile world after) : Later world after := by
  cases step with
  | landed landing =>
      refine Later.append ⟨max_le_max (Nat.le_succ _) (le_refl _), ?_⟩ ?_
      · intro row member beyond below
        rcases List.mem_append.mp member with member | new
        · exact ⟨member, beyond⟩
        · rw [List.mem_singleton.mp new] at beyond below
          exact absurd below (not_lt.mpr (max_le (le_refl _) beyond))
      · intro numbered row member
        rcases List.mem_append.mp member with member | new
        · exact (numbered row member).trans (Nat.lt_succ_self _)
        · rw [List.mem_singleton.mp new]
          exact Nat.lt_succ_self _
  | appended =>
      refine Later.append ⟨max_le_max (Nat.le_succ _) (le_refl _), ?_⟩ ?_
      · exact fun row member beyond _ => ⟨member, beyond⟩
      · exact fun numbered row member => (numbered row member).trans (Nat.lt_succ_self _)
  | recovered =>
      refine Later.append ⟨le_max_right _ _, ?_⟩ ?_
      · exact fun row none => absurd none List.not_mem_nil
      · exact fun _ row none => absurd none List.not_mem_nil
  | registered accepted into =>
      have enrolled := (enrolled_registerInto into).1
      exact Later.replace enrolled.sheltered enrolled.cursor

theorem clock_of_meanwhile (steps : Relation.ReflTransGen Meanwhile world after) :
    after.clock = world.clock := by
  induction steps with
  | refl => rfl
  | tail _ step ih => cases step <;> exact ih

theorem later_of_meanwhile (steps : Relation.ReflTransGen Meanwhile world after) :
    Later world after := by
  induction steps with
  | refl => exact Later.refl world
  | tail _ step ih => exact ih.trans step.later

/-! What stays true. -/

theorem Passed.later (passed : Passed world cursor) (later : Later world after) :
    Passed after cursor where
  below := passed.below.trans_le later.follows.horizon
  owed row member beyond inside landing names accepted := by
    obtain ⟨earlier, before⟩ :=
      later.follows.since row member beyond (lt_of_le_of_lt inside passed.below)
    exact later.accounted landing (passed.owed row earlier before inside landing names accepted)

theorem Tracked.later (tracked : Tracked world) (later : Later world after) : Tracked after where
  numbered := later.numbered tracked.numbered
  cursor at' stored := (tracked.cursor at' (later.cursor ▸ stored)).later later
  covered ledger stored := (tracked.covered ledger (later.covered ▸ stored)).imp later.accounted

end

end AshlrHub.PostMerge

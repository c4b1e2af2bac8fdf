import AshlrHub.Authority.LedgerTransact
import AshlrHub.Lib.Run

namespace AshlrHub.Authority

open Js Lib

/-! Runs of the ledger: any number of processes, one transaction at a time under the
lock, each write stopping where it may, and restarts that forget what was cached. -/

structure LedgerWorld where
  disk : Disk
  process : ℕ → LedgerProcess
  /-- The entries whose append returned, in order. -/
  acknowledged : List LedgerEntry

def newLedgerWorld : LedgerWorld :=
  ⟨⟨none, none, none⟩, fun _ => freshProcess, []⟩

inductive LedgerEvent where
  | sync (p : ℕ) (mode : LedgerReadMode) (now : ℤ) (mark : MarkStep)
  | transact (p : ℕ) (now : ℤ) (mark : MarkStep)
      (appends : List (AppendStep × LedgerAppendInput))
  /-- The process stops, wherever its last write stopped, and starts again. -/
  | restart (p : ℕ)

def LedgerWorld.setProcess (world : LedgerWorld) (p : ℕ) (process : LedgerProcess) :
    ℕ → LedgerProcess :=
  fun q => if q = p then process else world.process q

def LedgerWorld.next (sha : HashFunction) (world : LedgerWorld) : LedgerEvent → LedgerWorld
  | .sync p mode now mark =>
      let synced := syncChain sha world.disk mode now (world.process p)
      { world with
        disk := markSynced world.disk synced mark
        process := world.setProcess p synced.process }
  | .transact p now mark appends =>
      let tx := beginTransaction sha world.disk now mark (world.process p)
      let done := tx.appendAll sha appends
      { disk := done.1.disk
        process := world.setProcess p done.1.process
        acknowledged := world.acknowledged ++ done.2 }
  | .restart p => { world with process := world.setProcess p freshProcess }

def KeepsAnchor (world : LedgerWorld) : LedgerEvent → Prop
  | .sync p mode now _ => ¬ LosesAnchor mode now world.disk (world.process p)
  | .transact p now _ appends =>
      ¬ LosesAnchor .cached now world.disk (world.process p) ∧
        ∀ append ∈ appends,
          plainYear append.1.genesis.now = true ∧ plainYear append.1.row.now = true
  | .restart _ => True

def LedgerStep (sha : HashFunction) (world : LedgerWorld) (event : LedgerEvent)
    (after : LedgerWorld) : Prop :=
  KeepsAnchor world event ∧ after = world.next sha event

/-- The invariant of runs. -/
structure WorldHolds (sha : HashFunction) (world : LedgerWorld) (entries : List LedgerEntry) :
    Prop where
  holds : LedgerHolds sha world.disk entries
  unmarked : world.disk.marker = none
  views : ∀ p, ProcessViews world.disk entries (world.process p)
  marks : ∀ p, MarkHolds entries (world.process p)
  chainless : world.disk.ledger = none → ∀ p, (world.process p).chain = none
  acknowledged : world.acknowledged.Sublist entries

structure AppendedAll (sha : HashFunction) (tx : LedgerTransaction)
    (entries : List LedgerEntry) (identities : List ℕ) (more : List LedgerEntry)
    (outcome : LedgerTransaction × List LedgerEntry) : Prop where
  extended : Extends sha tx.disk entries identities outcome.1.disk more
  views : ProcessViews outcome.1.disk (entries ++ more) outcome.1.process
  marks : MarkHolds entries tx.process → MarkHolds (entries ++ more) outcome.1.process
  chainless : outcome.1.disk.ledger = none → outcome.1.process.chain = none
  returned : outcome.2.Sublist more

variable {sha : HashFunction} {entries : List LedgerEntry}

theorem appendAll_appended {tx : LedgerTransaction}
    {appends : List (AppendStep × LedgerAppendInput)}
    (ready : TxReady sha tx entries)
    (plain : ∀ append ∈ appends,
      plainYear append.1.genesis.now = true ∧ plainYear append.1.row.now = true) :
    ∃ identities more, AppendedAll sha tx entries identities more (tx.appendAll sha appends) := by
  induction appends generalizing tx entries with
  | nil =>
      rw [LedgerTransaction.appendAll]
      exact ⟨[], [], .refl ready.holds [], by simpa using ready.views, by simp,
        ready.chainless, .slnil⟩
  | cons append appends ih =>
      obtain ⟨step, input⟩ := append
      obtain ⟨more, appended⟩ := append_appended step input ready
        (plain (step, input) List.mem_cons_self)
      rw [LedgerTransaction.appendAll]
      generalize tx.append sha step input = outcome at appended ⊢
      obtain ⟨next, entry⟩ := outcome
      cases entry with
      | none =>
          exact ⟨_, more, appended.extended, appended.views, appended.marks,
            appended.chainless, List.nil_sublist more⟩
      | some entry =>
          obtain ⟨⟨front, last, -⟩, -, ready', -⟩ := appended.success entry rfl
          obtain ⟨identities, rest, later⟩ := ih ready' fun append member =>
            plain append (List.mem_cons_of_mem _ member)
          refine ⟨_, more ++ rest, appended.extended.trans later.extended, ?_, ?_,
            later.chainless, ?_⟩
          · rw [← List.append_assoc]
            exact later.views
          · intro marks
            rw [← List.append_assoc]
            exact later.marks (appended.marks marks)
          · rw [last, List.append_assoc]
            exact (later.returned.cons_cons entry).trans (List.sublist_append_right front _)

variable {disk : Disk} {process : LedgerProcess}

theorem begin_ready (holds : LedgerHolds sha disk entries)
    (views : ProcessViews disk entries process) {now : ℤ}
    (unbroken : (syncChain sha disk .cached now process).broken = none) (mark : MarkStep) :
    TxReady sha (beginTransaction sha disk now mark process) entries ∧
      (beginTransaction sha disk now mark process).disk = disk ∧
      (beginTransaction sha disk now mark process).snapshot.chain ≠ .broken := by
  have synced := syncChain_holds holds views .cached now
  have same : (beginTransaction sha disk now mark process).disk = disk := by
    simp only [beginTransaction, markSynced, unbroken]
  have sound : (beginTransaction sha disk now mark process).snapshot.chain ≠ .broken := by
    rw [beginTransaction, unbroken]
    exact snapshotOf_chain_unbroken _
  refine ⟨⟨by rwa [same], by rw [same]; exact synced.views, ?_, ?_, ?_⟩, same, sound⟩
  · intro state kept
    have kept : (syncChain sha disk .cached now process).state = some state := kept
    rw [same]
    cases present : disk.ledger with
    | none =>
        rw [(synced.chainless present).2] at kept
        cases kept
    | some file =>
        obtain ⟨found, there, view, identity⟩ := synced.seen file present
        obtain rfl := Option.some.inj (there.symm.trans kept)
        refine ⟨holds, view, fun other present' => ?_⟩
        obtain rfl := Option.some.inj (present.symm.trans present')
        exact identity
  · intro stateless
    have stateless : (syncChain sha disk .cached now process).state = none := stateless
    rw [same]
    cases present : disk.ledger with
    | none => rfl
    | some file =>
        obtain ⟨found, there, -⟩ := synced.seen file present
        rw [there] at stateless
        cases stateless
  · intro absent
    rw [same] at absent
    exact (synced.chainless absent).1

/-! The invariant along runs. -/

theorem worldHolds_new (sha : HashFunction) : WorldHolds sha newLedgerWorld [] where
  holds :=
    { chained := trivial
      absent := fun _ => rfl
      owned := fun _ present => by cases present
      lines := fun _ present => by cases present
      size := fun _ present => by cases present
      anchor := id }
  unmarked := rfl
  views := fun _ _ chain => by cases chain
  marks := fun _ _ marked => by cases marked
  chainless := fun _ _ => rfl
  acknowledged := .slnil

variable {world : LedgerWorld}

theorem WorldHolds.unbroken (inv : WorldHolds sha world entries) (p : ℕ) (mode : LedgerReadMode)
    (now : ℤ) :
    (syncChain sha world.disk mode now (world.process p)).broken = none ↔
      ¬ LosesAnchor mode now world.disk (world.process p) :=
  syncChain_unbroken inv.holds (inv.views p) (inv.marks p) inv.unmarked

theorem WorldHolds.goOn {more : List LedgerEntry} (inv : WorldHolds sha world entries)
    {identities : List ℕ} {after : Disk}
    (extended : Extends sha world.disk entries identities after more) (p : ℕ)
    (views : ProcessViews after (entries ++ more) process)
    (marks : MarkHolds (entries ++ more) process)
    (chainless : after.ledger = none → process.chain = none) {acknowledged : List LedgerEntry}
    (known : acknowledged.Sublist (entries ++ more)) :
    WorldHolds sha ⟨after, world.setProcess p process, acknowledged⟩ (entries ++ more) := by
  refine ⟨extended.holds, extended.marker.trans inv.unmarked, fun q => ?_, fun q => ?_,
    fun absent q => ?_, known⟩
  · by_cases same : q = p
    · simpa only [LedgerWorld.setProcess, if_pos same] using views
    · simp only [LedgerWorld.setProcess, if_neg same]
      intro state chain
      refine (inv.views q state chain).extends extended fun absent => ?_
      rw [inv.chainless absent q] at chain
      cases chain
  · by_cases same : q = p
    · simpa only [LedgerWorld.setProcess, if_pos same] using marks
    · simp only [LedgerWorld.setProcess, if_neg same]
      exact (inv.marks q).append more
  · by_cases same : q = p
    · simpa only [LedgerWorld.setProcess, if_pos same] using chainless absent
    · simp only [LedgerWorld.setProcess, if_neg same]
      refine inv.chainless ?_ q
      cases there : world.disk.ledger with
      | none => rfl
      | some file =>
          obtain ⟨next, here, -⟩ := extended.keeps file there
          have absent : after.ledger = none := absent
          rw [here] at absent
          cases absent

theorem worldHolds_next (inv : WorldHolds sha world entries) {event : LedgerEvent}
    (keeps : KeepsAnchor world event) :
    ∃ more, WorldHolds sha (world.next sha event) (entries ++ more) := by
  have acknowledged : world.acknowledged.Sublist (entries ++ []) := by
    simpa using inv.acknowledged
  cases event with
  | restart p =>
      refine ⟨[], inv.goOn (.refl inv.holds []) p ?_ ?_ (fun _ => rfl) acknowledged⟩
      · intro state chain
        cases chain
      · intro mark marked
        cases marked
  | sync p mode now mark =>
      have unbroken := (inv.unbroken p mode now).mpr keeps
      have synced := syncChain_holds inv.holds (inv.views p) mode now
      refine ⟨[], ?_⟩
      simp only [LedgerWorld.next, markSynced, unbroken]
      refine inv.goOn (.refl inv.holds []) p ?_ ?_ (fun absent => (synced.chainless absent).1)
        acknowledged
      · simpa using synced.views
      · simpa using synced.marks (inv.marks p)
  | transact p now mark appends =>
      obtain ⟨keeps, plain⟩ := keeps
      have unbroken := (inv.unbroken p .cached now).mpr keeps
      have synced := syncChain_holds inv.holds (inv.views p) .cached now
      obtain ⟨ready, same, -⟩ := begin_ready inv.holds (inv.views p) unbroken mark
      obtain ⟨identities, more, appended⟩ := appendAll_appended ready plain
      have extended := appended.extended
      rw [same] at extended
      refine ⟨more, inv.goOn extended p appended.views ?_ appended.chainless ?_⟩
      · exact appended.marks (synced.marks (inv.marks p))
      · exact inv.acknowledged.append appended.returned

theorem run_worldHolds {events : List LedgerEvent}
    (run : Run (LedgerStep sha) newLedgerWorld events world) :
    ∃ entries, WorldHolds sha world entries := by
  refine @Run.invariant _ _ _ _ _ _ (fun world => ∃ entries, WorldHolds sha world entries) ?_ run
    ⟨[], worldHolds_new sha⟩
  rintro before event after ⟨entries, inv⟩ ⟨keeps, rfl⟩
  obtain ⟨more, inv⟩ := worldHolds_next inv keeps
  exact ⟨entries ++ more, inv⟩

/-! A run to look at: one append that nothing stops. -/

def noteInput : LedgerAppendInput :=
  ⟨.note, .daemon, none, none, [], rfl⟩

def unmarkedStep : MarkStep := ⟨0, 0, 0, false⟩

def noteStep (fate : WriteFate) : AppendStep :=
  ⟨none, 0, ⟨0, 7, .done⟩, ⟨0, 7, fate⟩⟩

def firstNote : LedgerEvent := .transact 0 0 unmarkedStep [(noteStep .done, noteInput)]

/-- The writer stops behind its row. -/
def unanchoredNote : LedgerEvent := .transact 1 0 unmarkedStep [(noteStep .beforeAnchor, noteInput)]

theorem not_losesAnchor_of_fresh {mode : LedgerReadMode} {now : ℤ} (fresh : process.chain = none) :
    ¬ LosesAnchor mode now disk process := by
  rintro ⟨state, file, anchor, chain, -⟩
  rw [fresh] at chain
  cases chain

theorem keepsAnchor_note {p : ℕ} (fresh : world.process p = freshProcess) (fate : WriteFate) :
    KeepsAnchor world (.transact p 0 unmarkedStep [(noteStep fate, noteInput)]) := by
  refine ⟨not_losesAnchor_of_fresh (by rw [fresh]; rfl), ?_⟩
  have plain : plainYear 0 = true := by decide +kernel
  simp only [List.mem_singleton, forall_eq]
  exact ⟨plain, plain⟩

/-! Crash safety. -/

structure LedgerReads (world : LedgerWorld) (entries : List LedgerEntry) : Prop where
  lines : ∀ file, world.disk.ledger = some file → (splitLines file.bytes).1 = entries.map lineBytes
  absent : world.disk.ledger = none → entries = []
  acknowledged : world.acknowledged.Sublist entries
  seq : ∀ (i : ℕ) (entry : LedgerEntry), entries[i]? = some entry → entry.seq = i
  prevHash : ∀ (i : ℕ) (entry next : LedgerEntry), entries[i]? = some entry →
    entries[i + 1]? = some next → next.prevHash = entry.hash
  instant : ∀ (i : ℕ) (entry next : LedgerEntry), entries[i]? = some entry →
    entries[i + 1]? = some next → entry.at' ≤ next.at'

theorem WorldHolds.reads (inv : WorldHolds sha world entries) :
    LedgerReads world entries where
  lines := inv.holds.lines
  absent := inv.holds.absent
  acknowledged := inv.acknowledged
  seq := by
    intro i entry found
    have := seq_of_contiguous inv.holds.contiguous found
    omega
  prevHash := fun i entry next found after =>
    (inv.holds.chained.follows found after).prevHash
  instant := fun i entry next found after =>
    (inv.holds.chained.follows found after).instant entry.at' rfl

/-- Wherever the writes of a run stopped, the next sync reports a chain of entries in which
every acknowledged one stands, unbroken exactly when the sync does not lose the anchor, and
the next append extends exactly that chain. -/
theorem ledger_crash_safe {sha : HashFunction} {events : List LedgerEvent} {world : LedgerWorld}
    (run : Run (LedgerStep sha) newLedgerWorld events world) :
    ∃ entries, LedgerReads world entries ∧
      (∀ p mode now,
        let synced := syncChain sha world.disk mode now (world.process p)
        (synced.broken = none ↔ ¬ LosesAnchor mode now world.disk (world.process p)) ∧
          synced.state.bind ChainState.head = lastHead none entries ∧
            ∀ state, synced.state = some state → state.prefixBytes = linesOf entries) ∧
      (∀ p now mark step input,
        KeepsAnchor world (.transact p now mark [(step, input)]) →
        let outcome :=
          (beginTransaction sha world.disk now mark (world.process p)).append sha step input
        ∀ entry, outcome.2 = some entry →
          ∃ front, (entries ≠ [] → front = []) ∧
            Chained sha none (entries ++ front ++ [entry]) ∧
            ∃ file, outcome.1.disk.ledger = some file ∧
              file.bytes = linesOf (entries ++ front ++ [entry])) := by
  obtain ⟨entries, inv⟩ := run_worldHolds run
  refine ⟨entries, inv.reads, ?_, ?_⟩
  · intro p mode now
    have synced := syncChain_holds inv.holds (inv.views p) mode now
    refine ⟨inv.unbroken p mode now, ?_, ?_⟩
    · cases present : world.disk.ledger with
      | none =>
          rw [(synced.chainless present).2, inv.holds.absent present]
          rfl
      | some file =>
          obtain ⟨state, reported, view, -⟩ := synced.seen file present
          rw [reported, Option.bind_some, view.head]
    · intro state reported
      cases present : world.disk.ledger with
      | none =>
          rw [(synced.chainless present).2] at reported
          cases reported
      | some file =>
          obtain ⟨found, reported', view, -⟩ := synced.seen file present
          obtain rfl := Option.some.inj (reported'.symm.trans reported)
          exact view.prefixBytes
  · intro p now mark step input keeps
    have unbroken := (inv.unbroken p .cached now).mpr keeps.1
    obtain ⟨ready, same, -⟩ := begin_ready inv.holds (inv.views p) unbroken mark
    obtain ⟨more, appended⟩ := append_appended step input ready
      (keeps.2 (step, input) List.mem_cons_self)
    intro outcome entry returned
    obtain ⟨⟨front, rfl, first⟩, -, ready', -, file, there, bytes⟩ :=
      appended.success entry returned
    rw [← List.append_assoc] at bytes
    refine ⟨front, first, ?_, file, there, bytes⟩
    have := ready'.holds.chained
    rwa [← List.append_assoc] at this

/-- The files behind a note, a note whose writer stopped before the anchor, and its restart. -/
def crashedWorld : LedgerWorld :=
  [firstNote, unanchoredNote, .restart 1].foldl (LedgerWorld.next sha256) newLedgerWorld

theorem ledger_crash_safe_firstNote : ∃ entries, LedgerReads crashedWorld entries ∧
    (syncChain sha256 crashedWorld.disk .cached 0 (crashedWorld.process 1)).broken = none ∧
    ∀ entry, ((beginTransaction sha256 crashedWorld.disk 0 unmarkedStep
        (crashedWorld.process 1)).append sha256 (noteStep .done) noteInput).2 = some entry →
      ∃ front, (entries ≠ [] → front = []) ∧ Chained sha256 none (entries ++ front ++ [entry]) := by
  have first : KeepsAnchor newLedgerWorld firstNote := keepsAnchor_note rfl .done
  have second : KeepsAnchor (newLedgerWorld.next sha256 firstNote) unanchoredNote :=
    keepsAnchor_note rfl .beforeAnchor
  have run : Run (LedgerStep sha256) newLedgerWorld [firstNote, unanchoredNote, .restart 1]
      crashedWorld :=
    ((Run.nil.snoc ⟨first, rfl⟩).snoc ⟨second, rfl⟩).snoc ⟨trivial, rfl⟩
  obtain ⟨entries, reads, synced, appends⟩ := ledger_crash_safe run
  refine ⟨entries, reads, (synced 1 .cached 0).1.mpr (not_losesAnchor_of_fresh rfl), ?_⟩
  intro entry returned
  obtain ⟨front, whole, chained, -⟩ := appends 1 0 unmarkedStep (noteStep .done) noteInput
    (keepsAnchor_note rfl .done) entry returned
  exact ⟨front, whole, chained⟩

/-! A run after which a sync loses the anchor. -/

theorem consumeEntry_frame (state : ChainState) (entry : LedgerEntry) (line : Bytes) :
    (consumeEntry state entry line).watch = state.watch ∧
      (consumeEntry state entry line).lastFullAt = state.lastFullAt ∧
      (consumeEntry state entry line).head = some entry.head := ⟨rfl, rfl, rfl⟩

theorem consumeEntry_unwatched {state : ChainState} {entry : LedgerEntry}
    (unwatched : entry.seq ∉ state.watch) (line : Bytes) :
    (consumeEntry state entry line).watched = state.watched := by
  change (if entry.seq ∈ state.watch then _ else _) = _
  rw [if_neg unwatched]

def unanchoredEvents (count : ℕ) : List LedgerEvent :=
  (List.replicate count [unanchoredNote, .restart 1]).flatten

/-- The files and processes after the first note and `count` unanchored ones. -/
structure Lagging (sha : HashFunction) (count : ℕ) (world : LedgerWorld) : Prop where
  entries : ∃ entries, WorldHolds sha world entries ∧ entries.length = count + 2
  file : ∃ file, world.disk.ledger = some file ∧ file.identity = 7 ∧
    file.bytes.length ≤ 10001 * (count + 2)
  anchor : ∃ record, readAnchor world.disk.anchor = .ok record ∧ record.seq = 1
  first : ∃ state mark, world.process 0 = ⟨some state, some mark⟩ ∧ mark.seq = 1 ∧
    state.identity = 7 ∧ state.watched = [] ∧ state.lastFullAt = 0 ∧ nextSeq state.head = 2
  second : world.process 1 = freshProcess

theorem smallInput_note : SmallInput noteInput :=
  ⟨rfl, rfl, rfl, by decide +kernel⟩

theorem smallInput_genesis (actor : FleetActor) : SmallInput (genesisInput none actor) :=
  ⟨rfl, rfl, rfl, by
    change (writeValue (normalize (.obj [(js "hostBinding", .null)]))).length ≤ 1000
    decide +kernel⟩

variable {count : ℕ}

theorem losesAnchor_of_lagging (lagging : Lagging sha count world) (far : 512 ≤ count) :
    LosesAnchor .cached 0 world.disk (world.process 0) := by
  obtain ⟨entries, inv, length⟩ := lagging.entries
  obtain ⟨file, present, identity, -⟩ := lagging.file
  obtain ⟨record, read, one⟩ := lagging.anchor
  obtain ⟨state, mark, process, marked, same, unwatched, fullAt, reached⟩ := lagging.first
  have chain : (world.process 0).chain = some state := by rw [process]
  obtain ⟨seen, ⟨rest, rfl⟩, view⟩ := inv.views 0 state chain file present
    (same.trans identity.symm)
  have contiguous := (contiguous_append.mp inv.holds.contiguous).1
  have two : seen.length = 2 := by
    rw [← nextSeq_of_describes view.toDescribes contiguous, reached]
  have lines := inv.holds.lines file present
  have size : state.verifiedBytes ≤ file.bytes.length := by
    rw [lines.bytes, view.verifiedBytes, linesOf_append, List.length_append, List.length_append]
    omega
  have known : knownHash state 1 ≠ none := by
    have within : 1 < seen.length := by omega
    obtain ⟨hash, found⟩ := exists_hashAt within
    rw [knownHash, view.recent, get?_recentEntries 1 contiguous, recentHashes_eq,
      if_pos (by omega), ← hashAt, found]
    simp
  have known : (knownHash state 1).isNone = false := by
    cases found : knownHash state 1 with
    | none => exact absurd found known
    | some hash => rfl
  refine ⟨state, file, record, chain, present, read, ?_, ?_, ?_, ?_⟩
  · simp [needsFull, unconfirmable, watchList, process, marked, one, same, identity, size, fullAt,
      fullReverifyIntervalMs, known]
  · rw [one, reached]
    decide
  · rw [unwatched]
    rfl
  · rw [one, recentHashes_eq, lines, List.length_map, length]
    omega

theorem next_unanchored {file : File} (inv : WorldHolds sha world entries)
    (nonempty : entries ≠ []) (present : world.disk.ledger = some file)
    (room : file.bytes.length + 10001 ≤ ledgerMaxBytes) (fresh : world.process 1 = freshProcess) :
    ∃ entry, (lineBytes entry).length ≤ 10000 ∧
      (world.next sha unanchoredNote).disk =
        ⟨some ⟨file.identity, file.ownedPrivate,
          linesOf entries ++ (lineBytes entry ++ [0x0A])⟩, world.disk.anchor,
          world.disk.marker⟩ := by
  have unbroken := (inv.unbroken 1 .cached 0).mpr (not_losesAnchor_of_fresh (by rw [fresh]; rfl))
  obtain ⟨ready, same, sound⟩ := begin_ready inv.holds (inv.views 1) unbroken unmarkedStep
  generalize begun : beginTransaction sha world.disk 0 unmarkedStep (world.process 1) = tx
    at ready same sound
  cases kept : tx.state with
  | none =>
      have := ready.stateless kept
      rw [same, present] at this
      cases this
  | some state =>
      have ready' := ready.state state kept
      have present' : tx.disk.ledger = some file := by rw [same, present]
      have headed : state.head ≠ none := by
        rw [ready'.view.head]
        intro none'
        have := lastHead_isSome entries
        rw [none'] at this
        cases entries with
        | nil => exact nonempty rfl
        | cons => cases this
      have opened : openLedger tx.disk state 7 = some (file, state) := by
        rw [openLedger, present']
        dsimp only
        rw [if_pos ⟨(ready'.identity file present').symm, ready'.holds.owned file present'⟩]
      have bytes := (ready'.holds.lines file present').bytes
      obtain ⟨entry, -, short, lands, -⟩ := writeEntry_lands tx.process
        ⟨0, 7, .beforeAnchor⟩ noteInput ready'
        (ready'.appendable (by decide +kernel) rfl rfl fun none' => absurd none' headed)
        smallInput_note (by decide) (by
          rw [bytes, List.length_append] at room
          omega) opened
      refine ⟨entry, short, ?_⟩
      have row : tx.append sha ⟨none, 0, ⟨0, 7, .done⟩, ⟨0, 7, .beforeAnchor⟩⟩ noteInput =
          (tx.wrote (landed tx.disk file state entries entry), none) := by
        have valid : validateInput noteInput = none := by decide
        obtain ⟨head, top⟩ := Option.ne_none_iff_exists'.mp headed
        rw [LedgerTransaction.append, if_neg (by simp [valid, sound]), kept]
        dsimp only
        rw [top]
        dsimp only
        rw [LedgerTransaction.appendRow, lands rfl]
        rfl
      rw [unanchoredNote, noteStep, LedgerWorld.next, begun]
      simp only [LedgerTransaction.appendAll, row]
      rw [LedgerTransaction.wrote, landed, same]

theorem lagging_next (lagging : Lagging sha count world) (bound : count ≤ 512) :
    Lagging sha (count + 1) ((world.next sha unanchoredNote).next sha (.restart 1)) := by
  obtain ⟨entries, inv, length⟩ := lagging.entries
  obtain ⟨file, present, identity, size⟩ := lagging.file
  have limit : 10001 * 515 ≤ ledgerMaxBytes := by decide
  have nonempty : entries ≠ [] := by
    rintro rfl
    simp at length
  obtain ⟨entry, short, disk⟩ := next_unanchored inv nonempty present (by omega) lagging.second
  have keeps : KeepsAnchor world unanchoredNote := keepsAnchor_note lagging.second .beforeAnchor
  obtain ⟨more, inv'⟩ := worldHolds_next inv keeps
  obtain ⟨none', inv''⟩ := worldHolds_next inv' (show KeepsAnchor _ (.restart 1) from trivial)
  have disk' : ((world.next sha unanchoredNote).next sha (.restart 1)).disk =
      ⟨some ⟨file.identity, file.ownedPrivate,
        linesOf entries ++ (lineBytes entry ++ [0x0A])⟩, world.disk.anchor,
        world.disk.marker⟩ := disk
  refine ⟨⟨_, inv'', ?_⟩, ?_, ?_, ?_, rfl⟩
  · have lines := inv''.holds.lines _ (congrArg Disk.ledger disk')
    rw [FileHolds, splitLines_linesOf, splitLines_lineBytes] at lines
    have lengths := congrArg List.length lines
    simp only [List.length_append, List.length_map, List.length_singleton] at lengths
    simp only [List.length_append]
    omega
  · refine ⟨_, congrArg Disk.ledger disk', identity, ?_⟩
    have bytes := (inv.holds.lines file present).bytes
    rw [bytes, List.length_append] at size
    simp only [List.length_append, List.length_singleton]
    omega
  · rw [disk']
    exact lagging.anchor
  · exact lagging.first

theorem openLedger_present {state : ChainState} {file : File} (identity : ℕ)
    (present : disk.ledger = some file) (same : file.identity = state.identity)
    (owned : file.ownedPrivate = true) :
    openLedger disk state identity = some (file, state) := by
  rw [openLedger, present]
  dsimp only
  rw [if_pos ⟨same, owned⟩]

theorem begin_newLedgerWorld (sha : HashFunction) (mark : MarkStep) :
    beginTransaction sha ⟨none, none, none⟩ 0 mark freshProcess =
      ⟨⟨none, none, none⟩, freshProcess, snapshotOf none none, none⟩ := rfl

theorem lagging_first (sha : HashFunction) :
    Lagging sha 0 (newLedgerWorld.next sha firstNote) := by
  have inv := worldHolds_new sha
  have keeps : KeepsAnchor newLedgerWorld firstNote := keepsAnchor_note rfl .done
  obtain ⟨more, inv'⟩ := worldHolds_next inv keeps
  have ready : Ready sha ⟨none, none, none⟩ (freshState 0 [] 0) [] :=
    ⟨inv.holds, view_freshState 0 [] 0, fun _ present => by cases present⟩
  obtain ⟨genesis, zero, short, -, written⟩ := writeEntry_lands freshProcess
    ⟨0, 7, .done⟩ (genesisInput none .daemon) ready
    (ready.appendable (by decide +kernel) rfl rfl fun _ => rfl)
    (smallInput_genesis .daemon) (by decide) (by decide)
    (rfl : openLedger _ _ _ = some (⟨7, true, []⟩, freshState 7 [] 0))
  have written := written rfl
  obtain ⟨first, left⟩ := writeEntry_written freshProcess
    ⟨0, 7, .done⟩ (genesisInput none .daemon) ready
    (ready.appendable (by decide +kernel) rfl rfl fun _ => rfl)
  obtain ⟨rfl, noted, -⟩ := left.success genesis (by rw [written])
  have ready' := noted.ready left.holds
  have frame := consumeEntry_frame (freshState 7 [] 0) genesis (lineBytes genesis ++ [0x0A])
  obtain ⟨-, same⟩ := consumeEntry_view (view_freshState 7 [] 0) left.holds.contiguous
  have unwatched : (consumeEntry (freshState 7 [] 0) genesis (lineBytes genesis ++ [0x0A])).watched
    = [] := consumeEntry_unwatched (by simp [freshState]) _
  rw [written] at ready' left
  simp only [landed] at ready' left
  have landedGenesis := written
  simp only [landed] at landedGenesis
  generalize consumeEntry (freshState 7 [] 0) genesis (lineBytes genesis ++ [0x0A]) = noted
    at frame same unwatched ready' left landedGenesis
  have headed : noted.head ≠ none := by simp [frame]
  obtain ⟨entry, one, short', -, written'⟩ := writeEntry_lands
    ⟨some noted, some ⟨genesis.seq, genesis.hash, noted.genesisHash⟩⟩
    ⟨0, 7, .done⟩ noteInput ready'
    (ready'.appendable (by decide +kernel) rfl rfl fun none' => absurd none' headed)
    smallInput_note (by decide) (by
      have limit : 30000 ≤ ledgerMaxBytes := by decide
      rw [List.nil_append, linesOf_singleton, List.length_append, List.length_singleton]
      omega)
    (openLedger_present 7 rfl same.symm rfl)
  have written' := written' rfl
  have frame' := consumeEntry_frame noted entry (lineBytes entry ++ [0x0A])
  have one : entry.seq = 1 := one
  have unwatched' : (consumeEntry noted entry (lineBytes entry ++ [0x0A])).watched = [] := by
    rw [consumeEntry_unwatched (by rw [frame.1]; simp [freshState]), unwatched]
  obtain ⟨second, left'⟩ := writeEntry_written
    ⟨some noted, some ⟨genesis.seq, genesis.hash, noted.genesisHash⟩⟩
    ⟨0, 7, .done⟩ noteInput ready'
    (ready'.appendable (by decide +kernel) rfl rfl fun none' => absurd none' headed)
  obtain ⟨rfl, noted', -⟩ := left'.success entry (by rw [written'])
  obtain ⟨-, same'⟩ := consumeEntry_view ready'.view left'.holds.contiguous
  rw [written'] at left' noted'
  simp only [landed] at written' left' noted'
  generalize consumeEntry noted entry (lineBytes entry ++ [0x0A]) = final
    at frame' unwatched' written' left' noted' same'
  have moved : (newLedgerWorld.next sha firstNote).disk = ⟨some ⟨7, true,
        linesOf [genesis] ++ (lineBytes entry ++ [0x0A])⟩,
        some ⟨7, true, utf8Encode (anchorText entry)⟩, none⟩ ∧
      (newLedgerWorld.next sha firstNote).process 0 =
        ⟨some final, some ⟨entry.seq, entry.hash, final.genesisHash⟩⟩ ∧
      (newLedgerWorld.next sha firstNote).process 1 = freshProcess := by
    have begun := begin_newLedgerWorld sha unmarkedStep
    have valid : validateInput noteInput = none := by decide
    have sound : (snapshotOf none none).chain ≠ .broken := by decide
    simp only [firstNote, noteStep, LedgerWorld.next, newLedgerWorld, begun,
      LedgerTransaction.appendAll, LedgerTransaction.append, valid, sound,
      LedgerTransaction.appendFirst, landedGenesis, LedgerTransaction.appendRow,
      LedgerTransaction.wrote, written']
    exact ⟨rfl, rfl, rfl⟩
  obtain ⟨disk, zeroth, oneth⟩ := moved
  have count : more.length = 2 := by
    have lines := inv'.holds.lines _ (congrArg Disk.ledger disk)
    rw [FileHolds, splitLines_linesOf, splitLines_lineBytes] at lines
    have lengths := congrArg List.length lines
    simp only [List.length_append, List.length_map, List.length_singleton,
      List.nil_append] at lengths
    omega
  refine ⟨⟨_, inv', by simpa using count⟩, ⟨_, congrArg Disk.ledger disk, rfl, ?_⟩, ?_,
    ⟨final, _, zeroth, one, ?_, unwatched', ?_, ?_⟩, oneth⟩
  · rw [linesOf_singleton]
    simp only [List.length_append, List.length_singleton]
    omega
  · rw [disk]
    exact ⟨_, readAnchor_anchorText (left'.holds.chained.wellFormed (by simp)) 7, one⟩
  · exact same'.trans same
  · rw [frame'.2.1, frame.2.1]
    rfl
  · rw [frame'.2.2]
    simp [nextSeq, LedgerEntry.head, one]

theorem lagging_unanchored (sha : HashFunction) (bound : count ≤ 512) :
    Lagging sha count
      ((firstNote :: unanchoredEvents count).foldl (LedgerWorld.next sha) newLedgerWorld) := by
  induction count with
  | zero => exact lagging_first sha
  | succ count ih =>
      have lagging := lagging_next (ih (by omega)) (by omega)
      rw [unanchoredEvents, List.replicate_succ', List.flatten_append]
      rw [List.foldl_cons, List.foldl_append, ← List.foldl_cons]
      exact lagging

theorem unanchored_breaks (sha : HashFunction) (far : 512 ≤ count) (bound : count ≤ 512)
    (reached : (firstNote :: unanchoredEvents count).foldl (LedgerWorld.next sha)
      newLedgerWorld = world) :
    (syncChain sha world.disk .cached 0 (world.process 0)).broken ≠ none := by
  have lagging := lagging_unanchored sha bound
  rw [reached] at lagging
  obtain ⟨entries, inv, -⟩ := lagging.entries
  exact fun sound => (inv.unbroken 0 .cached 0).mp sound (losesAnchor_of_lagging lagging far)

/-- After a note and 512 rows whose writers stop before they replace the anchor, a sync
that goes on from the note finds no record of the anchor's row. -/
theorem ledger_breaks_after_unanchored_rows :
    ∃ world, (firstNote :: unanchoredEvents 512).foldl (LedgerWorld.next sha256)
        newLedgerWorld = world ∧
      (syncChain sha256 world.disk .cached 0 (world.process 0)).broken ≠ none :=
  ⟨_, rfl, unanchored_breaks sha256 le_rfl le_rfl rfl⟩

end AshlrHub.Authority

import AshlrHub.Authority.LedgerAppend

namespace AshlrHub.Authority

open Js

/-! Syncs and transactions on a ledger that holds. -/

/-- The files after some writes: the ledger holds the entries and `more`. -/
structure Extends (sha : HashFunction) (before : Disk) (entries : List LedgerEntry)
    (identities : List ℕ) (after : Disk) (more : List LedgerEntry) : Prop where
  holds : LedgerHolds sha after (entries ++ more)
  marker : after.marker = before.marker
  keeps : ∀ file, before.ledger = some file →
    ∃ next, after.ledger = some next ∧ next.identity = file.identity
  creates : before.ledger = none → ∀ file, after.ledger = some file → file.identity ∈ identities

variable {sha : HashFunction} {disk : Disk} {entries : List LedgerEntry}

theorem Extends.refl (holds : LedgerHolds sha disk entries) (identities : List ℕ) :
    Extends sha disk entries identities disk [] :=
  { holds := by simpa using holds
    marker := rfl
    keeps := fun file present => ⟨file, present, rfl⟩
    creates := fun absent file present => by rw [absent] at present; cases present }

variable {more : List LedgerEntry}

theorem Extends.trans {first second third : Disk} {rest : List LedgerEntry} {early late : List ℕ}
    (start : Extends sha first entries early second more)
    (next : Extends sha second (entries ++ more) late third rest) :
    Extends sha first entries (early ++ late) third (more ++ rest) where
  holds := by simpa using next.holds
  marker := next.marker.trans start.marker
  keeps := by
    intro file present
    obtain ⟨middle, there, same⟩ := start.keeps file present
    obtain ⟨last, here, same'⟩ := next.keeps middle there
    exact ⟨last, here, same'.trans same⟩
  creates := by
    intro absent file present
    cases between : second.ledger with
    | none => exact List.mem_append_right _ (next.creates between file present)
    | some middle =>
        obtain ⟨last, here, same⟩ := next.keeps middle between
        obtain rfl := Option.some.inj (here.symm.trans present)
        rw [same]
        exact List.mem_append_left _ (start.creates absent middle between)

variable {process : LedgerProcess} {identity : ℕ} {input : LedgerAppendInput} {result : WriteResult}

theorem Written.extends (written : Written sha disk process identity input entries more result) :
    Extends sha disk entries [identity] result.disk more where
  holds := written.holds
  marker := written.marker
  keeps := written.keeps
  creates := fun absent file present =>
    List.mem_singleton.mpr (written.creates absent file present)

def ProcessViews (disk : Disk) (entries : List LedgerEntry) (process : LedgerProcess) : Prop :=
  ∀ state, process.chain = some state → ViewsFile disk entries state

def MarkHolds (entries : List LedgerEntry) (process : LedgerProcess) : Prop :=
  ∀ mark, process.highWater = some mark →
    hashAt entries mark.seq = some mark.hash ∧ mark.genesisHash = hashAt entries 0

variable {state : ChainState}

theorem ViewsFile.extends {before after : Disk} {identities : List ℕ}
    (views : ViewsFile before entries state)
    (extended : Extends sha before entries identities after more)
    (fresh : before.ledger = none → state.identity ∉ identities) :
    ViewsFile after (entries ++ more) state := by
  intro file present same
  cases there : before.ledger with
  | none =>
      rw [same] at fresh
      exact absurd (extended.creates there file present) (fresh there)
  | some old =>
      obtain ⟨next, here, identity⟩ := extended.keeps old there
      obtain rfl := Option.some.inj (here.symm.trans present)
      obtain ⟨seen, ⟨rest, rfl⟩, view⟩ := views old there (same.trans identity)
      exact ⟨seen, ⟨rest ++ more, by simp⟩, view⟩

theorem MarkHolds.append (holds : MarkHolds entries process) (more : List LedgerEntry) :
    MarkHolds (entries ++ more) process := by
  intro mark marked
  obtain ⟨known, genesis⟩ := holds mark marked
  refine ⟨hashAt_append more known, ?_⟩
  obtain ⟨first, found⟩ : ∃ first, hashAt entries 0 = some first := by
    refine exists_hashAt ?_
    by_contra! empty
    rw [hashAt_eq_none (by omega)] at known
    cases known
  rw [genesis, found, hashAt_append more found]

theorem ViewsFile.complete (view : View state entries) : ViewsFile disk entries state :=
  fun _ _ _ => ⟨entries, List.prefix_rfl, view⟩

/-! A sync. -/

structure SyncHolds (disk : Disk) (entries : List LedgerEntry) (process : LedgerProcess)
    (synced : SyncResult) : Prop where
  views : ProcessViews disk entries synced.process
  marks : MarkHolds entries process → MarkHolds entries synced.process
  chainless : disk.ledger = none → synced.process.chain = none ∧ synced.state = none
  seen : ∀ file, disk.ledger = some file → ∃ state, synced.state = some state ∧
    View state entries ∧ state.identity = file.identity

theorem syncState_state (disk : Disk) (process : LedgerProcess) (anchor : AnchorRead)
    (state : ChainState) : (syncState disk process anchor state .ok).state = some state := by
  unfold syncState
  dsimp only
  split
  · rfl
  · split
    · rfl
    · split
      · rfl
      · split <;> rfl

theorem syncState_process (disk : Disk) (process : LedgerProcess) (anchor : AnchorRead)
    (state : ChainState) :
    (syncState disk process anchor state .ok).process.chain = some state := by
  unfold syncState
  dsimp only
  split
  · rfl
  · split
    · rfl
    · split
      · rfl
      · split <;> rfl

theorem lastHead_eq_some {head : LedgerHead} (contiguous : Contiguous 0 entries)
    (reached : lastHead none entries = some head) :
    hashAt entries head.seq = some head.hash := by
  obtain ⟨front, last, rfl⟩ : ∃ front last, entries = front ++ [last] := by
    cases entries using List.reverseRecOn with
    | nil => cases reached
    | append_singleton front last => exact ⟨front, last, rfl⟩
  rw [lastHead_append] at reached
  obtain rfl : last.head = head := Option.some.inj reached
  exact hashAt_last contiguous

theorem syncState_marks {anchor : AnchorRead} (view : View state entries)
    (contiguous : Contiguous 0 entries) (marks : MarkHolds entries process) :
    MarkHolds entries (syncState disk process anchor state .ok).process := by
  unfold syncState
  dsimp only
  split
  · exact marks
  · split
    · exact marks
    · split
      · exact marks
      · rename_i head reached
        split
        · exact marks
        · intro mark raised
          have raised := Option.some.inj raised
          have top : hashAt entries head.seq = some head.hash ∧
              state.genesisHash = hashAt entries 0 :=
            ⟨lastHead_eq_some contiguous (view.head.symm.trans reached), view.genesisHash⟩
          unfold raiseHighWater at raised
          split at raised
          · rw [← raised]
            exact top
          · rename_i old marked
            split_ifs at raised
            · rw [← raised]
              exact top
            · rw [← raised]
              exact marks old marked

section

variable (holds : LedgerHolds sha disk entries)
include holds

theorem syncChain_holds
    (views : ProcessViews disk entries process) (mode : LedgerReadMode) (now : ℤ) :
    SyncHolds disk entries process (syncChain sha disk mode now process) := by
  cases present : disk.ledger with
  | none =>
      rw [syncChain_absent holds present]
      have nowhere : ∀ file, disk.ledger ≠ some file := by simp [present]
      have chainless : ProcessViews disk entries { process with chain := none } := by
        intro state chain
        cases chain
      split
      · exact ⟨chainless, id, fun _ => ⟨rfl, rfl⟩, fun file there => absurd there (nowhere file)⟩
      · exact ⟨chainless, id, fun _ => ⟨rfl, rfl⟩, fun file there => absurd there (nowhere file)⟩
  | some file =>
      obtain ⟨state, syncs⟩ := exists_syncsTo mode now holds present views
      rw [syncs.sync]
      refine ⟨?_, syncState_marks syncs.view holds.contiguous, ?_, ?_⟩
      · intro other chain
        rw [syncState_process] at chain
        obtain rfl := Option.some.inj chain
        exact .complete syncs.view
      · intro absent
        rw [present] at absent
        cases absent
      · intro found same
        obtain rfl := Option.some.inj (present.symm.trans same)
        exact ⟨state, syncState_state _ _ _ _, syncs.view, syncs.identity⟩

theorem syncChain_unbroken {mode : LedgerReadMode} {now : ℤ}
    (views : ProcessViews disk entries process)
    (marks : MarkHolds entries process) (unmarked : disk.marker = none) :
    (syncChain sha disk mode now process).broken = none ↔ ¬ LosesAnchor mode now disk process := by
  have unmarked' : readBrokenMarker disk.marker = none := by
    rw [unmarked]
    rfl
  cases present : disk.ledger with
  | none =>
      have markless : process.highWater = none := by
        cases marked : process.highWater with
        | none => rfl
        | some mark =>
            have := (marks mark marked).1
            rw [holds.absent present] at this
            cases this
      rw [syncChain_absent holds present, markless]
      simp only [unmarked', true_iff]
      rintro ⟨state, file, anchor, -, there, -⟩
      rw [present] at there
      cases there
  | some file =>
      obtain ⟨state, syncs⟩ := exists_syncsTo mode now holds present views
      have reached := nextSeq_of_describes syncs.view.toDescribes holds.contiguous
      have anchored : anchorFault state (readAnchor disk.anchor) = none ↔
          ¬ LosesAnchor mode now disk process := by
        rcases holds.anchor.readable with missing | ⟨record, read⟩
        · rw [missing]
          simp only [anchorFault, true_iff]
          rintro ⟨other, file, anchor, -, -, read, -⟩
          rw [missing] at read
          cases read
        · have recorded := holds.anchor
          rw [read, anchorHolds_ok] at recorded
          have within : record.seq < entries.length := by
            by_contra! beyond
            rw [hashAt_eq_none beyond] at recorded
            cases recorded
          rw [read, anchorFault, reached, if_neg (by omega)]
          by_cases loses : LosesAnchor mode now disk process
          · rw [syncs.loses loses record read]
            simp [loses]
          · rw [syncs.confirms loses record read, recorded]
            simp [loses]
      have kept : ∀ head, state.head = some head →
          process.highWater.bind (highWaterFault state head) = none := by
        intro head top
        cases marked : process.highWater with
        | none => rfl
        | some mark =>
            obtain ⟨known, genesis⟩ := marks mark marked
            have within : mark.seq < entries.length := by
              by_contra! beyond
              rw [hashAt_eq_none beyond] at known
              cases known
            have seq : head.seq + 1 = entries.length := by
              rw [← reached, top]
              rfl
            rw [Option.bind_some, highWaterFault, if_neg (by
              rw [genesis, syncs.view.genesisHash]; simp), if_neg (by omega)]
            split
            · rfl
            · rename_i hash found
              have sound := hashAt_of_knownHash syncs.view.toDescribes holds.contiguous found
              rw [known] at sound
              rw [if_pos (Option.some.inj sound).symm]
      rw [syncs.sync, syncState]
      simp only [unmarked']
      cases fault : anchorFault state (readAnchor disk.anchor) with
      | some info =>
          rw [fault] at anchored
          simpa using anchored
      | none =>
          simp only [← anchored, fault, iff_true]
          split
          · rfl
          · rename_i head top
            rw [kept head top]

/-! An append. -/

theorem LedgerHolds.seq_safe :
    (entries.length : ℤ) ≤ JsNumber.maxSafeInteger := by
  have limit : (ledgerMaxBytes : ℤ) ≤ JsNumber.maxSafeInteger := by decide
  cases present : disk.ledger with
  | none =>
      rw [holds.absent present]
      decide
  | some file =>
      have lines := length_le_linesOf entries
      have size := holds.size file present
      rw [(holds.lines file present).bytes, List.length_append] at size
      omega

end

theorem Ready.appendable (ready : Ready sha disk state entries) {now : ℤ}
    (plain : plainYear now = true) (grantId : input.grantId.all grantIdPattern = true)
    (repo : input.repo.all nameWithOwnerPattern = true)
    (genesis : state.head = none → input.kind = .ledgerGenesis) :
    Appendable state.head now input where
  plain := plain
  seq_safe := by
    rw [nextSeq_of_describes ready.view.toDescribes ready.holds.contiguous]
    exact ready.holds.seq_safe
  instant := by
    intro last top
    rw [Option.mem_def, ready.view.head] at top
    obtain ⟨front, newest, rfl⟩ : ∃ front newest, entries = front ++ [newest] := by
      cases entries using List.reverseRecOn with
      | nil => cases top
      | append_singleton front newest => exact ⟨front, newest, rfl⟩
    rw [lastHead_append] at top
    obtain rfl : newest.head = last := Option.some.inj top
    exact (ready.holds.chained.wellFormed (by simp)).instant
  grantId := grantId
  repo := repo
  genesis := genesis

section

variable (written : Written sha disk process identity input entries more result)
include written

theorem Written.views (views : ProcessViews disk entries process)
    (chainless : disk.ledger = none → process.chain = none) :
    ProcessViews result.disk (entries ++ more) result.process := by
  intro state chain
  rcases written.process with same | noted
  · rw [same] at chain
    refine (views state chain).extends written.extends fun absent => ?_
    rw [chainless absent] at chain
    cases chain
  · obtain ⟨mark, process, -⟩ := noted.process
    rw [process] at chain
    obtain rfl := Option.some.inj chain
    exact .complete noted.view

theorem Written.marks
    (marks : MarkHolds entries process) : MarkHolds (entries ++ more) result.process := by
  rcases written.process with same | noted
  · rw [same]
    exact marks.append more
  · obtain ⟨mark, process, known, genesis⟩ := noted.process
    intro other marked
    rw [process] at marked
    obtain rfl := Option.some.inj marked
    exact ⟨known, genesis⟩

theorem Written.chainless
    (chainless : disk.ledger = none → process.chain = none) (absent : result.disk.ledger = none) :
    result.process.chain = none := by
  rcases written.process with same | noted
  · rw [same]
    refine chainless ?_
    cases there : disk.ledger with
    | none => rfl
    | some file =>
        obtain ⟨next, here, -⟩ := written.keeps file there
        rw [here] at absent
        cases absent
  · obtain ⟨file, there, -⟩ := noted.here
    rw [there] at absent
    cases absent

end

structure TxReady (sha : HashFunction) (tx : LedgerTransaction) (entries : List LedgerEntry) :
    Prop where
  holds : LedgerHolds sha tx.disk entries
  views : ProcessViews tx.disk entries tx.process
  state : ∀ state, tx.state = some state → Ready sha tx.disk state entries
  stateless : tx.state = none → tx.disk.ledger = none
  chainless : tx.disk.ledger = none → tx.process.chain = none

structure Appended (sha : HashFunction) (tx : LedgerTransaction) (entries : List LedgerEntry)
    (identities : List ℕ) (input : LedgerAppendInput) (more : List LedgerEntry)
    (outcome : LedgerTransaction × Option LedgerEntry) : Prop where
  extended : Extends sha tx.disk entries identities outcome.1.disk more
  views : ProcessViews outcome.1.disk (entries ++ more) outcome.1.process
  marks : MarkHolds entries tx.process → MarkHolds (entries ++ more) outcome.1.process
  chainless : outcome.1.disk.ledger = none → outcome.1.process.chain = none
  rows : ∀ row ∈ more, row.kind = .ledgerGenesis ∨
    row.kind = input.kind ∧ normalize (.obj input.data) = .obj row.data
  success : ∀ entry, outcome.2 = some entry →
    (∃ front, more = front ++ [entry] ∧ (entries ≠ [] → front = [])) ∧
      (entry.kind = input.kind ∧ normalize (.obj input.data) = .obj entry.data) ∧
      TxReady sha outcome.1 (entries ++ more) ∧
      outcome.1.snapshot.chain ≠ .broken ∧
      ∃ file, outcome.1.disk.ledger = some file ∧ file.bytes = linesOf (entries ++ more)

variable {tx : LedgerTransaction}

theorem appended_nothing (ready : TxReady sha tx entries) (identities : List ℕ)
    (input : LedgerAppendInput) : Appended sha tx entries identities input [] (tx, none) where
  extended := .refl ready.holds identities
  views := by simpa using ready.views
  marks := by simp
  chainless := ready.chainless
  rows := by simp
  success := by simp

theorem Noted.ready (noted : Noted result entries) (holds : LedgerHolds sha result.disk entries) :
    Ready sha result.disk result.state entries := by
  obtain ⟨file, there, same⟩ := noted.here
  refine ⟨holds, noted.view, ?_⟩
  intro other present
  obtain rfl := Option.some.inj (there.symm.trans present)
  exact same

theorem Written.txReady {entry : LedgerEntry}
    (written : Written sha tx.disk tx.process identity input entries more result)
    (views : ProcessViews tx.disk entries tx.process)
    (chainless : tx.disk.ledger = none → tx.process.chain = none)
    (returned : result.entry = some entry) (snapshot : LedgerSnapshot) :
    TxReady sha { tx.wrote result with snapshot := snapshot } (entries ++ more) := by
  obtain ⟨-, noted, file, there, -⟩ := written.success entry returned
  refine ⟨written.holds, written.views views chainless, ?_, ?_, ?_⟩
  · intro state kept
    obtain rfl := Option.some.inj kept
    exact noted.ready written.holds
  · intro none'
    cases none'
  · intro absent
    rw [LedgerTransaction.wrote, there] at absent
    cases absent

theorem appendRow_appended (step : WriteStep) (input : LedgerAppendInput)
    (views : ProcessViews tx.disk entries tx.process)
    (chainless : tx.disk.ledger = none → tx.process.chain = none)
    (ready : Ready sha tx.disk state entries) (appendable : Appendable state.head step.now input) :
    ∃ more, Appended sha tx entries [step.identity] input more
      (tx.appendRow sha state step input) := by
  obtain ⟨more, written⟩ := writeEntry_written tx.process step input ready appendable
  refine ⟨more, ?_⟩
  unfold LedgerTransaction.appendRow
  dsimp only
  cases returned : (writeEntry sha tx.disk tx.process state step input).entry with
  | none =>
      exact ⟨written.extends, written.views views chainless, written.marks,
        written.chainless chainless, fun row member => .inr (written.rows row member), by simp⟩
  | some entry =>
      refine ⟨written.extends, written.views views chainless, written.marks,
        written.chainless chainless, fun row member => .inr (written.rows row member), ?_⟩
      intro found same
      obtain rfl := Option.some.inj same
      obtain ⟨rfl, noted, file, there, bytes⟩ := written.success _ returned
      refine ⟨⟨[], rfl, fun _ => rfl⟩, written.rows _ (by simp),
        written.txReady views chainless returned _, ?_, file, there, bytes⟩
      rw [snapshotOf_chain_standing noted.view.head]
      exact standing_ne_broken _

theorem Appended.afterGenesis {early late : List ℕ}
    {genesis : WriteResult} {first : List LedgerEntry} {snapshot : LedgerSnapshot}
    {outcome : LedgerTransaction × Option LedgerEntry} (empty : entries = [])
    (start : Extends sha tx.disk entries early genesis.disk first)
    (marks : MarkHolds entries tx.process → MarkHolds (entries ++ first) genesis.process)
    (rows : ∀ row ∈ first, row.kind = .ledgerGenesis)
    (appended : Appended sha { tx.wrote genesis with snapshot := snapshot } (entries ++ first)
      late input more outcome) :
    Appended sha tx entries (early ++ late) input (first ++ more) outcome := by
  refine ⟨start.trans appended.extended, ?_, ?_, appended.chainless, ?_, ?_⟩
  · rw [← List.append_assoc]
    exact appended.views
  · intro holds
    rw [← List.append_assoc]
    exact appended.marks (marks holds)
  · intro row member
    rcases List.mem_append.mp member with genesis | later
    · exact .inl (rows row genesis)
    · exact appended.rows row later
  · intro entry returned
    obtain ⟨⟨front, rfl, -⟩, facts, ready, sound, file⟩ := appended.success entry returned
    rw [← List.append_assoc entries]
    exact ⟨⟨first ++ front, by simp, fun nonempty => absurd empty nonempty⟩, facts, ready,
      sound, file⟩

theorem appendFirst_appended {step : AppendStep} (views : ProcessViews tx.disk entries tx.process)
    (chainless : tx.disk.ledger = none → tx.process.chain = none)
    (ready : Ready sha tx.disk state entries) (headless : state.head = none)
    (plain : plainYear step.genesis.now = true ∧ plainYear step.row.now = true)
    (grantId : input.grantId.all grantIdPattern = true)
    (repo : input.repo.all nameWithOwnerPattern = true) :
    ∃ more, Appended sha tx entries [step.genesis.identity, step.row.identity] input more
      (tx.appendFirst sha state step input) := by
  have empty : entries = [] := by
    have reached := nextSeq_of_describes ready.view.toDescribes ready.holds.contiguous
    rw [headless] at reached
    exact List.eq_nil_of_length_eq_zero reached.symm
  have genesis : Appendable state.head step.genesis.now
      (genesisInput step.hostBinding .daemon) :=
    ready.appendable plain.1 rfl rfl fun _ => rfl
  obtain ⟨first, written⟩ := writeEntry_written tx.process step.genesis _ ready genesis
  have genesisRows : ∀ row ∈ first, row.kind = .ledgerGenesis :=
    fun row member => (written.rows row member).1
  unfold LedgerTransaction.appendFirst
  dsimp only
  cases returned : (writeEntry sha tx.disk tx.process state step.genesis
      (genesisInput step.hostBinding .daemon)).entry with
  | none =>
      refine ⟨first, { written.extends with creates := ?_ },
        written.views views chainless, written.marks, written.chainless chainless,
        fun row member => .inl (genesisRows row member), by simp⟩
      intro absent file present
      rw [written.creates absent file present]
      exact List.mem_cons_self
  | some entry =>
      have next := written.txReady views chainless returned tx.snapshot
      obtain ⟨-, noted, -⟩ := written.success entry returned
      have ready' := noted.ready written.holds
      have headed : (writeEntry sha tx.disk tx.process state step.genesis
          (genesisInput step.hostBinding .daemon)).state.head ≠ none := by
        rw [noted.view.head, empty]
        obtain ⟨rfl, -⟩ := written.success entry returned
        simp
      obtain ⟨more, appended⟩ := appendRow_appended step.row input
        next.views next.chainless ready'
        (ready'.appendable plain.2 grantId repo fun none' => absurd none' headed)
      exact ⟨first ++ more, appended.afterGenesis empty written.extends written.marks genesisRows⟩

theorem append_appended (step : AppendStep) (input : LedgerAppendInput)
    (ready : TxReady sha tx entries)
    (plain : plainYear step.genesis.now = true ∧ plainYear step.row.now = true) :
    ∃ more, Appended sha tx entries [step.genesis.identity, step.row.identity] input more
      (tx.append sha step input) := by
  unfold LedgerTransaction.append
  by_cases refused : (validateInput input).isSome = true ∨ tx.snapshot.chain = .broken
  · rw [if_pos refused]
    exact ⟨[], appended_nothing ready _ _⟩
  · rw [if_neg refused]
    have valid : validateInput input = none := by
      cases invalid : validateInput input with
      | none => rfl
      | some reason => exact absurd (.inl (by rw [invalid]; rfl)) refused
    unfold validateInput at valid
    split_ifs at valid with own grantId repo
    simp only [Bool.not_eq_false] at grantId repo
    cases kept : tx.state with
    | none =>
        have absent := ready.stateless kept
        have empty := ready.holds.absent absent
        simp only [absent, Option.isSome_none, Bool.false_eq_true, ↓reduceIte]
        have ready' : Ready sha tx.disk (freshState 0 [] step.createdAt) entries := by
          refine ⟨ready.holds, ?_, ?_⟩
          · rw [empty]
            exact view_freshState 0 [] step.createdAt
          · intro file present
            rw [absent] at present
            cases present
        exact appendFirst_appended ready.views ready.chainless ready' rfl plain grantId repo
    | some state =>
        have ready' := ready.state state kept
        dsimp only
        cases top : state.head with
        | none =>
            exact appendFirst_appended ready.views ready.chainless ready' top plain grantId repo
        | some head =>
            obtain ⟨more, appended⟩ := appendRow_appended step.row input
              ready.views ready.chainless ready'
              (ready'.appendable plain.2 grantId repo fun none' => by rw [top] at none'; cases
                none')
            refine ⟨more, { appended with extended := { appended.extended with creates := ?_ } }⟩
            intro absent file present
            have := appended.extended.creates absent file present
            simp only [List.mem_singleton] at this
            simp [this]

end AshlrHub.Authority

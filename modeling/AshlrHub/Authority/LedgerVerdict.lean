import AshlrHub.Authority.LedgerPass

namespace AshlrHub.Authority

open Js

/-! What the two verifiers conclude, in terms of one pass over the complete lines. -/

def ReadState.pushAll (state : ReadState) (opts : LedgerReadOptions)
    (entries : List LedgerEntry) : ReadState :=
  entries.foldl (fun state entry => state.push opts entry) state

section

variable (state : ReadState) (opts : LedgerReadOptions)
include state opts

theorem pushAll_head (entries : List LedgerEntry) :
    (state.pushAll opts entries).head = lastHead state.head entries := by
  induction entries generalizing state with
  | nil => rfl
  | cons entry entries ih => exact ih (state.push opts entry)

theorem pushAll_recent (entries : List LedgerEntry) :
    (state.pushAll opts entries).recent = entries.foldl pushRecent state.recent := by
  induction entries generalizing state with
  | nil => rfl
  | cons entry entries ih => exact ih (state.push opts entry)

theorem pushAll_append (first second : List LedgerEntry) :
    state.pushAll opts (first ++ second) = (state.pushAll opts first).pushAll opts second :=
  List.foldl_append

end

theorem readLines_eq (sha : HashFunction) (opts : LedgerReadOptions) (state : ReadState)
    (lines : List Bytes) :
    readLines sha opts state lines =
      (state.pushAll opts (verifyLines sha state.head lines).1,
        (verifyLines sha state.head lines).2) := by
  induction lines generalizing state with
  | nil => rfl
  | cons line lines ih =>
      rw [readLines, verifyLines]
      cases verifyLine sha state.head line with
      | error stop => rfl
      | ok entry => exact ih (state.push opts entry)

theorem verifyLine_oversized (sha : HashFunction) (head : Option LedgerHead) {line : Bytes}
    (large : ledgerMaxLineBytes < line.length) :
    verifyLine sha head line = .error (.broken (oversizedInfo (nextSeq head))) := by
  rw [verifyLine, if_pos large]

def PassEnd.isBroken : PassEnd → Bool
  | .broken _ => true
  | _ => false

structure ReadsAs (read : ReadState × PassEnd) (state : ReadState) (opts : LedgerReadOptions)
    (pass : List LedgerEntry × PassEnd) (tail : Bytes) : Prop where
  throws : pass.2 = .throws → read.2 = .throws
  broken : pass.2.isBroken = true → read.2.isBroken = true
  oversized : pass.2 = .ok → ledgerMaxLineBytes + 1 < tail.length → read.2.isBroken = true
  complete : pass.2 = .ok → tail.length ≤ ledgerMaxLineBytes + 1 →
    read = (state.pushAll opts pass.1, .ok)

theorem verifyLines_oversized_tail (sha : HashFunction) (head : Option LedgerHead) {tail : Bytes}
    (inLine : (0x0A : UInt8) ∉ tail) (large : ledgerMaxLineBytes + 1 < tail.length) (rest : Bytes) :
    (verifyLines sha head (splitLines (tail ++ rest)).1).2.isBroken = true ∨
      (splitLines (tail ++ rest)).1 = [] ∧
        ledgerMaxLineBytes + 1 < (splitLines (tail ++ rest)).2.length := by
  rcases splitLines_cases rest with noLine | ⟨line, rest, rfl, lineInLine⟩
  · have whole : (0x0A : UInt8) ∉ tail ++ rest := by simp [inLine, noLine]
    rw [splitLines_of_noNewline whole]
    exact .inr ⟨rfl, by simp only [List.length_append]; omega⟩
  · have whole : (0x0A : UInt8) ∉ tail ++ line := by simp [inLine, lineInLine]
    rw [← List.append_assoc, splitLines_line whole, verifyLines,
      verifyLine_oversized sha head (by simp only [List.length_append]; omega)]
    exact .inl rfl

theorem readChunks_readsAs (sha : HashFunction) (opts : LedgerReadOptions) (state : ReadState)
    (carry rest : Bytes) (inLine : (0x0A : UInt8) ∉ carry)
    (short : carry.length ≤ ledgerMaxLineBytes + 1) :
    ReadsAs (readChunks sha opts state carry rest) state opts
      (verifyLines sha state.head (splitLines (carry ++ rest)).1)
      (splitLines (carry ++ rest)).2 := by
  rw [readChunks]
  split_ifs with finished
  · rw [finished, List.append_nil, splitLines_of_noNewline inLine]
    exact ⟨by simp [verifyLines], by simp [verifyLines, PassEnd.isBroken],
      fun _ large => absurd short (Nat.not_le.mpr large), fun _ _ => rfl⟩
  · have whole : carry ++ rest = carry ++ rest.take chunkSize ++ rest.drop chunkSize := by
      rw [List.append_assoc, List.take_append_drop]
    have split := splitLines_append (carry ++ rest.take chunkSize) (rest.drop chunkSize)
    rw [← whole] at split
    have tailInLine := noNewline_tail (carry ++ rest.take chunkSize)
    dsimp only
    rw [readLines_eq, split, verifyLines_append]
    generalize splitLines (carry ++ rest.take chunkSize) = chunk at tailInLine ⊢
    generalize verified : verifyLines sha state.head chunk.1 = pass
    obtain ⟨entries, stop⟩ := pass
    cases stop with
    | throws => exact ⟨fun _ => rfl, by simp [PassEnd.isBroken], by simp, by simp⟩
    | broken info => exact ⟨by simp, fun _ => rfl, by simp, by simp⟩
    | ok =>
        have head := pushAll_head state opts entries
        simp only [↓reduceIte]
        split_ifs with large
        · rcases verifyLines_oversized_tail sha (lastHead state.head entries) tailInLine large
            (rest.drop chunkSize) with broken | ⟨noLines, still⟩
          · refine ⟨fun throws => ?_, fun _ => rfl, fun _ _ => rfl, fun ok => ?_⟩
            · rw [throws] at broken
              cases broken
            · rw [ok] at broken
              cases broken
          · rw [noLines]
            exact ⟨by simp [verifyLines], fun _ => rfl, fun _ _ => rfl,
              fun _ small => absurd small (by omega)⟩
        · have tail := readChunks_readsAs sha opts (state.pushAll opts entries) chunk.2
            (rest.drop chunkSize) tailInLine (by omega)
          rw [head] at tail
          refine ⟨tail.throws, tail.broken, tail.oversized, fun ok small => ?_⟩
          rw [tail.complete ok small, pushAll_append]
termination_by rest.length
decreasing_by
  have := List.length_pos_of_ne_nil finished
  simp only [List.length_drop, chunkSize]
  omega

/-! The anchor against the entries of the file. -/

def AnchorDisagrees (entries : List LedgerEntry) : AnchorRead → Prop
  | .missing => False
  | .invalid | .throws => True
  | .ok anchor => hashAt entries anchor.seq ≠ some anchor.hash

instance (entries : List LedgerEntry) (anchor : AnchorRead) :
    Decidable (AnchorDisagrees entries anchor) := by
  cases anchor <;> unfold AnchorDisagrees <;> infer_instance

def AnchorForgotten (entries : List LedgerEntry) : AnchorRead → Prop
  | .ok anchor => anchor.seq + recentHashes < entries.length
  | _ => False

instance (entries : List LedgerEntry) (anchor : AnchorRead) :
    Decidable (AnchorForgotten entries anchor) := by
  cases anchor <;> unfold AnchorForgotten <;> infer_instance

variable {entries : List LedgerEntry}

theorem hashAt_eq_none {seq : ℕ} (beyond : entries.length ≤ seq) :
    hashAt entries seq = none := by
  rw [hashAt, List.getElem?_eq_none beyond]
  rfl

theorem exists_hashAt {seq : ℕ} (within : seq < entries.length) :
    ∃ hash, hashAt entries seq = some hash :=
  ⟨entries[seq].hash, by rw [hashAt, List.getElem?_eq_getElem within]; rfl⟩

section

variable (contiguous : Contiguous 0 entries)
include contiguous

theorem nextSeq_of_contiguous :
    nextSeq (lastHead none entries) = entries.length := by
  have reached : nextSeq (lastHead none entries) = 0 + entries.length :=
    nextSeq_lastHead contiguous
  rw [reached, Nat.zero_add]

theorem anchorFault_full (identity : ℕ) (now : ℤ)
    (anchor : AnchorRead) (mark : Option HighWater) (lines : List Bytes) :
    (anchorFault (withLines (noteAll
      (freshState identity (watchList anchor mark) now) entries) lines) anchor).isSome = true ↔
        AnchorDisagrees entries anchor := by
  cases anchor with
  | missing | invalid | throws => simp [anchorFault, AnchorDisagrees]
  | ok anchor =>
      have head := nextSeq_of_contiguous contiguous
      have known : knownHash (withLines (noteAll
          (freshState identity (watchList (.ok anchor) mark) now) entries) lines) anchor.seq =
          hashAt entries anchor.seq :=
        knownHash_full contiguous (by simp [watchList]) identity now
      have reached : (withLines (noteAll
          (freshState identity (watchList (.ok anchor) mark) now) entries) lines).head =
          lastHead none entries := noteAll_head _ entries
      rw [anchorFault, reached, known, head, AnchorDisagrees]
      split_ifs with short
      · simp [hashAt_eq_none short]
      · obtain ⟨hash, found⟩ := exists_hashAt (by omega : anchor.seq < entries.length)
        rw [found]
        dsimp only
        split_ifs with same
        · simp [same]
        · simp [same]

theorem readAnchorFault_iff (opts : LedgerReadOptions)
    (anchor : AnchorRecord) :
    (readAnchorFault (emptyRead.pushAll opts entries) anchor).isSome = true ↔
      AnchorDisagrees entries (.ok anchor) ∧ ¬ AnchorForgotten entries (.ok anchor) := by
  have start : emptyRead.recent = seqHashes (recentEntries []) := by
    simp [emptyRead, recentEntries, seqHashes]
  have recent : (emptyRead.pushAll opts entries).recent = seqHashes (recentEntries entries) := by
    rw [pushAll_recent, start]
    exact @foldl_pushRecent [] _ _ contiguous
  have head : (emptyRead.pushAll opts entries).head = lastHead none entries :=
    pushAll_head emptyRead opts entries
  rw [readAnchorFault, head, recent, nextSeq_of_contiguous contiguous,
    get?_recentEntries anchor.seq contiguous, AnchorDisagrees, AnchorForgotten]
  split_ifs with short near
  · simp only [Option.isSome_some, hashAt_eq_none short, true_iff]
    exact ⟨by simp, by omega⟩
  · obtain ⟨hash, found⟩ := exists_hashAt (by omega : anchor.seq < entries.length)
    rw [found, show entries[anchor.seq]?.map LedgerEntry.hash = some hash from found]
    dsimp only
    split_ifs with same
    · simp [same]
    · simp only [Option.isSome_some, true_iff, ne_eq, Option.some.injEq]
      exact ⟨same, by omega⟩
  · simp only [Option.isSome_none, Bool.false_eq_true, false_iff, not_and, not_not]
    intro _
    omega

end

/-! The verdicts themselves. -/

def standing (entries : List LedgerEntry) : ChainVerdict :=
  if entries = [] then .empty else .ok

theorem lastHead_isSome (entries : List LedgerEntry) :
    (lastHead none entries).isSome = !entries.isEmpty := by
  cases entries with
  | nil => rfl
  | cons entry entries =>
      rw [lastHead_cons]
      induction entries generalizing entry with
      | nil => rfl
      | cons next entries ih => exact ih next

theorem snapshotOf_chain_broken (state : Option ChainState) (info : BrokenInfo) :
    (snapshotOf state (some info)).chain = .broken := rfl

theorem snapshotOf_chain_unbroken (state : Option ChainState) :
    (snapshotOf state none).chain ≠ .broken := by
  unfold snapshotOf
  cases state.bind ChainState.head <;> simp

theorem snapshotOf_chain_standing {state : ChainState} (head : state.head = lastHead none entries) :
    (snapshotOf (some state) none).chain = standing entries := by
  have present := lastHead_isSome entries
  rw [← head] at present
  simp only [snapshotOf, Option.bind_some]
  cases reached : state.head with
  | none =>
      rw [reached] at present
      cases entries with
      | nil => rfl
      | cons entry entries => cases present
  | some last =>
      rw [reached] at present
      cases entries with
      | nil => cases present
      | cons entry entries => rfl

def filePass (sha : HashFunction) (file : File) : List LedgerEntry × PassEnd :=
  verifyLines sha none (splitLines file.bytes).1

def fileTail (file : File) : Bytes :=
  (splitLines file.bytes).2

theorem filePass_contiguous (sha : HashFunction) (file : File) :
    Contiguous 0 (filePass sha file).1 :=
  verifyLines_contiguous sha none (splitLines file.bytes).1

variable {disk : Disk} {file : File}

section

variable (sha : HashFunction)

theorem syncState_chain (now : ℤ) (anchor : AnchorRead) (lines : List Bytes) :
    (snapshotOf
      (syncState disk freshProcess anchor (withLines (noteAll
        (freshState file.identity (watchList anchor none) now) (filePass sha file).1) lines)
        .ok).state
      (syncState disk freshProcess anchor (withLines (noteAll
        (freshState file.identity (watchList anchor none) now) (filePass sha file).1) lines)
        .ok).broken).chain =
      if (readBrokenMarker disk.marker).isSome = true ∨
          AnchorDisagrees (filePass sha file).1 anchor then .broken
      else standing (filePass sha file).1 := by
  have fault := anchorFault_full (filePass_contiguous sha file) file.identity now anchor none lines
  have reached : (withLines (noteAll (freshState file.identity (watchList anchor none) now)
      (filePass sha file).1) lines).head = lastHead none (filePass sha file).1 :=
    noteAll_head _ _
  generalize withLines (noteAll (freshState file.identity (watchList anchor none) now)
      (filePass sha file).1) lines = state at fault reached ⊢
  rw [syncState]
  cases marked : readBrokenMarker disk.marker with
  | some info => simp [snapshotOf_chain_broken]
  | none =>
      cases faulty : anchorFault state anchor with
      | some info =>
          have disagrees := fault.mp (by rw [faulty]; rfl)
          simp [disagrees, snapshotOf_chain_broken]
      | none =>
          have agrees : ¬ AnchorDisagrees (filePass sha file).1 anchor := fun disagrees => by
            have := fault.mpr disagrees
            rw [faulty] at this
            cases this
          simp only [Option.isSome_none, Bool.false_eq_true, agrees, or_self, ↓reduceIte]
          cases head : state.head with
          | none | some head => exact snapshotOf_chain_standing reached

theorem ledgerSnapshot_present (now : ℤ) (present : disk.ledger = some file)
    (owned : file.ownedPrivate = true) :
    (ledgerSnapshot sha disk .full now freshProcess).chain =
      if ledgerMaxBytes < file.bytes.length ∨ (filePass sha file).2 ≠ .ok ∨
          (readBrokenMarker disk.marker).isSome = true ∨
          AnchorDisagrees (filePass sha file).1 (readAnchor disk.anchor) then .broken
      else standing (filePass sha file).1 := by
  rw [ledgerSnapshot, syncChain]
  dsimp only
  generalize readAnchor disk.anchor = anchor
  by_cases threw : anchor = .throws
  · rw [threw]
    simp [AnchorDisagrees, snapshotOf_chain_broken]
  · have consumed : ∀ watch, consumeBytes sha (freshState file.identity watch now) file.bytes =
        (withLines (noteAll (freshState file.identity watch now) (filePass sha file).1)
          ((splitLines file.bytes).1.take (filePass sha file).1.length),
          (filePass sha file).2) := fun watch => consumeLines_eq sha _ _
    have fresh : (freshProcess.chain.filter fun state => !needsFull .full state file
        (watchList anchor freshProcess.highWater) now) = none := rfl
    have large : ledgerMaxBytes < file.bytes.length →
        ¬ (file.bytes.length ≤ ledgerMaxBytes) := by omega
    cases anchor with
    | throws => exact absurd rfl threw
    | missing | invalid | ok =>
        simp only [present, owned, Bool.true_eq_false, ↓reduceIte, fresh, consumed, gt_iff_lt]
        by_cases size : ledgerMaxBytes < file.bytes.length
        · simp [size, snapshotOf_chain_broken]
        · cases passed : (filePass sha file).2 with
          | throws => simp [size, snapshotOf_chain_broken]
          | broken info => simp [size, syncState, snapshotOf_chain_broken]
          | ok =>
              simp only [size, ↓reduceIte, ne_eq, not_true_eq_false, false_or]
              exact syncState_chain sha now _ _

theorem finishRead_chain (disk : Disk) (file : File) (opts : LedgerReadOptions) :
    (finishRead disk (emptyRead.pushAll opts (filePass sha file).1)).map
        LedgerReadResult.chain =
      if readAnchor disk.anchor = .throws then none
      else if AnchorDisagrees (filePass sha file).1 (readAnchor disk.anchor) ∧
          ¬ AnchorForgotten (filePass sha file).1 (readAnchor disk.anchor) then some .broken
      else some (standing (filePass sha file).1) := by
  have head : (emptyRead.pushAll opts (filePass sha file).1).head =
      lastHead none (filePass sha file).1 := pushAll_head _ _ _
  have verdict : (if (emptyRead.pushAll opts (filePass sha file).1).head.isSome then
      ChainVerdict.ok else .empty) = standing (filePass sha file).1 := by
    rw [head, lastHead_isSome, standing]
    cases (filePass sha file).1 <;> rfl
  rw [finishRead, verdict]
  cases readAnchor disk.anchor with
  | throws => rfl
  | missing => simp [AnchorDisagrees]
  | invalid => simp [AnchorDisagrees, AnchorForgotten, brokenRead]
  | ok anchor =>
      have fault := readAnchorFault_iff (filePass_contiguous sha file) opts anchor
      cases faulty : readAnchorFault (emptyRead.pushAll opts (filePass sha file).1) anchor with
      | some info =>
          have := fault.mp (by rw [faulty]; rfl)
          simp [this, faulty, brokenRead]
      | none =>
          have : ¬ (AnchorDisagrees (filePass sha file).1 (.ok anchor) ∧
              ¬ AnchorForgotten (filePass sha file).1 (.ok anchor)) := fun faults => by
            have := fault.mpr faults
            rw [faulty] at this
            cases this
          simp only [faulty, reduceCtorEq, ↓reduceIte, this]
          rfl

def oversizedTail (file : File) : Prop :=
  ledgerMaxLineBytes + 1 < (fileTail file).length

instance (file : File) : Decidable (oversizedTail file) :=
  inferInstanceAs (Decidable (_ < _))

theorem readLedger_present (opts : LedgerReadOptions)
    (present : disk.ledger = some file) (owned : file.ownedPrivate = true) :
    (readLedger sha disk opts).map LedgerReadResult.chain =
      if (filePass sha file).2 = .throws then none
      else if (filePass sha file).2 ≠ .ok ∨ oversizedTail file ∨
          (readBrokenMarker disk.marker).isSome = true then some .broken
      else if readAnchor disk.anchor = .throws then none
      else if AnchorDisagrees (filePass sha file).1 (readAnchor disk.anchor) ∧
          ¬ AnchorForgotten (filePass sha file).1 (readAnchor disk.anchor) then some .broken
      else some (standing (filePass sha file).1) := by
  have reads : ReadsAs (readChunks sha opts emptyRead [] file.bytes) emptyRead opts
      (filePass sha file) (fileTail file) :=
    readChunks_readsAs sha opts emptyRead [] file.bytes (by simp) (by simp)
  rw [← finishRead_chain sha disk file opts, readLedger]
  simp only [present, owned, Bool.true_eq_false, ↓reduceIte]
  generalize readChunks sha opts emptyRead [] file.bytes = read at reads ⊢
  obtain ⟨state, stop⟩ := read
  cases passed : (filePass sha file).2 with
  | throws =>
      obtain rfl : stop = .throws := reads.throws passed
      rfl
  | broken info =>
      have broken := reads.broken (by rw [passed]; rfl)
      cases stop with
      | broken info => rfl
      | ok | throws => cases broken
  | ok =>
      simp only [reduceCtorEq, ↓reduceIte, ne_eq, not_true_eq_false, false_or]
      by_cases large : oversizedTail file
      · have broken := reads.oversized passed large
        cases stop with
        | broken info => simp [large, brokenRead]
        | ok | throws => cases broken
      · obtain ⟨rfl, rfl⟩ := Prod.mk.inj
          (reads.complete passed (by unfold oversizedTail at large; omega))
        cases marked : readBrokenMarker disk.marker with
        | some info => simp [brokenRead]
        | none => simp [large]

/-! When the two verdicts are the same. -/

def VerifiersAgreeOn (disk : Disk) : Prop :=
  match disk.ledger with
  | none =>
      -- only the snapshot looks at an unreadable anchor when the ledger is missing
      readAnchor disk.anchor ≠ .throws ∧
        (readAnchor disk.anchor = .invalid → (readBrokenMarker disk.marker).isSome = true)
  | some file =>
      file.ownedPrivate = true →
        (filePass sha file).2 ≠ .throws ∧
          ((filePass sha file).2 = .ok → readBrokenMarker disk.marker = none →
            let faulty := ledgerMaxBytes < file.bytes.length ∨
              AnchorDisagrees (filePass sha file).1 (readAnchor disk.anchor)
            if oversizedTail file then faulty
            else
              readAnchor disk.anchor ≠ .throws ∧
                (faulty → AnchorDisagrees (filePass sha file).1 (readAnchor disk.anchor) ∧
                  ¬ AnchorForgotten (filePass sha file).1 (readAnchor disk.anchor)))

theorem standing_ne_broken (entries : List LedgerEntry) : standing entries ≠ .broken := by
  unfold standing
  split_ifs <;> simp

theorem verdicts_eq_iff {anchor : AnchorRead} {marker : Option BrokenInfo}
    {pass : List LedgerEntry × PassEnd} {stands : ChainVerdict} (sound : stands ≠ .broken)
    (passed : pass.2 = .ok) :
    ((if pass.2 = .throws then none
      else if pass.2 ≠ .ok ∨ oversizedTail file ∨ marker.isSome = true then some .broken
      else if anchor = .throws then none
      else if AnchorDisagrees pass.1 anchor ∧ ¬ AnchorForgotten pass.1 anchor then some .broken
      else some stands) =
        some (if ledgerMaxBytes < file.bytes.length ∨ pass.2 ≠ .ok ∨ marker.isSome = true ∨
          AnchorDisagrees pass.1 anchor then .broken else stands)) ↔
      (true = true → pass.2 ≠ .throws ∧ (pass.2 = .ok → marker = none →
        let faulty := ledgerMaxBytes < file.bytes.length ∨ AnchorDisagrees pass.1 anchor
        if oversizedTail file then faulty
        else anchor ≠ .throws ∧ (faulty → AnchorDisagrees pass.1 anchor ∧
          ¬ AnchorForgotten pass.1 anchor))) := by
  cases marker with
  | some info => simp [passed]
  | none =>
      by_cases tail : oversizedTail file
      · by_cases faulty : ledgerMaxBytes < file.bytes.length ∨ AnchorDisagrees pass.1 anchor
        · simp [passed, tail, faulty]
        · simp [passed, tail, faulty, sound.symm]
      · by_cases threw : anchor = .throws
        · simp [passed, tail, threw]
        · by_cases found : AnchorDisagrees pass.1 anchor ∧ ¬ AnchorForgotten pass.1 anchor
          · simp [passed, tail, threw, found]
          · by_cases faulty : ledgerMaxBytes < file.bytes.length ∨ AnchorDisagrees pass.1 anchor
            · simp only [passed, tail, threw, found, faulty, sound, ne_eq, not_true_eq_false,
                Option.isSome_none, Bool.false_eq_true, false_or, or_false, ↓reduceIte,
                Option.some.injEq, not_false_eq_true, reduceCtorEq, true_and, forall_const]
            · simp [passed, tail, threw, found, faulty]

/-- The reader reports the verdict of a fresh process's full snapshot exactly on the
files where the conditions hold. -/
theorem readLedger_eq_ledgerSnapshot_iff (disk : Disk) (opts : LedgerReadOptions) (now : ℤ) :
    (readLedger sha disk opts).map LedgerReadResult.chain =
        some (ledgerSnapshot sha disk .full now freshProcess).chain ↔
      VerifiersAgreeOn sha disk := by
  unfold VerifiersAgreeOn
  cases present : disk.ledger with
  | none =>
      simp only [readLedger, ledgerSnapshot, syncChain, present]
      cases readAnchor disk.anchor with
      | throws => simp
      | ok anchor => simp [brokenRead, snapshotOf_chain_broken]
      | missing =>
          cases readBrokenMarker disk.marker with
          | none => simp [freshProcess, snapshotOf]
          | some info => simp [freshProcess, brokenRead, snapshotOf_chain_broken]
      | invalid =>
          cases readBrokenMarker disk.marker with
          | none => simp [snapshotOf_chain_broken]
          | some info => simp [brokenRead, snapshotOf_chain_broken]
  | some file =>
      dsimp only
      cases owned : file.ownedPrivate with
      | false =>
          have snapshot : (ledgerSnapshot sha disk .full now freshProcess).chain = .broken := by
            rw [ledgerSnapshot, syncChain]
            cases readAnchor disk.anchor <;> simp [present, owned, snapshotOf_chain_broken]
          simp [readLedger, present, owned, snapshot, brokenRead]
      | true =>
          rw [readLedger_present sha opts present owned,
            ledgerSnapshot_present sha now present owned]
          have stands := standing_ne_broken (filePass sha file).1
          by_cases threw : (filePass sha file).2 = .throws
          · simp [threw]
          · by_cases passed : (filePass sha file).2 = .ok
            · exact verdicts_eq_iff stands passed
            · simp [threw, passed]

end

def anchorWithoutLedger : Disk :=
  ⟨none, some ⟨1, true, utf8Encode (js "\x7b\x7d")⟩, none⟩

def everyEntry : LedgerReadOptions :=
  ⟨none, none, none, none, none, none⟩

theorem verifiers_differ_on_anchorWithoutLedger :
    (readLedger sha256 anchorWithoutLedger everyEntry).map LedgerReadResult.chain =
        some .empty ∧
      (ledgerSnapshot sha256 anchorWithoutLedger .full 0 freshProcess).chain = .broken := by
  decide +kernel

end AshlrHub.Authority

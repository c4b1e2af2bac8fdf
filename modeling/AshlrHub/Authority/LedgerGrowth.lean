import AshlrHub.Authority.LedgerRun

namespace AshlrHub.Authority

open Js Lib

/-! Reads of a ledger file that grows. -/

structure GrowthRead where
  mode : LedgerReadMode
  now : ℤ
  length : ℕ
  anchor : Option File
  marker : Option File

def GrowthRead.disk (read : GrowthRead) (file : File) : Disk :=
  ⟨some { file with bytes := file.bytes.take read.length }, read.anchor, read.marker⟩

def GrowthRead.sync (read : GrowthRead) (sha : HashFunction) (file : File)
    (process : LedgerProcess) : SyncResult :=
  syncChain sha (read.disk file) read.mode read.now process

def GrowthStep (sha : HashFunction) (file : File) (process : LedgerProcess) (read : GrowthRead)
    (next : LedgerProcess) : Prop :=
  next = (read.sync sha file process).process

def fullPass (sha : HashFunction) (file : File) (watch : List ℕ) (now : ℤ) : ChainState :=
  (consumeBytes sha (freshState file.identity watch now) file.bytes).1

structure Grown (sha : HashFunction) (bytes : Bytes) (lines : List Bytes) (state : ChainState) :
    Prop where
  front : lines <+: (splitLines bytes).1
  entries : ∃ entries, verifyLines sha none lines = (entries, .ok) ∧ Describes state entries
  prefixBytes : state.prefixBytes = fileOf lines
  verifiedBytes : state.verifiedBytes = (fileOf lines).length

section

variable {sha : HashFunction} {bytes : Bytes} {lines : List Bytes} {state : ChainState}

theorem fileOf_append (first second : List Bytes) :
    fileOf (first ++ second) = fileOf first ++ fileOf second :=
  List.flatMap_append

theorem splitLines_fileOf_append (single : ∀ line ∈ lines, (0x0A : UInt8) ∉ line) (rest : Bytes) :
    splitLines (fileOf lines ++ rest) = (lines ++ (splitLines rest).1, (splitLines rest).2) := by
  rw [splitLines_append, splitLines_fileOf single]
  rfl

theorem grown_freshState (identity : ℕ) (watch : List ℕ) (now : ℤ) :
    Grown sha bytes [] (freshState identity watch now) where
  front := List.nil_prefix
  entries := ⟨[], rfl, describes_freshState identity watch now⟩
  prefixBytes := rfl
  verifiedBytes := rfl

theorem Grown.addWatch (grown : Grown sha bytes lines state) (watch : List ℕ) :
    Grown sha bytes lines (addWatch state watch) where
  front := grown.front
  entries := by
    obtain ⟨entries, verified, described⟩ := grown.entries
    exact ⟨entries, verified, { described with }⟩
  prefixBytes := grown.prefixBytes
  verifiedBytes := grown.verifiedBytes

theorem Grown.begins (grown : Grown sha bytes lines state) :
    ∃ rest, bytes = fileOf lines ++ rest := by
  obtain ⟨more, split⟩ := grown.front
  have joined := join_splitLines bytes
  rw [← split] at joined
  exact ⟨fileOf more ++ (splitLines bytes).2, by
    rw [← List.append_assoc, ← fileOf_append]
    exact joined.symm⟩

variable {length : ℕ}

theorem Grown.take (grown : Grown sha bytes lines state) (reaches : state.verifiedBytes ≤ length) :
    ∃ rest, bytes.take length = fileOf lines ++ rest := by
  obtain ⟨rest, split⟩ := grown.begins
  rw [grown.verifiedBytes] at reaches
  exact ⟨rest.take (length - (fileOf lines).length), by
    rw [split, List.take_append, List.take_of_length_le reaches]⟩

theorem Grown.single (grown : Grown sha bytes lines state) :
    ∀ line ∈ lines, (0x0A : UInt8) ∉ line :=
  fun line member => noNewline_lines bytes line (grown.front.subset member)

theorem splitLines_take_prefix (bytes : Bytes) (length : ℕ) :
    (splitLines (bytes.take length)).1 <+: (splitLines bytes).1 := by
  have whole := splitLines_append (bytes.take length) (bytes.drop length)
  rw [List.take_append_drop] at whole
  exact ⟨_, (congrArg Prod.fst whole).symm⟩

section

variable (valid : (verifyLines sha none (splitLines bytes).1).2 = .ok)
include valid

theorem verifyLines_front {front : List Bytes}
    (early : front <+: (splitLines bytes).1) : (verifyLines sha none front).2 = .ok := by
  obtain ⟨rest, split⟩ := early
  rw [← split, verifyLines_append] at valid
  by_contra failed
  rw [if_neg failed] at valid
  exact failed valid

theorem Grown.consume
    (grown : Grown sha bytes lines state) (reaches : state.verifiedBytes ≤ length) :
    ∃ after, consumeBytes sha state ((bytes.take length).drop state.verifiedBytes) =
        (after, .ok) ∧
      Grown sha bytes (splitLines (bytes.take length)).1 after := by
  obtain ⟨rest, cut⟩ := grown.take reaches
  have front := splitLines_take_prefix bytes length
  have verified := verifyLines_front valid front
  obtain ⟨seen, before, described⟩ := grown.entries
  have lines : (splitLines (bytes.take length)).1 = lines ++ (splitLines rest).1 := by
    rw [cut, splitLines_fileOf_append grown.single]
  have dropped : (bytes.take length).drop state.verifiedBytes = rest := by
    rw [cut, grown.verifiedBytes, List.drop_left]
  -- the pass over the rest, apart
  have pass := verified
  rw [lines, verifyLines_append, before, if_pos rfl] at pass
  generalize more : verifyLines sha (lastHead none seen) (splitLines rest).1 = onward at pass
  obtain ⟨added, stop⟩ := onward
  obtain rfl : stop = .ok := pass
  have count := verifyLines_length more
  have whole : verifyLines sha none (splitLines (bytes.take length)).1 = (seen ++ added, .ok) := by
    rw [lines, verifyLines_append, before, if_pos rfl, more]
  have contiguous : Contiguous 0 (seen ++ added) := by
    have counted := verifyLines_contiguous sha none (splitLines (bytes.take length)).1
    rwa [whole] at counted
  refine ⟨withLines (noteAll state added) (splitLines rest).1, ?_, front, ?_, ?_, ?_⟩
  · rw [dropped, consumeBytes, consumeLines_eq, described.head, more]
    dsimp only
    rw [count, List.take_length]
  · exact ⟨_, whole, describes_withLines (describes_noteAll described contiguous) _⟩
  · rw [withLines_prefixBytes, noteAll_prefixBytes, grown.prefixBytes, lines, fileOf_append]
    rfl
  · rw [withLines_verifiedBytes, noteAll_verifiedBytes, grown.verifiedBytes, lines, fileOf_append,
      List.length_append]
    rfl

end

/-! Every read keeps the state a view of the first lines of the file. -/

def GrownProcess (sha : HashFunction) (file : File) (process : LedgerProcess) : Prop :=
  ∀ state, process.chain = some state → ∃ lines, Grown sha file.bytes lines state

structure GrowthRead.Opens (read : GrowthRead) (file : File) : Prop where
  anchor : readAnchor read.anchor ≠ .throws
  owned : file.ownedPrivate = true
  size : (file.bytes.take read.length).length ≤ ledgerMaxBytes

variable {file : File} {process : LedgerProcess} {read : GrowthRead}

def GrowthRead.kept (read : GrowthRead) (file : File) (process : LedgerProcess) :
    Option ChainState :=
  process.chain.filter fun state => !needsFull read.mode state
    { file with bytes := file.bytes.take read.length }
    (watchList (readAnchor read.anchor) process.highWater) read.now

theorem sync_startsOver {after : ChainState} (opens : read.Opens file)
    (none' : read.kept file process = none)
    (pass : consumeBytes sha (freshState file.identity
      (watchList (readAnchor read.anchor) process.highWater) read.now)
      (file.bytes.take read.length) = (after, .ok)) :
    read.sync sha file process =
      syncState (read.disk file) process (readAnchor read.anchor) after .ok := by
  have size := Nat.not_lt.mpr opens.size
  have owned := opens.owned
  have quiet := opens.anchor
  clear opens
  obtain ⟨identity, ownedPrivate, bytes⟩ := file
  obtain rfl : ownedPrivate = true := owned
  unfold GrowthRead.kept at none'
  unfold GrowthRead.sync syncChain GrowthRead.disk
  dsimp only
  cases anchor : readAnchor read.anchor with
  | throws => exact absurd anchor quiet
  | missing | invalid | ok record =>
      rw [anchor] at none' pass
      simp only [Bool.true_eq_false, ↓reduceIte, size, none', pass]

theorem sync_goesOn {after : ChainState} (opens : read.Opens file)
    (kept : read.kept file process = some state)
    (unchanged : (file.bytes.take read.length).take state.verifiedBytes = state.prefixBytes)
    (pass : consumeBytes sha (addWatch state
      (watchList (readAnchor read.anchor) process.highWater))
      ((file.bytes.take read.length).drop state.verifiedBytes) = (after, .ok)) :
    read.sync sha file process =
      syncState (read.disk file) process (readAnchor read.anchor) after .ok := by
  have size := Nat.not_lt.mpr opens.size
  have owned := opens.owned
  have quiet := opens.anchor
  clear opens
  obtain ⟨identity, ownedPrivate, bytes⟩ := file
  obtain rfl : ownedPrivate = true := owned
  have start : ∀ watch, (addWatch state watch).verifiedBytes = state.verifiedBytes := fun _ => rfl
  unfold GrowthRead.kept at kept
  unfold GrowthRead.sync syncChain GrowthRead.disk
  dsimp only
  cases anchor : readAnchor read.anchor with
  | throws => exact absurd anchor quiet
  | missing | invalid | ok record =>
      rw [anchor] at kept pass
      simp only [Bool.true_eq_false, ↓reduceIte, size, kept, unchanged, ne_eq, not_true_eq_false,
        and_false, start, pass]

theorem sync_grown (valid : (verifyLines sha none (splitLines file.bytes).1).2 = .ok)
    (grown : GrownProcess sha file process) (opens : read.Opens file) :
    ∃ state, (read.sync sha file process).process.chain = some state ∧
      Grown sha file.bytes (splitLines (file.bytes.take read.length)).1 state := by
  cases found : read.kept file process with
  | none =>
      obtain ⟨after, pass, full⟩ := (grown_freshState file.identity
        (watchList (readAnchor read.anchor) process.highWater) read.now).consume valid
        (Nat.zero_le read.length)
      rw [sync_startsOver opens found pass]
      exact ⟨after, syncState_process .., full⟩
  | some state =>
      obtain ⟨chain, goesOn⟩ := Option.filter_eq_some_iff.mp found
      obtain ⟨lines, view⟩ := grown state chain
      simp only [needsFull, Bool.not_eq_true', Bool.or_eq_false_iff, decide_eq_false_iff_not,
        Nat.not_lt] at goesOn
      have within : state.verifiedBytes ≤ read.length :=
        goesOn.1.1.2.trans (List.length_take_le _ _)
      obtain ⟨rest, cut⟩ := view.take within
      have unchanged : (file.bytes.take read.length).take state.verifiedBytes =
          state.prefixBytes := by
        rw [cut, view.prefixBytes, view.verifiedBytes, List.take_left]
      obtain ⟨after, pass, full⟩ := (view.addWatch (watchList (readAnchor read.anchor)
        process.highWater)).consume valid within
      rw [sync_goesOn opens found unchanged pass]
      exact ⟨after, syncState_process .., full⟩

theorem sync_closed (closed : ¬ read.Opens file) :
    (read.sync sha file process).process.chain = process.chain := by
  have refused : readAnchor read.anchor = .throws ∨ file.ownedPrivate = false ∨
      ledgerMaxBytes < (file.bytes.take read.length).length := by
    by_contra! none'
    exact closed ⟨none'.1, by simpa using none'.2.1, none'.2.2⟩
  unfold GrowthRead.sync syncChain GrowthRead.disk
  dsimp only
  rcases refused with throws | foreign | large
  · rw [throws]
  · cases readAnchor read.anchor <;> simp only [foreign, ↓reduceIte]
  · cases file.ownedPrivate with
    | false => cases readAnchor read.anchor <;> simp only [↓reduceIte]
    | true =>
        cases readAnchor read.anchor <;>
          simp only [Bool.true_eq_false, gt_iff_lt, large, ↓reduceIte]

theorem GrownProcess.step (valid : (verifyLines sha none (splitLines file.bytes).1).2 = .ok)
    (grown : GrownProcess sha file process) {next : LedgerProcess}
    (taken : GrowthStep sha file process read next) : GrownProcess sha file next := by
  obtain rfl := taken
  intro state chain
  by_cases opens : read.Opens file
  · obtain ⟨after, reached, full⟩ := sync_grown valid grown opens
    obtain rfl := Option.some.inj (reached.symm.trans chain)
    exact ⟨_, full⟩
  · rw [sync_closed opens] at chain
    exact grown state chain

end

/-! The incremental state and a full pass. -/

structure SameChain (state other : ChainState) : Prop where
  head : state.head = other.head
  genesisHash : state.genesisHash = other.genesisHash
  verifiedBytes : state.verifiedBytes = other.verifiedBytes
  prefixBytes : state.prefixBytes = other.prefixBytes
  index : state.index = other.index
  recent : state.recent = other.recent
  known : ∀ {seq hash otherHash}, knownHash state seq = some hash →
    knownHash other seq = some otherHash → hash = otherHash

theorem Grown.sameChain {sha : HashFunction} {bytes : Bytes} {lines : List Bytes}
    {state other : ChainState} (grown : Grown sha bytes lines state)
    (otherGrown : Grown sha bytes lines other) : SameChain state other := by
  obtain ⟨entries, verified, described⟩ := grown.entries
  obtain ⟨entries', verified', described'⟩ := otherGrown.entries
  obtain rfl : entries = entries' := by
    rw [verified] at verified'
    exact (Prod.mk.inj verified').1
  have contiguous : Contiguous 0 entries := by
    have counted := verifyLines_contiguous sha none lines
    rwa [verified] at counted
  constructor
  · rw [described.head, described'.head]
  · rw [described.genesisHash, described'.genesisHash]
  · rw [grown.verifiedBytes, otherGrown.verifiedBytes]
  · rw [grown.prefixBytes, otherGrown.prefixBytes]
  · rw [described.index, described'.index]
  · rw [described.recent, described'.recent]
  · intro seq hash otherHash known known'
    have first := hashAt_of_knownHash described contiguous known
    have second := hashAt_of_knownHash described' contiguous known'
    exact Option.some.inj (first.symm.trans second)

/-- However a process reads a file that grows, in cached, prefix-checked and full reads at any
lengths, a read of the whole file leaves it with the head, the verified bytes, the index and the
recent hashes that one pass over the file computes. -/
theorem incremental_sameChain {sha : HashFunction} {file : File}
    (valid : (verifyLines sha none (splitLines file.bytes).1).2 = .ok) {reads : List GrowthRead}
    {process : LedgerProcess} (run : Run (GrowthStep sha file) freshProcess reads process)
    {last : GrowthRead} (opens : last.Opens file) (whole : file.bytes.length ≤ last.length)
    (watch : List ℕ) (now : ℤ) :
    ∃ state, (last.sync sha file process).process.chain = some state ∧
      SameChain state (fullPass sha file watch now) := by
  have grown : GrownProcess sha file process :=
    run.invariant (fun held taken => held.step valid taken) fun state chain => by cases chain
  obtain ⟨state, chain, full⟩ := sync_grown valid grown opens
  obtain ⟨after, pass, fullAfter⟩ := (grown_freshState file.identity watch now).consume valid
    (Nat.zero_le last.length)
  have start : (freshState file.identity watch now).verifiedBytes = 0 := rfl
  rw [start, List.drop_zero, List.take_of_length_le whole] at pass
  refine ⟨state, chain, ?_⟩
  rw [fullPass, pass]
  exact full.sameChain fullAfter

/-! A row that is watched when it is verified, and scrolls out of the recent hashes. -/

def plainRead (length : ℕ) (anchor : Option File) : GrowthRead := ⟨.cached, 0, length, anchor, none⟩

theorem plainRead_holds {sha : HashFunction} {file : File} {seen rest : List LedgerEntry}
    {anchor : Option File} (chained : Chained sha none (seen ++ rest))
    (owned : file.ownedPrivate = true) (bytes : file.bytes = linesOf seen ++ linesOf rest)
      (size : file.bytes.length ≤ ledgerMaxBytes)
      (holds : AnchorHolds seen (readAnchor anchor)) :
    LedgerHolds sha ((plainRead (linesOf seen).length anchor).disk file) seen where
  chained := (chained_append.mp chained).1
  absent none' := by cases none'
  owned other present := by
    obtain rfl := Option.some.inj present
    exact owned
  lines other present := by
    obtain rfl := Option.some.inj present
    have cut : file.bytes.take (linesOf seen).length = linesOf seen ++ [] := by
      rw [bytes, List.take_left, List.append_nil]
    exact fileHolds_of_bytes cut List.not_mem_nil
  size other present := by
    obtain rfl := Option.some.inj present
    exact (List.length_take_le' _ _).trans size
  anchor := holds

variable {state : ChainState}

theorem syncState_fresh {disk : Disk} {anchor : AnchorRead} {head : LedgerHead}
    (marker : disk.marker = none) (sound : anchorFault state anchor = none)
    (headed : state.head = some head) :
    (syncState disk freshProcess anchor state .ok).process =
      ⟨some state, some ⟨head.seq, head.hash, state.genesisHash⟩⟩ := by
  unfold syncState
  dsimp only
  rw [marker, sound, headed]
  rfl

theorem noteAll_unwatched {entries : List LedgerEntry}
    (none' : state.watch = []) : (noteAll state entries).watched = state.watched := by
  induction entries generalizing state with
  | nil => rfl
  | cons entry entries ih =>
      have later := @ih (noteVerified state entry) none'
      have now : (noteVerified state entry).watched = state.watched :=
        if_neg (by rw [none']; exact List.not_mem_nil)
      exact later.trans now

theorem noteAll_lastFullAt (state : ChainState) (entries : List LedgerEntry) :
    (noteAll state entries).lastFullAt = state.lastFullAt :=
  noteAll_keeps state entries (·.lastFullAt) (fun _ _ => rfl)

theorem full_pass_forgets {sha : HashFunction} {file : File} {entries : List LedgerEntry}
    (chained : Chained sha none entries) (bytes : file.bytes = linesOf entries)
    (far : 1 + recentHashes < entries.length) : knownHash (fullPass sha file [] 0) 1 = none := by
  have contiguous : Contiguous 0 entries := chained.contiguous
  have lines : FileHolds file entries :=
    fileHolds_of_bytes (bytes.trans (List.append_nil _).symm) List.not_mem_nil
  have pass := @consumeBytes_view sha file _ [] entries (view_freshState file.identity [] 0) chained
    lines
  have start : (freshState file.identity [] 0).verifiedBytes = 0 := rfl
  rw [start, List.drop_zero] at pass
  have scrolled := (@describes_noteAll _ [] entries (describes_freshState file.identity [] 0)
    contiguous).recent
  rw [fullPass, pass, knownHash_withLines, knownHash, scrolled, List.nil_append,
    get?_recentEntries 1 contiguous, if_neg (not_le.mpr far), noteAll_unwatched rfl]
  rfl

section

variable {sha : HashFunction} {file : File} {seen rest : List LedgerEntry}
  (chained : Chained sha none (seen ++ rest)) (owned : file.ownedPrivate = true)
  (bytes : file.bytes = linesOf (seen ++ rest)) (size : file.bytes.length ≤ ledgerMaxBytes)
  (two : seen.length = 2)
include chained owned bytes size two

theorem anchor_stays_known {anchor : Option File} {record : AnchorRecord}
    (reads : readAnchor anchor = .ok record) (row : record.seq = 1)
    (holds : AnchorHolds seen (.ok record)) :
    ∃ process state,
      GrowthStep sha file freshProcess (plainRead (linesOf seen).length anchor) process ∧
      ((plainRead file.bytes.length none).sync sha file process).process.chain = some state ∧
      knownHash state 1 ≠ none := by
  have early := plainRead_holds chained owned (by rw [bytes, linesOf_append]) size (reads ▸ holds)
  have whole : LedgerHolds sha ((plainRead file.bytes.length none).disk file) (seen ++ rest) := by
    have all : Chained sha none ((seen ++ rest) ++ []) := by rwa [List.append_nil]
    have holds := @plainRead_holds _ _ _ _ none all owned
      (by rw [bytes, linesOf_nil, List.append_nil]) size id
    rwa [← bytes] at holds
  have contiguous := chained.contiguous
  have front : Contiguous 0 seen := (contiguous_append.mp contiguous).1
  -- the first read starts over, watching the anchor's row, and sets the mark at its last row
  have first : SyncsTo sha ((plainRead (linesOf seen).length anchor).disk file) .cached 0
      freshProcess { file with bytes := file.bytes.take (linesOf seen).length } seen _ :=
    syncsTo_full early rfl rfl
  have asked : 1 ∈ watchList (readAnchor anchor) none := by simp [reads, watchList, row]
  have known := knownHash_full front asked file.identity 0
  have watched := @get?_watched_noteAll
    (freshState file.identity (watchList (readAnchor anchor) none) 0) _ _ 1 front asked
  have hashed := anchorHolds_ok.mp holds
  rw [row] at hashed
  rw [hashed] at known
  rw [get?_seqHashes front, if_pos (Nat.zero_le 1), Nat.sub_zero, ← hashAt, hashed] at watched
  generalize begun : withLines (noteAll (freshState file.identity (watchList (readAnchor
    ((plainRead (linesOf seen).length anchor).disk file).anchor) freshProcess.highWater) 0) seen)
      (seen.map lineBytes) = state at first
  replace known : knownHash state 1 = some record.hash := begun ▸ known
  replace watched : state.watched.get? 1 = some record.hash := begun ▸ watched
  have fullAt : state.lastFullAt = 0 := begun ▸ noteAll_lastFullAt _ _
  have reached := nextSeq_of_describes first.view.toDescribes front
  rw [two] at reached
  cases headed : state.head with
  | none =>
      rw [headed] at reached
      cases reached
  | some head =>
      have one : head.seq = 1 := by
        rw [headed] at reached
        exact Nat.succ.inj reached
      have sound : anchorFault state (.ok record) = none := by
        simp [anchorFault, reached, row, known]
      have taken : GrowthStep sha file freshProcess (plainRead (linesOf seen).length anchor)
          ⟨some state, some ⟨head.seq, head.hash, state.genesisHash⟩⟩ := by
        have synced := first.sync
        rw [show readAnchor ((plainRead (linesOf seen).length anchor).disk file).anchor =
          .ok record from reads] at synced
        exact ((congrArg SyncResult.process synced).trans (syncState_fresh rfl sound headed)).symm
      -- the second one goes on from there
      have short : state.verifiedBytes ≤ file.bytes.length := by
        rw [first.view.verifiedBytes, bytes, linesOf_append, List.length_append]
        omega
      have goesOn : needsFull .cached state
          { file with bytes := file.bytes.take file.bytes.length }
          (watchList .missing (some ⟨head.seq, head.hash, state.genesisHash⟩)) 0 = false := by
        simp [needsFull, unconfirmable, watchList, one, first.identity, short, fullAt,
          fullReverifyIntervalMs, known]
      have second : SyncsTo sha ((plainRead file.bytes.length none).disk file) .cached 0
          ⟨some state, some ⟨head.seq, head.hash, state.genesisHash⟩⟩
          { file with bytes := file.bytes.take file.bytes.length } (seen ++ rest) _ :=
        syncsTo_cached whole rfl rfl first.view goesOn
      have later := (contiguous_append.mp contiguous).2
      refine ⟨_, _, taken, (congrArg (fun result => result.process.chain) second.sync).trans
        (syncState_process ..), ?_⟩
      have onList : 1 ∈ (addWatch state
          (watchList .missing (some ⟨head.seq, head.hash, state.genesisHash⟩))).watch :=
        mem_addWatch (by simp [watchList, one])
      have remembered := get?_watched_noteAll later onList
      change _ = Option.or _ (state.watched.get? 1) at remembered
      rw [watched] at remembered
      change knownHash (noteAll (addWatch state (watchList .missing
        (some ⟨head.seq, head.hash, state.genesisHash⟩))) rest) 1 ≠ none
      unfold knownHash
      split
      · exact Option.some_ne_none _
      · rw [remembered]
        simp

end

/-- The anchor stands at row 1 when the process reads the first two rows. -/
structure Scrolled (file : File) (first last : GrowthRead) (process : LedgerProcess)
    (state : ChainState) : Prop where
  valid : (verifyLines sha256 none (splitLines file.bytes).1).2 = .ok
  taken : GrowthStep sha256 file freshProcess first process
  opens : last.Opens file
  whole : file.bytes.length ≤ last.length
  chain : (last.sync sha256 file process).process.chain = some state
  known : knownHash state 1 ≠ none
  forgotten : knownHash (fullPass sha256 file [] 0) 1 = none

theorem exists_scrolled : ∃ file first last process state,
    Scrolled file first last process state := by
  have lagging := lagging_unanchored sha256 (le_refl 512)
  obtain ⟨entries, inv, length⟩ := lagging.entries
  obtain ⟨file, present, -⟩ := lagging.file
  obtain ⟨record, reads, row⟩ := lagging.anchor
  have bytes := (inv.holds.lines file present).bytes
  have size : (linesOf entries).length ≤ ledgerMaxBytes := by
    have bound := inv.holds.size file present
    rw [bytes, List.length_append] at bound
    omega
  have split : entries.take 2 ++ entries.drop 2 = entries := List.take_append_drop 2 entries
  have chained : Chained sha256 none (entries.take 2 ++ entries.drop 2) := by
    rw [split]
    exact inv.holds.chained
  have early : AnchorHolds (entries.take 2) (.ok record) := by
    have holds := inv.holds.anchor
    rw [reads, anchorHolds_ok] at holds
    rw [anchorHolds_ok, hashAt, List.getElem?_take, if_pos (by omega)]
    exact holds
  have two : (entries.take 2).length = 2 := by
    rw [List.length_take]
    omega
  obtain ⟨process, state, taken, chain, known⟩ := @anchor_stays_known sha256
    ⟨file.identity, true, linesOf entries⟩ _ _ chained rfl (by rw [split]) size two _ _ reads row
    early
  refine ⟨_, _, _, process, state, ?_, taken, ⟨?_, rfl, ?_⟩, le_rfl, chain, known,
    full_pass_forgets inv.holds.chained rfl (by rw [recentHashes_eq]; omega)⟩
  · have lines := splitLines_linesOf entries []
    rw [List.append_nil] at lines
    dsimp only
    rw [lines]
    dsimp only [splitLines]
    rw [List.append_nil, verifyLines_chained inv.holds.chained]
  · intro throws
    cases throws
  · exact (List.length_take_le' _ _).trans size

/-- The process knows the hash of the row that its first read was told to watch, and one full
pass over the file knows none. -/
theorem known_hashes_differ : ∃ file first last process state,
    Scrolled file first last process state ∧
      knownHash state 1 ≠ knownHash (fullPass sha256 file [] 0) 1 := by
  obtain ⟨file, first, last, process, state, scrolled⟩ := exists_scrolled
  refine ⟨file, first, last, process, state, scrolled, fun same => scrolled.known ?_⟩
  rw [same, scrolled.forgotten]

theorem incremental_sameChain_scrolled : ∃ file first last process state,
    Scrolled file first last process state ∧ SameChain state (fullPass sha256 file [] 0) := by
  obtain ⟨file, first, last, process, state, scrolled⟩ := exists_scrolled
  obtain ⟨other, chain, same⟩ := incremental_sameChain scrolled.valid (Run.single scrolled.taken)
    scrolled.opens scrolled.whole [] 0
  obtain rfl := Option.some.inj (scrolled.chain.symm.trans chain)
  exact ⟨file, first, last, process, state, scrolled, same⟩

end AshlrHub.Authority

import AshlrHub.Authority.LedgerVerdict
import AshlrHub.Authority.LedgerWrite

namespace AshlrHub.Authority

open Js

/-! What holds of the files of a ledger that only its own writer has touched. -/

def Chained (sha : HashFunction) : Option LedgerHead → List LedgerEntry → Prop
  | _, [] => True
  | head, entry :: entries =>
      (entry.WellFormed sha ∧ entry.Follows (expectedAfter head) ∧
        (lineBytes entry).length ≤ ledgerMaxLineBytes) ∧
        Chained sha (some entry.head) entries

variable {sha : HashFunction} {head : Option LedgerHead}

theorem chained_append {first second : List LedgerEntry} :
    Chained sha head (first ++ second) ↔
      Chained sha head first ∧ Chained sha (lastHead head first) second := by
  induction first generalizing head with
  | nil => simp [Chained]
  | cons entry first ih =>
      rw [List.cons_append, Chained, Chained, ih, lastHead_cons]
      exact and_assoc.symm

variable {entry : LedgerEntry}

theorem chained_singleton (formed : entry.WellFormed sha)
    (follows : entry.Follows (expectedAfter head))
    (short : (lineBytes entry).length ≤ ledgerMaxLineBytes) : Chained sha head [entry] :=
  ⟨⟨formed, follows, short⟩, trivial⟩

variable {entries : List LedgerEntry}

section

variable (chained : Chained sha head entries)
include chained

theorem Chained.contiguous :
    Contiguous (nextSeq head) entries := by
  induction entries generalizing head with
  | nil => trivial
  | cons entry entries ih =>
      obtain ⟨⟨formed, follows, short⟩, chained⟩ := chained
      have seq : entry.seq = nextSeq head := by rw [follows.seq, expectedAfter_seq]
      have next : nextSeq (some entry.head) = nextSeq head + 1 := by
        rw [← seq]
        rfl
      exact ⟨seq, next ▸ ih chained⟩

theorem Chained.wellFormed (member : entry ∈ entries) :
    entry.WellFormed sha := by
  induction entries generalizing head with
  | nil => cases member
  | cons first entries ih =>
      rcases List.mem_cons.mp member with rfl | member
      · exact chained.1.1
      · exact ih chained.2 member

theorem Chained.follows {i : ℕ} {next : LedgerEntry}
    (found : entries[i]? = some entry) (after : entries[i + 1]? = some next) :
    next.Follows (expectedAfter (some entry.head)) := by
  induction entries generalizing head i with
  | nil => simp at found
  | cons first entries ih =>
      cases i with
      | zero =>
          obtain rfl : first = entry := by simpa using found
          cases entries with
          | nil => simp at after
          | cons second entries =>
              obtain rfl : second = next := by simpa using after
              exact chained.2.1.2.1
      | succ i => exact ih chained.2 (by simpa using found) (by simpa using after)

end

theorem verifyLine_lineBytes (formed : entry.WellFormed sha)
    (follows : entry.Follows (expectedAfter head))
    (short : (lineBytes entry).length ≤ ledgerMaxLineBytes) :
    verifyLine sha head (lineBytes entry) = .ok entry := by
  rw [verifyLine, if_neg (by omega), lineBytes, entryText, utf8Decode_writeValue, ← entryText,
    checkLine_entryText formed follows]

theorem verifyLines_chained (chained : Chained sha head entries) :
    verifyLines sha head (entries.map lineBytes) = (entries, .ok) := by
  induction entries generalizing head with
  | nil => rfl
  | cons entry entries ih =>
      obtain ⟨⟨formed, follows, short⟩, chained⟩ := chained
      rw [List.map_cons, verifyLines, verifyLine_lineBytes formed follows short]
      dsimp only
      rw [ih chained]

/-! The bytes of some entries. -/

section

variable (entries : List LedgerEntry)

def linesOf : Bytes :=
  entries.flatMap fun entry => lineBytes entry ++ [0x0A]

@[simp] theorem linesOf_nil : linesOf [] = [] := rfl

theorem linesOf_cons (entry : LedgerEntry) (entries : List LedgerEntry) :
    linesOf (entry :: entries) = lineBytes entry ++ 0x0A :: linesOf entries := by
  rw [linesOf, List.flatMap_cons, List.append_assoc]
  rfl

theorem linesOf_append (first second : List LedgerEntry) :
    linesOf (first ++ second) = linesOf first ++ linesOf second :=
  List.flatMap_append

theorem linesOf_eq : linesOf entries = (entries.map lineBytes).flatMap (· ++ [0x0A]) := by
  rw [linesOf, List.flatMap_map]

theorem linesOf_singleton (entry : LedgerEntry) :
    linesOf [entry] = lineBytes entry ++ [0x0A] :=
  List.flatMap_singleton ..

theorem length_le_linesOf : entries.length ≤ (linesOf entries).length := by
  induction entries with
  | nil => simp
  | cons entry entries ih =>
      rw [linesOf_cons]
      simp only [List.length_append, List.length_cons]
      omega

theorem noNewline_lineBytes (entry : LedgerEntry) : (0x0A : UInt8) ∉ lineBytes entry :=
  newline_notMem_writeValue _

theorem splitLines_linesOf (rest : Bytes) :
    splitLines (linesOf entries ++ rest) =
      (entries.map lineBytes ++ (splitLines rest).1, (splitLines rest).2) := by
  induction entries with
  | nil => rfl
  | cons entry entries ih =>
      rw [linesOf_cons, List.append_assoc, List.cons_append,
        splitLines_line (noNewline_lineBytes entry), ih]
      rfl

end

theorem join_splitLines (bytes : Bytes) :
    (splitLines bytes).1.flatMap (· ++ [0x0A]) ++ (splitLines bytes).2 = bytes := by
  induction bytes with
  | nil => rfl
  | cons byte bytes ih =>
      by_cases newline : byte = 0x0A
      · rw [newline, splitLines_newline]
        simpa using ih
      · rw [splitLines_cons newline]
        rcases split : splitLines bytes with ⟨_ | ⟨line, lines⟩, tail⟩
        · rw [split] at ih
          simpa [consByte] using ih
        · rw [split] at ih
          simpa [consByte] using ih

def FileHolds (file : File) (entries : List LedgerEntry) : Prop :=
  (splitLines file.bytes).1 = entries.map lineBytes

variable {file : File}

theorem FileHolds.bytes (holds : FileHolds file entries) :
    file.bytes = linesOf entries ++ fileTail file := by
  have joined := join_splitLines file.bytes
  rw [holds, ← linesOf_eq] at joined
  exact joined.symm

theorem fileHolds_of_bytes {tail : Bytes} (bytes : file.bytes = linesOf entries ++ tail)
    (inLine : (0x0A : UInt8) ∉ tail) :
    FileHolds file entries := by
  rw [FileHolds, bytes, splitLines_linesOf, splitLines_of_noNewline inLine, List.append_nil]

def AnchorHolds (entries : List LedgerEntry) (anchor : AnchorRead) : Prop :=
  ¬ AnchorDisagrees entries anchor

theorem anchorHolds_ok {anchor : AnchorRecord} :
    AnchorHolds entries (.ok anchor) ↔ hashAt entries anchor.seq = some anchor.hash := by
  rw [AnchorHolds, AnchorDisagrees, ne_eq, not_not]

theorem AnchorHolds.append {anchor : AnchorRead} (holds : AnchorHolds entries anchor)
    (more : List LedgerEntry) :
    AnchorHolds (entries ++ more) anchor := by
  cases anchor with
  | missing => exact id
  | invalid | throws => exact absurd trivial holds
  | ok anchor => exact anchorHolds_ok.mpr (hashAt_append more (anchorHolds_ok.mp holds))

structure LedgerHolds (sha : HashFunction) (disk : Disk) (entries : List LedgerEntry) :
    Prop where
  chained : Chained sha none entries
  absent : disk.ledger = none → entries = []
  owned : ∀ file, disk.ledger = some file → file.ownedPrivate = true
  lines : ∀ file, disk.ledger = some file → FileHolds file entries
  size : ∀ file, disk.ledger = some file → file.bytes.length ≤ ledgerMaxBytes
  anchor : AnchorHolds entries (readAnchor disk.anchor)

variable {disk : Disk}

theorem LedgerHolds.contiguous (holds : LedgerHolds sha disk entries) : Contiguous 0 entries :=
  holds.chained.contiguous

/-! A process's view of the entries it has seen. -/

structure View (state : ChainState) (entries : List LedgerEntry) : Prop
    extends Describes state entries where
  prefixBytes : state.prefixBytes = linesOf entries
  verifiedBytes : state.verifiedBytes = (linesOf entries).length

theorem view_freshState (identity : ℕ) (watch : List ℕ) (now : ℤ) :
    View (freshState identity watch now) [] :=
  { describes_freshState identity watch now with
    prefixBytes := rfl
    verifiedBytes := rfl }

variable {state : ChainState}

theorem view_addWatch (view : View state entries) (watch : List ℕ) :
    View (addWatch state watch) entries :=
  { view with }

theorem view_consume {more : List LedgerEntry} (view : View state entries)
    (contiguous : Contiguous 0 (entries ++ more)) :
    View (withLines (noteAll state more) (more.map lineBytes)) (entries ++ more) := by
  have bytes : (noteAll state more).prefixBytes = state.prefixBytes ∧
      (noteAll state more).verifiedBytes = state.verifiedBytes := by
    clear contiguous view
    induction more generalizing state with
    | nil => exact ⟨rfl, rfl⟩
    | cons entry more ih =>
        have := @ih (noteVerified state entry)
        exact this
  have described := describes_withLines (describes_noteAll view.toDescribes contiguous)
    (more.map lineBytes)
  refine { described with prefixBytes := ?_, verifiedBytes := ?_ }
  · rw [withLines_prefixBytes, bytes.1, view.prefixBytes, ← linesOf_eq, linesOf_append]
  · rw [withLines_verifiedBytes, bytes.2, view.verifiedBytes, ← linesOf_eq, linesOf_append,
      List.length_append]

def ViewsFile (disk : Disk) (entries : List LedgerEntry) (state : ChainState) : Prop :=
  ∀ file, disk.ledger = some file → state.identity = file.identity →
    ∃ seen, seen <+: entries ∧ View state seen

variable {seen rest : List LedgerEntry}

theorem consumeBytes_view (view : View state seen) (chained : Chained sha none (seen ++ rest))
    (holds : FileHolds file (seen ++ rest)) :
    consumeBytes sha state (file.bytes.drop state.verifiedBytes) =
      (withLines (noteAll state rest) (rest.map lineBytes), .ok) := by
  have dropped : file.bytes.drop state.verifiedBytes = linesOf rest ++ fileTail file := by
    rw [holds.bytes, view.verifiedBytes, linesOf_append, List.append_assoc, List.drop_left]
  have tail : (splitLines (fileTail file)).1 = [] := by
    rw [fileTail, splitLines_of_noNewline (noNewline_tail file.bytes)]
  have verified := verifyLines_chained (chained_append.mp chained).2
  rw [← view.head] at verified
  rw [consumeBytes, dropped, splitLines_linesOf, tail, List.append_nil, consumeLines_eq, verified]
  dsimp only
  rw [List.take_of_length_le (by simp)]

def LosesAnchor (mode : LedgerReadMode) (now : ℤ) (disk : Disk) (process : LedgerProcess) :
    Prop :=
  ∃ state file anchor, process.chain = some state ∧ disk.ledger = some file ∧
    readAnchor disk.anchor = .ok anchor ∧
    needsFull mode state file (watchList (.ok anchor) process.highWater) now = false ∧
    anchor.seq < nextSeq state.head ∧ state.watched.get? anchor.seq = none ∧
    anchor.seq + recentHashes < (splitLines file.bytes).1.length

theorem mem_addWatch {watch : List ℕ} {seq : ℕ} (member : seq ∈ watch) :
    seq ∈ (addWatch state watch).watch := by
  have folded : ∀ (watch seqs : List ℕ), seq ∈ watch ∨ seq ∈ seqs →
      seq ∈ watch.foldl (fun seqs seq => addToSet seq seqs) seqs := by
    intro watch
    induction watch with
    | nil => exact fun _ present => present.resolve_left (by simp)
    | cons other watch ih =>
        intro seqs present
        refine ih _ ?_
        rw [mem_addToSet]
        rw [List.mem_cons] at present
        tauto
  exact folded watch state.watch (.inl member)

theorem knownHash_of_watched {seq : ℕ}
    (view : View state seen) (contiguous : Contiguous 0 (seen ++ rest))
    (watched : seq ∈ state.watch) (lines : List Bytes)
    (kept : seen.length ≤ seq ∨ (state.watched.get? seq).isSome = true ∨
      (seen ++ rest).length ≤ seq + recentHashes) :
    knownHash (withLines (noteAll state rest) lines) seq = hashAt (seen ++ rest) seq := by
  have described := describes_withLines (describes_noteAll view.toDescribes contiguous) lines
  have sound {hash : JsString} (known : knownHash _ seq = some hash) :=
    hashAt_of_knownHash described contiguous known
  cases known : knownHash (withLines (noteAll state rest) lines) seq with
  | some hash => exact (sound known).symm
  | none =>
      have rest' := (contiguous_append.mp contiguous).2
      rw [Nat.zero_add] at rest'
      have remembered := get?_watched_noteAll rest' watched
      rw [knownHash_withLines, knownHash, remembered] at known
      rw [(describes_noteAll view.toDescribes contiguous).recent,
        get?_recentEntries seq contiguous] at known
      rcases kept with later | old | near
      · by_cases within : seq < (seen ++ rest).length
        · -- the pass noted it
          rw [List.length_append] at within
          have found : JsMap.get? (seqHashes rest) seq =
              (rest[seq - seen.length]?).map LedgerEntry.hash := by
            rw [get?_seqHashes rest', if_pos later]
          have inRest : seq - seen.length < rest.length := by omega
          obtain ⟨hash, present⟩ := exists_hashAt inRest
          rw [hashAt] at present
          rw [found, present] at known
          split at known <;> cases known
        · exact (hashAt_eq_none (by omega)).symm
      · obtain ⟨hash, present⟩ := Option.isSome_iff_exists.mp old
        rw [present] at known
        split at known
        · cases known
        · cases found : JsMap.get? (seqHashes rest) seq with
          | none | some other =>
              rw [found] at known
              cases known
      · rw [if_pos near] at known
        split at known
        · cases known
        · rename_i none'
          exact none'.symm

theorem AnchorHolds.readable {anchor : AnchorRead} (holds : AnchorHolds entries anchor) :
    anchor = .missing ∨ ∃ record, anchor = .ok record := by
  cases anchor with
  | missing => exact .inl rfl
  | invalid | throws => exact absurd trivial holds
  | ok record => exact .inr ⟨record, rfl⟩

structure SyncsTo (sha : HashFunction) (disk : Disk) (mode : LedgerReadMode) (now : ℤ)
    (process : LedgerProcess) (file : File) (entries : List LedgerEntry)
    (state : ChainState) : Prop where
  view : View state entries
  identity : state.identity = file.identity
  sync : syncChain sha disk mode now process =
    syncState disk process (readAnchor disk.anchor) state .ok
  confirms : ¬ LosesAnchor mode now disk process → ∀ record,
    readAnchor disk.anchor = .ok record → knownHash state record.seq = hashAt entries record.seq
  loses : LosesAnchor mode now disk process → ∀ record,
    readAnchor disk.anchor = .ok record → knownHash state record.seq = none

theorem mem_watchList {anchor : AnchorRecord} {mark : Option HighWater} :
    anchor.seq ∈ watchList (.ok anchor) mark := by
  simp [watchList]

variable {process : LedgerProcess}

theorem syncsTo_full {mode : LedgerReadMode} {now : ℤ}
    (holds : LedgerHolds sha disk entries) (present : disk.ledger = some file)
    (startsOver : process.chain.filter (fun state => !needsFull mode state file
      (watchList (readAnchor disk.anchor) process.highWater) now) = none) :
    SyncsTo sha disk mode now process file entries
      (withLines (noteAll (freshState file.identity
        (watchList (readAnchor disk.anchor) process.highWater) now) entries)
          (entries.map lineBytes)) := by
  have pass := consumeBytes_view (view_freshState file.identity
    (watchList (readAnchor disk.anchor) process.highWater) now) holds.chained
    (holds.lines file present)
  have contiguous := holds.contiguous
  have start : (freshState file.identity (watchList (readAnchor disk.anchor)
    process.highWater) now).verifiedBytes = 0 := rfl
  rw [start, List.drop_zero] at pass
  have size := holds.size file present
  refine ⟨view_consume (view_freshState _ _ _) contiguous, ?_, ?_, ?_, ?_⟩
  · rw [withLines_identity, noteAll_identity]
    rfl
  · rw [syncChain]
    rcases holds.anchor.readable with missing | ⟨record, read⟩
    · rw [missing] at startsOver pass ⊢
      simp only [present, holds.owned file present, Bool.true_eq_false, ↓reduceIte, startsOver,
        pass,
        Nat.not_lt.mpr size]
    · rw [read] at startsOver pass ⊢
      simp only [present, holds.owned file present, Bool.true_eq_false, ↓reduceIte, startsOver,
        pass,
        Nat.not_lt.mpr size]
  · intro _ record read
    rw [read, knownHash_withLines]
    exact knownHash_full contiguous mem_watchList file.identity now
  · rintro ⟨state, other, record, chain, present', read, notFull, -⟩
    rw [present] at present'
    cases present'
    rw [chain, read, Option.filter_some, notFull] at startsOver
    cases startsOver

theorem syncsTo_cached {mode : LedgerReadMode} {now : ℤ}
    (holds : LedgerHolds sha disk (seen ++ rest)) (present : disk.ledger = some file)
    (chain : process.chain = some state) (view : View state seen)
    (goesOn : needsFull mode state file
      (watchList (readAnchor disk.anchor) process.highWater) now = false) :
    SyncsTo sha disk mode now process file (seen ++ rest)
      (withLines (noteAll (addWatch state
        (watchList (readAnchor disk.anchor) process.highWater)) rest) (rest.map lineBytes)) := by
  have watching := view_addWatch view (watchList (readAnchor disk.anchor) process.highWater)
  have pass := consumeBytes_view watching holds.chained (holds.lines file present)
  have contiguous := holds.contiguous
  have size := holds.size file present
  have kept : process.chain.filter (fun state => !needsFull mode state file
      (watchList (readAnchor disk.anchor) process.highWater) now) = some state := by
    rw [chain, Option.filter_some, goesOn]
    rfl
  -- the verified bytes are still what the prefix digest was fed
  have unchanged : file.bytes.take state.verifiedBytes = state.prefixBytes := by
    rw [(holds.lines file present).bytes, linesOf_append, List.append_assoc,
      view.verifiedBytes, view.prefixBytes, List.take_left]
  have reached : nextSeq state.head = seen.length :=
    nextSeq_of_describes view.toDescribes (contiguous_append.mp contiguous).1
  have lines : (splitLines file.bytes).1.length = (seen ++ rest).length := by
    rw [holds.lines file present, List.length_map]
  refine ⟨view_consume watching contiguous, ?_, ?_, ?_, ?_⟩
  · rw [withLines_identity, noteAll_identity]
    simp only [needsFull, Bool.or_eq_false_iff, decide_eq_false_iff_not, ne_eq, not_not] at goesOn
    exact goesOn.1.1.1.2
  · rw [syncChain]
    rcases holds.anchor.readable with missing | ⟨record, read⟩
    · rw [missing] at kept pass ⊢
      simp only [present, holds.owned file present, Bool.true_eq_false, ↓reduceIte, kept, pass,
        Nat.not_lt.mpr size, unchanged, ne_eq, not_true_eq_false, and_false]
    · rw [read] at kept pass ⊢
      simp only [present, holds.owned file present, Bool.true_eq_false, ↓reduceIte, kept, pass,
        Nat.not_lt.mpr size, unchanged, ne_eq, not_true_eq_false, and_false]
  · intro keeps record read
    refine knownHash_of_watched watching contiguous (mem_addWatch (read ▸ mem_watchList)) _ ?_
    by_contra! lost
    refine keeps ⟨state, file, record, chain, present, read, read ▸ goesOn, ?_, ?_, ?_⟩
    · rw [reached]
      exact lost.1
    · simpa [addWatch] using lost.2.1
    · rw [lines]
      exact lost.2.2
  · rintro ⟨other, file', record', chain', present', read', -, scrolled, unwatched, far⟩ record read
    rw [chain] at chain'
    rw [present] at present'
    rw [read] at read'
    obtain rfl := Option.some.inj chain'
    obtain rfl := Option.some.inj present'
    obtain rfl := AnchorRead.ok.inj read'
    have rest' := (contiguous_append.mp contiguous).2
    rw [Nat.zero_add] at rest'
    have described := (describes_noteAll watching.toDescribes contiguous).recent
    have onList : record.seq ∈ watchList (readAnchor disk.anchor) process.highWater := by
      rw [read]
      exact mem_watchList
    have watching : record.seq ∈ (addWatch state
        (watchList (readAnchor disk.anchor) process.highWater)).watch := mem_addWatch onList
    have watchedThen := get?_watched_noteAll rest' watching
    rw [knownHash_withLines, knownHash, described, get?_recentEntries record.seq contiguous,
      if_neg (by omega), watchedThen, get?_seqHashes rest', if_neg (by omega)]
    exact unwatched

theorem exists_syncsTo (mode : LedgerReadMode) (now : ℤ) (holds : LedgerHolds sha disk entries)
    (present : disk.ledger = some file)
    (viewed : ∀ state ∈ process.chain, ViewsFile disk entries state) :
    ∃ state, SyncsTo sha disk mode now process file entries state := by
  cases kept : process.chain.filter (fun state => !needsFull mode state file
      (watchList (readAnchor disk.anchor) process.highWater) now) with
  | none => exact ⟨_, syncsTo_full holds present kept⟩
  | some state =>
      obtain ⟨chain, goesOn⟩ := Option.filter_eq_some_iff.mp kept
      have goesOn : needsFull mode state file
          (watchList (readAnchor disk.anchor) process.highWater) now = false := by
        simpa using goesOn
      have identity : state.identity = file.identity := by
        have := goesOn
        simp only [needsFull, Bool.or_eq_false_iff, decide_eq_false_iff_not, ne_eq, not_not] at this
        exact this.1.1.1.2
      obtain ⟨seen, ⟨rest, rfl⟩, view⟩ := viewed state chain file present identity
      exact ⟨_, syncsTo_cached holds present chain view goesOn⟩

theorem syncChain_absent (holds : LedgerHolds sha disk entries) (absent : disk.ledger = none)
    (mode : LedgerReadMode) (now : ℤ) (process : LedgerProcess) :
    syncChain sha disk mode now process =
      match process.highWater with
      | some mark =>
          ⟨{ process with chain := none }, none, some ⟨some 0,
            js "the ledger disappeared after this process saw entry " ++ decimal mark.seq⟩⟩
      | none => ⟨{ process with chain := none }, none, readBrokenMarker disk.marker⟩ := by
  have missing : readAnchor disk.anchor = .missing := by
    rcases holds.anchor.readable with missing | ⟨record, read⟩
    · exact missing
    · have anchor := holds.anchor
      rw [read, anchorHolds_ok, holds.absent absent] at anchor
      cases anchor
  rw [syncChain, missing]
  cases process.highWater <;> simp only [absent]

end AshlrHub.Authority

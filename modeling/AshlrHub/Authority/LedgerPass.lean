import AshlrHub.Authority.LedgerChain

namespace AshlrHub.Authority

open Js

/-! Verification as a pass over lines, apart from what each verifier collects. -/

/-- The entries of a pass over lines after `head`, and how it ends. -/
def verifyLines (sha : HashFunction) (head : Option LedgerHead) :
    List Bytes → List LedgerEntry × PassEnd
  | [] => ([], .ok)
  | line :: lines =>
      match verifyLine sha head line with
      | .error stop => ([], stop)
      | .ok entry =>
          let pass := verifyLines sha (some entry.head) lines
          (entry :: pass.1, pass.2)

def lastHead (head : Option LedgerHead) : List LedgerEntry → Option LedgerHead
  | [] => head
  | entry :: entries => lastHead (some entry.head) entries

@[simp] theorem lastHead_nil (head : Option LedgerHead) : lastHead head [] = head := rfl

@[simp] theorem lastHead_cons (head : Option LedgerHead) (entry : LedgerEntry)
    (entries : List LedgerEntry) :
    lastHead head (entry :: entries) = lastHead (some entry.head) entries := rfl

theorem lastHead_append (head : Option LedgerHead) (first second : List LedgerEntry) :
    lastHead head (first ++ second) = lastHead (lastHead head first) second := by
  induction first generalizing head with
  | nil => rfl
  | cons entry first ih => exact ih (some entry.head)

/-! Lines of bytes. -/

theorem splitLines_newline (bytes : Bytes) :
    splitLines (0x0A :: bytes) = ([] :: (splitLines bytes).1, (splitLines bytes).2) := by
  rw [splitLines]
  rfl

def consByte (byte : UInt8) : List Bytes × Bytes → List Bytes × Bytes
  | ([], tail) => ([], byte :: tail)
  | (line :: lines, tail) => ((byte :: line) :: lines, tail)

theorem splitLines_cons {byte : UInt8} (inLine : byte ≠ 0x0A) (bytes : Bytes) :
    splitLines (byte :: bytes) = consByte byte (splitLines bytes) := by
  rw [splitLines]
  rcases splitLines bytes with ⟨_ | ⟨line, lines⟩, tail⟩ <;> simp [inLine, consByte]

theorem splitLines_append : (front back : Bytes) →
    splitLines (front ++ back) =
      ((splitLines front).1 ++ (splitLines ((splitLines front).2 ++ back)).1,
        (splitLines ((splitLines front).2 ++ back)).2)
  | [], _ => rfl
  | byte :: front, back => by
      have tail := splitLines_append front back
      by_cases newline : byte = 0x0A
      · rw [newline, List.cons_append, splitLines_newline, splitLines_newline, tail]
        rfl
      · rw [List.cons_append, splitLines_cons newline, splitLines_cons newline, tail]
        rcases splitLines front with ⟨_ | ⟨line, lines⟩, rest⟩
        · rw [consByte, List.cons_append, splitLines_cons newline]
          rfl
        · rfl

theorem splitLines_of_noNewline : {bytes : Bytes} → (0x0A : UInt8) ∉ bytes →
    splitLines bytes = ([], bytes)
  | [], _ => rfl
  | byte :: bytes, inLine => by
      simp only [List.mem_cons, not_or] at inLine
      rw [splitLines_cons (Ne.symm inLine.1), splitLines_of_noNewline inLine.2]
      rfl

theorem splitLines_line {line : Bytes} (inLine : (0x0A : UInt8) ∉ line) (rest : Bytes) :
    splitLines (line ++ 0x0A :: rest) = (line :: (splitLines rest).1, (splitLines rest).2) := by
  induction line with
  | nil => exact splitLines_newline rest
  | cons byte line ih =>
      simp only [List.mem_cons, not_or] at inLine
      rw [List.cons_append, splitLines_cons (Ne.symm inLine.1), ih inLine.2]
      rfl

theorem noNewline_tail : (bytes : Bytes) → (0x0A : UInt8) ∉ (splitLines bytes).2
  | [] => by simp [splitLines]
  | byte :: bytes => by
      have tail := noNewline_tail bytes
      by_cases newline : byte = 0x0A
      · rw [newline, splitLines_newline]
        exact tail
      · rw [splitLines_cons newline]
        rcases split : splitLines bytes with ⟨_ | ⟨line, lines⟩, rest⟩
        · rw [split] at tail
          simpa [consByte, Ne.symm newline] using tail
        · rw [split] at tail
          exact tail

theorem splitLines_cases (bytes : Bytes) :
    (0x0A : UInt8) ∉ bytes ∨ ∃ line rest, bytes = line ++ 0x0A :: rest ∧ (0x0A : UInt8) ∉ line := by
  induction bytes with
  | nil => exact .inl (by simp)
  | cons byte bytes ih =>
      by_cases newline : byte = 0x0A
      · exact .inr ⟨[], bytes, by rw [newline]; rfl, by simp⟩
      · rcases ih with inLine | ⟨line, rest, rfl, inLine⟩
        · exact .inl (by simp [Ne.symm newline, inLine])
        · exact .inr ⟨byte :: line, rest, rfl, by simp [Ne.symm newline, inLine]⟩

def fileOf (lines : List Bytes) : Bytes :=
  lines.flatMap (· ++ [0x0A])

theorem splitLines_fileOf : {lines : List Bytes} → (∀ line ∈ lines, (0x0A : UInt8) ∉ line) →
    splitLines (fileOf lines) = (lines, [])
  | [], _ => rfl
  | line :: lines, single => by
      have rest := splitLines_fileOf fun other member => single other
        (List.mem_cons_of_mem _ member)
      rw [fileOf, List.flatMap_cons, ← fileOf, List.append_assoc, List.singleton_append,
        splitLines_line (single line List.mem_cons_self), rest]

theorem noNewline_lines : (bytes : Bytes) → ∀ line ∈ (splitLines bytes).1, (0x0A : UInt8) ∉ line
  | [], _, member => by cases member
  | byte :: bytes, line, member => by
      have later := noNewline_lines bytes
      by_cases newline : byte = 0x0A
      · rw [newline, splitLines_newline] at member
        rcases List.mem_cons.mp member with rfl | member
        · simp
        · exact later line member
      · rw [splitLines_cons newline] at member
        rcases split : splitLines bytes with ⟨_ | ⟨first, lines⟩, tail⟩
        · rw [split] at member
          cases member
        · rw [split] at member later
          rcases List.mem_cons.mp member with rfl | member
          · simpa [Ne.symm newline] using later first List.mem_cons_self
          · exact later line (List.mem_cons_of_mem _ member)

/-! A pass over two runs of lines. -/

variable {entries : List LedgerEntry} {seq : ℕ} {state : ChainState} {head : Option LedgerHead}

variable {entry : LedgerEntry} {sha : HashFunction}

theorem verifyLine_stops {line : Bytes}
    {stop : PassEnd} (checked : verifyLine sha head line = .error stop) : stop ≠ .ok := by
  unfold verifyLine at checked
  split_ifs at checked
  · cases checked
    simp
  · split at checked <;> cases checked <;> simp

theorem verifyLines_append (sha : HashFunction) (head : Option LedgerHead)
    (first second : List Bytes) :
    verifyLines sha head (first ++ second) =
      if (verifyLines sha head first).2 = .ok then
        ((verifyLines sha head first).1 ++
            (verifyLines sha (lastHead head (verifyLines sha head first).1) second).1,
          (verifyLines sha (lastHead head (verifyLines sha head first).1) second).2)
      else verifyLines sha head first := by
  induction first generalizing head with
  | nil => simp [verifyLines]
  | cons line first ih =>
      rw [List.cons_append, verifyLines, verifyLines]
      cases checked : verifyLine sha head line with
      | error stop =>
          have failed := verifyLine_stops checked
          simp [failed]
      | ok entry =>
          dsimp only
          rw [ih (some entry.head)]
          split_ifs <;> rfl

theorem verifyLines_length {lines : List Bytes}
    (verified : verifyLines sha head lines = (entries, .ok)) :
    entries.length = lines.length := by
  induction lines generalizing head entries with
  | nil =>
      obtain rfl : [] = entries := (Prod.mk.inj verified).1
      rfl
  | cons line lines ih =>
      rw [verifyLines] at verified
      cases checked : verifyLine sha head line with
      | error stop =>
          rw [checked] at verified
          obtain rfl : [] = entries := (Prod.mk.inj verified).1
          obtain rfl : stop = .ok := (Prod.mk.inj verified).2
          exact absurd rfl (verifyLine_stops checked)
      | ok entry =>
          rw [checked] at verified
          obtain ⟨rfl, ended⟩ := Prod.mk.inj verified
          rw [List.length_cons, List.length_cons, ih (Prod.ext rfl ended)]

/-! What the verified state keeps of the entries. -/

def noteAll (state : ChainState) (entries : List LedgerEntry) : ChainState :=
  entries.foldl noteVerified state

@[simp] theorem noteVerified_identity (state : ChainState) (entry : LedgerEntry) :
    (noteVerified state entry).identity = state.identity := rfl

theorem noteAll_singleton (state : ChainState) (entry : LedgerEntry) :
    noteAll state [entry] = noteVerified state entry := rfl

def withLines (state : ChainState) (lines : List Bytes) : ChainState :=
  let bytes := lines.flatMap (· ++ [0x0A])
  { state with
    prefixBytes := state.prefixBytes ++ bytes
    verifiedBytes := state.verifiedBytes + bytes.length }

section

variable (state) (lines : List Bytes) (entries : List LedgerEntry)

@[simp] theorem withLines_prefixBytes : (withLines state lines).prefixBytes =
    state.prefixBytes ++ lines.flatMap (· ++ [0x0A]) := rfl

@[simp] theorem withLines_verifiedBytes :
    (withLines state lines).verifiedBytes =
      state.verifiedBytes + (lines.flatMap (· ++ [0x0A])).length := rfl

@[simp] theorem withLines_identity : (withLines state lines).identity = state.identity := rfl

theorem knownHash_withLines (seq : ℕ) :
    knownHash (withLines state lines) seq = knownHash state seq := rfl

theorem withLines_nil : withLines state [] = state := by
  simp [withLines]

theorem noteAll_withLines :
    noteAll (withLines state lines) entries = withLines (noteAll state entries) lines := by
  induction entries generalizing state with
  | nil => rfl
  | cons entry entries ih => exact ih (noteVerified state entry)

theorem consumeEntry_eq (entry : LedgerEntry) (line : Bytes) :
    consumeEntry state entry (line ++ [0x0A]) = withLines (noteVerified state entry) [line] := by
  simp [consumeEntry, withLines]

theorem withLines_cons (line : Bytes) (lines : List Bytes) :
    withLines (withLines state [line]) lines = withLines state (line :: lines) := by
  simp only [withLines, List.flatMap_cons, List.flatMap_nil, List.append_nil, List.append_assoc,
    List.length_append, List.length_singleton, Nat.add_assoc]

theorem consumeLines_eq (sha : HashFunction) (state : ChainState) (lines : List Bytes) :
    consumeLines sha state lines =
      (withLines (noteAll state (verifyLines sha state.head lines).1)
          (lines.take (verifyLines sha state.head lines).1.length),
        (verifyLines sha state.head lines).2) := by
  induction lines generalizing state with
  | nil => simp [consumeLines, verifyLines, noteAll, withLines_nil]
  | cons line lines ih =>
      rw [consumeLines, verifyLines]
      cases checked : verifyLine sha state.head line with
      | error stop => simp [noteAll, withLines_nil]
      | ok entry =>
          dsimp only
          have head : (withLines (noteVerified state entry) [line]).head = some entry.head := rfl
          rw [consumeEntry_eq, ih, head, noteAll_withLines, List.length_cons,
            List.take_succ_cons, withLines_cons]
          rfl

theorem noteAll_head :
    (noteAll state entries).head = lastHead state.head entries := by
  induction entries generalizing state with
  | nil => rfl
  | cons entry entries ih => exact ih (noteVerified state entry)

theorem noteAll_keeps {α : Type} (read : ChainState → α)
    (kept : ∀ state entry, read (noteVerified state entry) = read state) :
    read (noteAll state entries) = read state := by
  induction entries generalizing state with
  | nil => rfl
  | cons entry entries ih => exact (ih (noteVerified state entry)).trans (kept state entry)

theorem noteAll_prefixBytes : (noteAll state entries).prefixBytes = state.prefixBytes :=
  noteAll_keeps state entries (·.prefixBytes) (fun _ _ => rfl)

theorem noteAll_verifiedBytes : (noteAll state entries).verifiedBytes = state.verifiedBytes :=
  noteAll_keeps state entries (·.verifiedBytes) (fun _ _ => rfl)

theorem noteAll_identity : (noteAll state entries).identity = state.identity :=
  noteAll_keeps state entries (·.identity) (fun _ _ => rfl)

end

def Contiguous : ℕ → List LedgerEntry → Prop
  | _, [] => True
  | seq, entry :: entries => entry.seq = seq ∧ Contiguous (seq + 1) entries

theorem contiguous_append {first second : List LedgerEntry} :
    Contiguous seq (first ++ second) ↔
      Contiguous seq first ∧ Contiguous (seq + first.length) second := by
  induction first generalizing seq with
  | nil => simp [Contiguous]
  | cons entry first ih =>
      rw [List.cons_append, Contiguous, Contiguous, ih, List.length_cons, and_assoc,
        Nat.add_right_comm, Nat.add_assoc]

theorem seq_of_contiguous {seq i : ℕ}
    (contiguous : Contiguous seq entries) (found : entries[i]? = some entry) :
    entry.seq = seq + i := by
  induction entries generalizing seq i with
  | nil => simp at found
  | cons first entries ih =>
      cases i with
      | zero =>
          obtain rfl : first = entry := by simpa using found
          exact contiguous.1
      | succ i =>
          have := ih contiguous.2 (by simpa using found)
          omega

theorem nextSeq_lastHead
    (contiguous : Contiguous (nextSeq head) entries) :
    nextSeq (lastHead head entries) = nextSeq head + entries.length := by
  induction entries generalizing head with
  | nil => rfl
  | cons entry entries ih =>
      obtain ⟨seq, contiguous⟩ := contiguous
      have next : nextSeq (some entry.head) = nextSeq head + 1 := by
        rw [← seq]
        rfl
      rw [lastHead_cons, ih (by rwa [next]), next, List.length_cons]
      omega

/-! What a pass accepts chains. -/

theorem verifyLine_ok {line : Bytes} (accepted : verifyLine sha head line = .ok entry) :
    line.length ≤ ledgerMaxLineBytes ∧
      checkLine sha (utf8Decode line) (expectedAfter head) = .ok entry := by
  unfold verifyLine at accepted
  split_ifs at accepted with large
  refine ⟨by omega, ?_⟩
  split at accepted
  · rename_i found checked
    cases accepted
    exact checked
  · cases accepted
  · cases accepted

theorem expectedAfter_seq (head : Option LedgerHead) :
    (expectedAfter head).seq = nextSeq head := by
  cases head <;> rfl

theorem verifyLines_contiguous (sha : HashFunction) (head : Option LedgerHead)
    (lines : List Bytes) : Contiguous (nextSeq head) (verifyLines sha head lines).1 := by
  induction lines generalizing head with
  | nil => trivial
  | cons line lines ih =>
      rw [verifyLines]
      cases checked : verifyLine sha head line with
      | error stop => trivial
      | ok entry =>
          have seq : entry.seq = nextSeq head := by
            rw [(checkLine_follows (verifyLine_ok checked).2).seq, expectedAfter_seq]
          have next : nextSeq (some entry.head) = nextSeq head + 1 := by
            rw [← seq]
            rfl
          exact ⟨seq, next ▸ ih (some entry.head)⟩

/-! The recent hashes are those of the last `recentHashes` entries. -/

def seqHashes (entries : List LedgerEntry) : JsMap ℕ JsString :=
  entries.map fun entry => (entry.seq, entry.hash)

theorem keys_seqHashes (entries : List LedgerEntry) :
    JsMap.keys (seqHashes entries) = entries.map LedgerEntry.seq := by
  simp [JsMap.keys, seqHashes, Function.comp_def]

theorem mem_seqs_of_contiguous {seq other : ℕ}
    (contiguous : Contiguous seq entries) (member : other ∈ entries.map LedgerEntry.seq) :
    seq ≤ other ∧ other < seq + entries.length := by
  obtain ⟨entry, present, rfl⟩ := List.mem_map.mp member
  obtain ⟨i, bound, found⟩ := List.mem_iff_getElem.mp present
  have := seq_of_contiguous contiguous (by rw [List.getElem?_eq_getElem bound, found])
  omega

theorem get?_seqHashes
    (contiguous : Contiguous seq entries) (other : ℕ) :
    JsMap.get? (seqHashes entries) other =
      if seq ≤ other then (entries[other - seq]?).map LedgerEntry.hash else none := by
  induction entries generalizing seq with
  | nil => simp [seqHashes]
  | cons entry entries ih =>
      obtain ⟨rfl, contiguous⟩ := contiguous
      change JsMap.get? ((entry.seq, entry.hash) :: seqHashes entries) other = _
      rw [JsMap.get?_cons, ih contiguous]
      rcases Nat.lt_trichotomy other entry.seq with below | rfl | above
      · rw [if_neg (by simp; omega), if_neg (by omega), if_neg (by omega)]
      · simp
      · obtain ⟨i, rfl⟩ : ∃ i, other = entry.seq + 1 + i := ⟨other - entry.seq - 1, by omega⟩
        have first : entry.seq + 1 + i - entry.seq = i + 1 := by omega
        have second : entry.seq + 1 + i - (entry.seq + 1) = i := by omega
        rw [if_neg (by simp; omega), if_pos (by omega), if_pos (by omega), first, second,
          List.getElem?_cons_succ]

theorem contiguous_drop (k : ℕ)
    (contiguous : Contiguous seq entries) : Contiguous (seq + k) (entries.drop k) := by
  induction k generalizing seq entries with
  | zero => exact contiguous
  | succ k ih =>
      cases entries with
      | nil => trivial
      | cons entry entries =>
          have := ih contiguous.2
          rwa [Nat.add_right_comm, Nat.add_assoc] at this

/-- The last `recentHashes` entries. -/
def recentEntries (entries : List LedgerEntry) : List LedgerEntry :=
  entries.drop (entries.length - recentHashes)

theorem pushRecent_seqHashes (contiguous : Contiguous seq (entries ++ [entry])) :
    pushRecent (seqHashes (recentEntries entries)) entry =
      seqHashes (recentEntries (entries ++ [entry])) := by
  obtain ⟨before, at', -⟩ := contiguous_append.mp contiguous
  have kept := contiguous_drop (entries.length - recentHashes) before
  have absent : entry.seq ∉ JsMap.keys (seqHashes (recentEntries entries)) := by
    intro member
    rw [keys_seqHashes] at member
    have := mem_seqs_of_contiguous kept member
    rw [List.length_drop] at this
    omega
  have set : (seqHashes (recentEntries entries)).set entry.seq entry.hash =
      seqHashes (recentEntries entries ++ [entry]) := by
    rw [JsMap.set_of_not_mem _ absent]
    simp [seqHashes]
  rw [pushRecent, set]
  by_cases full : recentHashes ≤ entries.length
  · -- the oldest of the kept entries goes
    have size : (recentEntries entries).length = recentHashes := by
      rw [recentEntries, List.length_drop]
      omega
    have positive : 0 < recentHashes := by simp [recentHashes_eq]
    cases split : recentEntries entries with
    | nil => simp [split] at size; omega
    | cons first rest =>
        have start : first.seq = entry.seq - recentHashes := by
          rw [recentEntries] at split
          rw [split] at kept
          have := kept.1
          omega
        have gone : entry.seq - recentHashes ∉ JsMap.keys (seqHashes (rest ++ [entry])) := by
          intro member
          rw [keys_seqHashes, ← start] at member
          rw [recentEntries] at split
          rw [split] at kept
          obtain ⟨found, present, same⟩ := List.mem_map.mp member
          rcases List.mem_append.mp present with older | newest
          · have := mem_seqs_of_contiguous kept.2 (List.mem_map_of_mem older)
            have := kept.1
            omega
          · obtain rfl := List.mem_singleton.mp newest
            omega
        have dropped : recentEntries (entries ++ [entry]) = rest ++ [entry] := by
          have length : (entries ++ [entry]).length - recentHashes =
              entries.length - recentHashes + 1 := by
            simp only [List.length_append, List.length_singleton]
            omega
          rw [recentEntries] at split ⊢
          rw [length, List.drop_append_of_le_length (by omega), ← List.drop_drop, split]
          rfl
        have many : recentHashes <
            List.length (seqHashes ((first :: rest) ++ [entry])) ∧ recentHashes ≤ entry.seq := by
          rw [← split]
          simp only [seqHashes, List.length_map, List.length_append, size, List.length_singleton]
          omega
        rw [if_pos many, dropped, ← start, List.cons_append]
        exact JsMap.delete_cons first.hash (start ▸ gone)
  · have all : recentEntries entries = entries := by
      rw [recentEntries, Nat.sub_eq_zero_of_le (by omega), List.drop_zero]
    have allMore : recentEntries (entries ++ [entry]) = entries ++ [entry] := by
      rw [recentEntries, Nat.sub_eq_zero_of_le, List.drop_zero]
      simp only [List.length_append, List.length_singleton]
      omega
    have few : ¬ (recentHashes < List.length (seqHashes (entries ++ [entry])) ∧
        recentHashes ≤ entry.seq) := by
      simp only [seqHashes, List.length_map, List.length_append, List.length_singleton]
      omega
    rw [all, allMore, if_neg few]

theorem foldl_pushRecent {entries more : List LedgerEntry} {seq : ℕ}
    (contiguous : Contiguous seq (entries ++ more)) :
    more.foldl pushRecent (seqHashes (recentEntries entries)) =
      seqHashes (recentEntries (entries ++ more)) := by
  induction more generalizing entries with
  | nil => rw [List.append_nil]; rfl
  | cons entry more ih =>
      have split : entries ++ entry :: more = entries ++ [entry] ++ more := by simp
      rw [split] at contiguous ⊢
      rw [List.foldl_cons, pushRecent_seqHashes (contiguous_append.mp contiguous).1]
      exact ih contiguous

theorem get?_recentEntries (other : ℕ)
    (contiguous : Contiguous 0 entries) :
    JsMap.get? (seqHashes (recentEntries entries)) other =
      if entries.length ≤ other + recentHashes then
        (entries[other]?).map LedgerEntry.hash
      else none := by
  have kept := contiguous_drop (entries.length - recentHashes) contiguous
  rw [recentEntries, get?_seqHashes kept, List.getElem?_drop]
  by_cases near : entries.length ≤ other + recentHashes
  · rw [if_pos (by omega), if_pos near]
    congr 2
    omega
  · rw [if_neg (by omega), if_neg near]

/-! A verified state and the entries it has seen. -/

/-- The hash of the entry at `seq`. -/
def hashAt (entries : List LedgerEntry) (seq : ℕ) : Option JsString :=
  (entries[seq]?).map LedgerEntry.hash

theorem hashAt_append (more : List LedgerEntry)
    {hash : JsString} (known : hashAt entries seq = some hash) :
    hashAt (entries ++ more) seq = some hash := by
  obtain ⟨entry, found, rfl⟩ := Option.map_eq_some_iff.mp known
  have bound : seq < entries.length := (List.getElem?_eq_some_iff.mp found).1
  rw [hashAt, List.getElem?_append_left bound, found]
  rfl

structure Describes (state : ChainState) (entries : List LedgerEntry) : Prop where
  head : state.head = lastHead none entries
  genesisHash : state.genesisHash = hashAt entries 0
  recent : state.recent = seqHashes (recentEntries entries)
  watched : ∀ seq hash, state.watched.get? seq = some hash → hashAt entries seq = some hash
  index : state.index = entries.foldl indexEntry emptyIndex

theorem describes_freshState (identity : ℕ) (watch : List ℕ) (now : ℤ) :
    Describes (freshState identity watch now) [] := by
  refine ⟨rfl, rfl, ?_, ?_, rfl⟩
  · simp [freshState, recentEntries, seqHashes]
  · intro seq hash known
    cases known

theorem describes_noteVerified
    (described : Describes state entries)
    (contiguous : Contiguous 0 (entries ++ [entry])) :
    Describes (noteVerified state entry) (entries ++ [entry]) := by
  have seq : entry.seq = entries.length := by
    have := (contiguous_append.mp contiguous).2.1
    omega
  have newest : hashAt (entries ++ [entry]) entry.seq = some entry.hash := by
    simp [hashAt, seq]
  refine ⟨?_, ?_, ?_, ?_, ?_⟩
  · rw [lastHead_append]
    rfl
  · change (if entry.seq = 0 then some entry.hash else state.genesisHash) = _
    split_ifs with first
    · rw [← newest, first]
    · rw [described.genesisHash, hashAt, hashAt, List.getElem?_append_left (by omega)]
  · change pushRecent state.recent entry = _
    rw [described.recent]
    exact pushRecent_seqHashes contiguous
  · intro other hash known
    change JsMap.get? (if entry.seq ∈ state.watch then state.watched.set entry.seq entry.hash
      else state.watched) other = some hash at known
    split_ifs at known
    · rw [JsMap.get?_set] at known
      split_ifs at known with same
      · rw [same, newest, known]
      · exact hashAt_append [entry] (described.watched other hash known)
    · exact hashAt_append [entry] (described.watched other hash known)
  · rw [List.foldl_append, ← described.index]
    rfl

theorem describes_noteAll {entries more : List LedgerEntry}
    (described : Describes state entries) (contiguous : Contiguous 0 (entries ++ more)) :
    Describes (noteAll state more) (entries ++ more) := by
  induction more generalizing state entries with
  | nil => rwa [List.append_nil]
  | cons entry more ih =>
      have split : entries ++ entry :: more = entries ++ [entry] ++ more := by simp
      rw [split] at contiguous ⊢
      exact ih (describes_noteVerified described (contiguous_append.mp contiguous).1) contiguous

theorem describes_withLines
    (described : Describes state entries) (lines : List Bytes) :
    Describes (withLines state lines) entries :=
  ⟨described.head, described.genesisHash, described.recent, described.watched, described.index⟩

theorem nextSeq_of_describes
    (described : Describes state entries) (contiguous : Contiguous 0 entries) :
    nextSeq state.head = entries.length := by
  have reached : nextSeq (lastHead none entries) = 0 + entries.length :=
    nextSeq_lastHead contiguous
  rw [described.head, reached, Nat.zero_add]

theorem hashAt_of_knownHash
    {hash : JsString} (described : Describes state entries) (contiguous : Contiguous 0 entries)
    (known : knownHash state seq = some hash) : hashAt entries seq = some hash := by
  rw [knownHash, described.recent, get?_recentEntries seq contiguous] at known
  split at known
  · rename_i recent found
    cases known
    split_ifs at found
    exact found
  · exact described.watched seq hash known

theorem get?_watched_noteAll {state : ChainState} {entries : List LedgerEntry} {first seq : ℕ}
    (contiguous : Contiguous first entries) (watched : seq ∈ state.watch) :
    (noteAll state entries).watched.get? seq =
      (JsMap.get? (seqHashes entries) seq).or (state.watched.get? seq) := by
  induction entries generalizing state first with
  | nil => rfl
  | cons entry entries ih =>
      obtain ⟨rfl, contiguous⟩ := contiguous
      change (noteAll (noteVerified state entry) entries).watched.get? seq =
        (JsMap.get? ((entry.seq, entry.hash) :: seqHashes entries) seq).or _
      have rest := @ih (noteVerified state entry) _ contiguous watched
      rw [rest, JsMap.get?_cons]
      change (JsMap.get? (seqHashes entries) seq).or
        (JsMap.get? (if entry.seq ∈ state.watch then state.watched.set entry.seq entry.hash
          else state.watched) seq) = _
      by_cases same : entry.seq = seq
      · rw [if_pos (same ▸ watched), if_pos same, ← same, JsMap.get?_set_self,
          get?_seqHashes contiguous, if_neg (by omega)]
        rfl
      · rw [if_neg same]
        split_ifs
        · rw [JsMap.get?_set_ne (Ne.symm same)]
        · rfl

theorem knownHash_full {watch : List ℕ}
    (contiguous : Contiguous 0 entries) (watched : seq ∈ watch) (identity : ℕ) (now : ℤ) :
    knownHash (noteAll (freshState identity watch now) entries) seq = hashAt entries seq := by
  have described := describes_noteAll (describes_freshState identity watch now) contiguous
  rw [List.nil_append] at described
  have remembered := @get?_watched_noteAll (freshState identity watch now) _ _ _ contiguous watched
  rw [get?_seqHashes contiguous, if_pos (Nat.zero_le seq), Nat.sub_zero] at remembered
  rw [knownHash, described.recent, get?_recentEntries seq contiguous]
  split
  · rename_i hash found
    split_ifs at found
    exact found.symm
  · rw [remembered]
    exact Option.or_none

end AshlrHub.Authority

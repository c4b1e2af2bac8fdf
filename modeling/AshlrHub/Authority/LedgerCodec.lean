import AshlrHub.Authority.LedgerTypes
import AshlrHub.Lib.Fallible

namespace AshlrHub.Authority

open Js
open Lib (bind_eq_ok)

/-! The codec of a ledger row: what `checkLine` accepts as the next line. -/

/-- Why a line is not the next entry.  `throws` is an exception that `checkLine`
leaves to its caller: the timestamp has the right shape and names no date. -/
inductive LineFault where
  | reason (text : JsString)
  | throws
deriving DecidableEq

/-- What the next line has to continue. -/
structure Expected where
  seq : ℕ
  prevHash : JsString
  minAt : Option JsString

def expectedAfter : Option LedgerHead → Expected
  | none => ⟨0, ledgerGenesisPrevHash, none⟩
  | some head => ⟨head.seq + 1, head.hash, some head.at'⟩

def require (holds : Bool) (reason : JsString) : Except LineFault Unit :=
  if holds then .ok () else .error (.reason reason)

def demand (value : Option α) (reason : JsString) : Except LineFault α :=
  match value with
  | some a => .ok a
  | none => .error (.reason reason)

@[simp] theorem ok_bind (a : α) (next : α → Except ε β) : (Except.ok a >>= next) = next a := rfl

theorem require_ok {holds : Bool} {reason : JsString} {u : Unit}
    (required : require holds reason = .ok u) : holds = true := by
  unfold require at required
  split_ifs at required with h
  exact h

@[simp] theorem require_true (reason : JsString) : require true reason = .ok () := rfl

@[simp] theorem demand_some (a : α) (reason : JsString) : demand (some a) reason = .ok a := rfl

def checkInstant (value : JsValue) : Except LineFault JsString :=
  match isIsoInstant value with
  | none => .error .throws
  | some false => .error (.reason (js "bad timestamp"))
  | some true => demand value.asString (js "bad timestamp")

def nullableMatching (pattern : JsString → Bool) : JsValue → Option (Option JsString)
  | .null => some none
  | .str text => if pattern text then some (some text) else none
  | _ => none

def ledgerEntryHash (sha : HashFunction) (members : List (JsString × JsValue)) :
    Option JsString :=
  match canonicalJson (.obj (withoutMember members (js "hash"))) with
  | .ok text => some (sha.digest (utf8Encode (ledgerHashDomain ++ text)))
  | .error _ => none

def checkLine (sha : HashFunction) (line : JsString) (expected : Expected) :
    Except LineFault LedgerEntry := do
  let parsed ← demand (parseJson line) (js "unparseable line")
  let members ← demand parsed.asRecord (js "entry has the wrong keys")
  require (exactKeys members entryKeys) (js "entry has the wrong keys")
  require ((getMember members (js "v")).asSafeInteger = some 1) (js "unknown entry version")
  require ((getMember members (js "seq")).asSafeInteger = some (expected.seq : ℤ))
    (js "sequence gap (expected " ++ decimal expected.seq ++ js ")")
  let at' ← checkInstant (getMember members (js "at"))
  require (expected.minAt.all fun minAt => minAt ≤ at') (js "timestamp went backwards")
  let actor ← demand (JsEnum.ofValue (getMember members (js "actor"))) (js "unknown actor")
  let grantId ← demand (nullableMatching grantIdPattern (getMember members (js "grantId")))
    (js "bad grantId")
  let repo ← demand (nullableMatching nameWithOwnerPattern (getMember members (js "repo")))
    (js "bad repo")
  let prevHash ← demand (getMember members (js "prevHash")).asString (js "prevHash does not chain")
  require (prevHash = expected.prevHash) (js "prevHash does not chain")
  let kind ← demand (JsEnum.ofValue (getMember members (js "kind"))) (js "unknown event kind")
  require (expected.seq ≠ 0 || kind = .ledgerGenesis) (js "first entry is not a genesis row")
  let data ← demand (getMember members (js "data")).asRecord (js "data is not an object")
  let hash ← demand (getMember members (js "hash")).asString (js "bad hash field")
  require (sha256HexPattern hash) (js "bad hash field")
  let canonical ← demand (canonicalJson parsed).toOption (js "entry is not canonical JSON")
  require (canonical = line) (js "entry is not in canonical form")
  require (ledgerEntryHash sha members = some hash) (js "hash mismatch")
  return ⟨expected.seq, at', actor, grantId, repo, prevHash, kind, data, hash⟩

structure LedgerEntry.Follows (entry : LedgerEntry) (expected : Expected) : Prop where
  seq : entry.seq = expected.seq
  prevHash : entry.prevHash = expected.prevHash
  instant : ∀ minAt ∈ expected.minAt, minAt ≤ entry.at'
  genesis : expected.seq = 0 → entry.kind = .ledgerGenesis

variable {sha : HashFunction} {entry : LedgerEntry}

theorem checkLine_follows {line : JsString} {expected : Expected}
    (accepted : checkLine sha line expected = .ok entry) :
    entry.Follows expected := by
  unfold checkLine at accepted
  obtain ⟨parsed, -, accepted⟩ := bind_eq_ok.mp accepted
  obtain ⟨members, -, accepted⟩ := bind_eq_ok.mp accepted
  iterate 3 obtain ⟨-, -, accepted⟩ := bind_eq_ok.mp accepted
  obtain ⟨at', -, accepted⟩ := bind_eq_ok.mp accepted
  obtain ⟨_, later, accepted⟩ := bind_eq_ok.mp accepted
  obtain ⟨actor, -, accepted⟩ := bind_eq_ok.mp accepted
  obtain ⟨grantId, -, accepted⟩ := bind_eq_ok.mp accepted
  obtain ⟨repo, -, accepted⟩ := bind_eq_ok.mp accepted
  obtain ⟨prevHash, -, accepted⟩ := bind_eq_ok.mp accepted
  obtain ⟨_, chained, accepted⟩ := bind_eq_ok.mp accepted
  obtain ⟨kind, -, accepted⟩ := bind_eq_ok.mp accepted
  obtain ⟨_, genesis, accepted⟩ := bind_eq_ok.mp accepted
  obtain ⟨data, -, accepted⟩ := bind_eq_ok.mp accepted
  obtain ⟨hash, -, accepted⟩ := bind_eq_ok.mp accepted
  obtain ⟨-, -, accepted⟩ := bind_eq_ok.mp accepted
  obtain ⟨canonical, -, accepted⟩ := bind_eq_ok.mp accepted
  obtain ⟨-, -, accepted⟩ := bind_eq_ok.mp accepted
  obtain ⟨-, -, accepted⟩ := bind_eq_ok.mp accepted
  cases accepted
  refine ⟨rfl, of_decide_eq_true (require_ok chained), ?_, ?_⟩
  · intro minAt least
    have later := require_ok later
    rw [Option.mem_def.mp least] at later
    exact of_decide_eq_true later
  · intro first
    have genesis := require_ok genesis
    simpa [first] using genesis

def entryText (entry : LedgerEntry) : JsString :=
  writeValue (normalize (.obj entry.members))

def lineBytes (entry : LedgerEntry) : Bytes :=
  utf8Encode (entryText entry)

structure LedgerEntry.WellFormed (sha : HashFunction) (entry : LedgerEntry) : Prop where
  seq_safe : (entry.seq : ℤ) ≤ JsNumber.maxSafeInteger
  instant : isIsoInstant (.str entry.at') = some true
  grantId : ∀ id ∈ entry.grantId, grantIdPattern id = true
  repo : ∀ repo ∈ entry.repo, nameWithOwnerPattern repo = true
  data_json : (JsValue.obj entry.data).isJson = true
  data_normal : normalize (.obj entry.data) = .obj entry.data
  hash : ledgerEntryHash sha entry.members = some entry.hash

theorem entry_keys_nodup (entry : LedgerEntry) : (entry.members.map Prod.fst).Nodup := by
  change [js "v", js "seq", js "at", js "actor", js "grantId", js "repo", js "prevHash",
    js "kind", js "data", js "hash"].Nodup
  decide +kernel

theorem isJson_jsInt {n : ℤ} (bound : |n| ≤ JsNumber.maxSafeInteger) :
    (jsInt n).isJson = true := by
  obtain ⟨d, same, -⟩ := JsNumber.ofRat_intCast bound
  rw [jsInt, same]
  rfl

theorem isJson_nullable (text : Option JsString) : (nullable text).isJson = true := by
  cases text <;> rfl

theorem normalize_nullable (text : Option JsString) :
    normalize (nullable text) = nullable text := by
  cases text <;> rfl

section

variable (formed : entry.WellFormed sha)
include formed

theorem isJson_seq : (jsInt entry.seq).isJson = true := isJson_jsInt (by
  have := formed.seq_safe
  rw [abs_of_nonneg (by omega)]
  exact this)

theorem entry_isJson :
    (JsValue.obj entry.members).isJson = true := by
  have one : (jsInt 1).isJson = true := isJson_jsInt (by decide)
  have seq := isJson_seq formed
  refine isJson_obj.mpr ⟨entry_keys_nodup entry, ?_⟩
  simp only [LedgerEntry.members, LedgerEntry.baseMembers, List.cons_append, List.nil_append,
    List.forall_mem_cons, one, seq, isJson_nullable, formed.data_json, true_and]
  simp [JsValue.isJson]

theorem normalizeMembers_entry :
    normalizeMembers entry.members = entry.members := by
  have json := isJson_obj.mp (entry_isJson formed)
  rw [normalizeMembers_of_defined fun member present =>
    ne_undefined_of_isJson (json.2 member present)]
  simp only [LedgerEntry.members, LedgerEntry.baseMembers, List.cons_append, List.nil_append,
    List.map_cons, List.map_nil, normalize_nullable, formed.data_normal]
  rfl

theorem parseJson_entryText :
    parseJson (entryText entry) = some (.obj (sortByKey entry.members)) := by
  have json := entry_isJson formed
  obtain ⟨finite, distinct⟩ := allFinite_of_isJson _ json
  have normal := isJson_normalize _ finite distinct (by simp)
  rw [entryText, parseJson_writeValue normal, normalize, normalizeMembers_entry formed]

theorem normalize_entry :
    normalize (.obj entry.members) = .obj (sortByKey entry.members) := by
  rw [normalize, normalizeMembers_entry formed]

end

theorem entry_member {key : JsString} {value : JsValue} (present : (key, value) ∈ entry.members) :
    getMember (sortByKey entry.members) key = value :=
  getMember_of_mem (nodup_sortByKey.mpr (entry_keys_nodup entry)) (mem_sortByKey.mpr present)

theorem nullableMatching_nullable {pattern : JsString → Bool} {text : Option JsString}
    (matching : ∀ t ∈ text, pattern t = true) :
    nullableMatching pattern (nullable text) = some text := by
  cases text with
  | none => rfl
  | some t => rw [nullable, nullableMatching, if_pos (matching t rfl)]

theorem canonicalJson_sorted_entry (formed : entry.WellFormed sha) :
    canonicalJson (.obj (sortByKey entry.members)) = .ok (entryText entry) := by
  rw [entryText, ← canonicalJson_of_isJson (entry_isJson formed)]
  exact (canonicalJson_perm (perm_sortByKey entry.members).symm (entry_keys_nodup entry)).symm

theorem ledgerEntryHash_perm {first second : List (JsString × JsValue)} (perm : first.Perm second)
    (distinct : (first.map Prod.fst).Nodup) :
    ledgerEntryHash sha first = ledgerEntryHash sha second := by
  have keys : ((withoutMember first (js "hash")).map Prod.fst).Nodup :=
    distinct.sublist ((List.filter_sublist).map Prod.fst)
  rw [ledgerEntryHash, ledgerEntryHash,
    canonicalJson_perm (withoutMember_perm perm (js "hash")) keys]

theorem entry_keys (entry : LedgerEntry) :
    entry.members.map Prod.fst = [js "v", js "seq", js "at", js "actor", js "grantId",
      js "repo", js "prevHash", js "kind", js "data", js "hash"] := rfl

theorem exactKeys_sorted_entry (entry : LedgerEntry) :
    exactKeys (sortByKey entry.members) entryKeys = true := by
  rw [exactKeys_perm (perm_sortByKey entry.members), exactKeys_eq, entry_keys]
  decide +kernel

theorem checkLine_entryText {expected : Expected} (formed : entry.WellFormed sha)
    (follows : entry.Follows expected) :
    checkLine sha (entryText entry) expected = .ok entry := by
  have seqBound : |(entry.seq : ℤ)| ≤ JsNumber.maxSafeInteger := by
    rw [abs_of_nonneg (by omega)]
    exact formed.seq_safe
  have member {key : JsString} {value : JsValue} (present : (key, value) ∈ entry.members) :=
    entry_member present
  have v : getMember (sortByKey entry.members) (js "v") = jsInt 1 :=
    member (by simp [LedgerEntry.members, LedgerEntry.baseMembers])
  have seq : getMember (sortByKey entry.members) (js "seq") = jsInt entry.seq :=
    member (by simp [LedgerEntry.members, LedgerEntry.baseMembers])
  have instant : getMember (sortByKey entry.members) (js "at") = .str entry.at' :=
    member (by simp [LedgerEntry.members, LedgerEntry.baseMembers])
  have actor : getMember (sortByKey entry.members) (js "actor") =
      .str (JsEnum.text entry.actor) :=
    member (by simp [LedgerEntry.members, LedgerEntry.baseMembers])
  have grantId : getMember (sortByKey entry.members) (js "grantId") = nullable entry.grantId :=
    member (by simp [LedgerEntry.members, LedgerEntry.baseMembers])
  have repo : getMember (sortByKey entry.members) (js "repo") = nullable entry.repo :=
    member (by simp [LedgerEntry.members, LedgerEntry.baseMembers])
  have prevHash : getMember (sortByKey entry.members) (js "prevHash") = .str entry.prevHash :=
    member (by simp [LedgerEntry.members, LedgerEntry.baseMembers])
  have kind : getMember (sortByKey entry.members) (js "kind") = .str (JsEnum.text entry.kind) :=
    member (by simp [LedgerEntry.members, LedgerEntry.baseMembers])
  have data : getMember (sortByKey entry.members) (js "data") = .obj entry.data :=
    member (by simp [LedgerEntry.members, LedgerEntry.baseMembers])
  have hash : getMember (sortByKey entry.members) (js "hash") = .str entry.hash :=
    member (by simp [LedgerEntry.members])
  have minAt : (expected.minAt.all fun minAt => decide (minAt ≤ entry.at')) = true := by
    cases least : expected.minAt with
    | none => rfl
    | some minAt => simpa using follows.instant minAt least
  have genesis : (decide (expected.seq ≠ 0) || decide (entry.kind = .ledgerGenesis)) = true := by
    by_cases first : expected.seq = 0
    · simp [follows.genesis first]
    · simp [first]
  have hashOf : ledgerEntryHash sha (sortByKey entry.members) = some entry.hash := by
    rw [ledgerEntryHash_perm (perm_sortByKey entry.members)
      (nodup_sortByKey.mpr (entry_keys_nodup entry)), formed.hash]
  have hex : sha256HexPattern entry.hash = true := by
    have same := formed.hash
    unfold ledgerEntryHash at same
    split at same
    · rw [← Option.some.inj same]
      exact sha.hex _
    · cases same
  have one : (jsInt 1).asSafeInteger = some 1 := asSafeInteger_jsInt (by decide)
  have checked : checkInstant (.str entry.at') = .ok entry.at' := by
    rw [checkInstant, formed.instant]
    rfl
  simp only [checkLine, parseJson_entryText formed, JsValue.asRecord, exactKeys_sorted_entry,
    v, one, seq, ← follows.seq, asSafeInteger_jsInt seqBound, instant, checked,
    minAt, actor, JsEnum.ofValue_str, grantId, nullableMatching_nullable formed.grantId, repo,
    nullableMatching_nullable formed.repo, prevHash, JsValue.asString, follows.prevHash, kind,
    data, hash, hex, canonicalJson_sorted_entry formed, hashOf, Except.toOption, demand_some,
    ok_bind, decide_true, require_true]
  rw [follows.seq, genesis]
  rw [require_true, ok_bind, ← follows.seq, ← follows.prevHash]
  rfl

end AshlrHub.Authority

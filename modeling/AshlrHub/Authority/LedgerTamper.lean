import AshlrHub.Authority.LedgerAppend
import AshlrHub.Js.Utf8

namespace AshlrHub.Authority

open Js
open Lib (bind_eq_ok)

/-! What a parse gives: objects with distinct keys. -/

variable {sha : HashFunction} {value : JsValue} {bytes : Bytes} {state : ChainState}
  {members : List (JsString × JsValue)}

theorem membersDistinct_iff :
    membersDistinct members = true ↔ ∀ member ∈ members, distinctKeys member.2 = true := by
  induction members with
  | nil => simp [membersDistinct]
  | cons member members ih => simp [membersDistinct, ih]

theorem setMember_keys (key : JsString) (value : JsValue) :
    (members : List (JsString × JsValue)) →
    (setMember key value members).map Prod.fst =
      if key ∈ members.map Prod.fst then members.map Prod.fst
      else members.map Prod.fst ++ [key]
  | [] => by simp [setMember]
  | member :: members => by
      rw [setMember]
      by_cases same : member.1 = key
      · simp [same]
      · rw [if_neg same, List.map_cons, List.map_cons, setMember_keys key value members]
        by_cases present : key ∈ members.map Prod.fst
        · rw [if_pos present, if_pos (List.mem_cons_of_mem _ present)]
        · have absent : key ∉ member.1 :: members.map Prod.fst := by
            simpa only [List.mem_cons, not_or] using ⟨Ne.symm same, present⟩
          rw [if_neg present, if_neg absent, List.cons_append]

theorem mem_setMember {key : JsString} {entry : JsString × JsValue} :
    {members : List (JsString × JsValue)} → entry ∈ setMember key value members →
    entry = (key, value) ∨ entry ∈ members
  | [], present => by simpa [setMember] using present
  | member :: members, present => by
      rw [setMember] at present
      split_ifs at present with same
      · rcases List.mem_cons.mp present with first | later
        · exact .inl first
        · exact .inr (List.mem_cons_of_mem _ later)
      · rcases List.mem_cons.mp present with rfl | later
        · exact .inr List.mem_cons_self
        · exact (mem_setMember later).imp_right (List.mem_cons_of_mem _)

theorem distinctKeys_ofMembers
    (values : ∀ member ∈ members, distinctKeys member.2 = true) :
    distinctKeys (ofMembers members) = true := by
  have folded : ∀ (members front : List (JsString × JsValue)),
      (∀ member ∈ members, distinctKeys member.2 = true) →
      (∀ member ∈ front, distinctKeys member.2 = true) → (front.map Prod.fst).Nodup →
      (∀ member ∈ members.foldl (fun object member => setMember member.1 member.2 object) front,
        distinctKeys member.2 = true) ∧
        ((members.foldl (fun object member => setMember member.1 member.2 object) front).map
          Prod.fst).Nodup := by
    intro members
    induction members with
    | nil => exact fun front _ values distinct => ⟨values, distinct⟩
    | cons member members ih =>
        intro front later values distinct
        rw [List.foldl_cons]
        refine ih _ (fun other present => later other (List.mem_cons_of_mem _ present)) ?_ ?_
        · intro other present
          rcases mem_setMember present with rfl | old
          · exact later _ List.mem_cons_self
          · exact values other old
        · rw [setMember_keys]
          split_ifs with present
          · exact distinct
          · exact List.nodup_append.mpr ⟨distinct, by simp, by
              intro key old other same
              rintro rfl
              exact present (List.mem_singleton.mp same ▸ old)⟩
  obtain ⟨kept, distinct⟩ := folded members [] values (by simp) (by simp)
  rw [ofMembers, distinctKeys, Bool.and_eq_true, membersDistinct_iff]
  exact ⟨by simpa using distinct, kept⟩

theorem distinctKeys_parseScalar {text rest : JsString}
    (read : parseScalar text = some (value, rest)) : distinctKeys value = true := by
  unfold parseScalar at read
  split at read
  · cases read; rfl
  · split at read
    · cases read; rfl
    · split at read
      · cases read; rfl
      · split at read
        · cases read; rfl
        · cases read

theorem parse_distinct : (fuel : ℕ) →
    (∀ {text rest value}, parseValue fuel text = some (value, rest) → distinctKeys value = true) ∧
    (∀ {text rest items}, parseItems fuel text = some (items, rest) → itemsDistinct items = true) ∧
    (∀ {text rest members}, parseMembers fuel text = some (members, rest) →
      ∀ member ∈ members, distinctKeys member.2 = true)
  | 0 => ⟨fun read => (by cases read), fun read => (by cases read),
      fun read => (by cases read)⟩
  | fuel + 1 => by
      obtain ⟨values, items, members⟩ := parse_distinct fuel
      refine ⟨?_, ?_, ?_⟩
      · intro text rest value read
        rw [parseValue] at read
        split at read
        · split at read <;> cases read
          rfl
        · split at read
          · cases read; rfl
          · split at read
            · next inner =>
                cases read
                exact items inner
            · cases read
        · split at read
          · cases read; rfl
          · split at read
            · next inner =>
                cases read
                exact distinctKeys_ofMembers (members inner)
            · cases read
        · exact distinctKeys_parseScalar read
      · intro text rest items' read
        rw [parseItems] at read
        split at read
        · cases read
        · next item tail inner =>
            have first := values inner
            split at read
            · cases read
              simp [itemsDistinct, first]
            · split at read
              · next others =>
                  cases read
                  simp [itemsDistinct, first, items others]
              · cases read
            · cases read
      · intro text rest members' read
        rw [parseMembers] at read
        split at read
        · split at read
          · cases read
          · split at read
            · split at read
              · cases read
              · next key _ _ value tail inner =>
                  have first := values inner
                  split at read
                  · cases read
                    simpa using first
                  · split at read
                    · next others =>
                        cases read
                        exact List.forall_mem_cons.mpr ⟨first, members others⟩
                    · cases read
                  · cases read
            · cases read
        · cases read

theorem distinctKeys_parseJson {text : JsString}
    (read : parseJson text = some value) : distinctKeys value = true := by
  unfold parseJson at read
  split at read
  · next inner =>
      split_ifs at read
      cases read
      exact (parse_distinct _).1 inner
  · cases read

/-! A line that is accepted is the text of its entry. -/

theorem nullable_of_nullableMatching {pattern : JsString → Bool}
    {text : Option JsString} (found : nullableMatching pattern value = some text) :
    value = nullable text ∧ ∀ t ∈ text, pattern t = true := by
  unfold nullableMatching at found
  split at found
  · cases found
    exact ⟨rfl, by simp⟩
  · split_ifs at found with matching
    cases found
    exact ⟨rfl, by simpa using matching⟩
  · cases found

theorem eq_some_of_demand {value : Option α} {reason : JsString} {a : α}
    (demanded : demand value reason = .ok a) : value = some a := by
  cases value with
  | none => cases demanded
  | some b => exact congrArg some (Except.ok.inj demanded)

theorem eq_str_of_asString {text : JsString}
    (found : value.asString = some text) : value = .str text := by
  cases value with
  | str other => exact congrArg JsValue.str (Option.some.inj found)
  | _ => cases found

theorem eq_obj_of_asRecord
    (found : value.asRecord = some members) : value = .obj members := by
  cases value with
  | obj other => exact congrArg JsValue.obj (Option.some.inj found)
  | _ => cases found

theorem checkInstant_ok {text : JsString}
    (checked : checkInstant value = .ok text) :
    value = .str text ∧ isIsoInstant (.str text) = some true := by
  unfold checkInstant at checked
  split at checked
  · cases checked
  · cases checked
  · next instant =>
      obtain rfl := eq_str_of_asString (eq_some_of_demand checked)
      exact ⟨rfl, instant⟩

theorem perm_of_lookups {members others : List (JsString × JsValue)}
    (distinct : (members.map Prod.fst).Nodup) (distinctOthers : (others.map Prod.fst).Nodup)
    (length : members.length = others.length)
    (found : ∀ member ∈ others, hasMember members member.1 = true ∧
      getMember members member.1 = member.2) : members.Perm others := by
  have inside : others ⊆ members := by
    intro member present
    obtain ⟨has, value⟩ := found member present
    obtain ⟨other, inMembers⟩ := exists_mem_of_hasMember has
    rw [getMember_of_mem distinct inMembers] at value
    rwa [value] at inMembers
  have nodup : others.Nodup := distinctOthers.of_map _
  exact ((nodup.subperm inside).perm_of_length_le length.le).symm

theorem normal_member {key : JsString}
    (distinct : (members.map Prod.fst).Nodup) (json : (JsValue.obj members).isJson = true)
    (normal : normalize (.obj members) = .obj members) (present : (key, value) ∈ members) :
    normalize value = value := by
  rw [normalize, JsValue.obj.injEq, normalizeMembers_of_defined fun member inside =>
    ne_undefined_of_isJson ((isJson_obj.mp json).2 member inside)] at normal
  have inNormal : (key, value) ∈ members.map fun member => (member.1, normalize member.2) := by
    rw [← normal] at present
    exact mem_sortByKey.mp present
  obtain ⟨other, inside, same⟩ := List.mem_map.mp inNormal
  obtain ⟨keySame, valueSame⟩ := Prod.mk.inj same
  obtain rfl := eq_of_key_eq distinct inside present keySame
  exact valueSame

variable {entry : LedgerEntry}

theorem checkLine_sound {line : JsString} {expected : Expected}
    (accepted : checkLine sha line expected = .ok entry) :
    entry.WellFormed sha ∧ line = entryText entry := by
  unfold checkLine at accepted
  obtain ⟨parsed, read, accepted⟩ := bind_eq_ok.mp accepted
  obtain ⟨members, record, accepted⟩ := bind_eq_ok.mp accepted
  obtain ⟨_, keys, accepted⟩ := bind_eq_ok.mp accepted
  obtain ⟨_, v, accepted⟩ := bind_eq_ok.mp accepted
  obtain ⟨_, seq, accepted⟩ := bind_eq_ok.mp accepted
  obtain ⟨at', instant, accepted⟩ := bind_eq_ok.mp accepted
  obtain ⟨-, -, accepted⟩ := bind_eq_ok.mp accepted
  obtain ⟨actor, isActor, accepted⟩ := bind_eq_ok.mp accepted
  obtain ⟨grantId, isGrantId, accepted⟩ := bind_eq_ok.mp accepted
  obtain ⟨repo, isRepo, accepted⟩ := bind_eq_ok.mp accepted
  obtain ⟨prevHash, isPrevHash, accepted⟩ := bind_eq_ok.mp accepted
  obtain ⟨-, -, accepted⟩ := bind_eq_ok.mp accepted
  obtain ⟨kind, isKind, accepted⟩ := bind_eq_ok.mp accepted
  obtain ⟨-, -, accepted⟩ := bind_eq_ok.mp accepted
  obtain ⟨data, isData, accepted⟩ := bind_eq_ok.mp accepted
  obtain ⟨hash, isHash, accepted⟩ := bind_eq_ok.mp accepted
  obtain ⟨-, -, accepted⟩ := bind_eq_ok.mp accepted
  obtain ⟨canonical, isCanonical, accepted⟩ := bind_eq_ok.mp accepted
  obtain ⟨_, isLine, accepted⟩ := bind_eq_ok.mp accepted
  obtain ⟨_, hashed, accepted⟩ := bind_eq_ok.mp accepted
  have same : (⟨expected.seq, at', actor, grantId, repo, prevHash, kind, data, hash⟩ :
    LedgerEntry) = entry := Except.ok.inj accepted
  have read := eq_some_of_demand read
  obtain rfl := eq_obj_of_asRecord (eq_some_of_demand record)
  have v := (eq_jsInt_of_asSafeInteger (of_decide_eq_true (require_ok v))).1
  obtain ⟨seq, safe⟩ := eq_jsInt_of_asSafeInteger (of_decide_eq_true (require_ok seq))
  obtain ⟨instant, isInstant⟩ := checkInstant_ok instant
  have isActor := JsEnum.eq_str_of_ofValue (eq_some_of_demand isActor)
  obtain ⟨isGrantId, grantIds⟩ := nullable_of_nullableMatching (eq_some_of_demand isGrantId)
  obtain ⟨isRepo, repos⟩ := nullable_of_nullableMatching (eq_some_of_demand isRepo)
  have isPrevHash := eq_str_of_asString (eq_some_of_demand isPrevHash)
  have isKind := JsEnum.eq_str_of_ofValue (eq_some_of_demand isKind)
  have isData := eq_obj_of_asRecord (eq_some_of_demand isData)
  have isHash := eq_str_of_asString (eq_some_of_demand isHash)
  have isCanonical := eq_ok_of_toOption (eq_some_of_demand isCanonical)
  obtain rfl : canonical = line := of_decide_eq_true (require_ok isLine)
  have hashed : ledgerEntryHash sha members = some hash := of_decide_eq_true (require_ok hashed)
  clear * - read v seq safe instant isInstant isActor isGrantId grantIds isRepo repos isPrevHash
    isKind isData isHash isCanonical hashed keys same
  have distinctAll := distinctKeys_parseJson read
  obtain ⟨again, json, -⟩ := parseJson_canonicalJson distinctAll isCanonical
  have normal : normalize (.obj members) = .obj members := Option.some.inj (again.symm.trans read)
  rw [normal] at json
  obtain ⟨distinct, jsons⟩ := isJson_obj.mp json
  have allKeys := require_ok keys
  rw [exactKeys_eq, decide_eq_true_eq] at allKeys
  obtain ⟨count, present⟩ := allKeys
  have perm : members.Perm entry.members := by
    refine perm_of_lookups distinct (entry_keys_nodup entry) ?_ ?_
    · rw [List.length_map] at count
      rw [count]
      rfl
    · intro member inEntry
      have key : member.1 ∈ entryKeys := by
        have inKeys := @List.mem_map_of_mem _ _ _ _ Prod.fst inEntry
        rw [entry_keys] at inKeys
        simp only [entryKeys, List.mem_cons, List.not_mem_nil, or_false] at inKeys ⊢
        rcases inKeys with here | here | here | here | here | here | here | here | here | here <;>
          simp only [here, true_or, or_true]
      refine ⟨hasMember_iff.mpr (present _ key), ?_⟩
      rw [← same] at inEntry
      simp only [LedgerEntry.members, LedgerEntry.baseMembers, List.cons_append, List.nil_append,
        List.mem_cons, List.not_mem_nil, or_false] at inEntry
      rcases inEntry with rfl | rfl | rfl | rfl | rfl | rfl | rfl | rfl | rfl | rfl
      exacts [v, seq, instant, isActor, isGrantId, isRepo, isPrevHash, isKind, isData, isHash]
  have dataMember : (js "data", JsValue.obj entry.data) ∈ members :=
    perm.mem_iff.mpr (by simp [LedgerEntry.members, LedgerEntry.baseMembers])
  have formed : entry.WellFormed sha :=
    { seq_safe := by
        rw [← same]
        rw [abs_of_nonneg (by omega)] at safe
        exact safe
      instant := by
        rw [← same]
        exact isInstant
      grantId := by
        rw [← same]
        exact grantIds
      repo := by
        rw [← same]
        exact repos
      data_json := jsons _ dataMember
      data_normal := normal_member distinct json normal dataMember
      hash := by
        rw [← ledgerEntryHash_perm perm distinct, hashed, ← same] }
  refine ⟨formed, ?_⟩
  rw [canonicalJson_perm perm distinct, canonicalJson_of_isJson (entry_isJson formed)]
    at isCanonical
  exact (Except.ok.inj isCanonical).symm

/-! The bytes that an entry's hash is the digest of. -/

def hashInput (entry : LedgerEntry) : Bytes :=
  utf8Encode (ledgerHashDomain ++ writeValue (normalize (.obj entry.baseMembers)))

theorem baseMembers_sublist (entry : LedgerEntry) :
    entry.baseMembers.Sublist entry.members :=
  List.sublist_append_left _ _

theorem base_isJson (formed : entry.WellFormed sha) :
    (JsValue.obj entry.baseMembers).isJson = true := by
  have whole := (isJson_obj.mp (entry_isJson formed)).2
  exact isJson_obj.mpr ⟨baseMembers_nodup entry, fun member present =>
    whole member ((baseMembers_sublist entry).subset present)⟩

theorem hash_eq_digest
    (formed : entry.WellFormed sha) : entry.hash = sha.digest (hashInput entry) := by
  have hash := formed.hash
  rw [ledgerEntryHash, withoutMember_hash, canonicalJson_of_isJson (base_isJson formed)] at hash
  exact (Option.some.inj hash).symm

theorem wellFormed_ledgerHashDomain : wellFormed ledgerHashDomain = true := by
  decide +kernel

theorem sortByKey_of_hashInput {first second : LedgerEntry}
    (formed : first.WellFormed sha) (formedSecond : second.WellFormed sha)
    (same : hashInput first = hashInput second) :
    sortByKey first.baseMembers = sortByKey second.baseMembers := by
  have text {value : JsValue} : utf8Decode (utf8Encode (ledgerHashDomain ++ writeValue value)) =
      ledgerHashDomain ++ writeValue value :=
    utf8Decode_utf8Encode
      (wellFormed_append wellFormed_ledgerHashDomain (printable_writeValue value).formed)
  have decoded := congrArg utf8Decode same
  rw [hashInput, hashInput, text, text] at decoded
  have written := List.append_cancel_left decoded
  have readsBack {entry : LedgerEntry} (formed : entry.WellFormed sha) :
      parseJson (writeValue (normalize (.obj entry.baseMembers))) =
        some (.obj (sortByKey entry.baseMembers)) := by
    obtain ⟨finite, distinct⟩ := allFinite_of_isJson _ (base_isJson formed)
    have normal : normalizeMembers entry.baseMembers = entry.baseMembers :=
      normalizeMembers_base formed.data_normal
    rw [parseJson_writeValue (isJson_normalize _ finite distinct (by simp)), normalize, normal]
  have parsed := readsBack formed
  rw [written, readsBack formedSecond] at parsed
  exact JsValue.obj.inj (Option.some.inj parsed.symm)

theorem nullable_injective : Function.Injective nullable := by
  intro first second same
  cases first <;> cases second <;> simp_all [nullable]

theorem eq_of_hashInput {first second : LedgerEntry}
    (formed : first.WellFormed sha) (formedSecond : second.WellFormed sha)
    (same : hashInput first = hashInput second) : first = second := by
  have sorted := sortByKey_of_hashInput formed formedSecond same
  have member {key : JsString} {value other : JsValue} (inFirst : (key, value) ∈ first.baseMembers)
      (inSecond : (key, other) ∈ second.baseMembers) : value = other := by
    have moved : (key, value) ∈ second.baseMembers := by
      rw [← mem_sortByKey, ← sorted]
      exact mem_sortByKey.mpr inFirst
    exact (Prod.mk.inj (eq_of_key_eq (baseMembers_nodup second) moved inSecond rfl)).2
  have safe {entry : LedgerEntry} (formed : entry.WellFormed sha) :
      |(entry.seq : ℤ)| ≤ JsNumber.maxSafeInteger := by
    rw [abs_of_nonneg (by omega)]
    exact formed.seq_safe
  have seq : first.seq = second.seq := by
    have values : jsInt first.seq = jsInt second.seq :=
      @member (js "seq") _ _ (by simp [LedgerEntry.baseMembers]) (by simp [LedgerEntry.baseMembers])
    have read := asSafeInteger_jsInt (safe formed)
    rw [values, asSafeInteger_jsInt (safe formedSecond)] at read
    exact Int.ofNat.inj (Option.some.inj read.symm)
  have at' : JsValue.str first.at' = .str second.at' :=
    @member (js "at") _ _ (by simp [LedgerEntry.baseMembers]) (by simp [LedgerEntry.baseMembers])
  have actor : JsValue.str (JsEnum.text first.actor) = .str (JsEnum.text second.actor) :=
    @member (js "actor") _ _ (by simp [LedgerEntry.baseMembers]) (by simp [LedgerEntry.baseMembers])
  have grantId : nullable first.grantId = nullable second.grantId :=
    @member (js "grantId") _ _ (by simp [LedgerEntry.baseMembers])
      (by simp [LedgerEntry.baseMembers])
  have repo : nullable first.repo = nullable second.repo :=
    @member (js "repo") _ _ (by simp [LedgerEntry.baseMembers]) (by simp [LedgerEntry.baseMembers])
  have prevHash : JsValue.str first.prevHash = .str second.prevHash :=
    @member (js "prevHash") _ _ (by simp [LedgerEntry.baseMembers])
      (by simp [LedgerEntry.baseMembers])
  have kind : JsValue.str (JsEnum.text first.kind) = .str (JsEnum.text second.kind) :=
    @member (js "kind") _ _ (by simp [LedgerEntry.baseMembers]) (by simp [LedgerEntry.baseMembers])
  have data : JsValue.obj first.data = .obj second.data :=
    @member (js "data") _ _ (by simp [LedgerEntry.baseMembers]) (by simp [LedgerEntry.baseMembers])
  have hash : first.hash = second.hash := by
    rw [hash_eq_digest formed, hash_eq_digest formedSecond, same]
  obtain ⟨_, _, _, _, _, _, _, _, _⟩ := first
  obtain ⟨_, _, _, _, _, _, _, _, _⟩ := second
  simp only [LedgerEntry.mk.injEq]
  exact ⟨seq, JsValue.str.inj at', JsEnum.text_injective (JsValue.str.inj actor),
    nullable_injective grantId, nullable_injective repo, JsValue.str.inj prevHash,
    JsEnum.text_injective (JsValue.str.inj kind), JsValue.obj.inj data, hash⟩

/-! Verified chains. -/

/-- Entries that continue one another, whatever bytes their lines have. -/
def Linked (sha : HashFunction) : Option LedgerHead → List LedgerEntry → Prop
  | _, [] => True
  | head, entry :: entries =>
      (entry.WellFormed sha ∧ entry.Follows (expectedAfter head)) ∧
        Linked sha (some entry.head) entries

theorem linked_append {head : Option LedgerHead}
    {first second : List LedgerEntry} :
    Linked sha head (first ++ second) ↔
      Linked sha head first ∧ Linked sha (lastHead head first) second := by
  induction first generalizing head with
  | nil => simp [Linked]
  | cons entry first ih =>
      rw [List.cons_append, Linked, Linked, ih, lastHead_cons]
      exact and_assoc.symm

theorem verifyLines_linked {head : Option LedgerHead} {lines : List Bytes}
    {entries : List LedgerEntry} (verified : verifyLines sha head lines = (entries, .ok)) :
    Linked sha head entries ∧ lines.map utf8Decode = entries.map entryText := by
  induction lines generalizing head entries with
  | nil =>
      obtain rfl : [] = entries := (Prod.mk.inj verified).1
      exact ⟨trivial, rfl⟩
  | cons line lines ih =>
      rw [verifyLines] at verified
      cases checked : verifyLine sha head line with
      | error stop =>
          rw [checked] at verified
          exact absurd (Prod.mk.inj verified).2 (verifyLine_stops checked)
      | ok entry =>
          rw [checked] at verified
          obtain ⟨rfl, ended⟩ := Prod.mk.inj verified
          obtain ⟨linked, texts⟩ := @ih (some entry.head) _ (Prod.ext rfl ended)
          have accepted := (verifyLine_ok checked).2
          obtain ⟨formed, same⟩ := checkLine_sound accepted
          refine ⟨⟨⟨formed, checkLine_follows accepted⟩, linked⟩, ?_⟩
          rw [List.map_cons, List.map_cons, texts, same]

theorem lastHead_concat (entries : List LedgerEntry) (entry : LedgerEntry) :
    lastHead none (entries ++ [entry]) = some entry.head := by
  rw [lastHead_append]
  rfl

theorem linked_unique {considered : Set Bytes}
    (injective : Set.InjOn sha.digest considered) {first second : List LedgerEntry}
    (linked : Linked sha none first) (linkedSecond : Linked sha none second)
    (inside : ∀ entry ∈ first, hashInput entry ∈ considered)
    (insideSecond : ∀ entry ∈ second, hashInput entry ∈ considered)
    (sameHash : (lastHead none first).map LedgerHead.hash =
      (lastHead none second).map LedgerHead.hash) : first = second := by
  induction first using List.reverseRecOn generalizing second with
  | nil =>
      rcases List.eq_nil_or_concat' second with rfl | ⟨rest, entry, rfl⟩
      · rfl
      · rw [lastHead_concat] at sameHash
        cases sameHash
  | append_singleton first entry ih =>
      rcases List.eq_nil_or_concat' second with rfl | ⟨rest, other, rfl⟩
      · rw [lastHead_concat] at sameHash
        cases sameHash
      · rw [lastHead_concat, lastHead_concat] at sameHash
        obtain ⟨front, ⟨formed, follows⟩, -⟩ := linked_append.mp linked
        obtain ⟨frontSecond, ⟨formedSecond, followsSecond⟩, -⟩ := linked_append.mp linkedSecond
        have hashes : entry.hash = other.hash := Option.some.inj sameHash
        rw [hash_eq_digest formed, hash_eq_digest formedSecond] at hashes
        have same : entry = other :=
          eq_of_hashInput formed formedSecond
            (injective (inside _ (by simp)) (insideSecond _ (by simp)) hashes)
        subst same
        -- equal entries expect equal hashes before them, and agree on whether they are first
        have prevHash := follows.prevHash.symm.trans followsSecond.prevHash
        have seq := follows.seq.symm.trans followsSecond.seq
        rw [expectedAfter_prevHash, expectedAfter_prevHash] at prevHash
        rw [expectedAfter_seq, expectedAfter_seq] at seq
        have before : (lastHead none first).map LedgerHead.hash =
            (lastHead none rest).map LedgerHead.hash := by
          cases head : lastHead none first with
          | none =>
              cases headRest : lastHead none rest with
              | none => rfl
              | some last => simp [head, headRest, nextSeq] at seq
          | some last =>
              cases headRest : lastHead none rest with
              | none => simp [head, headRest, nextSeq] at seq
              | some lastRest => simpa [head, headRest] using prevHash
        rw [ih front frontSecond (fun entry member => inside entry (List.mem_append_left _ member))
          (fun entry member => insideSecond entry (List.mem_append_left _ member)) before]

/-! Verification sees the text of a line, and its length. -/

theorem verifyLine_congr {head : Option LedgerHead} {line other : Bytes}
    (text : utf8Decode other = utf8Decode line)
    (shorter : other.length ≤ line.length) (verified : verifyLine sha head line = .ok entry) :
    verifyLine sha head other = .ok entry := by
  obtain ⟨short, checked⟩ := verifyLine_ok verified
  rw [verifyLine, if_neg (by omega), text, checked]

theorem verifyLines_replace {sha : HashFunction} {head : Option LedgerHead} {line other : Bytes}
    {before after : List Bytes} {entries : List LedgerEntry}
    (text : utf8Decode other = utf8Decode line) (shorter : other.length ≤ line.length)
    (verified : verifyLines sha head (before ++ line :: after) = (entries, .ok)) :
    verifyLines sha head (before ++ other :: after) = (entries, .ok) := by
  induction before generalizing head entries with
  | nil =>
      rw [List.nil_append, verifyLines] at verified ⊢
      cases checked : verifyLine sha head line with
      | error stop =>
          rw [checked] at verified
          exact absurd (Prod.mk.inj verified).2 (verifyLine_stops checked)
      | ok entry =>
          rw [verifyLine_congr text shorter checked]
          rw [checked] at verified
          exact verified
  | cons first before ih =>
      rw [List.cons_append, verifyLines] at verified ⊢
      cases checked : verifyLine sha head first with
      | error stop =>
          rw [checked] at verified
          exact verified
      | ok entry =>
          rw [checked] at verified
          obtain ⟨rfl, ended⟩ := Prod.mk.inj verified
          dsimp only
          rw [ih (Prod.ext rfl ended)]

/-! Files that verify in full. -/

def entriesOf (sha : HashFunction) (bytes : Bytes) : List LedgerEntry :=
  (verifyLines sha none (splitLines bytes).1).1

/-- `consumeBytes` verifies every complete line of the file, starting from nothing. -/
def VerifiesTo (sha : HashFunction) (bytes : Bytes) (state : ChainState) : Prop :=
  ∃ identity watch now, consumeBytes sha (freshState identity watch now) bytes = (state, .ok)

/-- Every line is the UTF-8 encoding of `canonicalJson` of the entry read from it. -/
def CanonicalLines (sha : HashFunction) (bytes : Bytes) : Prop :=
  List.Forall₂
    (fun line entry => ∃ text, canonicalJson (.obj entry.members) = .ok text ∧
      line = utf8Encode text)
    (splitLines bytes).1 (entriesOf sha bytes)

/-- The head hash of a verified file leaves no choice of its verified bytes, among the
files whose entries hash texts that are `considered`. -/
def Pinned (sha : HashFunction) (considered : Set Bytes) (state : ChainState) : Prop :=
  ∀ other otherState, VerifiesTo sha other otherState →
    (∀ entry ∈ entriesOf sha other, hashInput entry ∈ considered) →
    otherState.head.map LedgerHead.hash = state.head.map LedgerHead.hash →
    otherState.prefixBytes = state.prefixBytes

theorem verifiesTo_iff :
    VerifiesTo sha bytes state ↔
      (verifyLines sha none (splitLines bytes).1).2 = .ok ∧
        ∃ identity watch now, state = withLines
          (noteAll (freshState identity watch now) (entriesOf sha bytes))
          ((splitLines bytes).1.take (entriesOf sha bytes).length) := by
  have head (identity : ℕ) (watch : List ℕ) (now : ℤ) :
      (freshState identity watch now).head = none := rfl
  constructor
  · rintro ⟨identity, watch, now, consumed⟩
    rw [consumeBytes, consumeLines_eq, head] at consumed
    obtain ⟨same, ended⟩ := Prod.mk.inj consumed
    exact ⟨ended, identity, watch, now, same.symm⟩
  · rintro ⟨ended, identity, watch, now, rfl⟩
    refine ⟨identity, watch, now, ?_⟩
    rw [consumeBytes, consumeLines_eq, head, ended]
    rfl

section

variable (verified : VerifiesTo sha bytes state)
include verified

theorem VerifiesTo.pass :
    verifyLines sha none (splitLines bytes).1 = (entriesOf sha bytes, .ok) :=
  Prod.ext rfl (verifiesTo_iff.mp verified).1

theorem VerifiesTo.texts :
    (splitLines bytes).1.map utf8Decode = (entriesOf sha bytes).map entryText :=
  (verifyLines_linked verified.pass).2

theorem VerifiesTo.head :
    state.head = lastHead none (entriesOf sha bytes) := by
  obtain ⟨-, identity, watch, now, rfl⟩ := verifiesTo_iff.mp verified
  exact noteAll_head _ _

theorem VerifiesTo.prefixBytes :
    state.prefixBytes = (splitLines bytes).1.flatMap (· ++ [0x0A]) := by
  have count : (entriesOf sha bytes).length = (splitLines bytes).1.length := by
    simpa using congrArg List.length verified.texts.symm
  obtain ⟨-, identity, watch, now, rfl⟩ := verifiesTo_iff.mp verified
  rw [withLines_prefixBytes, count, List.take_length]
  rw [noteAll_prefixBytes]
  exact List.nil_append _

end

theorem entriesOf_unique {considered : Set Bytes}
    (injective : Set.InjOn sha.digest considered) {bytes other : Bytes}
    {state otherState : ChainState} (verified : VerifiesTo sha bytes state)
    (verifiedOther : VerifiesTo sha other otherState)
    (inside : ∀ entry ∈ entriesOf sha bytes, hashInput entry ∈ considered)
    (insideOther : ∀ entry ∈ entriesOf sha other, hashInput entry ∈ considered)
    (sameHash : otherState.head.map LedgerHead.hash = state.head.map LedgerHead.hash) :
    entriesOf sha other = entriesOf sha bytes := by
  rw [verified.head, verifiedOther.head] at sameHash
  exact linked_unique injective (verifyLines_linked verifiedOther.pass).1
    (verifyLines_linked verified.pass).1 insideOther inside sameHash

theorem lines_eq_of_texts {lines others : List Bytes}
    (valid : ∀ line ∈ lines, utf8Encode (utf8Decode line) = line)
    (validOthers : ∀ line ∈ others, utf8Encode (utf8Decode line) = line)
    (texts : others.map utf8Decode = lines.map utf8Decode) : others = lines := by
  have again {lines : List Bytes} (valid : ∀ line ∈ lines, utf8Encode (utf8Decode line) = line) :
      (lines.map utf8Decode).map utf8Encode = lines := by
    rw [List.map_map]
    exact (List.map_congr_left valid).trans (List.map_id lines)
  rw [← again valid, ← again validOthers, texts]

theorem exists_other_file
    (verified : VerifiesTo sha bytes state) {line : Bytes} (member : line ∈ (splitLines bytes).1)
    (replaced : replacementChar ∈ utf8DecodeScalars line) :
    ∃ other otherState, VerifiesTo sha other otherState ∧
      entriesOf sha other = entriesOf sha bytes ∧
      otherState.prefixBytes ≠ state.prefixBytes := by
  obtain ⟨otherLine, differs, text, shorter, ascii⟩ := exists_other_bytes replaced
  obtain ⟨before, after, lines⟩ := List.append_of_mem member
  have single : (0x0A : UInt8) ∉ otherLine := by
    intro newline
    obtain ⟨unit, inText, value⟩ := ascii _ newline (by decide)
    have isText : utf8Decode line ∈ (entriesOf sha bytes).map entryText := by
      rw [← verified.texts]
      exact List.mem_map_of_mem member
    obtain ⟨entry, -, same⟩ := List.mem_map.mp isText
    rw [← same] at inText
    have control := (printable_writeValue _).noControl unit inText
    have newlineNat : (0x0A : UInt8).toNat = 10 := rfl
    omega
  have inLines := noNewline_lines bytes
  rw [lines] at inLines
  have split : splitLines (fileOf (before ++ otherLine :: after)) =
      (before ++ otherLine :: after, []) := by
    apply splitLines_fileOf
    intro other inOther
    rcases List.mem_append.mp inOther with first | rest
    · exact inLines other (List.mem_append_left _ first)
    · rcases List.mem_cons.mp rest with rfl | last
      · exact single
      · exact inLines other (List.mem_append_right _ (List.mem_cons_of_mem _ last))
  have pass := verified.pass
  rw [lines] at pass
  have passOther := verifyLines_replace text shorter pass
  have entries : entriesOf sha (fileOf (before ++ otherLine :: after)) = entriesOf sha bytes := by
    rw [entriesOf, split, passOther]
  have verifiedOther := verifiesTo_iff.mpr ⟨by rw [split, passOther], 0, [], 0, rfl⟩
  refine ⟨_, _, verifiedOther, entries, ?_⟩
  rw [verifiedOther.prefixBytes, verified.prefixBytes, split, lines]
  intro same
  have files : fileOf (before ++ otherLine :: after) = fileOf (before ++ line :: after) := same
  have splits := congrArg splitLines files
  rw [split, splitLines_fileOf inLines] at splits
  have rest := List.append_cancel_left (Prod.mk.inj splits).1
  exact differs (List.cons.inj rest).1

theorem canonicalLines_iff
    (verified : VerifiesTo sha bytes state) :
    CanonicalLines sha bytes ↔
      ∀ line ∈ (splitLines bytes).1, utf8Encode (utf8Decode line) = line := by
  have linked := (verifyLines_linked verified.pass).1
  have texts := verified.texts
  unfold CanonicalLines
  generalize (splitLines bytes).1 = lines at texts ⊢
  generalize entriesOf sha bytes = entries at linked texts ⊢
  generalize (none : Option LedgerHead) = head at linked
  induction lines generalizing entries head with
  | nil =>
      obtain rfl : entries = [] := by simpa using texts.symm
      simp
  | cons line lines ih =>
      cases entries with
      | nil => cases texts
      | cons entry entries =>
          obtain ⟨text, rest⟩ := List.cons.inj texts
          have canonical : canonicalJson (.obj entry.members) = .ok (entryText entry) :=
            canonicalJson_of_isJson (entry_isJson linked.1.1)
          have first : (∃ text, canonicalJson (.obj entry.members) = .ok text ∧
              line = utf8Encode text) ↔ utf8Encode (utf8Decode line) = line := by
            rw [canonical, text]
            constructor
            · rintro ⟨written, same, rfl⟩
              rw [Except.ok.inj same]
            · intro same
              exact ⟨_, rfl, same.symm⟩
          have later := ih entries rest (some entry.head) linked.2
          rw [List.forall₂_cons, first, List.forall_mem_cons]
          exact and_congr_right fun _ => later

theorem pinned_iff {considered : Set Bytes}
    (injective : Set.InjOn sha.digest considered)
    (verified : VerifiesTo sha bytes state)
    (inside : ∀ entry ∈ entriesOf sha bytes, hashInput entry ∈ considered) :
    Pinned sha considered state ↔
      ∀ line ∈ (splitLines bytes).1, replacementChar ∉ utf8DecodeScalars line := by
  constructor
  · intro pinned line member replaced
    obtain ⟨other, otherState, verifiedOther, entries, differs⟩ :=
      exists_other_file verified member replaced
    refine differs (pinned other otherState verifiedOther (by rwa [entries]) ?_)
    rw [verifiedOther.head, verified.head, entries]
  · intro kept other otherState verifiedOther insideOther sameHash
    have entries := entriesOf_unique injective verified verifiedOther inside insideOther sameHash
    have texts : (splitLines other).1.map utf8Decode = (splitLines bytes).1.map utf8Decode := by
      rw [verifiedOther.texts, verified.texts, entries]
    -- the other file's lines have the same texts, so they hold no replacement either
    have keptOther : ∀ line ∈ (splitLines other).1, replacementChar ∉ utf8DecodeScalars line := by
      intro line member
      have moved : utf8Decode line ∈ (splitLines bytes).1.map utf8Decode := by
        rw [← texts]
        exact List.mem_map_of_mem member
      obtain ⟨own, inBytes, same⟩ := List.mem_map.mp moved
      have scalarsSame := congrArg scalars same
      rw [utf8Decode, utf8Decode, scalars_ofScalars, scalars_ofScalars] at scalarsSame
      rw [← scalarsSame]
      exact kept own inBytes
    have lines := lines_eq_of_texts (fun line member => utf8Encode_utf8Decode (kept line member))
      (fun line member => utf8Encode_utf8Decode (keptOther line member)) texts
    rw [verifiedOther.prefixBytes, verified.prefixBytes, lines]

/-! Two files with one head hash. -/

def replacedGenesis : LedgerEntry :=
  let draft : LedgerEntry :=
    ⟨0, js "2026-01-01T00:00:00.000Z", .mason, none, none, ledgerGenesisPrevHash,
      .ledgerGenesis, [(js "note", .str [0xFFFD])], []⟩
  { draft with hash := sha256.digest (hashInput draft) }

def invalidLine : Bytes :=
  (scalars (entryText replacedGenesis)).flatMap (encodeWith 0xFF)

theorem replacedGenesis_wellFormed : replacedGenesis.WellFormed sha256 := by
  have normal : normalize (.obj replacedGenesis.data) = .obj replacedGenesis.data := rfl
  have one : (jsInt 1).isJson = true := isJson_jsInt (by decide)
  have zero : (jsInt 0).isJson = true := isJson_jsInt (by decide)
  have json : (JsValue.obj replacedGenesis.baseMembers).isJson = true := by
    refine isJson_obj.mpr ⟨baseMembers_nodup _, ?_⟩
    simp only [LedgerEntry.baseMembers, List.forall_mem_cons, one, true_and]
    exact ⟨zero, rfl, rfl, rfl, rfl, rfl, rfl, by decide +kernel, by simp⟩
  exact
    { seq_safe := by decide
      instant := by decide +kernel
      grantId := by rintro id ⟨⟩
      repo := by rintro repo ⟨⟩
      data_json := by decide +kernel
      data_normal := normal
      hash := by
        rw [ledgerEntryHash, withoutMember_hash, canonicalJson_of_isJson json]
        rfl }

theorem verifyLine_replacedGenesis :
    verifyLine sha256 none (lineBytes replacedGenesis) = .ok replacedGenesis :=
  verifyLine_lineBytes replacedGenesis_wellFormed
    ⟨rfl, rfl, by rintro least ⟨⟩, fun _ => rfl⟩
    ((length_lineBytes_le replacedGenesis_wellFormed rfl rfl rfl (by decide +kernel)).trans
      (by decide))

theorem entriesOf_replacedGenesis :
    entriesOf sha256 (fileOf [lineBytes replacedGenesis]) = [replacedGenesis] ∧
      ∃ state, VerifiesTo sha256 (fileOf [lineBytes replacedGenesis]) state := by
  have split := @splitLines_fileOf [lineBytes replacedGenesis]
    (by simpa using noNewline_lineBytes replacedGenesis)
  have pass : verifyLines sha256 none [lineBytes replacedGenesis] = ([replacedGenesis], .ok) := by
    rw [verifyLines, verifyLine_replacedGenesis]
    rfl
  exact ⟨by rw [entriesOf, split, pass], _, verifiesTo_iff.mpr ⟨by rw [split, pass], 0, [], 0, rfl⟩⟩

theorem noNewline_invalidLine : ∀ line ∈ [invalidLine], (0x0A : UInt8) ∉ line := by
  rw [List.forall_mem_singleton]
  intro newline
  obtain ⟨c, inText, value⟩ := ascii_of_mem_encodeWith (by decide) newline (by decide)
  refine noNewline_lineBytes replacedGenesis (List.mem_flatMap.mpr ⟨c, inText, ?_⟩)
  rw [utf8EncodeChar, value]
  decide

theorem entriesOf_invalidLine :
    entriesOf sha256 (fileOf [invalidLine]) = [replacedGenesis] ∧
      ∃ state, VerifiesTo sha256 (fileOf [invalidLine]) state := by
  have same : utf8Decode invalidLine = utf8Decode (lineBytes replacedGenesis) := by
    rw [utf8Decode, invalidLine, utf8DecodeScalars_encodeWith (by decide), lineBytes, utf8Encode,
      utf8Decode, utf8DecodeScalars_encode]
  have shorter : invalidLine.length ≤ (lineBytes replacedGenesis).length := by
    rw [invalidLine, lineBytes, utf8Encode, List.length_flatMap, List.length_flatMap]
    exact List.sum_le_sum fun c _ => length_encodeWith_le 0xFF c
  have split := splitLines_fileOf noNewline_invalidLine
  have pass : verifyLines sha256 none [lineBytes replacedGenesis] = ([replacedGenesis], .ok) := by
    rw [verifyLines, verifyLine_replacedGenesis]
    rfl
  have passOther : verifyLines sha256 none [invalidLine] = ([replacedGenesis], .ok) :=
    @verifyLines_replace _ _ _ _ [] [] _ same shorter pass
  exact ⟨by rw [entriesOf, split, passOther],
    _, verifiesTo_iff.mpr ⟨by rw [split, passOther], 0, [], 0, rfl⟩⟩

/-- What the hash chain pins of a verified file: its lines are canonical as bytes exactly
when they are valid UTF-8, and its head hash allows no other bytes exactly when no line
reads as a text with a U+FFFD. -/
theorem hashChain_pins_bytes_iff {sha : HashFunction} {considered : Set Bytes}
    (injective : Set.InjOn sha.digest considered) {bytes : Bytes} {state : ChainState}
    (verified : VerifiesTo sha bytes state)
    (inside : ∀ entry ∈ entriesOf sha bytes, hashInput entry ∈ considered) :
    (CanonicalLines sha bytes ↔
      ∀ line ∈ (splitLines bytes).1, utf8Encode (utf8Decode line) = line) ∧
    (Pinned sha considered state ↔
      ∀ line ∈ (splitLines bytes).1, replacementChar ∉ utf8DecodeScalars line) :=
  ⟨canonicalLines_iff verified, pinned_iff injective verified inside⟩

/-- The second file has an invalid byte where the first encodes U+FFFD. -/
theorem hashChain_misses_invalid_byte :
    ∃ state otherState,
      VerifiesTo sha256 (fileOf [lineBytes replacedGenesis]) state ∧
      VerifiesTo sha256 (fileOf [invalidLine]) otherState ∧
      Set.InjOn sha256.digest
        {input | ∃ entry ∈ entriesOf sha256 (fileOf [lineBytes replacedGenesis]) ++
          entriesOf sha256 (fileOf [invalidLine]), hashInput entry = input} ∧
      otherState.head.map LedgerHead.hash = state.head.map LedgerHead.hash ∧
      otherState.prefixBytes ≠ state.prefixBytes ∧
      ¬CanonicalLines sha256 (fileOf [invalidLine]) := by
  obtain ⟨entries, state, verified⟩ := entriesOf_replacedGenesis
  obtain ⟨entriesOther, otherState, verifiedOther⟩ := entriesOf_invalidLine
  have split := @splitLines_fileOf [lineBytes replacedGenesis]
    (by simpa using noNewline_lineBytes replacedGenesis)
  have splitOther := splitLines_fileOf noNewline_invalidLine
  refine ⟨state, otherState, verified, verifiedOther, ?_, ?_, ?_, ?_⟩
  · rw [entries, entriesOther]
    rintro first ⟨entry, inFirst, rfl⟩ second ⟨other, inSecond, rfl⟩ -
    simp only [List.singleton_append, List.mem_cons, List.not_mem_nil, or_false, or_self]
      at inFirst inSecond
    rw [inFirst, inSecond]
  · rw [verified.head, verifiedOther.head, entries, entriesOther]
  · rw [verified.prefixBytes, verifiedOther.prefixBytes, split, splitOther]
    decide +kernel
  · rw [canonicalLines_iff verifiedOther, splitOther]
    decide +kernel

theorem hashChain_pins_bytes_replacedGenesis :
    ∃ state, VerifiesTo sha256 (fileOf [lineBytes replacedGenesis]) state ∧
      CanonicalLines sha256 (fileOf [lineBytes replacedGenesis]) ∧
      ¬Pinned sha256 {hashInput replacedGenesis} state := by
  obtain ⟨entries, state, verified⟩ := entriesOf_replacedGenesis
  have split := @splitLines_fileOf [lineBytes replacedGenesis]
    (by simpa using noNewline_lineBytes replacedGenesis)
  obtain ⟨canonical, pinned⟩ := hashChain_pins_bytes_iff
    (Set.injOn_singleton sha256.digest (hashInput replacedGenesis)) verified
    (by rw [entries]; simp)
  refine ⟨state, verified, canonical.mpr ?_, fun holds => ?_⟩
  · rw [split, List.forall_mem_singleton, lineBytes, entryText, utf8Decode_writeValue]
  · have kept := pinned.mp holds
    rw [split] at kept
    exact kept _ List.mem_cons_self (by decide +kernel)

end AshlrHub.Authority

import AshlrHub.Authority.LedgerHolds

namespace AshlrHub.Authority

open Js

/-! What one write does to a ledger that holds, wherever it stops. -/

def anchorMembers (entry : LedgerEntry) : List (JsString × JsValue) :=
  [(js "v", jsInt 1), (js "seq", jsInt entry.seq), (js "hash", .str entry.hash),
    (js "at", .str entry.at')]

theorem anchorMembers_keys (entry : LedgerEntry) :
    (anchorMembers entry).map Prod.fst = [js "v", js "seq", js "hash", js "at"] := rfl

theorem anchorMembers_nodup (entry : LedgerEntry) :
    ((anchorMembers entry).map Prod.fst).Nodup := by
  rw [anchorMembers_keys]
  decide +kernel

theorem length_of_matchesTemplate : {template text : JsString} →
    matchesTemplate template text = true → text.length = template.length
  | [], [], _ => rfl
  | [], _ :: _, matched => by simp [matchesTemplate] at matched
  | _ :: _, [], matched => by simp [matchesTemplate] at matched
  | _ :: _, _ :: _, matched => by
      simp only [matchesTemplate, Bool.and_eq_true] at matched
      rw [List.length_cons, List.length_cons, length_of_matchesTemplate matched.2]

theorem length_of_isIsoInstant {text : JsString} (instant : isIsoInstant (.str text) = some true) :
    text.length = 24 := by
  unfold isIsoInstant at instant
  simp only at instant
  split_ifs at instant with shape
  · exact length_of_matchesTemplate shape
  · cases instant

variable {sha : HashFunction} {entry : LedgerEntry}

theorem LedgerEntry.WellFormed.hex (formed : entry.WellFormed sha) :
    sha256HexPattern entry.hash = true := by
  have same := formed.hash
  unfold ledgerEntryHash at same
  split at same
  · rw [← Option.some.inj same]
    exact sha.hex _
  · cases same

theorem length_of_sha256HexPattern {text : JsString} (hex : sha256HexPattern text = true) :
    text.length = 64 := by
  rw [sha256HexPattern, isHexOfLength, Bool.and_eq_true, decide_eq_true_eq] at hex
  exact hex.1

theorem normalize_anchorMembers (entry : LedgerEntry) :
    normalize (.obj (anchorMembers entry)) = .obj (sortByKey (anchorMembers entry)) := by
  rw [normalize]
  rfl

theorem isJson_anchor (formed : entry.WellFormed sha) :
    (JsValue.obj (sortByKey (anchorMembers entry))).isJson := by
  have one : (jsInt 1).isJson = true := isJson_jsInt (by decide)
  refine isJson_obj.mpr ⟨nodup_sortByKey.mpr (anchorMembers_nodup entry), ?_⟩
  intro member present
  have present := mem_sortByKey.mp present
  simp only [anchorMembers, List.mem_cons, List.not_mem_nil, or_false] at present
  rcases present with rfl | rfl | rfl | rfl
  · exact one
  · exact isJson_seq formed
  · rfl
  · rfl

theorem newline_ends : EndsNumber (js "\n") := by
  have newline : js "\n" = [0x0A] := by decide
  intro unit head
  rw [newline] at head
  cases head
  decide

section

variable (formed : entry.WellFormed sha)
include formed

theorem membersLength_anchor :
    membersLength (anchorMembers entry) ≤ 1000 := by
  have seq := length_writeValue_jsInt_le formed.seq_safe
  have hash := length_writeValue_str_le entry.hash
  rw [length_of_sha256HexPattern formed.hex] at hash
  have instant := length_writeValue_str_le entry.at'
  rw [length_of_isIsoInstant formed.instant] at instant
  have one : (writeValue (jsInt 1)).length ≤ 16 :=
    length_writeValue_jsInt_le (n := 1) (by decide)
  have keys : (js "v").length = 1 ∧ (js "seq").length = 3 ∧ (js "hash").length = 4 ∧
      (js "at").length = 2 := by decide
  simp only [membersLength, anchorMembers, List.map_cons, List.map_nil, List.sum_cons,
    List.sum_nil, keys]
  omega

theorem anchor_small :
    (utf8Encode (anchorText entry)).length ≤ 4096 := by
  have encoded := length_utf8Encode_le (anchorText entry)
  have object := length_writeValue_obj_le (sortByKey (anchorMembers entry))
  rw [membersLength_perm (perm_sortByKey (anchorMembers entry))] at object
  have members := membersLength_anchor formed
  have newline : (js "\n").length = 1 := by decide
  have text :
      anchorText entry = writeValue (.obj (sortByKey (anchorMembers entry))) ++ js "\n" := by
    rw [anchorText, ← normalize_anchorMembers]
    rfl
  rw [text, List.length_append, newline] at encoded
  rw [text]
  omega

theorem readAnchor_anchorText (identity : ℕ) :
    readAnchor (some ⟨identity, true, utf8Encode (anchorText entry)⟩) =
      .ok ⟨entry.seq, entry.hash, entry.at'⟩ := by
  have text :
      anchorText entry = writeValue (.obj (sortByKey (anchorMembers entry))) ++ js "\n" := by
    rw [anchorText, ← normalize_anchorMembers]
    rfl
  have decoded : utf8Decode (utf8Encode (anchorText entry)) = anchorText entry := by
    refine utf8Decode_utf8Encode ?_
    rw [text]
    exact wellFormed_append (printable_writeValue _).formed (by decide)
  have parsed : parseJson (anchorText entry) = some (.obj (sortByKey (anchorMembers entry))) := by
    rw [text]
    exact parseJson_writeValue_append (isJson_anchor formed) newline_ends (by decide)
  have member (key : JsString) (value : JsValue) (present : (key, value) ∈ anchorMembers entry) :
      getMember (sortByKey (anchorMembers entry)) key = value :=
    getMember_of_mem (nodup_sortByKey.mpr (anchorMembers_nodup entry)) (mem_sortByKey.mpr present)
  have v := member (js "v") (jsInt 1) (by simp [anchorMembers])
  have seq := member (js "seq") (jsInt entry.seq) (by simp [anchorMembers])
  have hash := member (js "hash") (.str entry.hash) (by simp [anchorMembers])
  have instant := member (js "at") (.str entry.at') (by simp [anchorMembers])
  have keys : exactKeys (sortByKey (anchorMembers entry))
      [js "v", js "seq", js "hash", js "at"] = true := by
    rw [exactKeys_perm (perm_sortByKey _), exactKeys_eq, anchorMembers_keys]
    decide +kernel
  have whole := int?_jsInt formed.seq_safe
  have one : (jsInt 1).asSafeInteger = some 1 := asSafeInteger_jsInt (by decide)
  have hex := formed.hex
  rw [readAnchor, readSmallPrivateJson]
  simp only [Bool.true_eq_false, false_or, gt_iff_lt, Nat.not_lt.mpr (anchor_small formed),
    ↓reduceIte, decoded, parsed]
  rw [anchorOfMembers]
  simp only [keys, v, one, seq, hash, instant, whole, hex, JsValue.asString, formed.instant,
    Bool.true_eq_false, ne_eq, not_true_eq_false, or_self, ↓reduceIte]

end

structure Ready (sha : HashFunction) (disk : Disk) (state : ChainState)
    (entries : List LedgerEntry) : Prop where
  holds : LedgerHolds sha disk entries
  view : View state entries
  identity : ∀ file, disk.ledger = some file → state.identity = file.identity

structure Noted (result : WriteResult) (entries : List LedgerEntry) : Prop where
  view : View result.state entries
  here : ∃ file, result.disk.ledger = some file ∧ result.state.identity = file.identity
  process : ∃ mark, result.process = ⟨some result.state, some mark⟩ ∧
    hashAt entries mark.seq = some mark.hash ∧ mark.genesisHash = hashAt entries 0

/-- What one write leaves: `more` is the new entry, once its line is complete. -/
structure Written (sha : HashFunction) (disk : Disk) (process : LedgerProcess)
    (identity : ℕ) (input : LedgerAppendInput) (entries more : List LedgerEntry)
    (result : WriteResult) : Prop where
  holds : LedgerHolds sha result.disk (entries ++ more)
  rows : ∀ entry ∈ more, entry.kind = input.kind ∧ normalize (.obj input.data) = .obj entry.data
  marker : result.disk.marker = disk.marker
  keeps : ∀ file, disk.ledger = some file →
    ∃ next, result.disk.ledger = some next ∧ next.identity = file.identity
  creates : disk.ledger = none → ∀ file, result.disk.ledger = some file → file.identity = identity
  process : result.process = process ∨ Noted result (entries ++ more)
  success : ∀ entry, result.entry = some entry → more = [entry] ∧
    Noted result (entries ++ more) ∧
      ∃ file, result.disk.ledger = some file ∧ file.bytes = linesOf (entries ++ more)

variable {disk : Disk} {state : ChainState} {entries : List LedgerEntry}

theorem written_nothing {process : LedgerProcess} {identity : ℕ} {input : LedgerAppendInput}
    (ready : Ready sha disk state entries) :
    Written sha disk process identity input entries [] ⟨disk, process, state, none⟩ :=
  { holds := by simpa using ready.holds
    rows := by simp
    marker := rfl
    keeps := fun file present => ⟨file, present, rfl⟩
    creates := fun absent file present => by rw [absent] at present; cases present
    process := .inl rfl
    success := by simp }

variable {file : File}

theorem ledgerHolds_write {more : List LedgerEntry} {written : Bytes}
    (holds : LedgerHolds sha disk entries) (chained : Chained sha none (entries ++ more))
    (owned : file.ownedPrivate = true) (bytes : file.bytes = linesOf entries ++ written)
    (complete : splitLines written = (more.map lineBytes, (splitLines written).2))
    (size : file.bytes.length ≤ ledgerMaxBytes) :
    LedgerHolds sha { disk with ledger := some file } (entries ++ more) :=
  { chained := chained
    absent := by simp
    owned := fun _ present => Option.some.inj present ▸ owned
    lines := by
      intro _ present
      obtain rfl := Option.some.inj present
      rw [FileHolds, bytes, splitLines_linesOf, complete, List.map_append]
    size := fun _ present => Option.some.inj present ▸ size
    anchor := holds.anchor.append more }

theorem hashAt_last (contiguous : Contiguous 0 (entries ++ [entry])) :
    hashAt (entries ++ [entry]) entry.seq = some entry.hash := by
  have seq : entry.seq = entries.length := by
    have := (contiguous_append.mp contiguous).2.1
    omega
  simp [hashAt, seq]

theorem ledgerHolds_anchor (holds : LedgerHolds sha disk (entries ++ [entry])) (identity : ℕ) :
    LedgerHolds sha
      { disk with anchor := some ⟨identity, true, utf8Encode (anchorText entry)⟩ }
      (entries ++ [entry]) := by
  have formed : entry.WellFormed sha := holds.chained.wellFormed (by simp)
  refine { holds with anchor := ?_ }
  rw [readAnchor_anchorText formed, anchorHolds_ok]
  exact hashAt_last holds.contiguous

theorem openLedger_ready {state' : ChainState} {identity : ℕ} (ready : Ready sha disk state entries)
    (opened : openLedger disk state identity = some (file, state')) :
    file.ownedPrivate = true ∧ state'.identity = file.identity ∧ View state' entries ∧
      (∃ tail, file.bytes = linesOf entries ++ tail) ∧
      (disk.ledger = some file ∨ disk.ledger = none ∧ file.identity = identity) := by
  unfold openLedger at opened
  split at opened
  · rename_i absent
    split_ifs at opened
    obtain ⟨rfl, rfl⟩ := Prod.mk.inj (Option.some.inj opened)
    have none' := ready.holds.absent absent
    refine ⟨rfl, rfl, { ready.view with }, ⟨[], by rw [none']; rfl⟩, .inr ⟨absent, rfl⟩⟩
  · rename_i present
    split_ifs at opened with same
    obtain ⟨rfl, rfl⟩ := Prod.mk.inj (Option.some.inj opened)
    exact ⟨same.2, same.1.symm, ready.view, ⟨_, (ready.holds.lines _ present).bytes⟩, .inl present⟩

theorem consumeEntry_view (view : View state entries)
    (contiguous : Contiguous 0 (entries ++ [entry])) :
    View (consumeEntry state entry (lineBytes entry ++ [0x0A])) (entries ++ [entry]) ∧
      (consumeEntry state entry (lineBytes entry ++ [0x0A])).identity = state.identity := by
  have seen := view_consume view contiguous
  rw [noteAll_singleton, List.map_singleton] at seen
  rw [consumeEntry_eq]
  exact ⟨seen, by rw [withLines_identity, noteVerified_identity]⟩

theorem noted_of_view (disk : Disk) (view : View state (entries ++ [entry]))
    (contiguous : Contiguous 0 (entries ++ [entry])) (present : disk.ledger = some file)
    (identity : state.identity = file.identity) (result : Option LedgerEntry) :
    Noted
      ⟨disk, ⟨some state, some ⟨entry.seq, entry.hash, state.genesisHash⟩⟩, state, result⟩
      (entries ++ [entry]) :=
  ⟨view, ⟨file, present, identity⟩, _, rfl, hashAt_last contiguous, view.genesisHash⟩

theorem splitLines_lineBytes (entry : LedgerEntry) :
    splitLines (lineBytes entry ++ [0x0A]) = ([lineBytes entry], []) :=
  splitLines_line (noNewline_lineBytes entry) []

theorem splitLines_torn (entry : LedgerEntry) (count : ℕ) :
    ∃ more, (more = [] ∨ more = [entry]) ∧
      (splitLines ((lineBytes entry ++ [0x0A]).take count)).1 = more.map lineBytes := by
  by_cases complete : (lineBytes entry).length < count
  · refine ⟨[entry], .inr rfl, ?_⟩
    rw [List.take_of_length_le (by simp only [List.length_append, List.length_singleton]; omega),
      splitLines_lineBytes]
    rfl
  · refine ⟨[], .inl rfl, ?_⟩
    rw [List.take_append_of_le_length (by omega), splitLines_of_noNewline]
    · rfl
    · exact fun member => noNewline_lineBytes entry (List.mem_of_mem_take member)

theorem writeEntry_written (process : LedgerProcess) (step : WriteStep)
    (input : LedgerAppendInput) (ready : Ready sha disk state entries)
    (appendable : Appendable state.head step.now input) :
    ∃ more, Written sha disk process step.identity input entries more
      (writeEntry sha disk process state step input) := by
  unfold writeEntry
  cases formed : formEntry sha state.head step.now input with
  | none => exact ⟨[], written_nothing ready⟩
  | some pair =>
      obtain ⟨entry, text⟩ := pair
      obtain ⟨⟨wellFormed, follows, kind, -, -, data⟩, rfl⟩ := formEntry_spec appendable formed
      dsimp only
      split_ifs with refused
      · exact ⟨[], written_nothing ready⟩
      · rw [← lineBytes] at refused ⊢
        simp only [not_or, Nat.not_lt, gt_iff_lt] at refused
        obtain ⟨short, room, started⟩ := refused
        cases opened : openLedger disk state step.identity with
        | none => exact ⟨[], written_nothing ready⟩
        | some pair =>
            obtain ⟨file, state'⟩ := pair
            obtain ⟨owned, identity, view, ⟨tail, bytes⟩, origin⟩ :=
              openLedger_ready ready opened
            have chained : Chained sha none (entries ++ [entry]) :=
              chained_append.mpr ⟨ready.holds.chained, by
                rw [ready.view.head] at follows
                exact chained_singleton wellFormed follows short⟩
            have kept : file.bytes.take state'.verifiedBytes = linesOf entries := by
              rw [bytes, view.verifiedBytes, List.take_left]
            have fits : (linesOf entries ++ (lineBytes entry ++ [0x0A])).length ≤
                ledgerMaxBytes := by
              rw [List.length_append, ← ready.view.verifiedBytes]
              exact room
            have keeps : ∀ {bytes : Bytes} {old : File}, disk.ledger = some old →
                ∃ next, some { file with bytes := bytes } = some next ∧
                  next.identity = old.identity := by
              intro bytes old present
              rcases origin with same | ⟨absent, -⟩
              · obtain rfl := Option.some.inj (present.symm.trans same)
                exact ⟨_, rfl, rfl⟩
              · rw [present] at absent
                cases absent
            have creates : ∀ {bytes : Bytes} {next : File}, disk.ledger = none →
                some { file with bytes := bytes } = some next → next.identity = step.identity := by
              intro bytes next absent same
              obtain rfl := Option.some.inj same
              rcases origin with present | ⟨-, created⟩
              · rw [present] at absent
                cases absent
              · exact created
            have whole : LedgerHolds sha
                { disk with ledger := some { file with
                    bytes := linesOf entries ++ (lineBytes entry ++ [0x0A]) } }
                (entries ++ [entry]) :=
              ledgerHolds_write ready.holds chained owned rfl (by
                rw [splitLines_lineBytes]; rfl) fits
            obtain ⟨seen, same⟩ := consumeEntry_view view chained.contiguous
            have rows : ∀ found ∈ [entry], found.kind = input.kind ∧
                normalize (.obj input.data) = .obj found.data := by
              intro found member
              obtain rfl := List.mem_singleton.mp member
              exact ⟨kind, data⟩
            dsimp only
            rw [kept]
            generalize consumeEntry state' entry (lineBytes entry ++ [0x0A]) = noted at seen same ⊢
            have recorded (anchor result) := noted_of_view
              { disk with
                ledger := some { file with
                  bytes := linesOf entries ++ (lineBytes entry ++ [0x0A]) }
                anchor := anchor }
              seen chained.contiguous rfl (same.trans identity) result
            cases fate : step.fate with
            | torn count =>
                obtain ⟨more, part, lines⟩ := splitLines_torn entry count
                refine ⟨more, ?_, ?_, rfl, fun old => keeps, fun absent next => creates absent,
                  .inl rfl, by simp⟩
                · refine ledgerHolds_write ready.holds ?_ owned rfl (Prod.ext lines rfl) ?_
                  · rcases part with rfl | rfl
                    · rw [List.append_nil]
                      exact ready.holds.chained
                    · exact chained
                  · simp only [List.length_append, List.length_take] at fits ⊢
                    omega
                · rcases part with rfl | rfl
                  · simp
                  · exact rows
            | beforeWrite => exact absurd fate started
            | done =>
                refine ⟨[entry], ledgerHolds_anchor whole step.identity, rows, rfl,
                  fun old => keeps, fun absent next => creates absent, .inr (recorded _ _), ?_⟩
                intro found returned
                obtain rfl := Option.some.inj returned
                exact ⟨rfl, recorded _ _, _, rfl, by rw [linesOf_append, linesOf_singleton]⟩
            | beforeAnchor =>
                exact ⟨[entry], whole, rows, rfl, fun old => keeps,
                  fun absent next => creates absent, .inr (recorded _ _), by simp⟩
            | afterAnchor =>
                exact ⟨[entry], ledgerHolds_anchor whole step.identity, rows, rfl,
                  fun old => keeps, fun absent next => creates absent, .inr (recorded _ _), by simp⟩

/-! A write that nothing stops before the row is on disk. -/

theorem length_kind_text (kind : LedgerEventKind) : (JsEnum.text kind).length ≤ 24 := by
  cases kind <;> decide

theorem length_actor_text (actor : FleetActor) : (JsEnum.text actor).length ≤ 20 := by
  cases actor <;> decide

theorem length_lineBytes_le (formed : entry.WellFormed sha) (grantId : entry.grantId = none)
    (repo : entry.repo = none) (prevHash : entry.prevHash.length = 64)
    (data : (writeValue (.obj entry.data)).length ≤ 1000) :
    (lineBytes entry).length ≤ 10000 := by
  have encoded := length_utf8Encode_le (entryText entry)
  have object := length_writeValue_obj_le (sortByKey entry.members)
  rw [membersLength_perm (perm_sortByKey entry.members)] at object
  rw [← normalize_entry formed, ← entryText] at object
  have seq := length_writeValue_jsInt_le formed.seq_safe
  have one : (writeValue (jsInt 1)).length ≤ 16 :=
    length_writeValue_jsInt_le (n := 1) (by decide)
  have instant := length_writeValue_str_le entry.at'
  rw [length_of_isIsoInstant formed.instant] at instant
  have hash := length_writeValue_str_le entry.hash
  rw [length_of_sha256HexPattern formed.hex] at hash
  have previous := length_writeValue_str_le entry.prevHash
  rw [prevHash] at previous
  have kind := length_writeValue_str_le (JsEnum.text entry.kind)
  have kindText := length_kind_text entry.kind
  have actor := length_writeValue_str_le (JsEnum.text entry.actor)
  have actorText := length_actor_text entry.actor
  have null : (writeValue (nullable none)).length = 4 := by decide
  have keys : (js "v").length = 1 ∧ (js "seq").length = 3 ∧ (js "at").length = 2 ∧
      (js "actor").length = 5 ∧ (js "grantId").length = 7 ∧ (js "repo").length = 4 ∧
      (js "prevHash").length = 8 ∧ (js "kind").length = 4 ∧ (js "data").length = 4 ∧
      (js "hash").length = 4 := by decide
  have members : membersLength entry.members ≤ 3000 := by
    simp only [membersLength, LedgerEntry.members, LedgerEntry.baseMembers, grantId, repo,
      List.map_append, List.map_cons, List.map_nil, List.sum_append, List.sum_cons,
      List.sum_nil, keys, null]
    omega
  rw [lineBytes]
  omega

structure SmallInput (input : LedgerAppendInput) : Prop where
  finite : allFinite (.obj input.data) = true
  grantId : input.grantId = none
  repo : input.repo = none
  data : (writeValue (normalize (.obj input.data))).length ≤ 1000

theorem length_prevHash (chained : Chained sha none entries)
    (follows : entry.Follows (expectedAfter (lastHead none entries))) :
    entry.prevHash.length = 64 := by
  rw [follows.prevHash]
  cases entries using List.reverseRecOn with
  | nil => rfl
  | append_singleton front last =>
      rw [lastHead_append]
      exact length_of_sha256HexPattern (chained.wellFormed (by simp : last ∈ front ++ [last])).hex

def landed (disk : Disk) (file : File) (state : ChainState) (entries : List LedgerEntry)
    (entry : LedgerEntry) : WriteResult :=
  let noted := consumeEntry state entry (lineBytes entry ++ [0x0A])
  ⟨{ disk with
      ledger := some { file with bytes := linesOf entries ++ (lineBytes entry ++ [0x0A]) } },
    ⟨some noted, some ⟨entry.seq, entry.hash, noted.genesisHash⟩⟩, noted, none⟩

theorem writeEntry_lands (process : LedgerProcess) (step : WriteStep) (input : LedgerAppendInput)
    {state' : ChainState} (ready : Ready sha disk state entries)
    (appendable : Appendable state.head step.now input) (small : SmallInput input)
    (time : isTime step.now = true) (room : (linesOf entries).length + 10001 ≤ ledgerMaxBytes)
    (opened : openLedger disk state step.identity = some (file, state')) :
    ∃ entry, entry.seq = entries.length ∧ (lineBytes entry).length ≤ 10000 ∧
      (step.fate = .beforeAnchor → writeEntry sha disk process state step input =
        landed disk file state' entries entry) ∧
      (step.fate = .done → writeEntry sha disk process state step input =
        { landed disk file state' entries entry with
          disk := { (landed disk file state' entries entry).disk with
            anchor := some ⟨step.identity, true, utf8Encode (anchorText entry)⟩ }
          entry := some entry }) := by
  obtain ⟨entry, text, formed⟩ :=
    formEntry_some sha state.head time appendable.seq_safe small.finite
  obtain ⟨⟨wellFormed, follows, -, grantId, repo, data⟩, rfl⟩ := formEntry_spec appendable formed
  obtain ⟨-, -, view, ⟨tail, bytes⟩, -⟩ := openLedger_ready ready opened
  have seq : entry.seq = entries.length := by
    rw [follows.seq, expectedAfter_seq,
      nextSeq_of_describes ready.view.toDescribes ready.holds.contiguous]
  have short := length_lineBytes_le wellFormed (grantId.trans small.grantId)
    (repo.trans small.repo)
    (length_prevHash ready.holds.chained (by rw [← ready.view.head]; exact follows))
    (by rw [← data]; exact small.data)
  have kept : file.bytes.take state'.verifiedBytes = linesOf entries := by
    rw [bytes, view.verifiedBytes, List.take_left]
  have fits : ¬ ((utf8Encode (entryText entry)).length > ledgerMaxLineBytes ∨
      state.verifiedBytes + (utf8Encode (entryText entry) ++ [0x0A]).length > ledgerMaxBytes ∨
        step.fate = .beforeWrite) ↔ step.fate ≠ .beforeWrite := by
    have limit : 10000 ≤ ledgerMaxLineBytes := by decide
    have size : (utf8Encode (entryText entry)).length ≤ 10000 := short
    have whole : (utf8Encode (entryText entry) ++ [0x0A]).length ≤ 10001 := by
      rw [List.length_append, List.length_singleton]
      omega
    rw [ready.view.verifiedBytes]
    constructor
    · exact fun none' same => none' (.inr (.inr same))
    · rintro started (large | large | same)
      · omega
      · omega
      · exact started same
  refine ⟨entry, seq, short, fun fate => ?_, fun fate => ?_⟩
  · rw [writeEntry, formed]
    dsimp only
    rw [if_neg (fits.mpr (by simp [fate])), opened]
    dsimp only
    rw [kept, fate]
    rfl
  · rw [writeEntry, formed]
    dsimp only
    rw [if_neg (fits.mpr (by simp [fate])), opened]
    dsimp only
    rw [kept, fate]
    rfl

end AshlrHub.Authority

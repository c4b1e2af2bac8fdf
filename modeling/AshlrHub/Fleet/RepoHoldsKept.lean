import AshlrHub.Fleet.RepoHolds

namespace AshlrHub.RepoHolds

open Js Authority Lib

/-! The store's list as a map by repository and kind, and its round trip through the file. -/

def RepoHold.key (hold : RepoHold) : JsString × RepoHoldKind :=
  (toLowerCase hold.repo, hold.kind)

variable {hold : RepoHold} {holds : List RepoHold}

theorem isFor_iff {repo : JsString} {kind : RepoHoldKind} :
    hold.isFor repo kind = true ↔ hold.key = (toLowerCase repo, kind) := by
  rw [RepoHold.isFor, sameRepo, RepoHold.key, Prod.mk.injEq, Bool.and_eq_true,
    decide_eq_true_eq, decide_eq_true_eq]

theorem isFor_self (hold : RepoHold) : hold.isFor hold.repo hold.kind = true :=
  isFor_iff.mpr rfl

theorem eq_of_key_eq (distinct : (holds.map RepoHold.key).Nodup)
    {first second : RepoHold} (one : first ∈ holds) (other : second ∈ holds)
    (same : first.key = second.key) : first = second :=
  List.inj_on_of_nodup_map distinct one other same

theorem mem_erase {repo : JsString} {kind : RepoHoldKind}
    (distinct : (holds.map RepoHold.key).Nodup) :
    hold ∈ holds.eraseP (·.isFor repo kind) ↔ hold ∈ holds ∧ hold.isFor repo kind = false := by
  induction holds with
  | nil => simp
  | cons first rest ih =>
      obtain ⟨fresh, distinct⟩ := List.nodup_cons.mp distinct
      by_cases named : first.isFor repo kind = true
      · rw [List.eraseP_cons, named, cond_true, List.mem_cons]
        constructor
        · intro later
          refine ⟨.inr later, Bool.eq_false_iff.mpr fun same => fresh ?_⟩
          rw [isFor_iff.mp named, ← isFor_iff.mp same]
          exact List.mem_map_of_mem later
        · rintro ⟨rfl | later, other⟩
          · rw [named] at other
            cases other
          · exact later
      · rw [List.eraseP_cons, Bool.eq_false_iff.mpr named, cond_false, List.mem_cons, ih distinct,
          List.mem_cons]
        constructor
        · rintro (rfl | ⟨later, other⟩)
          · exact ⟨.inl rfl, Bool.eq_false_iff.mpr named⟩
          · exact ⟨.inr later, other⟩
        · rintro ⟨rfl | later, other⟩
          · exact .inl rfl
          · exact .inr ⟨later, other⟩

structure Placed (live holds : List RepoHold) (after : RepoHold) : Prop where
  distinct : (holds.map RepoHold.key).Nodup
  length : holds.length ≤ maxHolds
  mem : ∀ hold, hold ∈ holds ↔ hold = after ∨ (hold ∈ live ∧ hold.key ≠ after.key)

theorem placed_snoc {live : List RepoHold} {after : RepoHold}
    (distinct : (live.map RepoHold.key).Nodup) (room : live.length < maxHolds)
    (fresh : after.key ∉ live.map RepoHold.key) : Placed live (live ++ [after]) after where
  distinct := by
    rw [List.map_append]
    exact List.nodup_append.mpr ⟨distinct, List.nodup_singleton _, by
      rintro key present _ alone rfl
      rw [List.map_singleton, List.mem_singleton] at alone
      exact fresh (alone ▸ present)⟩
  length := by simpa using room
  mem hold := by
    rw [List.mem_append, List.mem_singleton, or_comm]
    refine or_congr_right ⟨fun present => ⟨present, fun same => fresh ?_⟩, And.left⟩
    rw [← same]
    exact List.mem_map_of_mem present

theorem placed_set {front back : List RepoHold} {before after : RepoHold}
    (distinct : ((front ++ before :: back).map RepoHold.key).Nodup)
    (room : (front ++ before :: back).length ≤ maxHolds) (same : after.key = before.key) :
    Placed (front ++ before :: back) (front ++ after :: back) after where
  distinct := by
    simpa only [List.map_append, List.map_cons, same] using distinct
  length := by simpa using room
  mem hold := by
    have apart : ∀ other ∈ front ++ back, other.key ≠ before.key := by
      rw [List.map_append, List.map_cons, List.nodup_middle, List.nodup_cons,
        ← List.map_append] at distinct
      intro other present equal
      exact distinct.1 (equal ▸ List.mem_map_of_mem present)
    simp only [List.mem_append, List.mem_cons] at apart ⊢
    constructor
    · rintro (present | rfl | present)
      · exact .inr ⟨.inl present, same ▸ apart hold (.inl present)⟩
      · exact .inl rfl
      · exact .inr ⟨.inr (.inr present), same ▸ apart hold (.inr present)⟩
    · rintro (rfl | ⟨present | rfl | present, other⟩)
      · exact .inr (.inl rfl)
      · exact .inl present
      · exact absurd same.symm other
      · exact .inr (.inr present)

theorem placeHold_placed {req : SetRepoHoldRequest} {after : RepoHold}
    {live holds : List RepoHold} (distinct : (live.map RepoHold.key).Nodup)
    (room : live.length ≤ maxHolds) (named : after.isFor req.repo req.kind = true)
    (placed : placeHold req after live = some holds) : Placed live holds after := by
  unfold placeHold at placed
  cases found : live.findIdx? (·.isFor req.repo req.kind) with
  | none =>
      rw [found] at placed
      obtain ⟨notFull, rfl⟩ : ¬ maxHolds ≤ live.length ∧ live ++ [after] = holds := by
        simpa using placed
      refine placed_snoc distinct (Nat.lt_of_not_le notFull) fun taken => ?_
      obtain ⟨hold, present, same⟩ := List.mem_map.mp taken
      have missed := List.findIdx?_eq_none_iff.mp found hold present
      rw [isFor_iff.mpr (same.trans (isFor_iff.mp named))] at missed
      cases missed
  | some index =>
      rw [found] at placed
      obtain rfl := Option.some.inj placed
      obtain ⟨inside, matched, -⟩ := List.findIdx?_eq_some_iff_getElem.mp found
      have split : live = live.take index ++ live[index] :: live.drop (index + 1) := by
        rw [List.getElem_cons_drop, List.take_append_drop]
      have changed : live.set index after =
          live.take index ++ after :: live.drop (index + 1) :=
        List.set_eq_take_cons_drop after inside
      rw [changed]
      conv => arg 1; rw [split]
      rw [split] at distinct room
      exact placed_set distinct room ((isFor_iff.mp named).trans (isFor_iff.mp matched).symm)

/-! What the codec accepts. -/

section

variable {parseDate : JsString → Option ℤ}

structure RepoHold.Valid (parseDate : JsString → Option ℤ) (hold : RepoHold) : Prop where
  repo : nameWithOwnerPattern hold.repo = true
  reason : hold.reason.length ≤ maxReasonChars * 2
  since : isIso parseDate hold.since = true
  until' : ∀ text ∈ hold.until', isIso parseDate text = true
  landingId : ∀ text ∈ hold.landingId, text.length ≤ maxLandingIdChars

theorem nullableWhere_text {admits : JsString → Bool} {text : Option JsString}
    (admitted : ∀ inner ∈ text, admits inner = true) :
    nullableWhere admits (nullableText text) = some text := by
  cases text with
  | none => rfl
  | some inner => exact if_pos (admitted inner rfl)

theorem holdOfValue_toValue (valid : hold.Valid parseDate) :
    holdOfValue parseDate hold.toValue = some hold := by
  have version : (jsInt 1).asSafeInteger = some 1 := asSafeInteger_jsInt (by decide)
  change (do
    guard ((jsInt 1).asSafeInteger = some 1)
    let repo ← (some hold.repo).filter nameWithOwnerPattern
    let kind ← JsEnum.ofValue (.str (JsEnum.text hold.kind))
    let reason ← (some hold.reason).filter fun text => text.length ≤ maxReasonChars * 2
    let since ← (some hold.since).filter (isIso parseDate)
    let until' ← nullableWhere (isIso parseDate) (nullableText hold.until')
    let setBy ← JsEnum.ofValue (.str (JsEnum.text hold.setBy))
    let landingId ← nullableWhere (fun text => text.length ≤ maxLandingIdChars)
      (nullableText hold.landingId)
    return (⟨repo, kind, reason, since, until', setBy, landingId⟩ : RepoHold)) = some hold
  have landing : nullableWhere (fun text => text.length ≤ maxLandingIdChars)
      (nullableText hold.landingId) = some hold.landingId :=
    nullableWhere_text fun text present => decide_eq_true (valid.landingId text present)
  rw [version, nullableWhere_text valid.until', landing, JsEnum.ofValue_str, JsEnum.ofValue_str,
    Option.filter_some, if_pos valid.repo, Option.filter_some,
    if_pos (decide_eq_true valid.reason), Option.filter_some, if_pos valid.since]
  rfl

theorem mapM_holdOfValue (valid : ∀ hold ∈ holds, hold.Valid parseDate) :
    (holds.map RepoHold.toValue).mapM (holdOfValue parseDate) = some holds := by
  induction holds with
  | nil => rfl
  | cons hold holds ih =>
      rw [List.map_cons, List.mapM_cons, holdOfValue_toValue (valid hold (by simp)),
        ih fun other present => valid other (List.mem_cons_of_mem _ present)]
      rfl

theorem repeatedHold_none {seen holds : List RepoHold}
    (distinct : ((seen ++ holds).map RepoHold.key).Nodup) : repeatedHold seen holds = none := by
  induction holds generalizing seen with
  | nil => rfl
  | cons hold holds ih =>
      have moved := (@List.perm_middle _ hold seen holds).map RepoHold.key
      have fresh : (seen.any fun other => other.isFor hold.repo hold.kind) = false := by
        rw [moved.nodup_iff, List.map_cons, List.nodup_cons] at distinct
        refine List.any_eq_false.mpr fun other present named => distinct.1 ?_
        rw [show hold.key = other.key from (isFor_iff.mp named).symm]
        exact List.mem_map_of_mem (List.mem_append_left _ present)
      rw [repeatedHold, fresh, if_neg Bool.false_ne_true]
      exact ih (moved.nodup_iff.mp distinct)

structure Accepted (parseDate : JsString → Option ℤ) (holds : List RepoHold) : Prop where
  valid : ∀ hold ∈ holds, hold.Valid parseDate
  length : holds.length ≤ maxHolds
  distinct : (holds.map RepoHold.key).Nodup
  bytes : storeBytes (storeValue holds) ≤ maxStoreBytes

theorem parseStore_storeValue (accepted : Accepted parseDate holds) :
    parseStore parseDate (storeValue holds) = .ok holds := by
  have version : (getMember [(js "v", jsInt 1), (js "holds", .arr (holds.map RepoHold.toValue))]
      (js "v")).asSafeInteger = some 1 := asSafeInteger_jsInt (by decide)
  have items : (getMember [(js "v", jsInt 1), (js "holds", .arr (holds.map RepoHold.toValue))]
      (js "holds")).asArray = some (holds.map RepoHold.toValue) := rfl
  rw [parseStore, storeValue, JsValue.asRecord]
  simp only [version, items, ne_eq, not_true_eq_false, if_false, List.length_map,
    if_neg (Nat.not_lt.mpr accepted.length), mapM_holdOfValue accepted.valid,
    @repeatedHold_none [] holds accepted.distinct]

def frameBytes : ℕ :=
  (utf8Encode (js "\x7b")).length +
    (utf8Encode (lineBreak 1 ++ (quote (js "v") ++ (js ": " ++ writeIndented 1 (jsInt 1))))).length
      +
    (utf8Encode (lineBreak 1)).length + (utf8Encode (quote (js "holds"))).length +
    (utf8Encode (js ": ")).length + 2 + (utf8Encode (lineBreak 0)).length +
    (utf8Encode (js "\x7d")).length

theorem storeBytes_eq (holds : List RepoHold) :
    storeBytes (storeValue holds) = frameBytes +
      (utf8Encode (writeIndented 1 (.arr (holds.map RepoHold.toValue)))).length := by
  have quoted := fun text => (printable_quote text).formed
  have written := fun value => wellFormed_writeIndented value 1
  have colon : wellFormed (js ": ") = true := by decide
  have member := fun text value =>
    wellFormed_append (quoted text) (wellFormed_append colon (written value))
  have spelled : writeIndented 0 (storeValue holds) =
      bracketed (js "\x7b") (js "\x7d") 0
        [quote (js "v") ++ (js ": " ++ writeIndented 1 (jsInt 1)),
          quote (js "holds") ++ (js ": " ++ writeIndented 1
            (.arr (holds.map RepoHold.toValue)))] := rfl
  have framed := @length_bracketed_bytes (js "\x7b") (js "\x7d") 0
    [quote (js "v") ++ (js ": " ++ writeIndented 1 (jsInt 1)),
      quote (js "holds") ++ (js ": " ++ writeIndented 1 (.arr (holds.map RepoHold.toValue)))]
    (by decide) (by decide) (by simp [member]) (by simp)
  rw [← spelled, List.map_cons, List.map_cons, List.map_nil, List.sum_cons, List.sum_cons,
    List.sum_nil, utf8Encode_append (wellFormed_lineBreak 1)
      (member (js "holds") (.arr (holds.map RepoHold.toValue))),
    utf8Encode_append (quoted _) (wellFormed_append colon (written _)),
    utf8Encode_append colon (written _), List.length_append, List.length_append,
    List.length_append, Nat.zero_add] at framed
  have newline : (utf8Encode (js "\n")).length = 1 := by decide
  rw [storeBytes, utf8Encode_append (wellFormed_writeIndented _ 0) (by decide),
    List.length_append, newline, frameBytes]
  omega

theorem storeBytes_sublist {fewer holds : List RepoHold} (part : fewer.Sublist holds) :
    storeBytes (storeValue fewer) ≤ storeBytes (storeValue holds) := by
  have shorter : (utf8Encode (writeIndented 1 (.arr (fewer.map RepoHold.toValue)))).length ≤
      (utf8Encode (writeIndented 1 (.arr (holds.map RepoHold.toValue)))).length := by
    rw [writeIndented, writeIndented, indentedItems_eq_map, indentedItems_eq_map]
    apply length_bracketed_sublist (by decide) (by decide)
    · rw [← indentedItems_eq_map]
      exact wellFormed_indentedItems _ _
    · exact (part.map _).map _
  rw [storeBytes_eq fewer, storeBytes_eq holds]
  omega

theorem Accepted.sublist {fewer holds : List RepoHold} (accepted : Accepted parseDate holds)
    (part : fewer.Sublist holds) : Accepted parseDate fewer where
  valid hold present := accepted.valid hold (part.subset present)
  length := part.length_le.trans accepted.length
  distinct := (part.map RepoHold.key).nodup accepted.distinct
  bytes := (storeBytes_sublist part).trans accepted.bytes

end

/-! What one call does to the holds. -/

section

variable (parseDate : JsString → Option ℤ) (scrub : JsString → JsString)

def storedHolds (file : Option JsValue) : List RepoHold :=
  match readStoreUnlocked parseDate .fine file with
  | .ok holds => holds
  | .error _ => []

inductive Reads : Option JsValue → List RepoHold → Prop where
  | missing : Reads none []
  | found {holds : List RepoHold} (accepted : Accepted parseDate holds) :
      Reads (some (storeValue holds)) holds

def Mirrors (rows : List HoldRow) (holds : List RepoHold) : Prop :=
  ∀ repo kind hold, replay repo kind rows = some hold ↔ hold ∈ holds ∧ hold.isFor repo kind = true

/-- No part of the surroundings fails. -/
structure Turn.Calm (turn : Turn) : Prop where
  look : turn.weather.look = .fine
  append : ∀ row, turn.weather.append row = .recorded
  write : turn.weather.write = .done
  runs : turn.crashed = none

def HoldCall.actor : HoldCall → FleetActor
  | .setRepoHold req => req.actor
  | .sweepExpiredRepoHolds => .daemon

def Turn.Rewrites (turn : Turn) (records : Records) (req : SetRepoHoldRequest) : Prop :=
  turn.call = .setRepoHold req ∧
    ∃ file, Effect.install file ∈ (turn.outcome parseDate scrub records).1

/-- A call that rewrites the store has found the store that there is, writes without a failure
after the rename, and finds no hold expired but the one it is about. -/
def Turn.Spares (turn : Turn) (records : Records) : Prop :=
  ∀ req, turn.Rewrites parseDate scrub records req →
    (turn.weather.look = .overlooked → storedHolds parseDate records.file = []) ∧
      turn.weather.write ≠ .failed true ∧
      ∀ hold ∈ storedHolds parseDate records.file,
        isHoldActive parseDate hold turn.nowMs = true ∨ hold.isFor req.repo req.kind = true

structure Turn.Faithful (turn : Turn) (records next : Records) : Prop where
  /-- Who may not clear a kind removes no active hold of it and brings no expiry forward. -/
  guarded : ∀ hold ∈ storedHolds parseDate records.file,
    isHoldActive parseDate hold turn.nowMs = true →
    turn.call.actor ∉ (holdPermissions hold.kind).mayClear →
    ∃ kept ∈ storedHolds parseDate next.file, kept.isFor hold.repo hold.kind = true ∧
      ∀ time, isHoldActive parseDate hold time = true → isHoldActive parseDate kept time = true
  /-- An active owner-hold ends in a call only where Mason clears it. -/
  owners : ∀ hold ∈ storedHolds parseDate records.file,
    isHoldActive parseDate hold turn.nowMs = true → hold.kind = .ownerHold →
    (∃ kept ∈ storedHolds parseDate next.file, kept.isFor hold.repo hold.kind = true ∧
      isHoldActive parseDate kept turn.nowMs = true) ∨
    ∃ req, turn.call = .setRepoHold req ∧ req.hold = none ∧ req.actor = .mason ∧
      hold.isFor req.repo req.kind = true
  /-- A store that lacks a hold is installed only after the row that clears the hold. -/
  rowFirst : ∀ front file back,
    turn.effects parseDate scrub records = front ++ .install file :: back →
    ∀ hold ∈ storedHolds parseDate records.file,
      (∀ other ∈ storedHolds parseDate (some file), other.isFor hold.repo hold.kind = false) →
      ∃ reason actor, Effect.append (.cleared hold.repo hold.kind reason actor) ∈ front
  /-- A call that reports a failure leaves every active hold as it was. -/
  failing : turn.crashed = none → (turn.outcome parseDate scrub records).2 = false →
    listRepoHolds parseDate next.file turn.nowMs = listRepoHolds parseDate records.file turn.nowMs

end

section

variable {parseDate : JsString → Option ℤ} {scrub : JsString → JsString}

variable {file : Option JsValue}

variable {rows : List HoldRow} {actor : FleetActor} {holds : List RepoHold}

theorem Reads.fine (reads : Reads parseDate file holds) :
    readStoreUnlocked parseDate .fine file = .ok holds := by
  cases reads with
  | missing => rfl
  | found accepted =>
      rw [readStoreUnlocked, if_neg (Nat.not_lt.mpr accepted.bytes), parseStore_storeValue accepted]

theorem Reads.stored (reads : Reads parseDate file holds) : storedHolds parseDate file = holds := by
  rw [storedHolds, reads.fine]

theorem Reads.accepted {file : Option JsValue} {holds : List RepoHold}
    (reads : Reads parseDate file holds) : holds = [] ∨ Accepted parseDate holds := by
  cases reads with
  | missing => exact .inl rfl
  | found accepted => exact .inr accepted

theorem Reads.distinct (reads : Reads parseDate file holds) : (holds.map RepoHold.key).Nodup := by
  rcases reads.accepted with rfl | accepted
  · exact List.nodup_nil
  · exact accepted.distinct

theorem Reads.look {holds read : List RepoHold} {look : Look}
    (reads : Reads parseDate file holds)
    (found : readStoreUnlocked parseDate look file = .ok read) :
    read = holds ∨ (look = .overlooked ∧ read = []) := by
  cases reads with
  | missing => cases look <;> exact .inl (Except.ok.inj found).symm
  | found accepted =>
      cases look with
      | fine =>
          rw [(Reads.found accepted).fine] at found
          exact .inl (Except.ok.inj found).symm
      | overlooked => exact .inr ⟨rfl, (Except.ok.inj found).symm⟩
      | unreadable => cases found

/-! The rows of the ledger. -/

theorem replay_set {repo : JsString} {kind : RepoHoldKind} :
    replay repo kind (rows ++ [.set hold actor]) =
      if hold.isFor repo kind then some hold else replay repo kind rows := by
  rw [replay, List.foldl_append]
  rfl

theorem replay_cleared {repo cleared : JsString} {kind clearedKind : RepoHoldKind}
    {reason : JsString} :
    replay repo kind (rows ++ [.cleared cleared clearedKind reason actor]) =
      if sameRepo cleared repo && clearedKind = kind then none else replay repo kind rows := by
  rw [replay, List.foldl_append]
  rfl

section

variable {holds kept : List RepoHold} (mirrors : Mirrors rows holds)
include mirrors

theorem Mirrors.set {after : RepoHold}
    (placed : ∀ hold, hold ∈ kept ↔ hold = after ∨ (hold ∈ holds ∧ hold.key ≠ after.key)) :
    Mirrors (rows ++ [.set after actor]) kept := by
  intro repo kind hold
  rw [replay_set, placed]
  by_cases named : after.isFor repo kind = true
  · rw [if_pos named, Option.some_inj]
    constructor
    · rintro rfl
      exact ⟨.inl rfl, named⟩
    · rintro ⟨rfl | ⟨-, other⟩, same⟩
      · rfl
      · exact absurd ((isFor_iff.mp same).trans (isFor_iff.mp named).symm) other
  · rw [if_neg named, mirrors repo kind hold]
    constructor
    · rintro ⟨present, same⟩
      refine ⟨.inr ⟨present, fun equal => named ?_⟩, same⟩
      exact isFor_iff.mpr (equal.symm.trans (isFor_iff.mp same))
    · rintro ⟨rfl | ⟨present, -⟩, same⟩
      · exact absurd same named
      · exact ⟨present, same⟩

theorem Mirrors.clear {gone : RepoHold}
    {reason : JsString}
    (fewer : ∀ hold, hold ∈ kept ↔ hold ∈ holds ∧ hold.key ≠ gone.key) :
    Mirrors (rows ++ [.cleared gone.repo gone.kind reason actor]) kept := by
  intro repo kind hold
  rw [replay_cleared, fewer]
  change (if gone.isFor repo kind = true then none else replay repo kind rows) = some hold ↔ _
  by_cases named : gone.isFor repo kind = true
  · rw [if_pos named]
    constructor
    · intro absent
      cases absent
    · rintro ⟨⟨-, other⟩, same⟩
      exact absurd ((isFor_iff.mp same).trans (isFor_iff.mp named).symm) other
  · rw [if_neg named, mirrors repo kind hold]
    constructor
    · rintro ⟨present, same⟩
      refine ⟨⟨present, fun equal => named ?_⟩, same⟩
      exact isFor_iff.mpr (equal.symm.trans (isFor_iff.mp same))
    · rintro ⟨⟨present, -⟩, same⟩
      exact ⟨present, same⟩

end

/-! The pieces of a call. -/

theorem writeStoreUnlocked_cases (write : Written) (holds : List RepoHold) :
    ((writeStoreUnlocked write holds).1 = [] ∧ (writeStoreUnlocked write holds).2 = false ∧
      (write = .done → maxStoreBytes < storeBytes (storeValue holds))) ∨
    ((writeStoreUnlocked write holds).1 = [.install (storeValue holds)] ∧
      storeBytes (storeValue holds) ≤ maxStoreBytes ∧
      ((writeStoreUnlocked write holds).2 = false → write = .failed true)) := by
  unfold writeStoreUnlocked
  split
  · rename_i large
    exact .inl ⟨rfl, rfl, fun _ => large⟩
  · rename_i small
    rcases write with _ | ⟨_ | _⟩
    · exact .inr ⟨rfl, Nat.not_lt.mp small, nofun⟩
    · exact .inl ⟨rfl, rfl, nofun⟩
    · exact .inr ⟨rfl, Nat.not_lt.mp small, fun _ => rfl⟩

theorem ledgerHold_cases (weather : Weather) (row : HoldRow) :
    ((ledgerHold weather row).1 = [.append row] ∧
      ((ledgerHold weather row).2 = false → weather.append row ≠ .recorded)) ∨
    ((ledgerHold weather row).1 = [] ∧ (ledgerHold weather row).2 = false ∧
      weather.append row ≠ .recorded) := by
  unfold ledgerHold
  rcases weather.append row with _ | ⟨_ | _⟩
  · exact .inl ⟨rfl, nofun⟩
  · exact .inr ⟨rfl, rfl, nofun⟩
  · exact .inl ⟨rfl, fun _ => nofun⟩

theorem clearHold_cases (weather : Weather) (req : SetRepoHoldRequest) (live : List RepoHold) :
    (clearHold weather req live).1 = [] ∨
    ∃ before ∈ live, before.isFor req.repo req.kind = true ∧
      req.actor ∈ (holdPermissions req.kind).mayClear ∧
      (((clearHold weather req live).1 = [.append (clearedRow before.repo req.kind req.actor)] ∧
        (weather.append (clearedRow before.repo req.kind req.actor) = .recorded →
          weather.write = .done → maxStoreBytes <
            storeBytes (storeValue (live.eraseP (·.isFor req.repo req.kind))))) ∨
      ((clearHold weather req live).1 =
          [.append (clearedRow before.repo req.kind req.actor),
            .install (storeValue (live.eraseP (·.isFor req.repo req.kind)))] ∧
        storeBytes (storeValue (live.eraseP (·.isFor req.repo req.kind))) ≤ maxStoreBytes ∧
        ((clearHold weather req live).2.ok = false → weather.write = .failed true))) := by
  unfold clearHold
  cases found : live.find? (·.isFor req.repo req.kind) with
  | none => exact .inl rfl
  | some before =>
      have present := List.mem_of_find?_eq_some found
      have named := List.find?_some found
      by_cases may : (holdPermissions req.kind).mayClear.contains req.actor = false
      · simp only [may, if_true]
        exact .inl trivial
      · have allowed : req.actor ∈ (holdPermissions req.kind).mayClear :=
          List.contains_iff_mem.mp (Bool.not_eq_false _ ▸ may)
        simp only [if_neg may]
        rcases ledgerHold_cases weather (clearedRow before.repo req.kind req.actor) with
          ⟨appended, refused⟩ | ⟨appended, refused, unrecorded⟩
        · by_cases accepted :
            (ledgerHold weather (clearedRow before.repo req.kind req.actor)).2 = false
          · simp only [accepted, if_true, appended]
            exact .inr ⟨before, present, named, allowed,
              .inl ⟨rfl, fun recorded => absurd recorded (refused accepted)⟩⟩
          · simp only [if_neg accepted, appended]
            refine .inr ⟨before, present, named, allowed, ?_⟩
            rcases writeStoreUnlocked_cases weather.write
                (live.eraseP (·.isFor req.repo req.kind)) with
              ⟨nothing, threw, size⟩ | ⟨installed, size, threw⟩
            · rw [nothing]
              exact .inl ⟨rfl, fun _ => size⟩
            · rw [installed]
              refine .inr ⟨rfl, size, fun failed => threw ?_⟩
              by_contra returned
              rw [Bool.not_eq_false] at returned
              rw [returned] at failed
              cases failed
        · simp only [refused, if_true, appended]
          exact .inl trivial

theorem setHold_cases (weather : Weather) (nowMs : ℤ) (req : SetRepoHoldRequest)
    (spec : RepoHoldSpec) (live : List RepoHold) :
    (setHold parseDate weather nowMs req spec live).1 = [] ∨
    ∃ after holds, changedHold parseDate nowMs req spec
        (live.find? (·.isFor req.repo req.kind)) = some after ∧
      placeHold req after live = some holds ∧
      storeBytes (storeValue holds) ≤ maxStoreBytes ∧
      ((setHold parseDate weather nowMs req spec live).2.any (·.ok) = false →
        weather.write = .failed true) ∧
      ((setHold parseDate weather nowMs req spec live).1 =
          [.install (storeValue holds), .append (.set after req.actor)] ∨
        ((setHold parseDate weather nowMs req spec live).1 = [.install (storeValue holds)] ∧
          (weather.append (.set after req.actor) = .recorded → weather.write ≠ .done))) := by
  unfold setHold
  dsimp only
  cases changed : changedHold parseDate nowMs req spec (live.find? (·.isFor req.repo req.kind)) with
  | none => exact .inl rfl
  | some after =>
      dsimp only
      cases placed : placeHold req after live with
      | none => exact .inl rfl
      | some holds =>
          dsimp only
          rcases writeStoreUnlocked_cases weather.write holds with
            ⟨nothing, threw, size⟩ | ⟨installed, size, threw⟩
          · simp only [threw, if_true, nothing]
            exact .inl trivial
          · refine .inr ⟨after, holds, rfl, placed, size, ?_⟩
            by_cases failed : (writeStoreUnlocked weather.write holds).2 = false
            · simp only [failed, if_true, installed]
              refine ⟨fun _ => threw failed, .inr ⟨trivial, fun _ done => ?_⟩⟩
              rw [threw failed] at done
              cases done
            · simp only [if_neg failed, installed]
              refine ⟨fun refused => Bool.noConfusion (show true = false from refused), ?_⟩
              rcases ledgerHold_cases weather (.set after req.actor) with
                ⟨appended, -⟩ | ⟨appended, -, unrecorded⟩
              · rw [appended]
                exact .inl rfl
              · rw [appended]
                exact .inr ⟨rfl, fun recorded => absurd recorded unrecorded⟩

end

end AshlrHub.RepoHolds

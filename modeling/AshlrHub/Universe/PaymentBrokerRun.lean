import AshlrHub.Lib.Fallible
import AshlrHub.Lib.Run
import AshlrHub.Universe.PaymentBroker

namespace AshlrHub.Universe

open Js Lib Authority

/-! Runs of the payment broker. -/

variable {policy : PaymentBrokerPolicy} {pinnedPolicy : JsString} {state : PaymentBrokerState}

/-! Sums over entries. -/

def amountWhere (picked : PaymentBrokerEntry → Bool) (entries : List PaymentBrokerEntry) : ℕ :=
  (entries.map fun entry => if picked entry then entry.request.amountMinor else 0).sum

def reservedOn (day : ℕ) (entry : PaymentBrokerEntry) : Bool :=
  entry.reservedAtMs.any fun reservedAt => reservedAt / dayMs = day

section

variable (picked : PaymentBrokerEntry → Bool)
include picked

@[simp] theorem amountWhere_nil : amountWhere picked [] = 0 :=
  rfl

@[simp] theorem amountWhere_cons (entry : PaymentBrokerEntry)
    (entries : List PaymentBrokerEntry) :
    amountWhere picked (entry :: entries) =
      (if picked entry then entry.request.amountMinor else 0) + amountWhere picked entries :=
  rfl

@[simp] theorem amountWhere_append (front back : List PaymentBrokerEntry) :
    amountWhere picked (front ++ back) = amountWhere picked front + amountWhere picked back := by
  unfold amountWhere
  rw [List.map_append, List.sum_append]

end

theorem amountWhere_mono {fewer more : PaymentBrokerEntry → Bool}
    {entries : List PaymentBrokerEntry}
    (weaker : ∀ entry ∈ entries, fewer entry = true → more entry = true) :
    amountWhere fewer entries ≤ amountWhere more entries := by
  refine List.sum_le_sum fun entry member => ?_
  by_cases met : fewer entry = true
  · rw [if_pos met, if_pos (weaker entry member met)]
  · rw [if_neg met]
    exact Nat.zero_le _

theorem checkedAdd_of_le {left right : ℕ} (small : left + right ≤ maxSafe) :
    checkedAdd left right = some (left + right) :=
  if_neg (by omega)

theorem charged_of_le {entries : List PaymentBrokerEntry} {day : ℕ}
    (small : amountWhere (·.counts day) entries ≤ maxSafe) :
    charged entries day = some (amountWhere (·.counts day) entries) := by
  have sums : ∀ (entries : List PaymentBrokerEntry) (sum : ℕ),
      sum + amountWhere (·.counts day) entries ≤ maxSafe →
      entries.foldlM (fun sum entry =>
        if entry.counts day then checkedAdd sum entry.request.amountMinor else some sum) sum =
          some (sum + amountWhere (·.counts day) entries) := by
    intro entries
    induction entries with
    | nil => exact fun sum _ => rfl
    | cons entry entries ih =>
        intro sum within
        rw [amountWhere_cons] at within
        rw [List.foldlM_cons, amountWhere_cons]
        by_cases counted : entry.counts day = true
        · rw [if_pos counted] at within
          rw [if_pos counted, if_pos counted, checkedAdd_of_le (by omega), Option.bind_eq_bind,
            Option.bind_some, ih _ (by omega), Nat.add_assoc]
        · rw [if_neg counted] at within
          rw [if_neg counted, if_neg counted, Option.bind_eq_bind, Option.bind_some,
            ih _ (by omega), Nat.zero_add]
  have total := sums entries 0 (by rwa [Nat.zero_add])
  rwa [Nat.zero_add] at total

/-! Well-formed ledgers. -/

/-- What holds of a ledger that the reducer hands out. -/
structure PaymentBrokerState.Valid (policy : PaymentBrokerPolicy) (pinnedPolicy : JsString)
    (state : PaymentBrokerState) : Prop where
  digest : state.policyDigest = pinnedPolicy
  clock : state.highWaterMs ≤ maxClock
  day : state.dayIndex = state.highWaterMs / dayMs
  length : state.entries.length ≤ paymentBrokerMaxEntries
  once : (state.entries.map (·.request.requestId)).Nodup
  alone : ∀ entry ∈ state.entries, entryAlone policy pinnedPolicy state.highWaterMs entry = true
  daily : ∀ day, amountWhere (reservedOn day) state.entries ≤ policy.maxPerDayMinor
  charges : amountWhere (·.counts state.dayIndex) state.entries ≤ policy.maxPerDayMinor

variable {highWaterMs : ℕ}

theorem foldlM_entryInput : {entries : List PaymentBrokerEntry} →
    (seen : Seen) → (∀ entry ∈ entries, entryAlone policy pinnedPolicy highWaterMs entry = true) →
    (entries.map (·.request.requestId)).Nodup →
    (∀ entry ∈ entries, entry.request.requestId ∉ seen.ids) →
    (∀ day, (seen.daily.get? day).getD 0 + amountWhere (reservedOn day) entries ≤
      policy.maxPerDayMinor) →
    ∃ last, entries.foldlM (entryInput policy pinnedPolicy highWaterMs) seen = some last
  | [], seen, _, _, _, _ => ⟨seen, rfl⟩
  | entry :: entries, seen, alone, once, unseen, daily => by
      rw [List.map_cons, List.nodup_cons] at once
      have fresh := unseen entry List.mem_cons_self
      have read (next : Seen) (ids : next.ids = seen.ids ++ [entry.request.requestId])
          (sums : ∀ day, (next.daily.get? day).getD 0 + amountWhere (reservedOn day) entries ≤
            policy.maxPerDayMinor)
          (step : entryInput policy pinnedPolicy highWaterMs seen entry = some next) :
          ∃ last, (entry :: entries).foldlM (entryInput policy pinnedPolicy highWaterMs) seen =
            some last := by
        rw [List.foldlM_cons, step]
        refine foldlM_entryInput next
          (fun later member => alone later (List.mem_cons_of_mem _ member))
          once.2 ?_ sums
        intro later member
        rw [ids, List.mem_append, List.mem_singleton, not_or]
        refine ⟨unseen later (List.mem_cons_of_mem _ member), ?_⟩
        rintro same
        exact once.1 (List.mem_map.mpr ⟨later, member, same⟩)
      have checked := alone entry List.mem_cons_self
      cases reserved : entry.reservedAtMs with
      | none =>
          refine read ⟨seen.ids ++ [entry.request.requestId], seen.daily⟩ rfl ?_ ?_
          · intro day
            have total := daily day
            rw [amountWhere_cons, reservedOn, reserved] at total
            simpa using total
          · simp [entryInput, checked, fresh, reserved]
      | some reservedAt =>
          have today := daily (reservedAt / dayMs)
          rw [amountWhere_cons, reservedOn, reserved] at today
          simp only [Option.any_some, decide_true, if_true] at today
          have safe := policy.dayCapSafe
          refine read ⟨seen.ids ++ [entry.request.requestId], seen.daily.set (reservedAt / dayMs)
            ((seen.daily.get? (reservedAt / dayMs)).getD 0 + entry.request.amountMinor)⟩ rfl ?_ ?_
          · intro day
            have total := daily day
            rw [amountWhere_cons, reservedOn, reserved] at total
            rw [JsMap.get?_set]
            by_cases same : day = reservedAt / dayMs
            · rw [if_pos same, same, Option.getD_some]
              omega
            · rw [if_neg same]
              omega
          · have sum : checkedAdd ((seen.daily.get? (reservedAt / dayMs)).getD 0)
                entry.request.amountMinor =
                some ((seen.daily.get? (reservedAt / dayMs)).getD 0 + entry.request.amountMinor) :=
              checkedAdd_of_le (by omega)
            have within : (seen.daily.get? (reservedAt / dayMs)).getD 0 +
                entry.request.amountMinor ≤ policy.maxPerDayMinor := by omega
            simp [entryInput, checked, fresh, reserved, sum, within]

theorem PaymentBrokerState.Valid.charged (valid : state.Valid policy pinnedPolicy) :
    charged state.entries state.dayIndex =
      some (amountWhere (·.counts state.dayIndex) state.entries) :=
  charged_of_le (valid.charges.trans policy.dayCapSafe)

theorem PaymentBrokerState.Valid.accepted (valid : state.Valid policy pinnedPolicy) :
    stateInput policy pinnedPolicy state = some state := by
  have small : state.dayIndex ≤ maxSafe := by
    have clock := valid.clock
    rw [valid.day]
    unfold maxClock at clock
    unfold maxSafe dayMs
    omega
  obtain ⟨last, folded⟩ := foldlM_entryInput ⟨[], []⟩ valid.alone valid.once
    (fun _ _ => List.not_mem_nil) (fun day => by simpa using valid.daily day)
  unfold stateInput
  rw [folded, valid.charged]
  simp [valid.digest, valid.clock, small, valid.day.symm, valid.length, valid.charges]

/-! What an action does to a ledger. -/

namespace PaymentBrokerState

theorem find?_replaceEntry {changed entry : PaymentBrokerEntry} {requestId : JsString} :
    {entries : List PaymentBrokerEntry} →
    (entries.find? fun item => item.request.requestId = requestId) = some entry →
    ∃ before behind, entries = before ++ entry :: behind ∧ entry.request.requestId = requestId ∧
      replaceEntry requestId changed entries = before ++ changed :: behind
  | [], found => by cases found
  | item :: entries, found => by
      rw [List.find?_cons] at found
      by_cases same : item.request.requestId = requestId
      · rw [decide_eq_true same] at found
        cases found
        exact ⟨[], entries, rfl, same, by rw [replaceEntry, if_pos same]; rfl⟩
      · rw [decide_eq_false same] at found
        obtain ⟨before, behind, rfl, named, replaced⟩ := @find?_replaceEntry changed entry _ _ found
        exact ⟨item :: before, behind, rfl, named, by
          rw [replaceEntry, if_neg same, replaced]
          rfl⟩

section

variable {entry : PaymentBrokerEntry}
  (alone : entryAlone policy pinnedPolicy highWaterMs entry = true)
include alone

theorem entryAlone_later {laterMs : ℕ} (le : highWaterMs ≤ laterMs) :
    entryAlone policy pinnedPolicy laterMs entry = true := by
  simp only [entryAlone, Bool.and_eq_true, decide_eq_true_eq, Option.all_eq_true] at alone ⊢
  obtain ⟨⟨⟨⟨⟨⟨⟨again, requested⟩, reserved⟩, settled⟩, digests⟩, hex⟩, reservation⟩, status⟩ :=
    alone
  refine ⟨⟨⟨⟨⟨⟨⟨again, requested.trans le⟩, ?_⟩, ?_⟩, digests⟩, hex⟩, reservation⟩, status⟩
  · exact fun reservedAt at_ => ⟨(reserved reservedAt at_).1, (reserved reservedAt at_).2.trans le⟩
  · exact fun settledAt at_ => ⟨(settled settledAt at_).1, (settled settledAt at_).2.trans le⟩

theorem reservedAt_le {reservedAt : ℕ}
    (reserved : entry.reservedAtMs = some reservedAt) : reservedAt ≤ highWaterMs := by
  simp only [entryAlone, Bool.and_eq_true, decide_eq_true_eq, Option.all_eq_true] at alone
  exact (alone.1.1.1.1.1.2 reservedAt reserved).2

end

theorem Valid.advance (valid : state.Valid policy pinnedPolicy) {nowMs : ℕ}
    (forward : state.highWaterMs ≤ nowMs) (clock : nowMs ≤ maxClock) :
    (state.advance nowMs).Valid policy pinnedPolicy where
  digest := valid.digest
  clock := clock
  day := rfl
  length := valid.length
  once := valid.once
  alone entry member := entryAlone_later (valid.alone entry member) forward
  daily := valid.daily
  charges := by
    refine le_trans (amountWhere_mono ?_) valid.charges
    intro entry member counted
    cases reserved : entry.reservedAtMs with
    | none =>
        rw [PaymentBrokerEntry.counts, reserved] at counted
        cases counted
    | some reservedAt =>
        have before := reservedAt_le (valid.alone entry member) reserved
        rw [PaymentBrokerEntry.counts, reserved] at counted ⊢
        simp only [Option.any_some, Bool.or_eq_true, decide_eq_true_eq] at counted ⊢
        rcases counted with outstanding | today
        · exact .inl outstanding
        · right
          change reservedAt / dayMs = nowMs / dayMs at today
          rw [valid.day]
          have low := @Nat.div_le_div_right _ _ dayMs before
          have high := @Nat.div_le_div_right _ _ dayMs forward
          omega

theorem Valid.become (valid : state.Valid policy pinnedPolicy) {entry changed : PaymentBrokerEntry}
    {requestId : JsString}
    (found : (state.entries.find? fun item => item.request.requestId = requestId) = some entry)
    (request : changed.request = entry.request)
    (alone : entryAlone policy pinnedPolicy state.highWaterMs changed = true)
    (daily : ∀ day, reservedOn day changed = true → reservedOn day entry = true ∨
      amountWhere (reservedOn day) state.entries + entry.request.amountMinor ≤
        policy.maxPerDayMinor)
    (charges : changed.counts state.dayIndex = true → entry.counts state.dayIndex = true ∨
      amountWhere (·.counts state.dayIndex) state.entries + entry.request.amountMinor ≤
        policy.maxPerDayMinor) :
    (state.become changed).Valid policy pinnedPolicy := by
  obtain ⟨before, behind, split, named, replaced⟩ := @find?_replaceEntry changed entry _ _ found
  have become : (state.become changed).entries = before ++ changed :: behind := by
    unfold PaymentBrokerState.become
    rw [request, named, replaced]
  have sums (picked : PaymentBrokerEntry → Bool)
      (within : amountWhere picked state.entries ≤ policy.maxPerDayMinor)
      (grows : picked changed = true → picked entry = true ∨
        amountWhere picked state.entries + entry.request.amountMinor ≤ policy.maxPerDayMinor) :
      amountWhere picked (state.become changed).entries ≤ policy.maxPerDayMinor := by
    rw [split] at within grows
    rw [become]
    simp only [amountWhere_append, amountWhere_cons, request] at within grows ⊢
    by_cases new : picked changed = true
    · rw [if_pos new]
      rcases grows new with old | room
      · rw [if_pos old] at within
        exact within
      · omega
    · rw [if_neg new]
      omega
  refine ⟨valid.digest, valid.clock, valid.day, ?_, ?_, ?_, ?_, ?_⟩
  · have length := valid.length
    rw [split, List.length_append, List.length_cons] at length
    rw [become, List.length_append, List.length_cons]
    exact length
  · have once := valid.once
    rw [split, List.map_append, List.map_cons] at once
    rw [become, List.map_append, List.map_cons, request]
    exact once
  · intro other member
    rw [become, List.mem_append, List.mem_cons] at member
    have kept : ∀ other ∈ state.entries, entryAlone policy pinnedPolicy state.highWaterMs other =
        true := valid.alone
    rw [split] at kept
    rcases member with earlier | rfl | later
    · exact kept other (List.mem_append_left _ earlier)
    · exact alone
    · exact kept other (List.mem_append_right _ (List.mem_cons_of_mem _ later))
  · exact fun day => sums (reservedOn day) (valid.daily day) (daily day)
  · exact sums (·.counts state.dayIndex) valid.charges charges

theorem Valid.record (valid : state.Valid policy pinnedPolicy) {recorded : PaymentBrokerEntry}
    (room : state.entries.length < paymentBrokerMaxEntries)
    (fresh : recorded.request.requestId ∉ state.entries.map (·.request.requestId))
    (alone : entryAlone policy pinnedPolicy state.highWaterMs recorded = true)
    (unreserved : recorded.reservedAtMs = none) :
    { state with entries := state.entries ++ [recorded] }.Valid policy pinnedPolicy := by
  have free (picked : PaymentBrokerEntry → Bool) (passes : picked recorded = false) :
      amountWhere picked (state.entries ++ [recorded]) = amountWhere picked state.entries := by
    rw [amountWhere_append, amountWhere_cons, passes, amountWhere_nil]
    rfl
  refine ⟨valid.digest, valid.clock, valid.day, ?_, ?_, ?_, ?_, ?_⟩
  · rw [List.length_append]
    exact room
  · rw [List.map_append, List.nodup_append]
    refine ⟨valid.once, List.nodup_singleton _, ?_⟩
    intro id member other single
    rintro rfl
    rw [List.map_singleton, List.mem_singleton] at single
    exact fresh (single ▸ member)
  · intro entry member
    rcases List.mem_append.mp member with old | new
    · exact valid.alone entry old
    · rw [List.mem_singleton.mp new]
      exact alone
  · intro day
    rw [free _ (by rw [reservedOn, unreserved]; rfl)]
    exact valid.daily day
  · change amountWhere (·.counts state.dayIndex) (state.entries ++ [recorded]) ≤ _
    rw [free _ (by rw [PaymentBrokerEntry.counts, unreserved]; rfl)]
    exact valid.charges

end PaymentBrokerState

theorem sha256HexPattern_digest (domain : JsString) (value : JsValue) :
    sha256HexPattern (digest domain value) = true :=
  sha256HexPattern_sha256 _

structure PaymentBrokerAction.Sound (input : PaymentBrokerAction) : Prop where
  clock : input.nowMs ≤ maxClock
  request : ∀ nowMs asked, input = .request nowMs asked → requestAgain asked = true

theorem requestInput_again {value : RequestValue} {asked : PaymentBrokerRequest}
    (read : requestInput value = some asked) : requestAgain asked = true := by
  simp only [requestInput, Option.bind_eq_bind, Option.bind_eq_some_iff, guard_eq_some,
    Option.pure_def, Option.some.injEq] at read
  obtain ⟨_, ⟨id, merchant, scope, currency⟩, amount, within, rfl⟩ := read
  have bounds := integer_bounds within
  simp [requestAgain, id, merchant, scope, currency, bounds.1, bounds.2]

variable {input : PaymentBrokerAction}

theorem actionInput_sound {action : ActionValue} (read : actionInput action = some input) :
    input.Sound := by
  cases action with
  | request nowMs request =>
      simp only [actionInput, Option.bind_eq_bind, Option.bind_eq_some_iff, Option.pure_def,
        Option.some.injEq] at read
      obtain ⟨now, within, asked, again, rfl⟩ := read
      refine ⟨(integer_bounds within).2, ?_⟩
      rintro _ _ same
      cases same
      exact requestInput_again again
  | other => cases read
  | _ =>
      simp only [actionInput, Option.bind_eq_bind, Option.bind_eq_some_iff, Option.pure_def,
        Option.some.injEq] at read
      obtain ⟨now, within, _, _, rfl⟩ := read
      exact ⟨(integer_bounds within).2, fun _ _ same => by cases same⟩

/-! Each kind of action. -/

variable {entry : PaymentBrokerEntry} {requestId : JsString}

section

variable (valid : state.Valid policy pinnedPolicy)
include valid

theorem recordRequest_valid {asked : PaymentBrokerRequest} (again : requestAgain asked = true) :
    (recordRequest policy pinnedPolicy state
      (state.entries.find? fun item => item.request.requestId = asked.requestId)
      state.highWaterMs asked).state.Valid policy pinnedPolicy := by
  cases found : state.entries.find? fun item => item.request.requestId = asked.requestId with
  | some entry => exact valid
  | none =>
      unfold recordRequest
      dsimp only
      by_cases full : paymentBrokerMaxEntries ≤ state.entries.length
      · rw [if_pos full]
        exact valid
      · rw [if_neg full]
        refine valid.record (not_le.mp full) ?_ ?_ rfl
        · intro known
          obtain ⟨item, member, same⟩ := List.mem_map.mp known
          exact absurd (decide_eq_true same) (List.find?_eq_none.mp found item member)
        · cases denied : denial policy asked <;>
            simp [entryAlone, again, statusInput, denied, requestDigest, sha256HexPattern_digest]

section

variable (found : (state.entries.find? fun item => item.request.requestId = requestId) = some entry)
include found

theorem reserveEntry_valid :
    ∃ verdict, reserveEntry policy pinnedPolicy state entry state.highWaterMs = some verdict ∧
      verdict.state.Valid policy pinnedPolicy := by
  have alone := valid.alone entry (List.mem_of_find?_eq_some found)
  unfold reserveEntry
  rw [valid.charged]
  by_cases requested : entry.status = .requested
  · rw [if_neg (not_not.mpr requested), Option.bind_eq_bind, Option.bind_some]
    simp only [entryAlone, statusInput, requested, Bool.and_eq_true, decide_eq_true_eq,
      Option.isNone_iff_eq_none] at alone
    obtain ⟨⟨⟨⟨⟨⟨⟨again, before⟩, _⟩, _⟩, digests⟩, hex⟩, _⟩, status⟩ := alone
    obtain ⟨⟨⟨⟨⟨unreserved, unsettled⟩, unbound⟩, open_⟩, undenied⟩, allowed⟩ := status
    split_ifs with full
    · refine ⟨_, rfl, valid.become found rfl ?_ ?_ ?_⟩
      · simp [entryAlone, statusInput, again, before, ← digests, hex, unreserved, unsettled,
        unbound, open_, allowed]
      · intro day
        simp [reservedOn, unreserved]
      · simp [PaymentBrokerEntry.counts, unreserved]
    · refine ⟨_, rfl, valid.become found rfl ?_ ?_ ?_⟩
      · simp [entryAlone, statusInput, again, before, ← digests, hex, unsettled, open_, undenied,
          allowed, reservationDigest, sha256HexPattern_digest]
      · intro day today
        right
        refine le_trans (Nat.add_le_add_right (amountWhere_mono ?_) _)
          (by omega : amountWhere (·.counts state.dayIndex) state.entries +
            entry.request.amountMinor ≤ policy.maxPerDayMinor)
        intro other _ reserved
        simp only [reservedOn, Option.any_some, decide_eq_true_eq] at today
        cases at_ : other.reservedAtMs with
        | none =>
            rw [reservedOn, at_] at reserved
            cases reserved
        | some reservedAt =>
            simp only [reservedOn, at_, Option.any_some, decide_eq_true_eq] at reserved
            simp [PaymentBrokerEntry.counts, at_, reserved, ← today, valid.day]
      · exact fun _ => .inr (by omega)
  · rw [if_pos requested]
    exact ⟨_, rfl, valid⟩

theorem denyEntry_valid :
    (denyEntry state entry).state.Valid policy pinnedPolicy := by
  have alone := valid.alone entry (List.mem_of_find?_eq_some found)
  unfold denyEntry
  split_ifs with denied open_
  · exact valid
  · exact valid
  · have requested := not_not.mp open_
    simp only [entryAlone, statusInput, requested, Bool.and_eq_true, decide_eq_true_eq,
      Option.isNone_iff_eq_none] at alone
    obtain ⟨⟨⟨⟨⟨⟨⟨again, before⟩, _⟩, _⟩, digests⟩, hex⟩, _⟩, status⟩ := alone
    obtain ⟨⟨⟨⟨⟨unreserved, unsettled⟩, unbound⟩, unanswered⟩, undenied⟩, allowed⟩ := status
    refine valid.become found rfl ?_ ?_ ?_
    · simp [entryAlone, statusInput, again, before, ← digests, hex, unreserved, unsettled, unbound,
        unanswered, allowed]
    · intro day
      simp [reservedOn, unreserved]
    · simp [PaymentBrokerEntry.counts, unreserved]

theorem settleEntry_valid (reservation : JsString) (outcome : SettlementOutcome) :
    (settleEntry state entry state.highWaterMs reservation outcome).state.Valid policy
      pinnedPolicy := by
  have alone := valid.alone entry (List.mem_of_find?_eq_some found)
  unfold settleEntry
  split_ifs with unbound ended replayed
  · exact valid
  · exact valid
  · exact valid
  · have reserved := not_not.mp ended
    simp only [entryAlone, statusInput, reserved, Bool.and_eq_true, decide_eq_true_eq,
      Option.isNone_iff_eq_none] at alone
    obtain ⟨⟨⟨⟨⟨⟨⟨again, before⟩, within⟩, _⟩, digests⟩, hex⟩, _⟩, status⟩ := alone
    obtain ⟨⟨⟨⟨present, bound⟩, undenied⟩, allowed⟩, _⟩ := status
    obtain ⟨reservedAt, at_⟩ := Option.isSome_iff_exists.mp present
    rw [at_, Option.all_some, Bool.and_eq_true, decide_eq_true_eq, decide_eq_true_eq] at within
    refine valid.become found rfl ?_ ?_ ?_
    · rw [at_] at bound
      cases outcome <;>
        simp [entryAlone, statusInput, SettlementOutcome.status, again, before, at_, within.1,
          within.2, ← digests, hex, bound, undenied, allowed, reservationDigest,
            sha256HexPattern_digest]
    · exact fun day same => .inl same
    · intro _
      left
      simp [PaymentBrokerEntry.counts, at_, reserved]

end

theorem respond_valid (sound : input.Sound) :
    ∃ verdict, respond policy pinnedPolicy state input = some verdict ∧
      verdict.state.Valid policy pinnedPolicy := by
  unfold respond
  dsimp only
  by_cases back : input.nowMs < state.highWaterMs
  · rw [if_pos back]
    exact ⟨_, rfl, valid⟩
  · rw [if_neg back]
    have moved := valid.advance (not_lt.mp back) sound.clock
    cases found : state.entries.find? fun item => item.request.requestId = input.requestId with
    | none =>
        rw [Option.any_none, if_neg Bool.false_ne_true]
        cases input with
        | request nowMs asked =>
            refine ⟨_, rfl, ?_⟩
            have recorded := recordRequest_valid moved (sound.request nowMs asked rfl)
            change (recordRequest _ _ (state.advance nowMs) (state.entries.find? _) nowMs
              asked).state.Valid
              _ _ at recorded
            have absent : (state.entries.find? fun item =>
                item.request.requestId = asked.requestId) = none := found
            rw [absent] at recorded
            exact recorded
        | _ => exact ⟨_, rfl, moved⟩
    | some entry =>
        by_cases conflict : entry.requestDigest = input.pinnedRequest pinnedPolicy
        · rw [Option.any_some, decide_eq_false (not_not.mpr conflict), if_neg Bool.false_ne_true]
          cases input with
          | request nowMs asked => exact ⟨_, rfl, moved⟩
          | reserve nowMs requestId requestDigest => exact reserveEntry_valid moved found
          | deny nowMs requestId requestDigest => exact ⟨_, rfl, denyEntry_valid moved found⟩
          | settle nowMs requestId requestDigest reservation outcome =>
              exact ⟨_, rfl, settleEntry_valid moved found reservation outcome⟩
        · rw [Option.any_some, decide_eq_true conflict, if_pos rfl]
          exact ⟨_, rfl, moved⟩

end

structure Receipts (policy : PaymentBrokerPolicy) (state : PaymentBrokerState)
    (receipt : PaymentBrokerReceipt) (next : PaymentBrokerState) : Prop where
  previous : receipt.previousStateDigest = stateDigest state
  following : receipt.nextStateDigest = stateDigest next
  charged : receipt.chargedMinor = amountWhere (·.counts next.dayIndex) next.entries
  remaining : receipt.remainingMinor = policy.maxPerDayMinor - receipt.chargedMinor

variable {value : PolicyValue}

theorem reducePaymentBroker_of_valid (read : policyInput value = some policy)
    (valid : state.Valid policy (policyDigest policy)) {action : ActionValue}
    (acted : actionInput action = some input) :
    ∃ next receipt, reducePaymentBroker state value action = some (next, receipt) ∧
      next.Valid policy (policyDigest policy) ∧ Receipts policy state receipt next := by
  obtain ⟨verdict, answered, next⟩ := respond_valid valid (actionInput_sound acted)
  unfold reducePaymentBroker
  rw [read, acted]
  simp only [Option.bind_eq_bind, Option.bind_some, valid.accepted, answered, next.charged]
  exact ⟨_, _, rfl, next, rfl, rfl, rfl, rfl⟩

def BrokerStep (value : PolicyValue) (state : PaymentBrokerState) (receipt : PaymentBrokerReceipt)
    (next : PaymentBrokerState) : Prop :=
  ∃ action, reducePaymentBroker state value action = some (next, receipt)

theorem BrokerStep.spec (read : policyInput value = some policy)
    (valid : state.Valid policy (policyDigest policy)) {receipt : PaymentBrokerReceipt}
    {next : PaymentBrokerState} (taken : BrokerStep value state receipt next) :
    next.Valid policy (policyDigest policy) ∧ Receipts policy state receipt next := by
  obtain ⟨action, reduced⟩ := taken
  cases acted : actionInput action with
  | none =>
      unfold reducePaymentBroker at reduced
      rw [read, acted] at reduced
      simp at reduced
  | some input =>
      obtain ⟨found, other, answered, spec⟩ := reducePaymentBroker_of_valid read valid acted
      rw [answered] at reduced
      cases reduced
      exact spec

theorem createPaymentBrokerState_valid {nowMs : NumberValue}
    (read : policyInput value = some policy)
    (created : createPaymentBrokerState value nowMs = some state) :
    state.Valid policy (policyDigest policy) := by
  unfold createPaymentBrokerState at created
  rw [read] at created
  simp only [Option.bind_eq_bind, Option.bind_some, Option.bind_eq_some_iff, Option.pure_def,
    Option.some.injEq] at created
  obtain ⟨now, within, rfl⟩ := created
  exact ⟨rfl, (integer_bounds within).2, rfl, Nat.zero_le _, List.nodup_nil,
    fun _ member => (by cases member), fun _ => Nat.zero_le _, Nat.zero_le _⟩

structure Linked (receipts : List PaymentBrokerReceipt) (state : PaymentBrokerState) : Prop where
  chain : receipts.IsChain fun earlier later =>
    later.previousStateDigest = earlier.nextStateDigest
  last : ∀ receipt ∈ receipts.getLast?, receipt.nextStateDigest = stateDigest state

theorem run_linked {start : PaymentBrokerState} {receipts : List PaymentBrokerReceipt}
    (read : policyInput value = some policy) (valid : start.Valid policy (policyDigest policy))
    (run : Run (BrokerStep value) start receipts state) :
    state.Valid policy (policyDigest policy) ∧ Linked receipts state ∧
      ∀ receipt ∈ receipts, 0 ≤ receipt.remainingMinor := by
  induction run with
  | nil => exact ⟨valid, ⟨.nil, fun _ member => by cases member⟩, fun _ member => by cases member⟩
  | snoc _ taken ih =>
      rename_i receipts before next receipt _
      obtain ⟨before, linked, remaining⟩ := ih
      obtain ⟨behind, receipted⟩ := taken.spec read before
      refine ⟨behind, ⟨?_, ?_⟩, ?_⟩
      · refine List.isChain_append.mpr ⟨linked.chain, .singleton _, ?_⟩
        intro earlier last later single
        cases single
        rw [receipted.previous, linked.last earlier last]
      · intro found last
        rw [List.getLast?_append] at last
        cases last
        exact receipted.following
      · intro found member
        rcases List.mem_append.mp member with old | new
        · exact remaining found old
        · rw [List.mem_singleton.mp new, receipted.remaining, receipted.charged]
          have within := behind.charges
          omega

/-- Over every run from a new ledger: each ledger handed out is taken again, what is charged and
what is reserved on any day stays within the day's cap, and the receipts form a chain. -/
theorem run_paymentBroker {value : PolicyValue} {nowMs : NumberValue} {start : PaymentBrokerState}
    {receipts : List PaymentBrokerReceipt} (read : policyInput value = some policy)
    (created : createPaymentBrokerState value nowMs = some start)
    (run : Run (BrokerStep value) start receipts state) :
    stateInput policy (policyDigest policy) state = some state ∧
      (∀ action, (reducePaymentBroker state value action).isSome = (actionInput action).isSome) ∧
      charged state.entries state.dayIndex =
        some (amountWhere (·.counts state.dayIndex) state.entries) ∧
      amountWhere (·.counts state.dayIndex) state.entries ≤ policy.maxPerDayMinor ∧
      (∀ day, amountWhere (reservedOn day) state.entries ≤ policy.maxPerDayMinor) ∧
      policy.maxPerDayMinor ≤ maxSafe ∧
      (∀ receipt ∈ receipts, 0 ≤ receipt.remainingMinor) ∧
      receipts.IsChain fun earlier later =>
        later.previousStateDigest = earlier.nextStateDigest := by
  obtain ⟨valid, linked, remaining⟩ :=
    run_linked read (createPaymentBrokerState_valid read created) run
  refine ⟨valid.accepted, ?_, valid.charged, valid.charges, valid.daily, policy.dayCapSafe,
    remaining, linked.chain⟩
  intro action
  cases acted : actionInput action with
  | none =>
      unfold reducePaymentBroker
      rw [read, acted]
      simp
  | some input =>
      obtain ⟨next, receipt, reduced, _⟩ := reducePaymentBroker_of_valid read valid acted
      rw [reduced]
      rfl

def samplePolicy : PolicyValue where
  policyId := js "p"
  currency := js "EUR"
  allowedMerchantIds := [js "m"]
  allowedScopeIds := [js "s"]
  maxPerRequestMinor := .number (.ofRat 5)
  maxPerDayMinor := .number (.ofRat 5)

def sampleRequest : ActionValue :=
  .request (.number (.ofRat 0)) ⟨js "r", js "m", js "s", js "EUR", .number (.ofRat 5)⟩

/-- A request and its reservation, whose outcome is still unknown a day later. -/
def samplePlay : Option (PaymentBrokerState × List PaymentBrokerReceipt) := do
  let start ← createPaymentBrokerState samplePolicy (.number (.ofRat 0))
  let (asked, first) ← reducePaymentBroker start samplePolicy sampleRequest
  let (held, second) ← reducePaymentBroker asked samplePolicy
    (.reserve (.number (.ofRat 0)) (js "r") first.requestDigest)
  let (settled, third) ← reducePaymentBroker held samplePolicy
    (.settle (.number (.ofRat 86400000)) (js "r") first.requestDigest
      (second.reservationDigest.getD []) .unknown)
  pure (settled, [first, second, third])

theorem run_paymentBroker_sample : ∃ policy state receipts,
    policyInput samplePolicy = some policy ∧ samplePlay = some (state, receipts) ∧
      receipts.map (·.chargedMinor) = [0, 5, 5] ∧
      stateInput policy (policyDigest policy) state = some state ∧
      (∀ day, amountWhere (reservedOn day) state.entries ≤ policy.maxPerDayMinor) ∧
      receipts.IsChain fun earlier later =>
        later.previousStateDigest = earlier.nextStateDigest := by
  have readable : (policyInput samplePolicy).isSome = true := by decide +kernel
  have charges : (samplePlay.map fun played => played.2.map (·.chargedMinor)) =
      some [0, 5, 5] := by decide +kernel
  obtain ⟨policy, read⟩ := Option.isSome_iff_exists.mp readable
  obtain ⟨⟨state, receipts⟩, played, charges⟩ := Option.map_eq_some_iff.mp charges
  have steps := played
  simp only [samplePlay, Option.bind_eq_bind, Option.bind_eq_some_iff, Option.pure_def,
    Option.some.injEq, Prod.mk.injEq] at steps
  obtain ⟨start, created, _, asked, _, held, _, settled, rfl, rfl⟩ := steps
  have run : Run (BrokerStep samplePolicy) start _ _ :=
    ((Run.single ⟨_, asked⟩).snoc ⟨_, held⟩).snoc ⟨_, settled⟩
  obtain ⟨accepted, _, _, _, daily, _, _, chain⟩ := run_paymentBroker read created run
  exact ⟨policy, _, _, read, played, charges, accepted, daily, chain⟩

end AshlrHub.Universe

import AshlrHub.Fleet.QuotaLedger
import AshlrHub.Lib.Fallible

namespace AshlrHub.Quota

open Js Authority Lib

/-! What one batch checks before it reserves. -/

def limitOf (cfg : AshlrConfig) (backend : EngineId) : Option ReservationLimit :=
  (configuredReservationLimit cfg backend).toOption.join

def Call.limited (call : Call) : List FleetQuotaReservationRequest :=
  call.requests.filter fun request => (limitOf call.cfg request.backend).isSome

def normalizedOf (cfg : AshlrConfig) (request : FleetQuotaReservationRequest) :
    NormalizedQuotaRequest :=
  ⟨request.backend, reservationIdHash request.dispatchId, limitOf cfg request.backend⟩

def reservationEvent (ts : JsString) (request : FleetQuotaReservationRequest) :
    FleetQuotaEvent :=
  ⟨request.backend, ts, some (reservationIdHash request.dispatchId)⟩

variable {cfg : AshlrConfig}

theorem holds_of_ite {α : Type} {P : α → Prop} {c : Prop} [Decidable c] {value found : α}
    {rest : Option α} (here : P value) (there : rest = some found → P found)
    (chosen : (if c then some value else rest) = some found) : P found := by
  split_ifs at chosen
  · cases chosen
    exact here
  · exact there chosen

theorem reservationWindowMs_bounds {window : JsString} {windowMs : ℤ}
    (spelled : reservationWindowMs window = some windowMs) :
    0 ≤ windowMs ∧ windowMs ≤ maximumWindowMs := by
  have bounded {value : ℤ} {c : Prop} [Decidable c] {rest : Option ℤ}
      (here : 0 ≤ value ∧ value ≤ maximumWindowMs) :=
    @holds_of_ite ℤ (fun value => 0 ≤ value ∧ value ≤ maximumWindowMs) c _ value windowMs rest here
  unfold reservationWindowMs at spelled
  revert spelled
  iterate 8 refine bounded (by decide) ?_
  nofun

theorem limitOf_bounds {backend : EngineId} {limit : ReservationLimit}
    (limited : limitOf cfg backend = some limit) :
    limit.max ≤ maxEvents ∧ 0 ≤ limit.windowMs ∧ limit.windowMs ≤ maximumWindowMs := by
  unfold limitOf configuredReservationLimit at limited
  cases configured : cfg backend with
  | none =>
      rw [configured] at limited
      cases limited
  | some quota =>
      rw [configured] at limited
      dsimp only at limited
      cases window : quota.window.bind reservationWindowMs with
      | none =>
          rw [window] at limited
          cases limited
      | some windowMs =>
          cases most : quota.max with
          | none =>
              rw [window, most] at limited
              cases limited
          | some max =>
              rw [window, most] at limited
              dsimp only at limited
              split_ifs at limited with wrong
              · cases limited
              · cases limited
                obtain ⟨text, -, spelled⟩ := Option.bind_eq_some_iff.mp window
                constructor
                · simp only [not_or, Int.not_le, Int.not_lt] at wrong
                  have := wrong.2
                  simp only
                  omega
                · exact reservationWindowMs_bounds spelled

section

variable {inputHashes : JsMap JsString EngineId} {requests : List FleetQuotaReservationRequest}
  {normalized : List NormalizedQuotaRequest}
  (passed : normalizeRequests cfg inputHashes requests = .ok normalized)
include passed

theorem normalizeRequests_ok :
    normalized = requests.map (normalizedOf cfg) ∧
      ∀ request ∈ requests, request.backend ∈ engineIds := by
  induction requests generalizing inputHashes normalized with
  | nil =>
      cases passed
      exact ⟨rfl, fun _ absent => nomatch absent⟩
  | cons request requests ih =>
      rw [normalizeRequests] at passed
      split_ifs at passed with identity
      dsimp only at passed
      split at passed
      · cases passed
      · split at passed
        · cases passed
        · rename_i limit configured
          obtain ⟨rest, later, rfl⟩ := map_eq_ok.mp passed
          obtain ⟨rfl, known⟩ := ih later
          have same : limitOf cfg request.backend = limit := by
            rw [limitOf, configured]
            rfl
          refine ⟨?_, fun other present => ?_⟩
          · rw [List.map_cons, normalizedOf, same]
          · rcases List.mem_cons.mp present with rfl | tail
            · rw [Bool.not_eq_false, validReservationIdentity, Bool.and_eq_true,
                Bool.and_eq_true] at identity
              exact List.contains_iff_mem.mp identity.1.1
            · exact known other tail

theorem normalizeRequests_distinct :
    (requests.map (·.dispatchId)).Nodup ∧ ∀ request ∈ requests,
      JsMap.get? inputHashes (reservationIdHash request.dispatchId) = none := by
  induction requests generalizing inputHashes normalized with
  | nil => exact ⟨List.nodup_nil, fun _ absent => nomatch absent⟩
  | cons request requests ih =>
      rw [normalizeRequests] at passed
      split_ifs at passed with identity
      dsimp only at passed
      split at passed
      · cases passed
      · rename_i unseen
        split at passed
        · cases passed
        · obtain ⟨rest, later, rfl⟩ := map_eq_ok.mp passed
          obtain ⟨once, apart⟩ := ih later
          refine ⟨List.nodup_cons.mpr ⟨?_, once⟩, fun other present => ?_⟩
          · intro again
            obtain ⟨other, present, same⟩ := List.mem_map.mp again
            have set := apart other present
            rw [JsMap.get?_set, if_pos (congrArg reservationIdHash same)] at set
            cases set
          · rcases List.mem_cons.mp present with rfl | tail
            · exact unseen
            · have set := apart other tail
              rw [JsMap.get?_set] at set
              split_ifs at set
              exact set

end

theorem get?_foldl_set_none {α β : Type} [DecidableEq α] {key : α} {entries : List (α × β)}
    {map : JsMap α β}
    (absent : JsMap.get? (entries.foldl (fun map entry => JsMap.set entry.1 entry.2 map) map) key =
      none) : JsMap.get? map key = none ∧ ∀ entry ∈ entries, entry.1 ≠ key := by
  induction entries generalizing map with
  | nil => exact ⟨absent, fun _ none => nomatch none⟩
  | cons first entries ih =>
      obtain ⟨former, rest⟩ := ih absent
      rw [JsMap.get?_set] at former
      split_ifs at former with same
      refine ⟨former, fun entry present => ?_⟩
      rcases List.mem_cons.mp present with rfl | later
      · exact Ne.symm same
      · exact rest entry later

theorem replayed_none {compacted : List FleetQuotaEvent} {requests : List NormalizedQuotaRequest}
    (unseen : replayed compacted requests = none) :
    ∀ request ∈ requests, ∀ event ∈ compacted, event.reservationIdHash ≠ some request.hash := by
  induction requests with
  | nil => exact fun _ absent => nomatch absent
  | cons first requests ih =>
      rw [replayed] at unseen
      split at unseen
      · cases unseen
      · rename_i absent
        intro request present
        rcases List.mem_cons.mp present with rfl | later
        · intro event inside hashed
          have none := (get?_foldl_set_none absent).2 (request.hash, event.backend)
          refine none (List.mem_filterMap.mpr ⟨event, inside, ?_⟩) rfl
          rw [hashed]
          rfl
        · exact ih unseen request later

theorem chargeUsage_ok {compacted : List FleetQuotaEvent}
    {limited requests : List NormalizedQuotaRequest} {nowMs : ℤ}
    {usage charged : JsMap EngineId ℕ}
    (passed : chargeUsage compacted limited nowMs usage requests = .ok charged) :
    ∀ request ∈ requests, request.limit.isSome → usage.has request.backend = true ∨
      ∃ first ∈ requests, first.backend = request.backend ∧ ∃ limit, first.limit = some limit ∧
        usedSince compacted request.backend (nowMs - limit.windowMs) +
          requestedOf limited request.backend ≤ limit.max := by
  induction requests generalizing usage with
  | nil => exact fun _ absent => nomatch absent
  | cons head requests ih =>
      rw [chargeUsage] at passed
      intro request present limits
      by_cases before : usage.has head.backend = true
      · rw [if_pos before] at passed
        rcases List.mem_cons.mp present with rfl | later
        · exact .inl before
        · refine (ih passed request later limits).imp_right ?_
          rintro ⟨first, member, rest⟩
          exact ⟨first, List.mem_cons_of_mem _ member, rest⟩
      · rw [if_neg before] at passed
        cases bound : head.limit with
        | none =>
            rw [bound] at passed
            rcases List.mem_cons.mp present with rfl | later
            · rw [bound] at limits
              cases limits
            · refine (ih passed request later limits).imp_right ?_
              rintro ⟨first, member, rest⟩
              exact ⟨first, List.mem_cons_of_mem _ member, rest⟩
        | some limit =>
            rw [bound] at passed
            dsimp only at passed
            split_ifs at passed with exceeds
            have room := Nat.not_lt.mp exceeds
            by_cases same : head.backend = request.backend
            · exact .inr ⟨head, List.mem_cons_self, same, limit, bound, same ▸ room⟩
            · rcases List.mem_cons.mp present with rfl | later
              · exact absurd rfl same
              · rcases ih passed request later limits with has | ⟨first, member, rest⟩
                · rw [JsMap.has, JsMap.get?_set, if_neg (Ne.symm same)] at has
                  exact .inl has
                · exact .inr ⟨first, List.mem_cons_of_mem _ member, rest⟩

structure Installs (file : Option JsValue) (call : Call) (installed : JsValue)
    (loaded : List FleetQuotaEvent) (ts : JsString) : Prop where
  loads : loadStrictQuota call.weather file = some loaded
  formatted : toISOString call.nowMs = some ts
  known : ∀ request ∈ call.requests, request.backend ∈ engineIds
  distinct : (call.requests.map (·.dispatchId)).Nodup
  unseen : ∀ request ∈ call.requests, ∀ event ∈ compactReservationEvents loaded call.nowMs,
    event.reservationIdHash ≠ some (reservationIdHash request.dispatchId)
  room : ∀ request ∈ call.requests, ∀ limit, limitOf call.cfg request.backend = some limit →
    usedSince (compactReservationEvents loaded call.nowMs) request.backend
      (call.nowMs - limit.windowMs) +
      call.limited.countP (fun other => other.backend = request.backend) ≤ limit.max
  ledger : installed = ledgerValue (compactReservationEvents
    (compactReservationEvents loaded call.nowMs ++ call.limited.map (reservationEvent ts))
    call.nowMs)
  length : (compactReservationEvents
    (compactReservationEvents loaded call.nowMs ++ call.limited.map (reservationEvent ts))
    call.nowMs).length ≤ maxAuthorityEvents
  bytes : fileBytes installed ≤ maxAuthorityLedgerBytes

theorem limited_map (call : Call) :
    (call.requests.map (normalizedOf call.cfg)).filter (fun request => request.limit.isSome) =
      call.limited.map (normalizedOf call.cfg) := by
  rw [List.filter_map]
  rfl

theorem requestedOf_limited (call : Call) (backend : EngineId) :
    requestedOf (call.limited.map (normalizedOf call.cfg)) backend =
      call.limited.countP fun other => other.backend = backend := by
  rw [requestedOf, List.countP_map]
  rfl

def FleetQuotaReservationResult.receipts : FleetQuotaReservationResult →
    List FleetQuotaReservationReceipt
  | .unlimited receipts => receipts
  | .reserved receipts => receipts
  | .refused _ => []

theorem saveQuotaReservation_cases (weather : Weather) (events : List FleetQuotaEvent) :
    ((saveQuotaReservation weather events).1 = none ∧
      (saveQuotaReservation weather events).2 = false) ∨
    ((saveQuotaReservation weather events).1 = some (ledgerValue events) ∧
      events.length ≤ maxAuthorityEvents ∧
      fileBytes (ledgerValue events) ≤ maxAuthorityLedgerBytes ∧
      ((saveQuotaReservation weather events).2 = true → weather.saved = .confirmed)) := by
  unfold saveQuotaReservation
  split
  · exact .inl ⟨rfl, rfl⟩
  · rename_i small
    simp only [not_or, Nat.not_lt] at small
    cases weather.saved with
    | notInstalled => exact .inl ⟨rfl, rfl⟩
    | unconfirmed => exact .inr ⟨rfl, small.1, small.2, nofun⟩
    | confirmed => exact .inr ⟨rfl, small.1, small.2, fun _ => rfl⟩

theorem reserveLocked_cases {file : Option JsValue} {call : Call} {loaded : List FleetQuotaEvent}
    (loads : loadStrictQuota call.weather file = some loaded)
    (known : ∀ request ∈ call.requests, request.backend ∈ engineIds)
    (distinct : (call.requests.map (·.dispatchId)).Nodup) :
    let done := reserveLimitedQuotaUsesLocked call.weather call.nowMs
      (call.requests.map (normalizedOf call.cfg)) (call.limited.map (normalizedOf call.cfg)) loaded
    (done.1 = none ∧ done.2.launchAuthorized = false) ∨
    ∃ installed ts, done.1 = some installed ∧ Installs file call installed loaded ts ∧
      (done.2.launchAuthorized = true → call.weather.saved = .confirmed ∧
        done.2.receipts.map (·.backend) = call.requests.map (·.backend)) := by
  unfold reserveLimitedQuotaUsesLocked
  split_ifs with flushed
  · exact .inl ⟨rfl, rfl⟩
  dsimp only
  split
  · exact .inl ⟨rfl, rfl⟩
  rename_i unseen
  split
  · exact .inl ⟨rfl, rfl⟩
  rename_i usage charged
  split
  · exact .inl ⟨rfl, rfl⟩
  rename_i ts formatted
  rw [List.map_map]
  generalize compacts : compactReservationEvents (compactReservationEvents loaded call.nowMs ++
    call.limited.map _) call.nowMs = next
  rcases saveQuotaReservation_cases call.weather next with
    ⟨nothing, failed⟩ | ⟨installed, length, bytes, confirmed⟩
  · rw [if_pos failed]
    exact .inl ⟨nothing, rfl⟩
  · refine .inr ⟨ledgerValue next, ts, ?_,
      ⟨loads, formatted, known, distinct, ?_, ?_, ?_, ?_, bytes⟩, ?_⟩
    · split_ifs <;> exact installed
    · exact fun request present => replayed_none unseen (normalizedOf call.cfg request)
        (List.mem_map_of_mem present)
    · intro request present limit limits
      have inside : request ∈ call.limited :=
        List.mem_filter.mpr ⟨present, by rw [limits]; rfl⟩
      rcases chargeUsage_ok charged (normalizedOf call.cfg request)
          (List.mem_map_of_mem inside) (by rw [normalizedOf, limits]; rfl) with
        has | ⟨first, member, same, bound, most, room⟩
      · cases has
      · obtain ⟨other, -, rfl⟩ := List.mem_map.mp member
        rw [requestedOf_limited] at room
        have equal : bound = limit := by
          have := limits.symm.trans (congrArg (limitOf call.cfg) same.symm)
          exact Option.some.inj (most.symm.trans this.symm)
        rw [equal] at room
        exact room
    · exact congrArg ledgerValue compacts.symm
    · exact compacts ▸ length
    · intro launched
      by_cases failed : (saveQuotaReservation call.weather next).2 = false
      · rw [if_pos failed] at launched
        cases launched
      · rw [if_neg failed]
        refine ⟨confirmed (Bool.not_eq_false _ ▸ failed), ?_⟩
        simp only [FleetQuotaReservationResult.receipts, List.map_map]
        refine List.map_congr_left fun request _ => ?_
        simp only [Function.comp_apply]
        cases (normalizedOf call.cfg request).limit <;> rfl

theorem reserveFleetQuotaUses_cases (file : Option JsValue) (call : Call) :
    ((reserveFleetQuotaUses file call).1 = none ∧
      ((reserveFleetQuotaUses file call).2.launchAuthorized = true → call.limited = [] ∧
        (reserveFleetQuotaUses file call).2.receipts.map (·.backend) =
          call.requests.map (·.backend))) ∨
    ∃ installed loaded ts, (reserveFleetQuotaUses file call).1 = some installed ∧
      Installs file call installed loaded ts ∧
      ((reserveFleetQuotaUses file call).2.launchAuthorized = true →
        call.weather.saved = .confirmed ∧ call.weather.released = true ∧
        (reserveFleetQuotaUses file call).2.receipts.map (·.backend) =
          call.requests.map (·.backend)) := by
  unfold reserveFleetQuotaUses
  by_cases size : call.requests.length = 0 ∨ maxBatchReservations < call.requests.length
  · rw [if_pos size]
    exact .inl ⟨rfl, nofun⟩
  rw [if_neg size]
  by_cases wait : call.lockWaitMs.all isFinite = false
  · rw [if_pos wait]
    exact .inl ⟨rfl, nofun⟩
  rw [if_neg wait]
  cases passed : normalizeRequests call.cfg [] call.requests with
  | error refused => exact .inl ⟨rfl, nofun⟩
  | ok normalized =>
  obtain ⟨rfl, known⟩ := normalizeRequests_ok passed
  have distinct := (normalizeRequests_distinct passed).1
  dsimp only
  rw [limited_map, List.length_map]
  by_cases none : call.limited.length = 0
  · rw [if_pos none]
    refine .inl ⟨rfl, fun _ => ⟨List.length_eq_zero_iff.mp none, ?_⟩⟩
    simp only [FleetQuotaReservationResult.receipts, List.map_map]
    rfl
  rw [if_neg none]
  by_cases locked : call.weather.locked = false
  · rw [if_pos locked]
    exact .inl ⟨rfl, nofun⟩
  rw [if_neg locked]
  generalize transacted : (if call.weather.pinned = false then
    ((Option.none : Option JsValue), FleetQuotaReservationResult.refused (refusal .unavailable))
    else _) = done
  have inner : (done.1 = Option.none ∧ done.2.launchAuthorized = false) ∨
      ∃ installed loaded ts, done.1 = some installed ∧ Installs file call installed loaded ts ∧
        (done.2.launchAuthorized = true → call.weather.saved = .confirmed ∧
          done.2.receipts.map (·.backend) = call.requests.map (·.backend)) := by
    by_cases pinned : call.weather.pinned = false
    · rw [if_pos pinned] at transacted
      exact .inl (transacted ▸ ⟨rfl, rfl⟩)
    · rw [if_neg pinned] at transacted
      cases loads : loadStrictQuota call.weather file with
      | none =>
          rw [loads] at transacted
          exact .inl (transacted ▸ ⟨rfl, rfl⟩)
      | some loaded =>
          rw [loads] at transacted
          rw [← transacted]
          refine (reserveLocked_cases loads known distinct).imp_right ?_
          rintro ⟨installed, ts, whole⟩
          exact ⟨installed, loaded, ts, whole⟩
  by_cases released : call.weather.released = false
  · rw [if_pos released]
    rcases inner with ⟨nothing, -⟩ | ⟨installed, loaded, ts, stored, installs, -⟩
    · exact .inl ⟨nothing, nofun⟩
    · exact .inr ⟨installed, loaded, ts, stored, installs, nofun⟩
  · rw [if_neg released]
    rcases inner with ⟨nothing, refused⟩ | ⟨installed, loaded, ts, stored, installs, launches⟩
    · refine .inl ⟨nothing, fun launched => ?_⟩
      rw [refused] at launched
      cases launched
    · refine .inr ⟨installed, loaded, ts, stored, installs, fun launched => ?_⟩
      obtain ⟨confirmed, receipts⟩ := launches launched
      exact ⟨confirmed, Bool.not_eq_false _ ▸ released, receipts⟩

end AshlrHub.Quota

import AshlrHub.Fleet.QuotaCalls

namespace AshlrHub.Quota

open Js Authority Lib

/-! Runs of batches, one after the other under the reservation lock. -/

structure Reservation where
  backend : EngineId
  dispatchId : JsString
  atMs : ℤ
  authorized : Bool

structure World where
  clock : ℤ
  /-- `quota-reservations.json` -/
  file : Option JsValue
  /-- The events that the first ledger was seeded with. -/
  seed : List FleetQuotaEvent
  /-- All reservations, in the order of their installation. -/
  reserved : List Reservation

def Call.authorized (call : Call) (file : Option JsValue) : Bool :=
  call.weather.crashed = false && (reserveFleetQuotaUses file call).2.launchAuthorized

def reservationOf (nowMs : ℤ) (authorized : Bool) (request : FleetQuotaReservationRequest) :
    Reservation :=
  ⟨request.backend, request.dispatchId, nowMs, authorized⟩

def Call.reservations (call : Call) (authorized : Bool) : List Reservation :=
  call.limited.map (reservationOf call.nowMs authorized)

def World.after (world : World) (call : Call) : World :=
  match (reserveFleetQuotaUses world.file call).1 with
  | none => { world with clock := call.nowMs }
  | some installed =>
      { clock := call.nowMs
        file := some installed
        seed :=
          match world.file with
          | none => (loadStrictQuota call.weather none).getD []
          | some _ => world.seed
        reserved := world.reserved ++ call.reservations (call.authorized world.file) }

def Step (world : World) (call : Call) (next : World) : Prop :=
  world.clock ≤ call.nowMs ∧ next = world.after call

def freshWorld (clock : ℤ) : World := ⟨clock, none, [], []⟩

def laterThan (reservation : Reservation) (back : List Reservation)
    (seed : List FleetQuotaEvent) : ℕ :=
  back.countP (fun other => other.backend = reservation.backend) +
    seed.countP fun event => event.backend = reservation.backend && reservation.atMs < event.time

structure Call.Keeps (call : Call) (world next : World) : Prop where
  /-- A launch is authorized within the window and the maximum of each limit. -/
  bounded : call.authorized world.file = true → ∀ request ∈ call.requests, ∀ limit,
    limitOf call.cfg request.backend = some limit →
    next.reserved.countP (fun other => other.authorized && other.backend = request.backend &&
      call.nowMs - limit.windowMs ≤ other.atMs) ≤ limit.max
  /-- All of the requests are authorized, and the limited ones reserved, or none is. -/
  whole : (∃ added, next.reserved = world.reserved ++ added ∧
      (added = [] ∨ added = call.reservations (call.authorized world.file)) ∧
      (call.authorized world.file = true → added = call.reservations true)) ∧
    (call.authorized world.file = true →
      (reserveFleetQuotaUses world.file call).2.receipts.map (·.backend) =
        call.requests.map (·.backend))
  /-- A dispatch id is not authorized again, in the batch or while the ledger retains it. -/
  once : call.authorized world.file = true → (call.limited.map (·.dispatchId)).Nodup ∧
    ∀ request ∈ call.limited, ∀ front earlier back, world.reserved = front ++ earlier :: back →
      earlier.dispatchId = request.dispatchId →
      earlier.atMs < call.nowMs - maximumWindowMs ∨ maxEvents ≤ laterThan earlier back world.seed
  /-- A ledger that is installed holds the reservations; without a confirmation they are not
  authorized. -/
  consumes : ∀ installed, (reserveFleetQuotaUses world.file call).1 = some installed →
    next.file = some installed ∧
    (∃ events ts, toISOString call.nowMs = some ts ∧ installed = ledgerValue events ∧
      ∀ request ∈ call.limited, reservationEvent ts request ∈ events) ∧
    (call.weather.saved ≠ .confirmed ∨ call.weather.released = false ∨
      call.weather.crashed = true → call.authorized world.file = false)

/-! What the ledger keeps of the reservations. -/

/-- A reservation is too old, or has many after it, or stands in the ledger before no more than
came after it. -/
def Retained (clock : ℤ) (seed events : List FleetQuotaEvent) (reservation : Reservation)
    (back : List Reservation) : Prop :=
  reservation.atMs ≤ clock ∧
    (reservation.atMs < clock - maximumWindowMs ∨ maxEvents ≤ laterThan reservation back seed ∨
      ∃ ts pre post, toISOString reservation.atMs = some ts ∧
        eventsOf reservation.backend events = pre ++ ⟨reservation.backend, ts,
          some (reservationIdHash reservation.dispatchId)⟩ :: post ∧
        post.length ≤ laterThan reservation back seed)

structure Faithful (clock : ℤ) (seed : List FleetQuotaEvent) (reserved : List Reservation)
    (events : List FleetQuotaEvent) : Prop where
  /-- A window's reservations are all counted, or as many as any limit allows. -/
  counted : ∀ backend cutoff, clock - maximumWindowMs ≤ cutoff →
    min maxEvents (reserved.countP fun other => other.backend = backend && cutoff ≤ other.atMs) ≤
      usedSince events backend cutoff
  /-- Only the seed is ahead of the clock. -/
  ahead : ∀ backend t, clock ≤ t →
    (eventsOf backend events).countP (fun event => t < event.time) ≤
      seed.countP fun event => event.backend = backend && t < event.time
  kept : ∀ front reservation back, reserved = front ++ reservation :: back →
    Retained clock seed events reservation back

theorem countP_compact_le (events : List FleetQuotaEvent) (nowMs : ℤ) (backend : EngineId)
    (counts : FleetQuotaEvent → Bool) :
    (eventsOf backend (compactReservationEvents events nowMs)).countP counts ≤
      (eventsOf backend events).countP counts := by
  rw [eventsOf_compact]
  calc (newest maxEvents (byTime _ (eventsOf backend (fresh nowMs events)))).countP counts
      ≤ (byTime FleetQuotaEvent.time (eventsOf backend (fresh nowMs events))).countP counts :=
        (newest_sublist _ _).countP_le
    _ = (eventsOf backend (fresh nowMs events)).countP counts := (perm_byTime _).countP_eq _
    _ ≤ (eventsOf backend events).countP counts :=
        (List.filter_sublist.filter _).countP_le

theorem eventsOf_fresh (events : List FleetQuotaEvent) (nowMs : ℤ) (backend : EngineId) :
    eventsOf backend (fresh nowMs events) = fresh nowMs (eventsOf backend events) := by
  rw [eventsOf, fresh, fresh, eventsOf, List.filter_filter, List.filter_filter]
  refine List.filter_congr fun event _ => ?_
  rw [Bool.and_comm]

theorem inOrder_eventsOf {events : List FleetQuotaEvent}
    (ordered : InOrder FleetQuotaEvent.time events) (backend : EngineId) :
    InOrder FleetQuotaEvent.time (eventsOf backend events) :=
  ordered.sublist List.filter_sublist

theorem time_of_formatted {backend : EngineId} {ts : JsString} {hash : Option JsString} {t : ℤ}
    (formatted : toISOString t = some ts) : (⟨backend, ts, hash⟩ : FleetQuotaEvent).time = t := by
  rw [FleetQuotaEvent.time, dateParse_toISOString formatted, Option.getD_some]

theorem fresh_split {pre post : List FleetQuotaEvent} {event : FleetQuotaEvent} {nowMs : ℤ}
    (valid : ∀ other ∈ pre ++ event :: post, other.Valid)
    (ordered : InOrder FleetQuotaEvent.time (pre ++ event :: post))
    (young : nowMs - maximumWindowMs ≤ event.time) :
    fresh nowMs (pre ++ event :: post) = fresh nowMs pre ++ event :: post := by
  have late : ∀ other ∈ event :: post, nowMs - maximumWindowMs ≤ other.time := by
    intro other present
    rcases List.mem_cons.mp present with rfl | after
    · exact young
    · have tail := (List.pairwise_append.mp ordered).2.1
      exact young.trans ((List.pairwise_cons.mp tail).1 other after)
  rw [fresh, List.filter_append]
  congr 1
  refine List.filter_eq_self.mpr fun other present => ?_
  rw [(valid other (List.mem_append_right _ present)).parses, Option.any_some]
  exact decide_eq_true (late other present)

section

variable {clock nowMs : ℤ} {seed events : List FleetQuotaEvent} {reserved : List Reservation}
  (faithful : Faithful clock seed reserved events)
include faithful

theorem Faithful.compact
    (valid : ∀ event ∈ events, event.Valid) (ordered : InOrder FleetQuotaEvent.time events)
    (later : clock ≤ nowMs) :
    Faithful nowMs seed reserved (compactReservationEvents events nowMs) where
  counted backend cutoff inside := by
    rw [usedSince_compact valid inside]
    have former := faithful.counted backend cutoff (by omega)
    omega
  ahead backend t late :=
    (countP_compact_le events nowMs backend _).trans (faithful.ahead backend t (later.trans late))
  kept front reservation back split := by
    obtain ⟨soon, place⟩ := faithful.kept front reservation back split
    refine ⟨soon.trans later, ?_⟩
    rcases place with old | many | ⟨ts, pre, post, formatted, stands, few⟩
    · exact .inl (by omega)
    · exact .inr (.inl many)
    by_cases old : reservation.atMs < nowMs - maximumWindowMs
    · exact .inl old
    by_cases full : post.length < maxEvents
    swap
    · exact .inr (.inl (by omega))
    have own := inOrder_eventsOf ordered reservation.backend
    have ours : ∀ event ∈ eventsOf reservation.backend events, event.Valid :=
      fun event present => valid event (mem_eventsOf.mp present).1
    rw [stands] at own ours
    have late : nowMs - maximumWindowMs ≤ (⟨reservation.backend, ts,
        some (reservationIdHash reservation.dispatchId)⟩ : FleetQuotaEvent).time := by
      rw [time_of_formatted formatted]
      omega
    have young := fresh_split ours own late
    obtain ⟨kept, -, compacted⟩ := @eventsOf_compact_split events _ nowMs (fresh nowMs pre) post
      reservation.backend (by
        rw [eventsOf_fresh, stands, young]
        exact byTime_of_inOrder (young ▸ own.sublist List.filter_sublist)) full
    exact .inr (.inr ⟨ts, kept, post, formatted, compacted, few⟩)

theorem Faithful.later (later : clock ≤ nowMs) : Faithful nowMs seed reserved events where
  counted backend cutoff inside := faithful.counted backend cutoff (by omega)
  ahead backend t late := faithful.ahead backend t (later.trans late)
  kept front reservation back split := by
    obtain ⟨soon, place⟩ := faithful.kept front reservation back split
    exact ⟨soon.trans later, place.imp_left fun old => by omega⟩

end

theorem faithful_self (nowMs : ℤ) (events : List FleetQuotaEvent) :
    Faithful nowMs events [] events where
  counted backend cutoff _ := by
    rw [List.countP_nil, Nat.min_zero]
    exact Nat.zero_le _
  ahead backend t _ := by
    rw [eventsOf, List.countP_filter]
    refine le_of_eq (List.countP_congr fun event _ => ?_)
    rw [Bool.and_comm]
  kept front reservation back split := by simp at split

theorem faithful_seed (nowMs : ℤ) (seed : List FleetQuotaEvent) :
    Faithful nowMs seed [] (compactReservationEvents seed nowMs) where
  counted backend cutoff _ := by
    rw [List.countP_nil, Nat.min_zero]
    exact Nat.zero_le _
  ahead backend t late :=
    (countP_compact_le seed nowMs backend _).trans ((faithful_self nowMs seed).ahead backend t late)
  kept front reservation back split := by simp at split

/-! A batch is appended to a compacted ledger. -/

section

variable {nowMs : ℤ} {ts : JsString} {limited : List FleetQuotaReservationRequest}
  {base seed : List FleetQuotaEvent} {reserved : List Reservation} {authorized : Bool}

theorem eventsOf_reservations (ts : JsString) (limited : List FleetQuotaReservationRequest)
    (backend : EngineId) : eventsOf backend (limited.map (reservationEvent ts)) =
      (limited.filter fun request => request.backend = backend).map (reservationEvent ts) := by
  rw [eventsOf, List.filter_map]
  rfl

theorem usedSince_reservations (authorized : Bool) (formatted : toISOString nowMs = some ts)
    (limited : List FleetQuotaReservationRequest) (backend : EngineId) (cutoff : ℤ) :
    usedSince (limited.map (reservationEvent ts)) backend cutoff =
      (limited.map (reservationOf nowMs authorized)).countP fun other =>
        other.backend = backend && cutoff ≤ other.atMs := by
  rw [usedSince, List.countP_map, List.countP_map]
  refine List.countP_congr fun request _ => ?_
  simp only [Function.comp_apply, reservationEvent, time_of_formatted formatted]
  exact Iff.rfl

theorem reservations_valid (formatted : toISOString nowMs = some ts)
    (known : ∀ request ∈ limited, request.backend ∈ engineIds) :
    ∀ event ∈ limited.map (reservationEvent ts), event.Valid := by
  intro event present
  obtain ⟨request, inside, rfl⟩ := List.mem_map.mp present
  refine ⟨known request inside, isCanonicalInstant_iff.mpr ⟨nowMs, formatted⟩, ?_⟩
  intro hash same
  obtain rfl := Option.some.inj same
  exact sha256HexPattern_sha256 _

theorem byTime_batch (limited : List FleetQuotaReservationRequest)
    (formatted : toISOString nowMs = some ts)
    (ordered : InOrder FleetQuotaEvent.time base) (young : fresh nowMs base = base)
    (backend : EngineId) :
    byTime FleetQuotaEvent.time (eventsOf backend
      (fresh nowMs (base ++ limited.map (reservationEvent ts)))) =
      (eventsOf backend base).filter (fun event => event.time ≤ nowMs) ++
        (eventsOf backend (limited.map (reservationEvent ts)) ++
          (eventsOf backend base).filter fun event => nowMs < event.time) := by
  have now : ∀ event ∈ limited.map (reservationEvent ts), dateParse event.ts = some nowMs := by
    intro event present
    obtain ⟨request, -, rfl⟩ := List.mem_map.mp present
    exact dateParse_toISOString formatted
  have all : fresh nowMs (base ++ limited.map (reservationEvent ts)) =
      base ++ limited.map (reservationEvent ts) := by
    rw [fresh, List.filter_append]
    change fresh nowMs base ++ _ = _
    rw [young]
    congr 1
    refine List.filter_eq_self.mpr fun event present => ?_
    rw [now event present, Option.any_some]
    exact decide_eq_true (by unfold maximumWindowMs; omega)
  rw [all, eventsOf, List.filter_append]
  change byTime _ (eventsOf backend base ++ eventsOf backend _) = _
  refine byTime_append_same (inOrder_eventsOf ordered backend) fun event present => ?_
  rw [FleetQuotaEvent.time, now event (mem_eventsOf.mp present).1, Option.getD_some]

theorem laterThan_append (reservation : Reservation) (first second : List Reservation)
    (seed : List FleetQuotaEvent) :
    laterThan reservation (first ++ second) seed = laterThan reservation first seed +
      second.countP fun other => other.backend = reservation.backend := by
  rw [laterThan, laterThan, List.countP_append]
  omega

theorem kept_new (faithful : Faithful nowMs seed reserved base)
    (formatted : toISOString nowMs = some ts) (ordered : InOrder FleetQuotaEvent.time base)
    (young : fresh nowMs base = base) {front back : List FleetQuotaReservationRequest}
    {request : FleetQuotaReservationRequest} (split : limited = front ++ request :: back) :
    maxEvents ≤ laterThan (reservationOf nowMs authorized request)
        (back.map (reservationOf nowMs authorized)) seed ∨
      ∃ pre post, eventsOf request.backend (compactReservationEvents
          (base ++ limited.map (reservationEvent ts)) nowMs) =
            pre ++ reservationEvent ts request :: post ∧
        post.length ≤ laterThan (reservationOf nowMs authorized request)
          (back.map (reservationOf nowMs authorized)) seed := by
  have placed := byTime_batch limited formatted ordered young request.backend
  have own : eventsOf request.backend (limited.map (reservationEvent ts)) =
      (front.filter fun other => other.backend = request.backend).map (reservationEvent ts) ++
        reservationEvent ts request :: (back.filter fun other =>
          other.backend = request.backend).map (reservationEvent ts) := by
    rw [eventsOf_reservations, split, List.filter_append, List.filter_cons_of_pos (by simp),
      List.map_append, List.map_cons]
  rw [own, List.append_assoc, List.cons_append, ← List.append_assoc] at placed
  have ahead := faithful.ahead request.backend nowMs le_rfl
  rw [List.countP_eq_length_filter] at ahead
  have few : ((back.filter fun other => other.backend = request.backend).map
      (reservationEvent ts) ++ (eventsOf request.backend base).filter fun event =>
        nowMs < event.time).length ≤
      laterThan (reservationOf nowMs authorized request)
        (back.map (reservationOf nowMs authorized)) seed := by
    rw [laterThan, List.countP_map, List.length_append, List.length_map,
      ← List.countP_eq_length_filter]
    exact Nat.add_le_add_left ahead _
  by_cases full : ((back.filter fun other => other.backend = request.backend).map
      (reservationEvent ts) ++ (eventsOf request.backend base).filter fun event =>
        nowMs < event.time).length < maxEvents
  · obtain ⟨kept, -, compacted⟩ := eventsOf_compact_split placed full
    exact .inr ⟨kept, _, compacted, few⟩
  · exact .inl ((Nat.not_lt.mp full).trans few)

theorem kept_old (limited : List FleetQuotaReservationRequest)
    (formatted : toISOString nowMs = some ts)
    (ordered : InOrder FleetQuotaEvent.time base) (young : fresh nowMs base = base)
    {backend : EngineId} {pre post : List FleetQuotaEvent} {event : FleetQuotaEvent}
    (stands : eventsOf backend base = pre ++ event :: post) (soon : event.time ≤ nowMs)
    (few : post.length + (limited.countP fun request => request.backend = backend) < maxEvents) :
    ∃ kept rest, eventsOf backend (compactReservationEvents
        (base ++ limited.map (reservationEvent ts)) nowMs) = kept ++ event :: rest ∧
      rest.length = post.length + limited.countP fun request => request.backend = backend := by
  have placed := byTime_batch limited formatted ordered young backend
  have own := inOrder_eventsOf ordered backend
  rw [stands] at own
  have before : ∀ other ∈ pre, other.time ≤ nowMs := fun other present =>
    ((List.pairwise_append.mp own).2.2 other present event List.mem_cons_self).trans soon
  have stay : (pre ++ event :: post).filter (fun other => other.time ≤ nowMs) =
      pre ++ event :: post.filter fun other => other.time ≤ nowMs := by
    rw [List.filter_append, List.filter_cons_of_pos (by simpa using soon),
      List.filter_eq_self.mpr fun other present => decide_eq_true (before other present)]
  have ahead : (pre ++ event :: post).filter (fun other => nowMs < other.time) =
      post.filter fun other => nowMs < other.time := by
    rw [List.filter_append, List.filter_cons_of_neg (by simpa using soon),
      List.filter_eq_nil_iff.mpr fun other present => by
        have := before other present
        simpa using this, List.nil_append]
  rw [stands, stay, ahead, List.append_assoc, List.cons_append] at placed
  have parts : (post.filter fun other => nowMs < other.time).length +
      (post.filter fun other => other.time ≤ nowMs).length = post.length := by
    have whole := List.length_eq_length_filter_add (l := post)
      fun other => decide (nowMs < other.time)
    have rest : post.filter (fun other => !decide (nowMs < other.time)) =
        post.filter fun other => other.time ≤ nowMs := by
      refine List.filter_congr fun other _ => ?_
      rw [← decide_not]
      exact decide_eq_decide.mpr Int.not_lt
    rw [rest] at whole
    exact whole.symm
  have size : (post.filter (fun other => other.time ≤ nowMs) ++
      (eventsOf backend (limited.map (reservationEvent ts)) ++
        post.filter fun other => nowMs < other.time)).length =
      post.length + limited.countP fun request => request.backend = backend := by
    rw [eventsOf_reservations, List.length_append, List.length_append, List.length_map,
      ← List.countP_eq_length_filter (l := limited)]
    omega
  obtain ⟨kept, -, compacted⟩ := eventsOf_compact_split placed (size ▸ few)
  exact ⟨kept, _, compacted, size⟩

theorem Faithful.install (faithful : Faithful nowMs seed reserved base)
    (valid : ∀ event ∈ base, event.Valid) (ordered : InOrder FleetQuotaEvent.time base)
    (young : fresh nowMs base = base) (formatted : toISOString nowMs = some ts)
    (known : ∀ request ∈ limited, request.backend ∈ engineIds) :
    Faithful nowMs seed (reserved ++ limited.map (reservationOf nowMs authorized))
      (compactReservationEvents (base ++ limited.map (reservationEvent ts)) nowMs) where
  counted backend cutoff inside := by
    have all : ∀ event ∈ base ++ limited.map (reservationEvent ts), event.Valid := by
      intro event present
      exact (List.mem_append.mp present).elim (valid event)
        (reservations_valid formatted known event)
    have former := faithful.counted backend cutoff inside
    rw [usedSince_compact all inside, usedSince_append,
      usedSince_reservations authorized formatted, List.countP_append]
    omega
  ahead backend t late := by
    refine (countP_compact_le _ nowMs backend _).trans ?_
    have none : (eventsOf backend (limited.map (reservationEvent ts))).countP
        (fun event => t < event.time) = 0 := by
      refine List.countP_eq_zero.mpr fun event present => ?_
      obtain ⟨request, -, rfl⟩ := List.mem_map.mp (mem_eventsOf.mp present).1
      rw [reservationEvent, time_of_formatted formatted]
      simpa using late
    have former := faithful.ahead backend t late
    rw [eventsOf, List.filter_append, List.countP_append]
    change (eventsOf backend base).countP _ + (eventsOf backend (limited.map _)).countP _ ≤ _
    omega
  kept front reservation back split := by
    have new : ∀ ahead, limited.map (reservationOf nowMs authorized) =
        ahead ++ reservation :: back → Retained nowMs seed (compactReservationEvents
          (base ++ limited.map (reservationEvent ts)) nowMs) reservation back := by
      intro ahead part
      obtain ⟨first, rest, whole, -, tail⟩ := List.map_eq_append_iff.mp part
      obtain ⟨request, others, rfl, rfl, rfl⟩ := List.map_eq_cons_iff.mp tail
      refine ⟨le_rfl, .inr ?_⟩
      refine (kept_new faithful formatted ordered young whole).imp_right ?_
      rintro ⟨pre, post, stands, few⟩
      exact ⟨ts, pre, post, formatted, stands, few⟩
    rcases List.append_eq_append_iff.mp split with
      ⟨ahead, rfl, part⟩ | ⟨rest, whole, part⟩
    · exact new ahead part
    · cases rest with
      | nil => exact new [] part.symm
      | cons first rest =>
        rw [List.cons_append] at part
        obtain ⟨rfl, rfl⟩ := List.cons.inj part
        obtain ⟨soon, place⟩ := faithful.kept front reservation rest whole
        refine ⟨soon, ?_⟩
        rw [laterThan_append]
        rcases place with old | many | ⟨former, pre, post, spelled, stands, few⟩
        · exact .inl old
        · exact .inr (.inl (many.trans (Nat.le_add_right _ _)))
        · have count : (limited.map (reservationOf nowMs authorized)).countP
              (fun other => other.backend = reservation.backend) =
                limited.countP fun request => request.backend = reservation.backend := by
            rw [List.countP_map]
            rfl
          rw [count]
          by_cases full : post.length + (limited.countP fun request =>
              request.backend = reservation.backend) < maxEvents
          · obtain ⟨kept, later, compacted, size⟩ := kept_old limited formatted
              ordered young stands (by rw [time_of_formatted spelled]; exact soon) full
            exact .inr (.inr ⟨former, kept, later, spelled, compacted, by omega⟩)
          · exact .inr (.inl (by omega))

end

end AshlrHub.Quota

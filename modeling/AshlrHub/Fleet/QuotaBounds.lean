import AshlrHub.Fleet.QuotaRun

namespace AshlrHub.Quota

open Js Authority Lib

/-! What every run keeps of the limits. -/

def Sound (world : World) : Prop :=
  match world.file with
  | none => world.reserved = []
  | some file => ∃ events, file = ledgerValue events ∧ Accepted events ∧
      InOrder FleetQuotaEvent.time events ∧
      Faithful world.clock world.seed world.reserved events

def World.seedAfter (world : World) (call : Call) : List FleetQuotaEvent :=
  match world.file with
  | none => (loadStrictQuota call.weather none).getD []
  | some _ => world.seed

theorem readable_of_loads {weather : Weather} {file : Option JsValue}
    {loaded : List FleetQuotaEvent} (loads : loadStrictQuota weather file = some loaded) :
    weather.readable = true := by
  cases readable : weather.readable with
  | true => rfl
  | false =>
      unfold loadStrictQuota at loads
      rw [if_pos readable] at loads
      cases loads

theorem Sound.base {world : World} {call : Call} {loaded : List FleetQuotaEvent}
    (sound : Sound world) (later : world.clock ≤ call.nowMs)
    (loads : loadStrictQuota call.weather world.file = some loaded) :
    Faithful call.nowMs (world.seedAfter call) world.reserved
      (compactReservationEvents loaded call.nowMs) := by
  unfold Sound at sound
  unfold World.seedAfter
  cases file : world.file with
  | none =>
      rw [file] at sound loads
      dsimp only at sound ⊢
      rw [sound, loads]
      exact faithful_seed _ _
  | some value =>
      rw [file] at sound loads
      dsimp only at sound ⊢
      obtain ⟨events, rfl, accepted, ordered, faithful⟩ := sound
      rw [loadStrictQuota_found accepted (readable_of_loads loads)] at loads
      obtain rfl := Option.some.inj loads
      exact faithful.compact accepted.valid ordered later

section

variable {world : World} {call : Call} {installed : JsValue} {loaded : List FleetQuotaEvent}
  {ts : JsString}

theorem Installs.base_valid (installs : Installs world.file call installed loaded ts) :
    ∀ event ∈ compactReservationEvents loaded call.nowMs, event.Valid :=
  fun event kept => loadStrictQuota_valid installs.loads event (mem_of_mem_compact kept)

theorem Installs.known_limited (installs : Installs world.file call installed loaded ts) :
    ∀ request ∈ call.limited, request.backend ∈ engineIds :=
  fun request present => installs.known request (List.mem_of_mem_filter present)

theorem Installs.accepted (installs : Installs world.file call installed loaded ts) :
    Accepted (compactReservationEvents (compactReservationEvents loaded call.nowMs ++
      call.limited.map (reservationEvent ts)) call.nowMs) where
  valid event kept :=
    (List.mem_append.mp (mem_of_mem_compact kept)).elim (installs.base_valid event)
      (reservations_valid installs.formatted installs.known_limited event)
  length := installs.length
  bytes := installs.ledger ▸ installs.bytes

theorem Installs.faithful (installs : Installs world.file call installed loaded ts)
    (sound : Sound world) (later : world.clock ≤ call.nowMs) (authorized : Bool) :
    Faithful call.nowMs (world.seedAfter call)
      (world.reserved ++ call.reservations authorized)
      (compactReservationEvents (compactReservationEvents loaded call.nowMs ++
        call.limited.map (reservationEvent ts)) call.nowMs) :=
  (sound.base later installs.loads).install installs.base_valid (inOrder_compact _ _)
    (fresh_compact _ _) installs.formatted installs.known_limited

theorem Installs.stands (installs : Installs world.file call installed loaded ts)
    {request : FleetQuotaReservationRequest} (present : request ∈ call.limited) :
    reservationEvent ts request ∈ compactReservationEvents
      (compactReservationEvents loaded call.nowMs ++ call.limited.map (reservationEvent ts))
      call.nowMs := by
  obtain ⟨inside, limits⟩ := List.mem_filter.mp present
  obtain ⟨limit, limited⟩ := Option.isSome_iff_exists.mp limits
  have room := installs.room request inside limit limited
  obtain ⟨most, window, -⟩ := limitOf_bounds limited
  obtain ⟨front, back, split⟩ := List.append_of_mem present
  generalize based : compactReservationEvents loaded call.nowMs = base at room ⊢
  have placed := @kept_new call.nowMs ts call.limited base base [] true
    (faithful_self _ _) installs.formatted (based ▸ inOrder_compact _ _)
    (based ▸ fresh_compact _ _) front back request split
  rcases placed with many | ⟨pre, post, stands, -⟩
  · -- more than the maximum would be ahead or in the batch
    have ahead : base.countP (fun event => event.backend = request.backend &&
        call.nowMs < event.time) ≤ usedSince base request.backend
          (call.nowMs - limit.windowMs) := by
      refine List.countP_mono_left fun event _ counted => ?_
      simp only [Bool.and_eq_true, decide_eq_true_eq] at counted ⊢
      exact ⟨counted.1, by omega⟩
    have rest : call.limited.countP (fun other => other.backend = request.backend) =
        front.countP (fun other => other.backend = request.backend) +
          (back.countP (fun other => other.backend = request.backend) + 1) := by
      rw [split, List.countP_append, List.countP_cons_of_pos (by simp)]
    rw [laterThan, List.countP_map] at many
    change maxEvents ≤ back.countP (fun other => other.backend = request.backend) +
      base.countP (fun event => event.backend = request.backend && call.nowMs < event.time) at many
    omega
  · have own : reservationEvent ts request ∈ eventsOf request.backend
        (compactReservationEvents (base ++ call.limited.map (reservationEvent ts)) call.nowMs) := by
      rw [stands]
      exact List.mem_append_right _ List.mem_cons_self
    exact (mem_eventsOf.mp own).1

end

section

variable {world : World} {call : Call}

theorem after_none (nothing : (reserveFleetQuotaUses world.file call).1 = none) :
    world.after call = { world with clock := call.nowMs } := by
  rw [World.after, nothing]

variable {installed : JsValue}

theorem after_some (stored : (reserveFleetQuotaUses world.file call).1 = some installed) :
    world.after call = ⟨call.nowMs, some installed, world.seedAfter call,
      world.reserved ++ call.reservations (call.authorized world.file)⟩ := by
  rw [World.after, stored]
  rfl

theorem launched_of_authorized (authorized : call.authorized world.file = true) :
    (reserveFleetQuotaUses world.file call).2.launchAuthorized = true ∧
      call.weather.crashed = false := by
  rw [Call.authorized, Bool.and_eq_true, decide_eq_true_eq] at authorized
  exact authorized.symm

theorem Sound.after (sound : Sound world) (later : world.clock ≤ call.nowMs) :
    Sound (world.after call) := by
  rcases reserveFleetQuotaUses_cases world.file call with
    ⟨nothing, -⟩ | ⟨installed, loaded, ts, stored, installs, -⟩
  · rw [after_none nothing]
    unfold Sound at sound ⊢
    cases file : world.file with
    | none =>
        rw [file] at sound
        exact sound
    | some value =>
        rw [file] at sound
        obtain ⟨events, same, accepted, ordered, faithful⟩ := sound
        exact ⟨events, same, accepted, ordered, faithful.later later⟩
  · rw [after_some stored]
    exact ⟨_, installs.ledger, installs.accepted, inOrder_compact _ _,
      installs.faithful sound later _⟩

theorem Sound.seedAfter_of_reserved (sound : Sound world) {front back : List Reservation}
    {reservation : Reservation} (split : world.reserved = front ++ reservation :: back) :
    world.seedAfter call = world.seed := by
  unfold Sound at sound
  unfold World.seedAfter
  cases file : world.file with
  | none =>
      rw [file] at sound
      dsimp only at sound
      rw [sound] at split
      simp at split
  | some value => rfl

section

variable {loaded : List FleetQuotaEvent} {ts : JsString}
  (installs : Installs world.file call installed loaded ts) (sound : Sound world)
  (later : world.clock ≤ call.nowMs)
include installs sound later

theorem Installs.bounded {request : FleetQuotaReservationRequest}
    (present : request ∈ call.requests) {limit : ReservationLimit}
    (limited : limitOf call.cfg request.backend = some limit) :
    (world.reserved ++ call.reservations true).countP (fun other =>
      other.authorized && other.backend = request.backend &&
        call.nowMs - limit.windowMs ≤ other.atMs) ≤ limit.max := by
  obtain ⟨most, -, window⟩ := limitOf_bounds limited
  have room := installs.room request present limit limited
  have counted := (sound.base later installs.loads).counted request.backend
    (call.nowMs - limit.windowMs) (by omega)
  have inside : request ∈ call.limited := List.mem_filter.mpr ⟨present, by rw [limited]; rfl⟩
  have some : 0 < call.limited.countP fun other => other.backend = request.backend :=
    List.countP_pos_iff.mpr ⟨request, inside, by simp⟩
  have before : world.reserved.countP (fun other =>
      other.authorized && other.backend = request.backend &&
        call.nowMs - limit.windowMs ≤ other.atMs) ≤
      world.reserved.countP fun other => other.backend = request.backend &&
        call.nowMs - limit.windowMs ≤ other.atMs := by
    refine List.countP_mono_left fun other _ held => ?_
    simp only [Bool.and_eq_true, decide_eq_true_eq] at held ⊢
    exact ⟨held.1.2, held.2⟩
  have batch : (call.reservations true).countP (fun other =>
      other.authorized && other.backend = request.backend &&
        call.nowMs - limit.windowMs ≤ other.atMs) ≤
      call.limited.countP fun other => other.backend = request.backend := by
    rw [Call.reservations, List.countP_map]
    refine List.countP_mono_left fun other _ held => ?_
    simp only [Function.comp_apply, reservationOf, Bool.and_eq_true, decide_eq_true_eq] at held ⊢
    exact of_decide_eq_true held.1.2
  rw [List.countP_append]
  omega

theorem Installs.once {request : FleetQuotaReservationRequest}
    (present : request ∈ call.limited) {front back : List Reservation} {earlier : Reservation}
    (split : world.reserved = front ++ earlier :: back)
    (same : earlier.dispatchId = request.dispatchId) :
    earlier.atMs < call.nowMs - maximumWindowMs ∨
      maxEvents ≤ laterThan earlier back world.seed := by
  obtain ⟨-, place⟩ := (sound.base later installs.loads).kept front earlier back split
  rw [sound.seedAfter_of_reserved split] at place
  rcases place with old | many | ⟨former, pre, post, -, stands, -⟩
  · exact .inl old
  · exact .inr many
  · have kept : (⟨earlier.backend, former, some (reservationIdHash earlier.dispatchId)⟩ :
        FleetQuotaEvent) ∈ eventsOf earlier.backend
          (compactReservationEvents loaded call.nowMs) := by
      rw [stands]
      exact List.mem_append_right _ List.mem_cons_self
    exact absurd (congrArg (fun id => some (reservationIdHash id)) same)
      (installs.unseen request (List.mem_of_mem_filter present) _ (mem_eventsOf.mp kept).1)

end

theorem Sound.keeps (sound : Sound world) (later : world.clock ≤ call.nowMs) :
    call.Keeps world (world.after call) := by
  rcases reserveFleetQuotaUses_cases world.file call with
    ⟨nothing, launches⟩ | ⟨installed, loaded, ts, stored, installs, launches⟩
  · -- nothing is limited where nothing is installed and the launch authorized
    have none : call.authorized world.file = true → call.limited = [] :=
      fun authorized => (launches (launched_of_authorized authorized).1).1
    rw [after_none nothing]
    refine ⟨?_, ⟨⟨[], (List.append_nil _).symm, .inl rfl, ?_⟩, ?_⟩, ?_, ?_⟩
    · intro authorized request present limit limited
      have inside : request ∈ call.limited :=
        List.mem_filter.mpr ⟨present, by rw [limited]; rfl⟩
      rw [none authorized] at inside
      cases inside
    · intro authorized
      rw [Call.reservations, none authorized]
      rfl
    · exact fun authorized => (launches (launched_of_authorized authorized).1).2
    · intro authorized
      rw [none authorized]
      exact ⟨List.nodup_nil, fun _ absent => nomatch absent⟩
    · intro installed stored
      rw [nothing] at stored
      cases stored
  · rw [after_some stored]
    refine ⟨?_, ⟨⟨_, rfl, .inr rfl, fun authorized => by rw [authorized]⟩, ?_⟩, ?_, ?_⟩
    · intro authorized request present limit limited
      rw [authorized]
      exact installs.bounded sound later present limited
    · exact fun authorized => (launches (launched_of_authorized authorized).1).2.2
    · exact fun authorized => ⟨installs.distinct.sublist (List.filter_sublist.map _),
        fun request present front earlier back split same =>
          installs.once sound later present split same⟩
    · intro other same
      rw [stored] at same
      obtain rfl := Option.some.inj same
      refine ⟨rfl, ⟨_, ts, installs.formatted, installs.ledger, fun request present =>
        installs.stands present⟩, fun unconfirmed => Bool.eq_false_iff.mpr fun authorized => ?_⟩
      obtain ⟨launched, alive⟩ := launched_of_authorized authorized
      obtain ⟨confirmed, released, -⟩ := launches launched
      rcases unconfirmed with failed | held | crashed
      · exact failed confirmed
      · rw [released] at held
        cases held
      · rw [alive] at crashed
        cases crashed

end

theorem sound_freshWorld (clock : ℤ) : Sound (freshWorld clock) := rfl

theorem sound_of_run {clock : ℤ} {calls : List Call} {world : World}
    (run : Run Step (freshWorld clock) calls world) : Sound world := by
  refine run.invariant (fun sound taken => ?_) (sound_freshWorld clock)
  obtain ⟨later, rfl⟩ := taken
  exact sound.after later

/-- In every run each ledger is accepted again, and each call keeps the limits. -/
theorem launches_bounded {clock : ℤ} {calls : List Call} {world : World}
    (run : Run Step (freshWorld clock) calls world) :
    (∀ file ∈ world.file, ∀ weather : Weather, weather.readable = true →
      (loadStrictQuota weather (some file)).isSome) ∧
    ∀ call next, Step world call next → call.Keeps world next := by
  have sound := sound_of_run run
  constructor
  · intro file present weather readable
    unfold Sound at sound
    rw [Option.mem_def.mp present] at sound
    obtain ⟨events, rfl, accepted, -, -⟩ := sound
    rw [loadStrictQuota_found accepted readable]
    rfl
  · intro call next taken
    obtain ⟨later, rfl⟩ := taken
    exact sound.keeps later

def loneCall (nowMs : ℤ) (dispatchId : JsString) : Call where
  requests := [⟨.claude, dispatchId⟩]
  cfg backend := if backend = .claude then some ⟨some (js "5h"), some 2⟩ else none
  lockWaitMs := none
  nowMs := nowMs
  weather := ⟨true, true, true, .missing, true, .confirmed, true, false⟩

def firstWorld : World := (freshWorld 0).after (loneCall 1700000000000 (js "a"))

theorem launches_bounded_secondCall :
    (loneCall 1700000000000 (js "a")).authorized none = true ∧
      (loneCall 1700000001000 (js "b")).authorized firstWorld.file = true ∧
      (loneCall 1700000001000 (js "b")).Keeps firstWorld
        (firstWorld.after (loneCall 1700000001000 (js "b"))) := by
  have step : Step (freshWorld 0) (loneCall 1700000000000 (js "a")) firstWorld := ⟨by decide, rfl⟩
  have clock : firstWorld.clock = 1700000000000 := by
    unfold firstWorld World.after
    split <;> rfl
  refine ⟨by decide +kernel, by decide +kernel,
    (launches_bounded (Run.single step)).2 _ _ ⟨?_, rfl⟩⟩
  rw [clock]
  decide

end AshlrHub.Quota

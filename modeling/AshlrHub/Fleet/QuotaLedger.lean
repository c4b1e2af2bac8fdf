import AshlrHub.Fleet.Quota

namespace AshlrHub.Quota

open Js Authority Lib

/-! What compaction keeps of each backend's events. -/

def eventsOf (backend : EngineId) (events : List FleetQuotaEvent) : List FleetQuotaEvent :=
  events.filter fun event => event.backend = backend

structure Grouped (events : List FleetQuotaEvent)
    (map : JsMap EngineId (List FleetQuotaEvent)) : Prop where
  once : (map.map Prod.fst).Nodup
  own : ∀ entry ∈ map, ∀ event ∈ entry.2, event.backend = entry.1
  rows : ∀ backend, (map.get? backend).getD [] = newest maxEvents (eventsOf backend events)

theorem grouped (events : List FleetQuotaEvent) : Grouped events (events.foldl groupEvent []) := by
  induction events using List.reverseRecOn with
  | nil =>
      refine ⟨List.nodup_nil, ?_, fun _ => List.drop_nil.symm⟩
      intro entry absent
      cases absent
  | append_singleton events event ih =>
      rw [List.foldl_append]
      change Grouped _ (groupEvent (events.foldl groupEvent []) event)
      refine ⟨JsMap.nodup_keys_set _ _ ih.once, fun entry present => ?_, fun backend => ?_⟩
      · rcases JsMap.mem_entries_set present with rfl | former
        · intro row inside
          dsimp only at inside ⊢
          rw [ih.rows, pushBounded_newest] at inside
          rcases List.mem_append.mp ((newest_sublist _ _).subset inside) with kept | last
          · exact of_decide_eq_true (List.mem_filter.mp kept).2
          · rw [List.mem_singleton.mp last]
        · exact ih.own entry former
      · rw [groupEvent, JsMap.get?_set, ih.rows event.backend]
        split_ifs with same
        · rw [Option.getD_some, pushBounded_newest, same, eventsOf, eventsOf, List.filter_append,
            List.filter_singleton, decide_eq_true rfl, cond_true]
        · rw [ih.rows backend, eventsOf, eventsOf, List.filter_append, List.filter_singleton,
            decide_eq_false (Ne.symm same), cond_false, List.append_nil]

theorem eventsOf_flatten {map : JsMap EngineId (List FleetQuotaEvent)}
    (once : (map.map Prod.fst).Nodup)
    (own : ∀ entry ∈ map, ∀ event ∈ entry.2, event.backend = entry.1) (backend : EngineId) :
    eventsOf backend (map.flatMap Prod.snd) = (JsMap.get? map backend).getD [] := by
  induction map with
  | nil => rfl
  | cons entry map ih =>
      obtain ⟨fresh, once⟩ := List.nodup_cons.mp once
      have rest := ih once fun other present => own other (List.mem_cons_of_mem _ present)
      have first := own entry List.mem_cons_self
      rw [List.flatMap_cons, eventsOf, List.filter_append]
      change entry.2.filter _ ++ eventsOf backend (map.flatMap Prod.snd) = _
      rw [rest, JsMap.get?_cons]
      by_cases same : entry.1 = backend
      · have absent : JsMap.get? map backend = none := JsMap.get?_eq_none (same ▸ fresh)
        rw [if_pos same, absent, Option.getD_none, List.append_nil, Option.getD_some]
        refine List.filter_eq_self.mpr fun event inside => ?_
        exact decide_eq_true ((first event inside).trans same)
      · rw [if_neg same, List.filter_eq_nil_iff.mpr fun event inside => by
          rw [first event inside]
          simpa using same, List.nil_append]

def fresh (nowMs : ℤ) (events : List FleetQuotaEvent) : List FleetQuotaEvent :=
  events.filter fun event => (dateParse event.ts).any fun ts => nowMs - maximumWindowMs ≤ ts

theorem eventsOf_compact (events : List FleetQuotaEvent) (nowMs : ℤ) (backend : EngineId) :
    eventsOf backend (compactReservationEvents events nowMs) =
      newest maxEvents (byTime FleetQuotaEvent.time (eventsOf backend (fresh nowMs events))) := by
  have group := grouped (byTime FleetQuotaEvent.time (fresh nowMs events))
  rw [compactReservationEvents, eventsOf, filter_byTime]
  change byTime _ (eventsOf backend (List.flatMap Prod.snd
    ((byTime FleetQuotaEvent.time (fresh nowMs events)).foldl groupEvent []))) = _
  rw [eventsOf_flatten group.once group.own, group.rows, eventsOf, filter_byTime]
  exact byTime_of_inOrder ((inOrder_byTime _).sublist (newest_sublist _ _))

theorem inOrder_compact (events : List FleetQuotaEvent) (nowMs : ℤ) :
    InOrder FleetQuotaEvent.time (compactReservationEvents events nowMs) :=
  inOrder_byTime _

variable {events : List FleetQuotaEvent} {event : FleetQuotaEvent}

theorem mem_eventsOf {backend : EngineId} :
    event ∈ eventsOf backend events ↔ event ∈ events ∧ event.backend = backend := by
  rw [eventsOf, List.mem_filter, decide_eq_true_eq]

variable {nowMs : ℤ}

section

variable (kept : event ∈ compactReservationEvents events nowMs)
include kept

theorem mem_fresh_of_mem_compact :
    event ∈ fresh nowMs events := by
  have own := mem_eventsOf.mpr ⟨kept, rfl⟩
  rw [eventsOf_compact] at own
  have sorted := (perm_byTime _).subset ((newest_sublist _ _).subset own)
  exact (mem_eventsOf.mp sorted).1

theorem mem_of_mem_compact :
    event ∈ events :=
  List.mem_of_mem_filter (mem_fresh_of_mem_compact kept)

end

theorem fresh_compact (events : List FleetQuotaEvent) (nowMs : ℤ) :
    fresh nowMs (compactReservationEvents events nowMs) =
      compactReservationEvents events nowMs :=
  List.filter_eq_self.mpr fun _ kept =>
    (List.mem_filter.mp (mem_fresh_of_mem_compact kept)).2

/-! What the codec accepts. -/

structure FleetQuotaEvent.Valid (event : FleetQuotaEvent) : Prop where
  backend : event.backend ∈ engineIds
  ts : isCanonicalInstant event.ts = true
  hash : ∀ hash ∈ event.reservationIdHash, sha256HexPattern hash = true

theorem FleetQuotaEvent.Valid.parses (valid : event.Valid) :
    dateParse event.ts = some event.time := by
  obtain ⟨t, formatted⟩ := isCanonicalInstant_iff.mp valid.ts
  rw [FleetQuotaEvent.time, dateParse_toISOString formatted, Option.getD_some]

theorem strictQuotaEvent_toValue (valid : event.Valid) :
    strictQuotaEvent event.toValue = some event := by
  have known : (JsEnum.ofValue (.str (JsEnum.text event.backend))).filter
      (fun backend : EngineId => decide (backend ∈ engineIds)) = some event.backend := by
    rw [JsEnum.ofValue_str, Option.filter_some, if_pos (decide_eq_true valid.backend)]
  have instant : (some event.ts).filter isCanonicalInstant = some event.ts := by
    rw [Option.filter_some, if_pos valid.ts]
  unfold strictQuotaEvent FleetQuotaEvent.toValue
  refine Option.bind_eq_some_iff.mpr ⟨_, rfl, Option.bind_eq_some_iff.mpr ⟨(), ?_,
    Option.bind_eq_some_iff.mpr ⟨event.backend, known, Option.bind_eq_some_iff.mpr
      ⟨event.ts, instant, ?_⟩⟩⟩⟩
  · obtain ⟨backend, ts, hash⟩ := event
    cases hash with
    | none => exact if_pos (.inl rfl)
    | some hash => exact if_pos (.inr rfl)
  · obtain ⟨backend, ts, hash⟩ := event
    cases hash with
    | none => rfl
    | some hash => exact if_pos (valid.hash hash rfl)

theorem strictQuotaEvent_valid {value : JsValue} (accepted : strictQuotaEvent value = some event) :
    event.Valid := by
  unfold strictQuotaEvent at accepted
  obtain ⟨row, -, accepted⟩ := Option.bind_eq_some_iff.mp accepted
  obtain ⟨-, -, accepted⟩ := Option.bind_eq_some_iff.mp accepted
  obtain ⟨backend, known, accepted⟩ := Option.bind_eq_some_iff.mp accepted
  obtain ⟨ts, instant, accepted⟩ := Option.bind_eq_some_iff.mp accepted
  have member : backend ∈ engineIds := of_decide_eq_true (Option.filter_eq_some_iff.mp known).2
  have canonical := (Option.filter_eq_some_iff.mp instant).2
  split at accepted
  · cases accepted
    exact ⟨member, canonical, fun _ absent => nomatch absent⟩
  · rename_i hash _
    split_ifs at accepted with pattern
    cases accepted
    refine ⟨member, canonical, fun other same => ?_⟩
    obtain rfl := Option.some.inj same
    exact pattern
  · cases accepted

theorem mapM_strictQuotaEvent (valid : ∀ event ∈ events, event.Valid) :
    (events.map FleetQuotaEvent.toValue).mapM strictQuotaEvent = some events := by
  induction events with
  | nil => rfl
  | cons event events ih =>
      rw [List.map_cons, List.mapM_cons, strictQuotaEvent_toValue (valid event (by simp)),
        ih fun other present => valid other (List.mem_cons_of_mem _ present)]
      rfl

theorem valid_of_mapM {values : List JsValue}
    (accepted : values.mapM strictQuotaEvent = some events) : ∀ event ∈ events, event.Valid := by
  induction values generalizing events with
  | nil =>
      cases accepted
      intro event absent
      cases absent
  | cons value values ih =>
      rw [List.mapM_cons] at accepted
      obtain ⟨first, head, accepted⟩ := Option.bind_eq_some_iff.mp accepted
      obtain ⟨rest, tail, accepted⟩ := Option.bind_eq_some_iff.mp accepted
      cases accepted
      intro event present
      rcases List.mem_cons.mp present with rfl | later
      · exact strictQuotaEvent_valid head
      · exact ih tail event later

theorem parseStrictQuota_valid {bytes mostEvents mostBytes : ℕ} {parsed : Option JsValue}
    (accepted : parseStrictQuota bytes parsed mostEvents mostBytes = some events) :
    ∀ event ∈ events, event.Valid := by
  unfold parseStrictQuota at accepted
  split_ifs at accepted
  split at accepted
  · cases accepted
  · split_ifs at accepted
    split at accepted
    · cases accepted
    · split_ifs at accepted
      exact valid_of_mapM accepted

structure Accepted (events : List FleetQuotaEvent) : Prop where
  valid : ∀ event ∈ events, event.Valid
  length : events.length ≤ maxAuthorityEvents
  bytes : fileBytes (ledgerValue events) ≤ maxAuthorityLedgerBytes

theorem parseStrictQuota_ledgerValue (accepted : Accepted events) :
    parseStrictQuota (fileBytes (ledgerValue events)) (some (ledgerValue events))
      maxAuthorityEvents maxAuthorityLedgerBytes = some events := by
  have keys : exactKeys [(js "events", JsValue.arr (events.map FleetQuotaEvent.toValue))]
      [js "events"] = true := rfl
  have items : (getMember [(js "events", JsValue.arr (events.map FleetQuotaEvent.toValue))]
      (js "events")).asArray = some (events.map FleetQuotaEvent.toValue) := rfl
  have short : ¬ maxAuthorityEvents < (events.map FleetQuotaEvent.toValue).length := by
    rw [List.length_map]
    exact Nat.not_lt.mpr accepted.length
  rw [parseStrictQuota, if_neg (Nat.not_lt.mpr accepted.bytes)]
  simp only [ledgerValue, Option.bind_some, JsValue.asRecord, keys, Bool.true_eq_false, if_false,
    items, if_neg short, mapM_strictQuotaEvent accepted.valid]

theorem loadStrictQuota_found {weather : Weather} (accepted : Accepted events)
    (readable : weather.readable = true) :
    loadStrictQuota weather (some (ledgerValue events)) = some events := by
  rw [loadStrictQuota, readable]
  simp only [Bool.true_eq_false, if_false, if_neg (Nat.not_lt.mpr accepted.bytes),
    parseStrictQuota_ledgerValue accepted]

theorem loadStrictQuota_valid {weather : Weather} {file : Option JsValue}
    (loaded : loadStrictQuota weather file = some events) :
    ∀ event ∈ events, event.Valid := by
  unfold loadStrictQuota at loaded
  split_ifs at loaded
  split at loaded
  · split at loaded
    · cases loaded
      intro event absent
      cases absent
    · cases loaded
    · split_ifs at loaded
      exact parseStrictQuota_valid loaded
  · split_ifs at loaded
    exact parseStrictQuota_valid loaded

/-! Counting. -/

theorem usedSince_eq (events : List FleetQuotaEvent) (backend : EngineId) (cutoff : ℤ) :
    usedSince events backend cutoff =
      ((eventsOf backend events).filter fun event => cutoff ≤ event.time).length := by
  rw [usedSince, List.countP_eq_length_filter, eventsOf, List.filter_filter]
  congr 1
  refine List.filter_congr fun event _ => ?_
  rw [Bool.and_comm]

theorem usedSince_append (first second : List FleetQuotaEvent) (backend : EngineId) (cutoff : ℤ) :
    usedSince (first ++ second) backend cutoff =
      usedSince first backend cutoff + usedSince second backend cutoff :=
  List.countP_append ..

section

variable {cutoff : ℤ} (valid : ∀ event ∈ events, event.Valid)
  (inside : nowMs - maximumWindowMs ≤ cutoff) (backend : EngineId)
include valid inside backend

theorem usedSince_fresh :
    usedSince (fresh nowMs events) backend cutoff = usedSince events backend cutoff := by
  rw [usedSince, fresh, List.countP_filter]
  refine List.countP_congr fun event present => ?_
  rw [(valid event present).parses, Option.any_some]
  simp only [Bool.and_eq_true, decide_eq_true_eq]
  constructor
  · rintro ⟨counted, -⟩
    exact counted
  · rintro ⟨same, late⟩
    exact ⟨⟨same, late⟩, inside.trans late⟩

theorem usedSince_compact :
    usedSince (compactReservationEvents events nowMs) backend cutoff =
      min maxEvents (usedSince events backend cutoff) := by
  rw [usedSince_eq, eventsOf_compact, length_newest_since (inOrder_byTime _)]
  congr 1
  rw [((perm_byTime _).filter _).length_eq, ← usedSince_eq, usedSince_fresh valid inside]

end

theorem eventsOf_compact_split {front back : List FleetQuotaEvent} {backend : EngineId}
    (split : byTime FleetQuotaEvent.time (eventsOf backend (fresh nowMs events)) =
      front ++ event :: back) (few : back.length < maxEvents) :
    ∃ kept, kept.Sublist front ∧
      eventsOf backend (compactReservationEvents events nowMs) = kept ++ event :: back := by
  rw [eventsOf_compact, split]
  exact newest_split few

end AshlrHub.Quota

import AshlrHub.Authority.ReserveBreach

namespace AshlrHub.Authority

open Js Lib Routing

/-! One call of the watch, seen from one seat and window. -/

abbrev WatchPair := SeatId × QuotaWindow

def WatchPair.key (pair : WatchPair) : JsString :=
  watchKey pair.1 pair.2

theorem QuotaWindow.getLast?_text (window : QuotaWindow) :
    window.text.getLast? = some (match window with | .session => 0x6E | .weekly => 0x79) := by
  cases window <;> decide

theorem WatchPair.key_injective : Function.Injective WatchPair.key := by
  rintro ⟨seatId, window⟩ ⟨other, second⟩ same
  have windows : window = second := by
    have last := congrArg List.getLast? same
    simp only [WatchPair.key, watchKey, List.getLast?_append, QuotaWindow.getLast?_text,
      Option.some_or] at last
    cases window <;> cases second <;> first | rfl | exact absurd last (by decide)
  subst windows
  have texts : seatId.text = other.text := List.append_cancel_right same
  rw [Prod.mk.injEq]
  exact ⟨by cases seatId; cases other; simpa using texts, rfl⟩

section Sightings

variable (parser : DateParser) (call : WatchCall)

theorem windowReadings_nodup (seat : SeatCapacity) (nowMs : ℤ) (policy : EffectiveSeatPolicy) :
    ((windowReadings parser seat nowMs policy).map (·.window)).Nodup := by
  unfold windowReadings
  dsimp only
  split <;> split <;> simp

theorem seatSightings_nodup (seat : SeatCapacity) :
    ((seatSightings parser call seat).map Sighting.pair).Nodup ∧
      ∀ sighting ∈ seatSightings parser call seat, sighting.seatId = seat.seatId := by
  unfold seatSightings
  split
  · exact ⟨List.nodup_nil, by simp⟩
  · next policy _ =>
    split
    · split_ifs
      · exact ⟨List.nodup_nil, by simp⟩
      · constructor
        · have windows := windowReadings_nodup parser seat call.nowMs policy
          rw [List.map_map]
          refine List.Nodup.of_map Prod.snd ?_
          rw [List.map_map]
          exact windows
        · simp
    · exact ⟨List.nodup_nil, by simp⟩

theorem sightings_nodup (seats : List SeatCapacity) : ∀ seen : List SeatId,
    ((sightings parser call seen seats).map Sighting.pair).Nodup ∧
      ∀ sighting ∈ sightings parser call seen seats, sighting.seatId ∉ seen := by
  induction seats with
  | nil => exact fun seen => ⟨List.nodup_nil, by simp [sightings]⟩
  | cons seat seats ih =>
      intro seen
      rw [sightings]
      split_ifs with skipped
      · exact ih seen
      · rw [not_or] at skipped
        obtain ⟨here, hereIds⟩ := seatSightings_nodup parser call seat
        obtain ⟨rest, restIds⟩ := ih (seat.seatId :: seen)
        constructor
        · rw [List.map_append, List.nodup_append]
          refine ⟨here, rest, ?_⟩
          rintro pair inHere other inRest rfl
          obtain ⟨first, inFirst, rfl⟩ := List.mem_map.mp inHere
          obtain ⟨second, inSecond, same⟩ := List.mem_map.mp inRest
          have ids : second.seatId = first.seatId := congrArg Prod.fst same
          exact restIds second inSecond (by simp [ids, hereIds first inFirst])
        · intro sighting member
          rcases List.mem_append.mp member with inHere | inRest
          · rw [hereIds sighting inHere]
            exact skipped.2
          · exact fun inSeen => restIds sighting inRest (List.mem_cons_of_mem _ inSeen)

theorem isTime_of_sighting {seats : List SeatCapacity} {seen : List SeatId} {sighting : Sighting}
    (member : sighting ∈ sightings parser call seen seats) :
    isTime sighting.observedMs = true := by
  induction seats generalizing seen with
  | nil => cases member
  | cons seat seats ih =>
      rw [sightings] at member
      split_ifs at member with skipped
      · exact ih member
      · rcases List.mem_append.mp member with here | rest
        · unfold seatSightings at here
          split at here
          · cases here
          · split at here
            · next observedMs _ parsed =>
              split_ifs at here
              · cases here
              · obtain ⟨reading, -, rfl⟩ := List.mem_map.mp here
                obtain ⟨text, -, time⟩ := Option.bind_eq_some_iff.mp parsed
                exact parser.inRange time
            · cases here
        · exact ih rest

variable {parser call} in

theorem parse_observedAt {seats : List SeatCapacity} {seen : List SeatId} {sighting : Sighting}
    (member : sighting ∈ sightings parser call seen seats) :
    parser.parse sighting.observedAt = some sighting.observedMs := by
  have formatted : toISOString sighting.observedMs = some sighting.observedAt := by
    rw [Sighting.observedAt, toISOString, if_pos (isTime_of_sighting parser call member)]
    rfl
  exact parser.written formatted

def ReserveBreachDetection.breachesOf (found : ReserveBreachDetection) (pair : WatchPair) :
    List ReserveBreachRecord :=
  found.breaches.filter fun breach => (breach.seatId, breach.window) = pair

def sightingOf (pair : WatchPair) : Option Sighting :=
  (sightings parser call [] call.seats).find? fun sighting => sighting.pair = pair

def judgedOf (state : ReserveWatchState) (pair : WatchPair) : Option (ReserveWatchEntry × Bool) :=
  (sightingOf parser call pair).bind (judge parser call (state.get? pair.key))

theorem watchSighting_other {state : ReserveWatchState} {found : ReserveBreachDetection}
    {sighting : Sighting} {pair : WatchPair} (other : sighting.pair ≠ pair) :
    (watchSighting parser call state found sighting).state.get? pair.key =
        found.state.get? pair.key ∧
      (watchSighting parser call state found sighting).breachesOf pair =
        found.breachesOf pair := by
  have keys : pair.key ≠ watchKey sighting.seatId sighting.reading.window :=
    fun same => other (WatchPair.key_injective same).symm
  unfold watchSighting
  dsimp only
  split
  · exact ⟨rfl, rfl⟩
  · next entry charged _ =>
    refine ⟨JsMap.get?_set_ne keys _ _, ?_⟩
    cases charged with
    | false => rfl
    | true =>
        have apart : ¬ (((breachOf sighting).seatId, (breachOf sighting).window) = pair) := other
        simp only [ReserveBreachDetection.breachesOf, if_true, List.filter_append]
        rw [List.filter_singleton, decide_eq_false apart]
        exact List.append_nil _

theorem watchSighting_self {state : ReserveWatchState} {found : ReserveBreachDetection}
    {sighting : Sighting} {pair : WatchPair} (same : sighting.pair = pair) :
    (watchSighting parser call state found sighting).state.get? pair.key =
        ((judge parser call (state.get? pair.key) sighting).map Prod.fst).or
          (found.state.get? pair.key) ∧
      (watchSighting parser call state found sighting).breachesOf pair =
        found.breachesOf pair ++
          (if (judge parser call (state.get? pair.key) sighting).any Prod.snd then
            [breachOf sighting] else []) := by
  subst same
  have key : watchKey sighting.seatId sighting.reading.window = WatchPair.key sighting.pair := rfl
  unfold watchSighting
  rw [key]
  dsimp only
  cases judged : judge parser call (state.get? (WatchPair.key sighting.pair)) sighting with
  | none => exact ⟨rfl, (List.append_nil _).symm⟩
  | some verdict =>
      obtain ⟨entry, charged⟩ := verdict
      refine ⟨JsMap.get?_set_self _ _ _, ?_⟩
      cases charged with
      | false => exact (List.append_nil _).symm
      | true =>
          have own : ((breachOf sighting).seatId, (breachOf sighting).window) = sighting.pair := rfl
          simp only [ReserveBreachDetection.breachesOf, if_true, List.filter_append,
            Option.any_some]
          rw [List.filter_singleton, decide_eq_true own]
          rfl

theorem foldl_watchSighting {state : ReserveWatchState} {pair : WatchPair} :
    {seen : List Sighting} → (found : ReserveBreachDetection) →
    (seen.map Sighting.pair).Nodup →
    (seen.foldl (watchSighting parser call state) found).state.get? pair.key =
        (((seen.find? fun sighting => sighting.pair = pair).bind
          (judge parser call (state.get? pair.key))).map Prod.fst).or (found.state.get? pair.key) ∧
      ((seen.foldl (watchSighting parser call state) found).breachesOf pair).length =
        (found.breachesOf pair).length +
          if ((seen.find? fun sighting => sighting.pair = pair).bind
            (judge parser call (state.get? pair.key))).any Prod.snd then 1 else 0
  | [], found, _ => ⟨rfl, rfl⟩
  | sighting :: seen, found, once => by
      rw [List.map_cons, List.nodup_cons] at once
      rw [List.foldl_cons]
      obtain ⟨entry, breaches⟩ := foldl_watchSighting
        (watchSighting parser call state found sighting) once.2
      by_cases same : sighting.pair = pair
      · have absent : (seen.find? fun sighting => sighting.pair = pair) = none := by
          rw [List.find?_eq_none]
          intro other member
          rw [decide_eq_true_eq]
          intro again
          exact once.1 (by rw [same, ← again]; exact List.mem_map_of_mem member)
        obtain ⟨set, added⟩ := @watchSighting_self parser call state found _ _ same
        rw [entry, breaches, absent, List.find?_cons_of_pos (by simpa using same), set, added,
          List.length_append]
        refine ⟨rfl, ?_⟩
        rw [Option.bind_some, Option.bind_none, Option.any_none,
          if_neg Bool.false_ne_true, Nat.add_zero]
        congr 1
        split_ifs <;> rfl
      · obtain ⟨kept, unadded⟩ :=
          @watchSighting_other parser call state found _ _ same
        rw [entry, breaches, List.find?_cons_of_neg (by simpa using same), kept, unadded]
        exact ⟨rfl, rfl⟩

theorem watchAll_entry (state : ReserveWatchState) (pair : WatchPair) :
    (watchAll parser call state).state.get? pair.key =
      ((judgedOf parser call state pair).map Prod.fst).or (state.get? pair.key) :=
  (foldl_watchSighting parser call _ (sightings_nodup parser call call.seats []).1).1

theorem watchAll_breaches (state : ReserveWatchState) (pair : WatchPair) :
    ((watchAll parser call state).breachesOf pair).length =
      if (judgedOf parser call state pair).any Prod.snd then 1 else 0 := by
  have counted := (@foldl_watchSighting parser call state pair _ ⟨[], state⟩
    (sightings_nodup parser call call.seats []).1).2
  rw [watchAll, counted]
  exact Nat.zero_add _

end Sightings

theorem foldl_delete_get? {key : JsString} :
    (dropped : List (JsString × ReserveWatchEntry)) → (state : ReserveWatchState) →
    (dropped.foldl (fun kept entry => JsMap.delete entry.1 kept) state).get? key =
        state.get? key ∨
      (dropped.foldl (fun kept entry => JsMap.delete entry.1 kept) state).get? key = none
  | [], _ => .inl rfl
  | entry :: dropped, state => by
      rw [List.foldl_cons]
      have before : (JsMap.delete entry.1 state).get? key = state.get? key ∨
          (JsMap.delete entry.1 state).get? key = none := by
        rcases eq_or_ne key entry.1 with rfl | other
        · exact .inr (JsMap.get?_delete_self _ _)
        · exact .inl (JsMap.get?_delete_ne other _)
      rcases foldl_delete_get? dropped (JsMap.delete entry.1 state) with same | gone
      · rwa [same]
      · exact .inr gone

theorem boundWatch_get? (parser : DateParser) (sorting : SortAlgorithm) (state : ReserveWatchState)
    (key : JsString) :
    (boundWatch parser sorting state).get? key = state.get? key ∨
      (boundWatch parser sorting state).get? key = none := by
  unfold boundWatch
  split_ifs
  · exact foldl_delete_get? _ _
  · exact .inl rfl

theorem compareEntries_consistent {parser : DateParser} {state : ReserveWatchState}
    (times : ∀ entry ∈ state, (parser.parse entry.2.at').isSome = true) :
    Consistent (compareEntries parser) state := by
  have keyed := Consistent.ofKey
    (fun entry : JsString × ReserveWatchEntry => (((parser.parse entry.2.at').getD 0 : ℤ) : ℚ))
      state
  have same : ∀ a ∈ state, ∀ b ∈ state, compareEntries parser a b =
      (((parser.parse a.2.at').getD 0 : ℤ) : ℚ) - (((parser.parse b.2.at').getD 0 : ℤ) : ℚ) := by
    intro a inA b inB
    obtain ⟨first, firstTime⟩ := Option.isSome_iff_exists.mp (times a inA)
    obtain ⟨second, secondTime⟩ := Option.isSome_iff_exists.mp (times b inB)
    rw [compareEntries, firstTime, secondTime]
    simp
  constructor
  · intro a inA b inB
    rw [same a inA b inB, same b inB a inA]
    exact keyed.flips a inA b inB
  · intro a inA b inB c inC
    rw [same a inA b inB, same b inB c inC, same a inA c inC]
    exact keyed.trans a inA b inB c inC

theorem boundWatch_oldest {parser : DateParser} {sorting : SortAlgorithm}
    {state : ReserveWatchState} {entry : JsString × ReserveWatchEntry} {t : ℤ}
    (full : state.length = watchMaxKeys + 1) (member : entry ∈ state)
    (time : parser.parse entry.2.at' = some t)
    (oldest : ∀ other ∈ state, other ≠ entry → ∃ t', parser.parse other.2.at' = some t' ∧ t < t') :
    (boundWatch parser sorting state).get? entry.1 = none := by
  have times : ∀ other ∈ state, (parser.parse other.2.at').isSome = true := by
    intro other inState
    rcases eq_or_ne other entry with rfl | different
    · rw [time]
      rfl
    · obtain ⟨t', found, -⟩ := oldest other inState different
      rw [found]
      rfl
  have sorted := sorting.sorted (compareEntries_consistent times)
  have perm := sorting.perm (compareEntries parser) state
  have first : (sorting.sort (compareEntries parser) state).take 1 = [entry] := by
    cases order : sorting.sort (compareEntries parser) state with
    | nil =>
        rw [order] at perm
        cases perm.nil_eq
        cases member
    | cons head tail =>
        rw [order] at perm sorted
        rcases eq_or_ne head entry with rfl | different
        · rfl
        · have inTail : entry ∈ tail :=
            (List.mem_cons.mp (perm.mem_iff.mpr member)).resolve_left different.symm
          obtain ⟨t', later, less⟩ :=
            oldest head (perm.mem_iff.mp List.mem_cons_self) different
          have le := (List.pairwise_cons.mp sorted).1 entry inTail
          rw [compareEntries, later, time] at le
          have : (t : ℚ) < t' := by exact_mod_cast less
          exact absurd le (by simpa using this)
  rw [boundWatch, if_pos (by omega), full, Nat.add_sub_cancel_left, first]
  exact JsMap.get?_delete_self _ _

end AshlrHub.Authority

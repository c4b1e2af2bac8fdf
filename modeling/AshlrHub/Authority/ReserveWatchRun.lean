import AshlrHub.Authority.ReserveEpisodes

namespace AshlrHub.Authority

open Js Lib Routing

/-! Runs of calls, each with the state that the call before it left. -/

structure Visit where
  call : WatchCall
  state : Option ReserveWatchState
  found : ReserveBreachDetection

section Runs

variable (parser : DateParser) (sorting : SortAlgorithm)

def watchRun : Option ReserveWatchState → List WatchCall → List Visit
  | _, [] => []
  | state, call :: calls =>
      let found := detectReserveBreaches parser call sorting state
      ⟨call, state, found⟩ :: watchRun (some found.state) calls

def entryIn (state : Option ReserveWatchState) (pair : WatchPair) : Option ReserveWatchEntry :=
  (state.getD []).get? pair.key

namespace Visit

variable (visit : Visit) (pair : WatchPair)

def judged : Option (ReserveWatchEntry × Bool) :=
  judgedOf parser visit.call (visit.state.getD []) pair

def Kept : Prop :=
  (watchAll parser visit.call (visit.state.getD [])).state.has pair.key = true →
    visit.found.state.has pair.key = true

def Processed (sighting : Sighting) : Prop :=
  sightingOf parser visit.call pair = some sighting ∧ (visit.judged parser pair).isSome = true

def Under : Prop :=
  ∃ sighting, visit.Processed parser pair sighting ∧ sighting.overLine = false

def Attributed : Prop :=
  ∃ sighting, visit.Processed parser pair sighting ∧ sighting.overLine = true ∧
    attributed visit.call sighting = true

def OnRecord : Prop :=
  ∃ sighting, visit.Processed parser pair sighting ∧ sighting.overLine = true ∧
    entryIn visit.state pair = none ∧ onRecord parser visit.call sighting = true

def Reported : Prop :=
  visit.found.breachesOf pair ≠ []

end Visit

def Charged (entry : Option ReserveWatchEntry) : Prop :=
  ∃ at', entry = some ⟨true, at', true⟩

variable {parser sorting}

section Step

variable {visit : Visit} {pair : WatchPair}

theorem charged_iff {entry : Option ReserveWatchEntry} :
    Charged entry ↔ (entry.any fun entry => entry.overLine && entry.recorded) = true := by
  cases entry with
  | none => simp [Charged]
  | some entry =>
      obtain ⟨overLine, at', recorded⟩ := entry
      cases overLine <;> cases recorded <;> simp [Charged]

variable {call : WatchCall}

theorem judge_cases {previous : Option ReserveWatchEntry} {sighting : Sighting}
    {verdict : ReserveWatchEntry × Bool}
    (judged : judge parser call previous sighting = some verdict) :
    (∀ entry ∈ previous, ∀ t, parser.parse entry.at' = some t → t ≤ sighting.observedMs) ∧
      verdict.1.at' = sighting.observedAt ∧
      (sighting.overLine = false ∧ verdict = (⟨false, sighting.observedAt, false⟩, false) ∨
        sighting.overLine = true ∧ Charged previous ∧
            verdict = (⟨true, sighting.observedAt, true⟩, false) ∨
        sighting.overLine = true ∧ previous = none ∧ onRecord parser call sighting = true ∧
            verdict = (⟨true, sighting.observedAt, true⟩, false) ∨
        sighting.overLine = true ∧ ¬ Charged previous ∧
            verdict = (⟨true, sighting.observedAt, attributed call sighting⟩,
              attributed call sighting)) := by
  unfold judge at judged
  dsimp only at judged
  split_ifs at judged with older under charged recorded
  all_goals
    obtain rfl := Option.some.inj judged
    refine ⟨?_, rfl, ?_⟩
    · intro entry present t time
      obtain rfl := Option.mem_def.mp present
      rw [Option.any_some, time, Option.any_some, decide_eq_true_eq, not_lt] at older
      exact older
  · exact .inl ⟨by simpa using under, rfl⟩
  · exact .inr (.inl ⟨by simpa using under, charged_iff.mpr charged, rfl⟩)
  · rw [Bool.and_eq_true, Option.isNone_iff_eq_none] at recorded
    exact .inr (.inr (.inl ⟨by simpa using under, recorded.1, recorded.2, rfl⟩))
  · exact .inr (.inr (.inr ⟨by simpa using under, fun is => charged (charged_iff.mp is), rfl⟩))

variable {state : Option ReserveWatchState}

theorem Visit.entry_eq
    (kept : Visit.Kept parser ⟨call, state, detectReserveBreaches parser call sorting state⟩ pair) :
    entryIn (some (detectReserveBreaches parser call sorting state).state) pair =
      ((judgedOf parser call (state.getD []) pair).map Prod.fst).or (entryIn state pair) := by
  rw [entryIn, entryIn, Option.getD_some, ← watchAll_entry]
  rcases boundWatch_get? parser sorting (watchAll parser call (state.getD [])).state pair.key with
    same | gone
  · exact same
  · have present : (JsMap.get? (watchAll parser call (state.getD [])).state pair.key).isSome
        = false := by
      by_contra there
      have still := kept (by rw [JsMap.has]; exact Bool.eq_true_of_not_eq_false there)
      simp only [JsMap.has, detectReserveBreaches, gone] at still
      cases still
    rw [Option.isSome_eq_false_iff, Option.isNone_iff_eq_none] at present
    rw [present]
    exact gone

theorem Visit.breachesOf_length (state : Option ReserveWatchState) (call : WatchCall) :
    ((detectReserveBreaches parser call sorting state).breachesOf pair).length =
      if (judgedOf parser call (state.getD []) pair).any Prod.snd then 1 else 0 :=
  watchAll_breaches parser call _ pair

inductive Step (parser : DateParser) (visit : Visit) (pair : WatchPair)
    (before after : Option ReserveWatchEntry) : Prop where
  | unseen (silent : visit.found.breachesOf pair = []) (same : after = before)
      (under : ¬ visit.Under parser pair) (unattributed : ¬ visit.Attributed parser pair)
  | under (silent : visit.found.breachesOf pair = []) (under : visit.Under parser pair)
      (uncharged : ¬ Charged after) (unattributed : ¬ visit.Attributed parser pair)
  | standing (silent : visit.found.breachesOf pair = []) (under : ¬ visit.Under parser pair)
      (why : Charged before ∨ visit.OnRecord parser pair) (charged : Charged after)
  | reported (once : (visit.found.breachesOf pair).length = 1)
      (under : ¬ visit.Under parser pair) (uncharged : ¬ Charged before)
      (attributed : visit.Attributed parser pair) (charged : Charged after)
  | spared (silent : visit.found.breachesOf pair = []) (under : ¬ visit.Under parser pair)
      (fresh : ¬ Charged before) (uncharged : ¬ Charged after)
      (unattributed : ¬ visit.Attributed parser pair)

theorem Visit.step {next : Visit}
    (is : next = ⟨call, state, detectReserveBreaches parser call sorting state⟩)
    (kept : next.Kept parser pair) :
    Step parser next pair (entryIn state pair) (entryIn (some next.found.state) pair) := by
  subst is
  have entry := Visit.entry_eq kept
  have counted := @Visit.breachesOf_length parser sorting pair state call
  cases judged : judgedOf parser call (state.getD []) pair with
  | none =>
      rw [judged] at entry counted
      have unprocessed : ∀ sighting, ¬ Visit.Processed parser
          ⟨call, state, detectReserveBreaches parser call sorting state⟩ pair sighting := by
        intro sighting processed
        have some := processed.2
        rw [Visit.judged, judged] at some
        cases some
      exact .unseen (List.length_eq_zero_iff.mp counted) entry
        (fun ⟨_, processed, _⟩ => unprocessed _ processed)
        (fun ⟨_, processed, _⟩ => unprocessed _ processed)
  | some verdict =>
      rw [judged, Option.map_some, Option.some_or] at entry
      rw [judged, Option.any_some] at counted
      obtain ⟨sighting, seen, made⟩ := Option.bind_eq_some_iff.mp judged
      have processed : Visit.Processed parser
          ⟨call, state, detectReserveBreaches parser call sorting state⟩ pair sighting :=
        ⟨seen, Option.isSome_iff_exists.mpr ⟨verdict, judged⟩⟩
      have only : ∀ other, Visit.Processed parser
          ⟨call, state, detectReserveBreaches parser call sorting state⟩ pair other →
          other = sighting := fun other also => Option.some.inj (also.1.symm.trans seen)
      have silent : verdict.2 = false → (detectReserveBreaches parser call sorting
          state).breachesOf pair = [] := by
        intro free
        rw [free, if_neg Bool.false_ne_true] at counted
        exact List.length_eq_zero_iff.mp counted
      obtain ⟨-, -, under | ⟨past, charged, rfl⟩ | ⟨past, first, recorded, rfl⟩ |
        ⟨past, uncharged, rfl⟩⟩ := judge_cases made
      · obtain ⟨below, rfl⟩ := under
        refine .under (silent rfl) ⟨sighting, processed, below⟩ ?_ ?_
        · rw [entry]
          rintro ⟨at', same⟩
          cases same
        · rintro ⟨other, also, past, -⟩
          rw [only other also, below] at past
          cases past
      all_goals
        have notUnder : ¬ Visit.Under parser
            ⟨call, state, detectReserveBreaches parser call sorting state⟩ pair := by
          rintro ⟨other, also, below⟩
          rw [only other also, past] at below
          cases below
      · exact .standing (silent rfl) notUnder (.inl charged) ⟨_, entry⟩
      · exact .standing (silent rfl) notUnder (.inr ⟨sighting, processed, past, first, recorded⟩)
          ⟨_, entry⟩
      · cases used : attributed call sighting with
        | true =>
            rw [used] at entry counted
            exact .reported counted notUnder uncharged ⟨sighting, processed, past, used⟩ ⟨_, entry⟩
        | false =>
            refine .spared (silent used) notUnder uncharged ?_ ?_
            · rw [entry, used]
              rintro ⟨at', same⟩
              cases same
            · rintro ⟨other, also, -, attributes⟩
              rw [only other also, used] at attributes
              cases attributes

theorem Visit.reported_attributed
    (reported : Visit.Reported ⟨call, state, detectReserveBreaches parser call sorting state⟩ pair)
      :
    Visit.Attributed parser ⟨call, state, detectReserveBreaches parser call sorting state⟩
    pair := by
  have counted := @Visit.breachesOf_length parser sorting pair state call
  cases judged : judgedOf parser call (state.getD []) pair with
  | none =>
      rw [judged] at counted
      exact absurd (List.length_eq_zero_iff.mp counted) reported
  | some verdict =>
      obtain ⟨sighting, seen, made⟩ := Option.bind_eq_some_iff.mp judged
      have charged : verdict.2 = true := by
        by_contra free
        rw [judged, Option.any_some, if_neg free] at counted
        exact reported (List.length_eq_zero_iff.mp counted)
      obtain ⟨-, -, ⟨_, rfl⟩ | ⟨_, _, rfl⟩ | ⟨_, _, _, rfl⟩ | ⟨past, _, rfl⟩⟩ := judge_cases made
      · cases charged
      · cases charged
      · cases charged
      · exact ⟨sighting, ⟨seen, Option.isSome_iff_exists.mpr ⟨_, judged⟩⟩, past, charged⟩

theorem Visit.time
    (kept : Visit.Kept parser ⟨call, state, detectReserveBreaches parser call sorting state⟩ pair)
    {entry : ReserveWatchEntry} {t : ℤ} (before : entryIn state pair = some entry)
    (time : parser.parse entry.at' = some t) :
    ∃ later, entryIn (some (detectReserveBreaches parser call sorting state).state) pair =
      some later ∧ ∃ t', parser.parse later.at' = some t' ∧ t ≤ t' := by
  have after := Visit.entry_eq kept
  cases judged : judgedOf parser call (state.getD []) pair with
  | none =>
      rw [judged] at after
      exact ⟨entry, after.trans before, t, time, le_rfl⟩
  | some verdict =>
      rw [judged, Option.map_some, Option.some_or] at after
      obtain ⟨sighting, seen, made⟩ := Option.bind_eq_some_iff.mp judged
      obtain ⟨newer, at', -⟩ := judge_cases made
      refine ⟨verdict.1, after, sighting.observedMs, ?_, newer entry before t time⟩
      rw [at']
      exact parse_observedAt (List.mem_of_find?_eq_some seen)

end Step

variable (parser sorting) in

def stateAfter : Option ReserveWatchState → List WatchCall → Option ReserveWatchState
  | state, [] => state
  | state, call :: calls =>
      stateAfter (some (detectReserveBreaches parser call sorting state).state) calls

theorem stateAfter_append (state : Option ReserveWatchState) (front back : List WatchCall) :
    stateAfter parser sorting state (front ++ back) =
      stateAfter parser sorting (stateAfter parser sorting state front) back := by
  induction front generalizing state with
  | nil => rfl
  | cons call front ih => exact ih _

theorem watchRun_append (state : Option ReserveWatchState) (front back : List WatchCall) :
    watchRun parser sorting state (front ++ back) =
      watchRun parser sorting state front ++
        watchRun parser sorting (stateAfter parser sorting state front) back := by
  induction front generalizing state with
  | nil => rfl
  | cons call front ih => exact congrArg (List.cons _) (ih _)

theorem watchRun_split {state : Option ReserveWatchState} {calls : List WatchCall}
    {front back : List Visit} (run : watchRun parser sorting state calls = front ++ back) :
    ∃ first second, calls = first ++ second ∧ front = watchRun parser sorting state first ∧
      back = watchRun parser sorting (stateAfter parser sorting state first) second := by
  induction front generalizing state calls with
  | nil => exact ⟨[], calls, rfl, rfl, run.symm⟩
  | cons visit front ih =>
      cases calls with
      | nil => cases run
      | cons call calls =>
          obtain ⟨head, tail⟩ := List.cons.inj run
          obtain ⟨first, second, rfl, fronts, backs⟩ := ih tail
          exact ⟨call :: first, second, rfl, by rw [watchRun, fronts, ← head], backs⟩

section Episodes

variable {pair : WatchPair} {state : Option ReserveWatchState} {calls : List WatchCall}

theorem breaches_le_one
    (kept : ∀ visit ∈ watchRun parser sorting state calls, visit.Kept parser pair)
    (quiet : ∀ visit ∈ watchRun parser sorting state calls, ¬ visit.Under parser pair) :
    ((watchRun parser sorting state calls).flatMap (·.found.breachesOf pair)).length ≤ 1 ∧
      (Charged (entryIn state pair) →
        (watchRun parser sorting state calls).flatMap (·.found.breachesOf pair) = []) := by
  induction calls generalizing state with
  | nil => exact ⟨Nat.zero_le 1, fun _ => rfl⟩
  | cons call calls ih =>
      rw [watchRun] at kept quiet
      obtain ⟨few, none⟩ := ih (fun visit member => kept visit (List.mem_cons_of_mem _ member))
        (fun visit member => quiet visit (List.mem_cons_of_mem _ member))
      rw [watchRun, List.flatMap_cons]
      cases Visit.step rfl (kept _ List.mem_cons_self) with
      | unseen silent same =>
          rw [silent, List.nil_append]
          exact ⟨few, fun charged => none (by rw [same]; exact charged)⟩
      | under _ under => exact absurd under (quiet _ List.mem_cons_self)
      | standing silent _ _ charged =>
          rw [silent, none charged]
          exact ⟨Nat.zero_le 1, fun _ => rfl⟩
      | reported once _ uncharged _ charged =>
          rw [none charged, List.append_nil]
          exact ⟨once.le, fun was => absurd was uncharged⟩
      | spared silent _ fresh =>
          rw [silent, List.nil_append]
          exact ⟨few, fun was => absurd was fresh⟩

def Answered (parser : DateParser) (run : List Visit) (state : Option ReserveWatchState)
    (pair : WatchPair) : Prop :=
  (∃ front visit back, run = front ++ visit :: back ∧
    (∀ later ∈ back, ¬ later.Under parser pair) ∧
      (visit.Reported pair ∨ visit.OnRecord parser pair)) ∨
    (∀ visit ∈ run, ¬ visit.Under parser pair) ∧ Charged (entryIn state pair)

theorem Answered.snoc {run : List Visit} {visit : Visit}
    (answered : Answered parser run state pair) (under : ¬ visit.Under parser pair) :
    Answered parser (run ++ [visit]) state pair := by
  rcases answered with ⟨front, first, back, rfl, quiet, why⟩ | ⟨quiet, charged⟩
  · refine .inl ⟨front, first, back ++ [visit], by simp, ?_, why⟩
    intro later member
    rcases List.mem_append.mp member with inBack | last
    · exact quiet later inBack
    · rwa [List.mem_singleton.mp last]
  · refine .inr ⟨fun later member => ?_, charged⟩
    rcases List.mem_append.mp member with inRun | last
    · exact quiet later inRun
    · rwa [List.mem_singleton.mp last]

theorem charged_answered
    (kept : ∀ visit ∈ watchRun parser sorting state calls, visit.Kept parser pair)
    (charged : Charged (entryIn (stateAfter parser sorting state calls) pair)) :
    Answered parser (watchRun parser sorting state calls) state pair := by
  induction calls using List.reverseRecOn with
  | nil => exact .inr ⟨by simp [watchRun], charged⟩
  | append_singleton calls call ih =>
      rw [watchRun_append] at kept ⊢
      rw [stateAfter_append] at charged
      have before := ih fun visit member => kept visit (List.mem_append_left _ member)
      have last : ∀ {visit}, visit ∈ watchRun parser sorting
          (stateAfter parser sorting state calls) [call] → visit.Kept parser pair :=
        fun member => kept _ (List.mem_append_right _ member)
      cases Visit.step rfl (last List.mem_cons_self) with
      | unseen _ same under => exact (before (same ▸ charged)).snoc under
      | under _ _ uncharged => exact absurd charged uncharged
      | standing _ under why =>
          rcases why with was | recorded
          · exact (before was).snoc under
          · exact .inl ⟨_, _, [], rfl, by simp, .inr recorded⟩
      | reported once =>
          refine .inl ⟨_, _, [], rfl, by simp, .inl fun none => ?_⟩
          rw [none] at once
          cases once
      | spared _ _ _ uncharged => exact absurd charged uncharged

variable {visit : Visit}

theorem attributed_answered {front back : List Visit}
    (run : watchRun parser sorting state calls = front ++ visit :: back)
    (kept : ∀ visit ∈ watchRun parser sorting state calls, visit.Kept parser pair)
    (attributed : visit.Attributed parser pair) :
    Answered parser (front ++ [visit]) state pair := by
  rw [List.append_cons] at run
  obtain ⟨first, second, rfl, fronts, -⟩ := watchRun_split run
  rw [watchRun_append, ← fronts] at kept
  have here : ∀ other ∈ front ++ [visit], other.Kept parser pair :=
    fun other member => kept other (List.mem_append_left _ member)
  obtain ⟨earlier, last, rfl, earlierRun, lastRun⟩ := watchRun_split fronts.symm
  obtain ⟨call, rest⟩ : ∃ call, last = [call] := by
    cases last with
    | nil => cases lastRun
    | cons call last =>
        cases last with
        | nil => exact ⟨call, rfl⟩
        | cons next last => cases (List.cons.inj lastRun).2
  subst rest
  obtain rfl := (List.cons.inj lastRun).1
  rw [fronts] at here ⊢
  refine charged_answered here ?_
  rw [stateAfter_append]
  cases Visit.step rfl (here _ (fronts ▸ List.mem_append_right _ List.mem_cons_self)) with
  | unseen _ _ _ un | under _ _ _ un => exact absurd attributed un
  | standing _ _ _ charged => exact charged
  | reported _ _ _ _ charged => exact charged
  | spared _ _ _ _ un => exact absurd attributed un

theorem time_le (kept : ∀ visit ∈ watchRun parser sorting state calls, visit.Kept parser pair)
    {entry : ReserveWatchEntry} {t : ℤ} (before : entryIn state pair = some entry)
    (time : parser.parse entry.at' = some t) :
    ∃ later, entryIn (stateAfter parser sorting state calls) pair = some later ∧
      ∃ t', parser.parse later.at' = some t' ∧ t ≤ t' := by
  induction calls generalizing state entry t with
  | nil => exact ⟨entry, before, t, time, le_rfl⟩
  | cons call calls ih =>
      rw [watchRun] at kept
      obtain ⟨next, after, t₁, nextTime, le⟩ :=
        Visit.time (kept _ List.mem_cons_self) before time
      obtain ⟨later, found, t₂, laterTime, more⟩ :=
        ih (fun visit member => kept visit (List.mem_cons_of_mem _ member)) after nextTime
      exact ⟨later, found, t₂, laterTime, le.trans more⟩

theorem mem_watchRun (member : visit ∈ watchRun parser sorting state calls) :
    ∃ call before, visit = ⟨call, before, detectReserveBreaches parser call sorting before⟩ := by
  induction calls generalizing state with
  | nil => cases member
  | cons call calls ih =>
      rcases List.mem_cons.mp member with rfl | rest
      · exact ⟨call, state, rfl⟩
      · exact ih rest

theorem kept_of_small
    (is : visit.found = detectReserveBreaches parser visit.call sorting visit.state)
    (small : (watchAll parser visit.call (visit.state.getD [])).state.length ≤ watchMaxKeys) :
    visit.Kept parser pair := by
  intro present
  rw [is, detectReserveBreaches]
  dsimp only
  rwa [boundWatch, if_neg (not_lt.mpr small)]

end Episodes

/-- In every run of calls: a breach is reported only of a reading with attributed use, and of
each seat and window that the bound on the watch does not drop, at most once between two
readings back under the line, in every episode with attributed use that the ledger does not
hold already, and with a stored time that does not move backwards. -/
theorem reserve_breaches_once (parser : DateParser) (sorting : SortAlgorithm)
    (state : Option ReserveWatchState) (calls : List WatchCall) (pair : WatchPair) :
    (∀ visit ∈ watchRun parser sorting state calls,
      visit.Reported pair → visit.Attributed parser pair) ∧
    ((∀ visit ∈ watchRun parser sorting state calls, visit.Kept parser pair) →
      (∀ front middle back, watchRun parser sorting state calls = front ++ middle ++ back →
        (∀ visit ∈ middle, ¬ visit.Under parser pair) →
        (middle.flatMap (·.found.breachesOf pair)).length ≤ 1) ∧
      (∀ front visit back, watchRun parser sorting state calls = front ++ visit :: back →
        visit.Attributed parser pair → Answered parser (front ++ [visit]) state pair) ∧
      ∀ before between rest, calls = before ++ between ++ rest →
        ∀ entry t, entryIn (stateAfter parser sorting state before) pair = some entry →
          parser.parse entry.at' = some t →
          ∃ later, entryIn (stateAfter parser sorting state (before ++ between)) pair =
            some later ∧ ∃ t', parser.parse later.at' = some t' ∧ t ≤ t') := by
  constructor
  · intro visit member reported
    obtain ⟨call, before, rfl⟩ := mem_watchRun member
    exact Visit.reported_attributed reported
  · intro kept
    refine ⟨?_, fun front visit back run => attributed_answered run kept, ?_⟩
    · intro front middle back run quiet
      rw [run] at kept
      obtain ⟨first, last, rfl, rest, -⟩ := watchRun_split run
      obtain ⟨ahead, part, rfl, -, rfl⟩ := watchRun_split rest.symm
      exact (breaches_le_one (fun visit member => kept visit
        (List.mem_append_left _ (List.mem_append_right _ member))) quiet).1
    · rintro before between rest rfl entry t found time
      rw [watchRun_append, watchRun_append] at kept
      rw [stateAfter_append]
      exact time_le (fun visit member => kept visit
        (List.mem_append_left _ (List.mem_append_right _ member))) found time

end Runs

/-! A seat past its line, that a run used, and a ledger that holds a breach of it. -/

def watchedSeat : SeatId :=
  ⟨js "codex", spelled_codex⟩

def overLineSeat : SeatCapacity :=
  ⟨watchedSeat, .codex, false, [⟨js "codex_main_secondary", some 90, none, false⟩], false, none,
    none, some (js "2026-01-01T00:00:00.000Z"), none, none, false⟩

def watchCallWith (priorBreaches : List LedgerEvidenceRow) : WatchCall where
  seats := [overLineSeat]
  policy := ⟨.balanced, 0,
    [(watchedSeat, ⟨watchedSeat, true, percent 40 forty_inside, none, [.producer]⟩)]⟩
  nowMs := 1767225600000
  priorBreaches := priorBreaches
  autonomyUsed := fun _ _ => true

def breachRow : LedgerEvidenceRow :=
  ⟨7, js "2025-12-31T00:00:00.000Z", .reserveBreach, none, none, none, none,
    some (js "codex"), some .weekly⟩

def watchedPair : WatchPair := (watchedSeat, .weekly)

def overSighting : Sighting :=
  ⟨watchedSeat, 1767225600000, ⟨.weekly, 90, 60⟩⟩

theorem sightings_watchCall (priorBreaches : List LedgerEvidenceRow) :
    sightings isoDates (watchCallWith priorBreaches) [] [overLineSeat] = [overSighting] := by
  change sightings isoDates (watchCallWith []) [] [overLineSeat] = [overSighting]
  decide +kernel

theorem sightingOf_watchCall (priorBreaches : List LedgerEvidenceRow) :
    sightingOf isoDates (watchCallWith priorBreaches) watchedPair = some overSighting := by
  have seen := sightings_watchCall priorBreaches
  change (sightings isoDates (watchCallWith priorBreaches) [] [overLineSeat]).find? _ = _
  rw [seen]
  rfl

section WatchCall

variable {priorBreaches : List LedgerEvidenceRow} {state : Option ReserveWatchState}
  {found : ReserveBreachDetection}

theorem watchCall_not_under :
    ¬ Visit.Under isoDates ⟨watchCallWith priorBreaches, state, found⟩ watchedPair := by
  rintro ⟨sighting, ⟨seen, -⟩, below⟩
  obtain rfl := Option.some.inj ((sightingOf_watchCall priorBreaches).symm.trans seen)
  exact absurd below (by decide)

theorem judgedOf_fresh (unknown : entryIn state watchedPair = none) :
    judgedOf isoDates (watchCallWith []) (state.getD []) watchedPair =
      some (⟨true, overSighting.observedAt, true⟩, true) := by
  rw [entryIn] at unknown
  rw [judgedOf, sightingOf_watchCall, Option.bind_some, unknown]
  decide +kernel

end WatchCall

def watchedEntry : JsString × ReserveWatchEntry :=
  (watchedPair.key, ⟨true, overSighting.observedAt, true⟩)

section Flood

variable {state : ReserveWatchState} {sorting : SortAlgorithm}

theorem watchAll_fresh (absent : watchedPair.key ∉ JsMap.keys state) :
    (watchAll isoDates (watchCallWith []) state).state = state ++ [watchedEntry] := by
  have fresh := @judgedOf_fresh (some state) (JsMap.get?_eq_none absent)
  rw [judgedOf, sightingOf_watchCall, Option.bind_some] at fresh
  have key : watchKey overSighting.seatId overSighting.reading.window = watchedPair.key := rfl
  have seen : sightings isoDates (watchCallWith []) [] (watchCallWith []).seats =
    [overSighting] := sightings_watchCall []
  rw [watchAll, seen, List.foldl_cons, List.foldl_nil, watchSighting, key]
  simp only [Option.getD_some] at fresh
  simp only [fresh]
  exact JsMap.set_of_not_mem _ absent

theorem detect_forgets (full : state.length = watchMaxKeys)
    (absent : watchedPair.key ∉ JsMap.keys state)
    (newer : ∀ entry ∈ state, ∃ t', dateParse entry.2.at' = some t' ∧ 1767225600000 < t') :
    entryIn (some (detectReserveBreaches isoDates (watchCallWith []) sorting (some state)).state)
      watchedPair = none := by
  rw [entryIn, detectReserveBreaches]
  simp only [Option.getD_some]
  rw [watchAll_fresh absent]
  refine @boundWatch_oldest isoDates sorting (state ++ [watchedEntry]) watchedEntry 1767225600000
    ?_ ?_ ?_ ?_
  · rw [List.length_append, full, List.length_singleton]
  · exact List.mem_append_right _ List.mem_cons_self
  · change dateParse overSighting.observedAt = _
    decide +kernel
  · intro other member different
    rcases List.mem_append.mp member with inState | last
    · exact newer other inState
    · exact absurd (List.mem_singleton.mp last) different

theorem breaches_fresh {before : Option ReserveWatchState}
    (unknown : entryIn before watchedPair = none) :
    ((detectReserveBreaches isoDates (watchCallWith []) sorting before).breachesOf
      watchedPair).length = 1 := by
  rw [Visit.breachesOf_length, judgedOf_fresh unknown]
  rfl

end Flood

def floodState : ReserveWatchState :=
  (List.range watchMaxKeys).map fun n =>
    (js "seat" ++ (decimal n ++ js "|weekly"), ⟨false, js "2026-01-01T00:01:00.000Z", false⟩)

theorem floodState_absent : watchedPair.key ∉ floodState.keys := by
  intro member
  rw [JsMap.keys, floodState, List.map_map, List.mem_map] at member
  obtain ⟨n, -, same⟩ := member
  exact absurd (List.cons.inj same).1 (by decide)

/-- A breach on the ledger stands in for the first episode of a lost watch; and a watch full of
newer keys reports one episode twice. -/
theorem reserve_breach_forgotten :
    (∃ visit, watchRun isoDates mergeSorting none [watchCallWith [breachRow]] = [visit] ∧
      visit.Attributed isoDates watchedPair ∧ visit.found.breachesOf watchedPair = []) ∧
    ∃ first second, watchRun isoDates mergeSorting (some floodState)
        [watchCallWith [], watchCallWith []] = [first, second] ∧
      ¬ first.Under isoDates watchedPair ∧ ¬ second.Under isoDates watchedPair ∧
      (first.found.breachesOf watchedPair).length = 1 ∧
      (second.found.breachesOf watchedPair).length = 1 := by
  constructor
  · refine ⟨_, rfl, ⟨overSighting, ⟨sightingOf_watchCall _, by decide +kernel⟩, rfl, rfl⟩, ?_⟩
    exact List.length_eq_zero_iff.mp (by decide +kernel)
  · have newer : ∀ entry ∈ floodState,
        ∃ t', dateParse entry.2.at' = some t' ∧ 1767225600000 < t' := by
      intro entry member
      obtain ⟨n, -, rfl⟩ := List.mem_map.mp member
      exact ⟨1767225660000,
        show dateParse (js "2026-01-01T00:01:00.000Z") = _ by decide +kernel, by decide⟩
    have full : floodState.length = watchMaxKeys := by
      rw [floodState, List.length_map, List.length_range]
    refine ⟨_, _, rfl, watchCall_not_under, watchCall_not_under, ?_, ?_⟩
    · exact breaches_fresh (JsMap.get?_eq_none floodState_absent)
    · exact breaches_fresh (detect_forgets full floodState_absent newer)

theorem reserve_breaches_once_repeated :
    ((watchRun isoDates mergeSorting none [watchCallWith [], watchCallWith []]).flatMap
      (·.found.breachesOf watchedPair)).length ≤ 1 := by
  refine ((reserve_breaches_once isoDates mergeSorting none [watchCallWith [], watchCallWith []]
    watchedPair).2 ?_).1 [] _ [] (by rw [List.append_nil, List.nil_append]) ?_
  · intro visit member
    rw [watchRun, watchRun, watchRun] at member
    rcases List.mem_cons.mp member with rfl | rest
    · exact kept_of_small rfl (by decide +kernel)
    · rw [List.mem_singleton.mp rest]
      exact kept_of_small rfl (by decide +kernel)
  · intro visit member
    rw [watchRun, watchRun, watchRun] at member
    rcases List.mem_cons.mp member with rfl | rest
    · exact watchCall_not_under
    · rw [List.mem_singleton.mp rest]
      exact watchCall_not_under

end AshlrHub.Authority

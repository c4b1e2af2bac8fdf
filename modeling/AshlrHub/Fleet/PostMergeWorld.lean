import AshlrHub.Fleet.PostMergePass

namespace AshlrHub.PostMerge

open Js Lib

/-! Passes of the watch one behind the other, with a store that takes every write. -/

structure World where
  clock : ℤ
  store : WatchStore
  events : List Event

namespace World

def remark (world : World) (event : Event) : World :=
  { world with events := world.events ++ [event] }

def opened (world : World) (watch : PostMergeWatch) : Bool :=
  watch.phase ≠ .done && (world.store.find watch.landing.id).all fun other => other.phase = .done

def install (world : World) (store : WatchStore) : World where
  clock := world.clock
  store := store
  events := world.events ++
    (store.watches.filter world.opened).map fun watch => .registered watch.landing

end World

def reacts (world : World) : (asked : Request) → Answer asked → World → Prop
  | .now, time, after => world.clock ≤ time ∧ after = { world with clock := time }
  | .ciStatus landing side _, observed, after =>
      after = world.remark (.ci landing side observed world.clock
        ((world.store.find landing.id).map PostMergeWatch.suite))
  | .runSuiteAt landing side _, run, after => after = world.remark (.suite landing side run)
  | .readCommit landing, commit, after => after = world.remark (.commit landing commit)
  | .landRevert landing, _, after => after = world.remark (.revertRequested landing)
  | .softKill _, _, after => after = world.remark .softKill
  | .readStore, stored, after => stored = some world.store ∧ after = world
  | .mutateStore change, answer, after =>
      match change world.store with
      | none => answer = none ∧ after = world
      | some (store, value) => answer = some value ∧ after = world.install store
  | .note event, _, after => after = world.remark event
  | .killActive, _, after => after = world
  | .aborted, _, after => after = world
  | .enqueueRepairTask _, _, after => after = world
  | .setHold _ _, _, after => after = world
  | .revokeArmedMerges, _, after => after = world
  | .recordHalt _, _, after => after = world
  | .appendLedger _ _, _, after => after = world
  | .readLedger _, _, after => after = world
  | .storeExists, _, after => after = world
  | .acquirePassLock, _, after => after = world

/-- `registerLanding`, between passes. -/
inductive Registers (world : World) : World → Prop
  | registered {landing : LandingRecord} {nowMs : ℤ} {store : WatchStore} {fresh : Bool}
      (accepted : landingRefusal landing = none) (later : world.clock ≤ nowMs)
      (into : registerInto world.store landing nowMs = some (store, fresh)) :
      Registers world ({ world with clock := nowMs }.install store)

inductive Opens (world : World) : Watching PassResult → World → Prop
  | advance (maxSuiteRuns : ℕ) : Opens world (advancePostMergeWatches maxSuiteRuns) world

abbrev State := Parley World Request Answer PassResult

/-- Passes and registrations, in any order. -/
abbrev WatchStep : State → Unit → State → Prop :=
  Parley.Step reacts Opens Registers fun _ _ => False

def start : State := ⟨⟨0, emptyStore, []⟩, none⟩

/-! What the events come to. -/

def redRow : Event → Option HistoryRow
  | .fleetRed landing time => some ⟨landing.repo, time, some landing.id⟩
  | _ => none

def revertRow : Event → Option HistoryRow
  | .reverted landing time => some ⟨landing.repo, time, some landing.id⟩
  | _ => none

section

variable (events : List Event)

def historyOf : EscalationHistory where
  quarantines := []
  reds := events.filterMap redRow
  reverts := events.filterMap revertRow
  kills := []

variable (landing : LandingRecord)

def Settled : Prop :=
  ∀ front back, events = front ++ .suite landing .merged .fail :: back →
    .suite landing .merged .pass ∈ back

def CiNotRed : Prop :=
  ∃ front observed time stored back,
    events = front ++ .ci landing .merged observed time stored :: back ∧
      observed.state ≠ .red ∧ Event.passEnded ∉ back ∧
        ∀ other later before, .ci landing .merged other later before ∉ back

def CulpritCheck : Prop :=
  ∃ front observed time stored back,
    events = front ++ .ci landing .merged observed time stored :: back ∧
      observed.state = .red ∧ ∃ check ∈ observed.failing, ∀ parent later before,
        .ci landing .parent parent later before ∈ back → parent.state = .red →
          check ∉ parent.failing

def Evidence : Prop :=
  2 ≤ events.count (.suite landing .merged .fail) ∨ CulpritCheck events landing

def Proven : Prop :=
  ∃ commit, .commit landing (some commit) ∈ events ∧ fleetRevertRefusal commit landing = none

def Rests (front : List Event) : Event → Prop
  | .green landing => CiNotRed front landing ∧ Settled front landing
  | .fleetRed landing _ => Evidence front landing
  | .revertRequested landing => landing.kind = .merge ∧ Proven front landing ∧
      ∃ red time rest, front = red ++ .fleetRed landing time :: rest
  | _ => True

def KillDue (front : List Event) : Event → Prop
  | .fleetRed landing time => redReposKillCount ≤
      (redReposWithin (historyOf (front ++ [.fleetRed landing time])) time).length
  | .reverted landing time => revertsKillCount ≤
      revertsWithin (historyOf (front ++ [.reverted landing time])) time
  | _ => False

def KillFollows (back : List Event) : Prop :=
  back ≠ [] → ∃ rest, back = .softKill :: rest

def Sound : Prop :=
  ∀ front event back, events = front ++ event :: back →
    Rests front event ∧ (KillDue front event → KillFollows back)

def KillOwed : Prop :=
  ∃ front event, events = front ++ [event] ∧ KillDue front event

/-! What the passes must meet. -/

def Unconfirmed (observed : CiObservation) (time : ℤ) (stored : SuiteState) : Prop :=
  observed.state = .green ∧ stored.unconfirmedFail = true ∧
    (effectiveWatchUntil landing ≤ time ∨
      (stored.state = .notRun ∧ maxSuiteInfraAttempts ≤ stored.infraAttempts))

def Confirms : Prop :=
  ∀ front landing observed time stored back,
    events = front ++ .ci landing .merged observed time (some stored) :: back →
      Unconfirmed landing observed time stored →
        back ≠ [] → ∃ run rest, back = .suite landing .merged run :: rest

def registeredId : Event → Option JsString
  | .registered landing => some landing.id
  | _ => none

def WatchedOnce : Prop :=
  (events.filterMap registeredId).Nodup

def recentRows (time : ℤ) (rows : List HistoryRow) : List HistoryRow :=
  rows.filter fun row => row.atTime ≤ time && time - row.atTime < historyRetentionMs

def Roomy : Prop :=
  ∀ time, (recentRows time (historyOf events).reds).length ≤ maxHistoryRows ∧
    (recentRows time (historyOf events).reverts).length ≤ maxHistoryRows

end

structure Careful (events : List Event) : Prop where
  confirms : Confirms events
  once : WatchedOnce events
  roomy : Roomy events

theorem Confirms.front {first second : List Event} (confirms : Confirms (first ++ second)) :
    Confirms first := by
  intro front landing observed time stored back same unconfirmed more
  have whole : first ++ second =
      front ++ .ci landing .merged observed time (some stored) :: (back ++ second) := by
    rw [same, List.append_assoc, List.cons_append]
  obtain ⟨run, rest, follows⟩ := confirms front landing observed time stored _ whole unconfirmed
    (List.append_ne_nil_of_left_ne_nil more second)
  cases back with
  | nil => exact absurd rfl more
  | cons next back =>
      rw [List.cons_append] at follows
      obtain ⟨rfl, _⟩ := List.cons.inj follows
      exact ⟨run, back, rfl⟩

theorem Careful.front {first second : List Event} (careful : Careful (first ++ second)) :
    Careful first where
  confirms := careful.confirms.front
  once := by
    have once := careful.once
    rw [WatchedOnce, List.filterMap_append] at once
    exact (List.nodup_append.mp once).1
  roomy time := by
    have roomy := careful.roomy time
    simp only [historyOf, recentRows, List.filterMap_append, List.filter_append,
      List.length_append] at roomy ⊢
    omega

end AshlrHub.PostMerge

import AshlrHub.Authority.Clamp

namespace AshlrHub.Authority

open Js Lib

/-! Interleavings of `setAutonomySwitch`.  A call reads the switch, and then writes the
switch and appends a row in one order or the other, without a lock over the three. -/

def SwitchCall.change? : SwitchCall → Option SwitchChange
  | .lowering change _ | .lowered change _ | .raising change _ | .recorded change _ => some change
  | _ => none

def SwitchCall.halfway? : SwitchCall → Option SwitchChange
  | .lowered change _ | .recorded change _ => some change
  | _ => none

def SwitchChangeResult.succeeded : SwitchChangeResult → Bool
  | .ok _ _ _ ledgered => ledgered
  | .refused _ _ _ _ => false

/-- What one step of a run does. -/
inductive SwitchMoves (scrub : JsString → JsString) (world : SwitchWorld) :
    SwitchEvent → SwitchWorld → Prop
  | read {id : ℕ} {req : SwitchChangeRequest} {now : ℤ} (fresh : world.calls id = none) :
      SwitchMoves scrub world (.read id req now)
        (world.put id (beginSwitch scrub world.clamp now req))
  | write {id identity : ℕ} {call after : SwitchCall} {change : SwitchChange}
      {clamp : Option File} (here : world.calls id = some call)
      (writes : call.writes = some change) (written : call.written = some after)
      (stored : storedSwitch clamp = change.target) :
      SwitchMoves scrub world (.write id (.done identity))
        ({ world with clamp := clamp }.put id after)
  | append {id : ℕ} {times : RowTimes} {call after : SwitchCall} {change : SwitchChange}
      {entries : List LedgerEntry} (here : world.calls id = some call)
      (appends : call.appends = some change) (appended : call.appended = some after)
      (recorded : recordedSwitch entries = change.target) :
      SwitchMoves scrub world (.append id (.appended times))
        ({ world with entries := entries }.put id after)
  | refuse {id : ℕ} {event : SwitchEvent} {call : SwitchCall} {change : SwitchChange}
      {code : SwitchChangeCode} {reason : JsString} {current cap : AutonomySwitch}
      (here : world.calls id = some call) (inFlight : call.change? = some change) :
      SwitchMoves scrub world event (world.put id (.returned (.refused code reason current cap)))
  | unrecorded {id : ℕ} {event : SwitchEvent} {change : SwitchChange}
      {lowers : change.target.rank ≤ change.current.rank}
      (here : world.calls id = some (.lowered change lowers)) :
      SwitchMoves scrub world event
        (world.put id (.returned (.ok change.current change.target true false)))
  | otherRow {entry : LedgerEntry} {entries : List LedgerEntry}
      (same : recordedSwitch entries = recordedSwitch world.entries) :
      SwitchMoves scrub world (.otherRow entry) { world with entries := entries }

variable {scrub : JsString → JsString} {sha : HashFunction} {change : SwitchChange}
  {world after : SwitchWorld} {event : SwitchEvent} {events : List SwitchEvent}

theorem change?_of_writes {call : SwitchCall}
    (writes : call.writes = some change) : call.change? = some change := by
  cases call <;> first | exact writes | cases writes

theorem change?_of_appends {call : SwitchCall}
    (appends : call.appends = some change) : call.change? = some change := by
  cases call <;> first | exact appends | cases appends

theorem change?_of_halfway? {call : SwitchCall}
    (halfway : call.halfway? = some change) : call.change? = some change := by
  cases call <;> first | exact halfway | cases halfway

theorem next_write
    {id identity : ℕ} (taken : world.next sha scrub (.write id (.done identity)) = some after) :
    ∃ call change stepped clamp, world.calls id = some call ∧ call.writes = some change ∧
      call.written = some stepped ∧ storedSwitch clamp = change.target ∧
      after = { world with clamp := clamp }.put id stepped := by
  simp only [SwitchWorld.next, Option.bind_eq_bind, Option.bind_eq_some_iff] at taken
  obtain ⟨call, here, change, writes, file, stored, stepped, written, same⟩ := taken
  exact ⟨call, change, stepped, some file, here, writes, written,
    (storedSwitch_writeClamp stored).trans change.stores, (Option.some.inj same).symm⟩

theorem next_moves
    (taken : world.next sha scrub event = some after) :
    SwitchMoves scrub world event after := by
  cases event with
  | read id req now =>
      rw [SwitchWorld.next] at taken
      cases here : world.calls id with
      | some call => simp [here] at taken
      | none =>
          rw [here] at taken
          obtain rfl := Option.some.inj taken
          exact .read here
  | write id outcome =>
      cases outcome with
      | done identity =>
          obtain ⟨call, change, stepped, clamp, here, writes, written, stored, rfl⟩ :=
            next_write taken
          exact .write here writes written stored
      | failed message =>
          simp only [SwitchWorld.next, Option.bind_eq_bind, Option.bind_eq_some_iff] at taken
          obtain ⟨call, here, change, writes, same⟩ := taken
          obtain rfl := Option.some.inj same
          exact .refuse here (change?_of_writes writes)
  | append id outcome =>
      cases outcome with
      | appended times =>
          simp only [SwitchWorld.next, Option.bind_eq_bind, Option.bind_eq_some_iff] at taken
          obtain ⟨call, here, change, appends, rows, formed, next, appended, same⟩ := taken
          obtain rfl := Option.some.inj same
          exact .append here appends appended (recordedSwitch_appendedRows formed)
      | refused reason =>
          simp only [SwitchWorld.next, Option.bind_eq_bind, Option.bind_eq_some_iff] at taken
          obtain ⟨call, here, next, unrecorded, same⟩ := taken
          obtain rfl := Option.some.inj same
          cases call with
          | lowered change lowers =>
              obtain rfl := Option.some.inj unrecorded
              exact .unrecorded here
          | raising change raises =>
              obtain rfl := Option.some.inj unrecorded
              exact .refuse here rfl
          | _ => cases unrecorded
  | otherRow entry =>
      rw [SwitchWorld.next] at taken
      split_ifs at taken with other
      obtain rfl := Option.some.inj taken
      exact .otherRow (recordedSwitch_otherRow other)

theorem beginSwitch_cases (scrub : JsString → JsString) (clamp : Option File) (now : ℤ)
    (req : SwitchChangeRequest) :
    (∃ change lowers, beginSwitch scrub clamp now req = .lowering change lowers ∧
      change.current = storedSwitch clamp) ∨
    (∃ change raises, beginSwitch scrub clamp now req = .raising change raises) ∨
    (∃ code reason current cap,
      beginSwitch scrub clamp now req = .returned (.refused code reason current cap)) ∨
    beginSwitch scrub clamp now req = .threw := by
  generalize begun : beginSwitch scrub clamp now req = call
  unfold beginSwitch at begun
  dsimp only at begun
  split at begun
  · exact .inr (.inr (.inl ⟨_, _, _, _, begun.symm⟩))
  · split at begun
    · exact .inr (.inr (.inr begun.symm))
    · split at begun
      · exact .inl ⟨_, _, begun.symm, rfl⟩
      · split at begun
        · exact .inr (.inr (.inl ⟨_, _, _, _, begun.symm⟩))
        · exact .inr (.inl ⟨_, _, begun.symm⟩)

/-! The condition. -/

def Orderly (world : SwitchWorld) : SwitchEvent → Prop
  | .write id (.done _) =>
      ∀ call change, world.calls id = some call → call.change? = some change →
        ∀ other otherCall otherChange, other ≠ id → world.calls other = some otherCall →
          otherCall.change? = some otherChange → otherChange.target = change.target
  | .append id (.appended _) =>
      ∀ call change, world.calls id = some call → call.change? = some change →
        ∀ other otherCall otherChange, other ≠ id → world.calls other = some otherCall →
          otherCall.halfway? = some otherChange → otherChange.target = change.target
  | _ => True

def OrderlyStep (sha : HashFunction) (scrub : JsString → JsString) (world : SwitchWorld)
    (event : SwitchEvent) (after : SwitchWorld) : Prop :=
  Orderly world event ∧ world.next sha scrub event = some after

/-! Agreement of the two files. -/

structure SwitchHolds (world : SwitchWorld) : Prop where
  /-- A lowering that has written finds its position stored. -/
  lowered : ∀ id change lowers, world.calls id = some (.lowered change lowers) →
    storedSwitch world.clamp = change.target
  /-- So does one that has nothing to change. -/
  unchanged : ∀ id change lowers, world.calls id = some (.lowering change lowers) →
    change.target = change.current → storedSwitch world.clamp = change.target
  /-- A raise that has recorded finds its position in the last row. -/
  recorded : ∀ id change raises, world.calls id = some (.recorded change raises) →
    recordedSwitch world.entries = change.target
  agree : storedSwitch world.clamp = recordedSwitch world.entries ∨
    ∃ id call change, world.calls id = some call ∧ call.halfway? = some change

def Unfailed (world : SwitchWorld) : Prop :=
  ∀ id call, world.calls id = some call → call.change? = none →
    ∃ result, call = .returned result ∧ result.succeeded = true

theorem put_calls (world : SwitchWorld) (id other : ℕ) (call : SwitchCall) :
    (world.put id call).calls other = if other = id then some call else world.calls other := by
  exact Function.update_apply ..

theorem put_calls_eq {world : SwitchWorld} {id other : ℕ} {call found : SwitchCall}
    (here : (world.put id call).calls other = some found) :
    (other = id ∧ call = found) ∨ (other ≠ id ∧ world.calls other = some found) := by
  rw [put_calls] at here
  split_ifs at here with same
  · exact .inl ⟨same, Option.some.inj here⟩
  · exact .inr ⟨same, here⟩

theorem moves_keep_returned
    (moves : SwitchMoves scrub world event after) {id : ℕ}
    {call : SwitchCall} (here : world.calls id = some call) (finished : call.change? = none) :
    after.calls id = some call := by
  have other {acting : ℕ} {acts change' : _} (present : world.calls acting = some acts)
      (inFlight : SwitchCall.change? acts = some change') : id ≠ acting := by
    rintro rfl
    rw [Option.some.inj (present.symm.trans here), finished] at inFlight
    cases inFlight
  cases moves with
  | read fresh =>
      rw [put_calls, if_neg, here]
      rintro rfl
      rw [fresh] at here
      cases here
  | write present writes => rwa [put_calls, if_neg (other present (change?_of_writes writes))]
  | append present appends => rwa [put_calls, if_neg (other present (change?_of_appends appends))]
  | refuse present inFlight => rwa [put_calls, if_neg (other present inFlight)]
  | unrecorded present => rwa [put_calls, if_neg (other present rfl)]
  | otherRow same => exact here

theorem unfailed_of_moves
    (moves : SwitchMoves scrub world event after)
    (unfailed : Unfailed after) : Unfailed world :=
  fun id call here finished =>
    unfailed id call (moves_keep_returned moves here finished) finished

theorem switchHolds_read {world : SwitchWorld} {id : ℕ}
    (req : SwitchChangeRequest) (now : ℤ) (fresh : world.calls id = none)
    (holds : SwitchHolds world) :
    SwitchHolds (world.put id (beginSwitch scrub world.clamp now req)) := by
  have cases := beginSwitch_cases scrub world.clamp now req
  generalize beginSwitch scrub world.clamp now req = begun at cases
  refine ⟨?_, ?_, ?_, ?_⟩
  · intro other change lowers here
    rcases put_calls_eq here with ⟨-, rfl⟩ | ⟨-, here⟩
    · rcases cases with ⟨_, _, begun, -⟩ | ⟨_, _, begun⟩ | ⟨_, _, _, _, begun⟩ | begun <;>
        cases begun
    · exact holds.lowered other change lowers here
  · intro other change lowers here same
    rcases put_calls_eq here with ⟨-, rfl⟩ | ⟨-, here⟩
    · rcases cases with ⟨_, _, begun, current⟩ | ⟨_, _, begun⟩ | ⟨_, _, _, _, begun⟩ | begun
      · cases begun
        rw [same, current]
        rfl
      all_goals cases begun
    · exact holds.unchanged other change lowers here same
  · intro other change raises here
    rcases put_calls_eq here with ⟨-, rfl⟩ | ⟨-, here⟩
    · rcases cases with ⟨_, _, begun, -⟩ | ⟨_, _, begun⟩ | ⟨_, _, _, _, begun⟩ | begun <;>
        cases begun
    · exact holds.recorded other change raises here
  · rcases holds.agree with agree | ⟨other, call, change, here, halfway⟩
    · exact .inl agree
    · refine .inr ⟨other, call, change, ?_, halfway⟩
      rw [put_calls, if_neg, here]
      rintro rfl
      rw [fresh] at here
      cases here

section

variable {world : SwitchWorld} {id : ℕ} {call after : SwitchCall} (holds : SwitchHolds world)
  (here : world.calls id = some call)
include holds here

theorem switchHolds_write {clamp : Option File} (writes : call.writes = some change)
    (written : call.written = some after) (stored : storedSwitch clamp = change.target)
    (alone : ∀ other otherCall otherChange, other ≠ id → world.calls other = some otherCall →
      otherCall.change? = some otherChange → otherChange.target = change.target) :
    SwitchHolds ({ world with clamp := clamp }.put id after) := by
  refine ⟨?_, ?_, ?_, ?_⟩
  · intro other otherChange lowers found
    rcases put_calls_eq found with ⟨-, rfl⟩ | ⟨different, found⟩
    · cases call with
      | lowering own lowers' =>
          obtain rfl := Option.some.inj writes
          rw [SwitchCall.written] at written
          split_ifs at written
          · cases written
          · cases written
            exact stored
      | recorded own raises => cases written
      | _ => cases writes
    · exact stored.trans (alone other _ _ different found rfl).symm
  · intro other otherChange lowers found same
    rcases put_calls_eq found with ⟨-, rfl⟩ | ⟨different, found⟩
    · cases call with
      | lowering own lowers' =>
          rw [SwitchCall.written] at written
          split_ifs at written <;> cases written
      | recorded own raises => cases written
      | _ => cases writes
    · exact stored.trans (alone other _ _ different found rfl).symm
  · intro other otherChange raises found
    rcases put_calls_eq found with ⟨-, rfl⟩ | ⟨-, found⟩
    · cases call with
      | lowering own lowers' =>
          rw [SwitchCall.written] at written
          split_ifs at written <;> cases written
      | recorded own raises => cases written
      | _ => cases writes
    · exact holds.recorded other otherChange raises found
  · cases call with
    | lowering own lowers =>
        obtain rfl := Option.some.inj writes
        rw [SwitchCall.written] at written
        split_ifs at written with same
        · -- nothing to change: the stored position is the one that was there
          have before := holds.unchanged id own lowers here same
          rcases holds.agree with agree | ⟨other, otherCall, otherChange, found, halfway⟩
          · exact .inl (stored.trans (before.symm.trans agree))
          · refine .inr ⟨other, otherCall, otherChange, ?_, halfway⟩
            rw [put_calls, if_neg]
            · exact found
            · rintro rfl
              obtain rfl := Option.some.inj (here.symm.trans found)
              cases halfway
        · obtain rfl := Option.some.inj written
          exact .inr ⟨id, _, own, by rw [put_calls, if_pos rfl], rfl⟩
    | recorded own raises =>
        obtain rfl := Option.some.inj writes
        exact .inl (stored.trans (holds.recorded id own raises here).symm)
    | _ => cases writes

theorem switchHolds_append {entries : List LedgerEntry} (appends : call.appends = some change)
    (appended : call.appended = some after) (recorded : recordedSwitch entries = change.target)
    (alone : ∀ other otherCall otherChange, other ≠ id → world.calls other = some otherCall →
      otherCall.halfway? = some otherChange → otherChange.target = change.target) :
    SwitchHolds ({ world with entries := entries }.put id after) := by
  refine ⟨?_, ?_, ?_, ?_⟩
  · intro other otherChange lowers found
    rcases put_calls_eq found with ⟨-, rfl⟩ | ⟨-, found⟩
    · cases call <;> cases appended
    · exact holds.lowered other otherChange lowers found
  · intro other otherChange lowers found same
    rcases put_calls_eq found with ⟨-, rfl⟩ | ⟨-, found⟩
    · cases call <;> cases appended
    · exact holds.unchanged other otherChange lowers found same
  · intro other otherChange raises found
    rcases put_calls_eq found with ⟨-, rfl⟩ | ⟨different, found⟩
    · cases call with
      | raising own raises' =>
          obtain rfl := Option.some.inj appends
          cases appended
          exact recorded
      | _ => cases appended
    · exact recorded.trans (alone other _ _ different found rfl).symm
  · cases call with
    | lowered own lowers =>
        obtain rfl := Option.some.inj appends
        exact .inl ((holds.lowered id own lowers here).trans recorded.symm)
    | raising own raises =>
        obtain rfl := Option.some.inj appended
        exact .inr ⟨id, _, own, by rw [put_calls, if_pos rfl], rfl⟩
    | _ => cases appends

end

theorem switchHolds_step
    (step : OrderlyStep sha scrub world event after) (before : Unfailed world → SwitchHolds world)
    (unfailed : Unfailed after) : SwitchHolds after := by
  obtain ⟨orderly, taken⟩ := step
  have moves := next_moves taken
  have holds := before (unfailed_of_moves moves unfailed)
  cases moves with
  | read fresh => exact switchHolds_read _ _ fresh holds
  | write here writes written stored =>
      exact switchHolds_write holds here writes written stored
        (orderly _ _ here (change?_of_writes writes))
  | append here appends appended recorded =>
      exact switchHolds_append holds here appends appended recorded
        (orderly _ _ here (change?_of_appends appends))
  | @refuse id _ _ _ code reason current cap here inFlight =>
      obtain ⟨result, same, succeeded⟩ := unfailed id
        (.returned (.refused code reason current cap)) (by rw [put_calls, if_pos rfl]) rfl
      cases same
      cases succeeded
  | @unrecorded id _ change lowers here =>
      obtain ⟨result, same, succeeded⟩ := unfailed id
        (.returned (.ok change.current change.target true false))
        (by rw [put_calls, if_pos rfl]) rfl
      cases same
      cases succeeded
  | otherRow same =>
      exact
        { lowered := holds.lowered
          unchanged := holds.unchanged
          recorded := fun id change raises here =>
            same.trans (holds.recorded id change raises here)
          agree := holds.agree.imp_left fun agree => agree.trans same.symm }

theorem switch_agrees_of_orderly
    {start world : SwitchWorld}
    (idle : ∀ id, start.calls id = none)
    (agree : storedSwitch start.clamp = recordedSwitch start.entries)
    (run : Run (OrderlyStep sha scrub) start events world)
    (returned : ∀ id call, world.calls id = some call →
      ∃ result, call = .returned result ∧ result.succeeded = true) :
    storedSwitch world.clamp = recordedSwitch world.entries := by
  have initial : Unfailed start → SwitchHolds start := fun _ =>
    { lowered := fun id _ _ here => by rw [idle id] at here; cases here
      unchanged := fun id _ _ here => by rw [idle id] at here; cases here
      recorded := fun id _ _ here => by rw [idle id] at here; cases here
      agree := .inl agree }
  have keep {world after : SwitchWorld} {event : SwitchEvent}
      (before : Unfailed world → SwitchHolds world)
      (step : OrderlyStep sha scrub world event after) : Unfailed after → SwitchHolds after :=
    switchHolds_step step before
  have holds := @Run.invariant _ _ _ _ _ _ (fun world => Unfailed world → SwitchHolds world)
    keep run initial fun id call here _ => returned id call here
  rcases holds.agree with agree | ⟨id, call, change, here, halfway⟩
  · exact agree
  · obtain ⟨result, rfl, -⟩ := returned id call here
    cases halfway

/-! A raise that was under way before a lowering began. -/

def LoweredTo (call : SwitchCall) (low : AutonomySwitch) : Prop :=
  (∃ change lowers, call = .lowered change lowers ∧ change.target = low) ∨
    ∃ current changed ledgered,
      call = .returned (.ok current low changed ledgered) ∧ low.rank ≤ current.rank

def Overtakes (raise lower : ℕ) (high : AutonomySwitch) (world : SwitchWorld) : Prop :=
  ∃ call, world.calls raise = some call ∧
    (call.change? = none ∨
      (∃ change, call.change? = some change ∧ change.target = high) ∧
        ∀ lowering low, world.calls lower = some lowering → LoweredTo lowering low → low = high)

theorem not_loweredTo_begin (scrub : JsString → JsString) (clamp : Option File) (now : ℤ)
    (req : SwitchChangeRequest) (low : AutonomySwitch) :
    ¬LoweredTo (beginSwitch scrub clamp now req) low := by
  rcases beginSwitch_cases scrub clamp now req with
    ⟨_, _, begun, -⟩ | ⟨_, _, begun⟩ | ⟨_, _, _, _, begun⟩ | begun
  all_goals
    rw [begun]
    rintro (⟨_, _, same, -⟩ | ⟨_, _, _, same, -⟩)
    · cases same
    · cases same

theorem loweredTo_written {call after : SwitchCall} {low : AutonomySwitch}
    (writes : call.writes = some change) (written : call.written = some after)
    (lowered : LoweredTo after low) : low = change.target := by
  cases call with
  | lowering own lowers =>
      obtain rfl := Option.some.inj writes
      rw [SwitchCall.written] at written
      split_ifs at written
      all_goals
        obtain rfl := Option.some.inj written
        rcases lowered with ⟨_, _, same, rfl⟩ | ⟨_, _, _, same, -⟩
        all_goals
          cases same
          try rfl
  | recorded own raises =>
      obtain rfl := Option.some.inj written
      rcases lowered with ⟨_, _, same, -⟩ | ⟨_, _, _, same, lowers⟩
      · cases same
      · cases same
        omega
  | _ => cases writes

theorem loweredTo_appended {call after : SwitchCall} {low : AutonomySwitch}
    (appended : call.appended = some after) (lowered : LoweredTo after low) :
    LoweredTo call low := by
  cases call with
  | lowered own lowers =>
      obtain rfl := Option.some.inj appended
      rcases lowered with ⟨_, _, same, -⟩ | ⟨_, _, _, same, -⟩ <;> cases same
      exact .inl ⟨own, lowers, rfl, rfl⟩
  | raising own raises =>
      obtain rfl := Option.some.inj appended
      rcases lowered with ⟨_, _, same, -⟩ | ⟨_, _, _, same, -⟩ <;> cases same
  | _ => cases appended

theorem change?_written {call after : SwitchCall}
    (writes : call.writes = some change) (written : call.written = some after) :
    after.change? = none ∨ after.change? = some change := by
  cases call with
  | lowering own lowers =>
      rw [SwitchCall.written] at written
      split_ifs at written <;> cases written
      · exact .inl rfl
      · exact .inr writes
  | recorded own raises =>
      cases written
      exact .inl rfl
  | _ => cases writes

theorem change?_appended {call after : SwitchCall}
    (appends : call.appends = some change) (appended : call.appended = some after) :
    after.change? = none ∨ after.change? = some change := by
  cases call with
  | lowered own lowers =>
      cases appended
      exact .inl rfl
  | raising own raises =>
      cases appended
      exact .inr appends
  | _ => cases appends

theorem overtakes_step
    {raise lower : ℕ} {high : AutonomySwitch}
    (different : lower ≠ raise) (overtakes : Overtakes raise lower high world)
    (step : OrderlyStep sha scrub world event after) : Overtakes raise lower high after := by
  obtain ⟨orderly, taken⟩ := step
  have moves := next_moves taken
  obtain ⟨call, here, finished | ⟨⟨change, inFlight, target⟩, nowhere⟩⟩ := overtakes
  · exact ⟨call, moves_keep_returned moves here finished, .inl finished⟩
  -- a step of the raise itself leaves the lowering alone, and the other way round
  have own {next : SwitchWorld} {stepped : SwitchCall}
      (calls : next.calls = world.calls)
      (kept : stepped.change? = none ∨ stepped.change? = some change) :
      Overtakes raise lower high (next.put raise stepped) := by
    refine ⟨stepped, by rw [put_calls, if_pos rfl], kept.imp_right fun same => ?_⟩
    refine ⟨⟨change, same, target⟩, fun lowering low found => ?_⟩
    rw [put_calls, if_neg different, calls] at found
    exact nowhere lowering low found
  have others {next : SwitchWorld} {id : ℕ} {stepped : SwitchCall}
      (calls : next.calls = world.calls) (other : raise ≠ id)
      (lowers : id = lower → ∀ low, LoweredTo stepped low → low = high) :
      Overtakes raise lower high (next.put id stepped) := by
    refine ⟨call, by rw [put_calls, if_neg other, calls, here],
      .inr ⟨⟨change, inFlight, target⟩, fun lowering low found => ?_⟩⟩
    rcases put_calls_eq found with ⟨rfl, rfl⟩ | ⟨-, found⟩
    · exact lowers rfl low
    · rw [calls] at found
      exact nowhere lowering low found
  cases moves with
  | @read id req now fresh =>
      refine others rfl ?_ fun _ low lowered => absurd lowered (not_loweredTo_begin _ _ _ _ _)
      rintro rfl
      rw [fresh] at here
      cases here
  | @write id _ acting _ _ _ present writes written =>
      by_cases same : raise = id
      · subst same
        obtain rfl := Option.some.inj (here.symm.trans present)
        obtain rfl := Option.some.inj (inFlight.symm.trans (change?_of_writes writes))
        exact own rfl (change?_written writes written)
      · refine others rfl same fun _ low lowered => ?_
        rw [loweredTo_written writes written lowered, ← target]
        exact (orderly _ _ present (change?_of_writes writes) _ _ _ same here inFlight).symm
  | @append id _ acting _ _ _ present appends appended =>
      by_cases same : raise = id
      · subst same
        obtain rfl := Option.some.inj (here.symm.trans present)
        obtain rfl := Option.some.inj (inFlight.symm.trans (change?_of_appends appends))
        exact own rfl (change?_appended appends appended)
      · refine others rfl same fun isLower low lowered => ?_
        exact nowhere acting low (isLower ▸ present) (loweredTo_appended appended lowered)
  | @refuse id _ acting _ _ _ _ _ present _ =>
      by_cases same : raise = id
      · subst same
        exact own rfl (.inl rfl)
      · refine others rfl same fun _ low lowered => ?_
        rcases lowered with ⟨_, _, same, -⟩ | ⟨_, _, _, same, -⟩ <;> cases same
  | @unrecorded id _ lowerChange lowers present =>
      by_cases same : raise = id
      · subst same
        exact own rfl (.inl rfl)
      · refine others rfl same fun isLower low lowered => ?_
        rcases lowered with ⟨_, _, same, -⟩ | ⟨_, _, _, same, -⟩ <;> cases same
        exact nowhere _ _ (isLower ▸ present) (.inl ⟨_, _, rfl, rfl⟩)
  | otherRow => exact ⟨call, here, .inr ⟨⟨change, inFlight, target⟩, nowhere⟩⟩

theorem lowering_stands_of_orderly
    {first second third last : SwitchWorld} {events more : List SwitchEvent}
    {raise lower identity : ℕ}
    {raises : change.current.rank < change.target.rank} {current low : AutonomySwitch}
    {changed ledgered : Bool} (raising : first.calls raise = some (.raising change raises))
    (fresh : first.calls lower = none) (run : Run (OrderlyStep sha scrub) first events second)
    (lowered : second.calls lower = some (.returned (.ok current low changed ledgered)))
    (lowers : low.rank ≤ current.rank) (later : Run (OrderlyStep sha scrub) second more third)
    (writes : OrderlyStep sha scrub third (.write raise (.done identity)) last) :
    (storedSwitch last.clamp).rank ≤ low.rank := by
  have different : lower ≠ raise := by
    rintro rfl
    rw [raising] at fresh
    cases fresh
  have keep {world after : SwitchWorld} {event : SwitchEvent}
      (before : Overtakes raise lower change.target world)
      (step : OrderlyStep sha scrub world event after) :
      Overtakes raise lower change.target after :=
    overtakes_step different before step
  have stay {world after : SwitchWorld} {event : SwitchEvent}
      (before : world.calls lower = some (.returned (.ok current low changed ledgered)))
      (step : OrderlyStep sha scrub world event after) :
      after.calls lower = some (.returned (.ok current low changed ledgered)) :=
    moves_keep_returned (next_moves step.2) before rfl
  have overtakes := @Run.invariant _ _ _ _ _ _ (Overtakes raise lower change.target) keep
    (run.append later)
      ⟨_, raising, .inr ⟨⟨change, rfl, rfl⟩, fun _ _ found => by rw [fresh] at found; cases found⟩⟩
  have stands := @Run.invariant _ _ _ _ _ _
    (fun world => world.calls lower = some (.returned (.ok current low changed ledgered)))
    stay later lowered
  obtain ⟨call, here, finished | ⟨⟨own, inFlight, target⟩, nowhere⟩⟩ := overtakes
  all_goals
    obtain ⟨acting, written, stepped, clamp, present, writes', -, stored, rfl⟩ :=
      next_write writes.2
    obtain rfl := Option.some.inj (here.symm.trans present)
    have flying := change?_of_writes writes'
  · rw [finished] at flying
    cases flying
  · obtain rfl := Option.some.inj (inFlight.symm.trans flying)
    have same := nowhere _ low stands (.inr ⟨current, changed, ledgered, rfl, lowers⟩)
    change (storedSwitch clamp).rank ≤ low.rank
    rw [stored, target, same]

/-! Calls for one position are always orderly. -/

theorem beginSwitch_target {clamp : Option File} {now : ℤ}
    {req : SwitchChangeRequest}
    (inFlight : (beginSwitch scrub clamp now req).change? = some change) :
    JsEnum.ofText req.target = some change.target := by
  generalize begun : beginSwitch scrub clamp now req = call at inFlight
  unfold beginSwitch at begun
  dsimp only at begun
  split at begun
  · subst begun
    cases inFlight
  · rename_i target known
    split at begun
    · subst begun
      cases inFlight
    · split at begun
      · subst begun
        cases inFlight
        exact known
      · split at begun
        · subst begun
          cases inFlight
        · subst begun
          cases inFlight
          exact known

def OnePosition (world : SwitchWorld) (position : AutonomySwitch) : Prop :=
  ∀ id call change, world.calls id = some call → call.change? = some change →
    change.target = position

theorem orderly_of_onePosition {world : SwitchWorld} {position : AutonomySwitch}
    (one : OnePosition world position) (event : SwitchEvent) : Orderly world event := by
  cases event with
  | write id outcome =>
      cases outcome with
      | done identity =>
          intro call change here inFlight other otherCall otherChange _ found otherFlies
          rw [one _ _ _ found otherFlies, one _ _ _ here inFlight]
      | failed message => trivial
  | append id outcome =>
      cases outcome with
      | appended times =>
          intro call change here inFlight other otherCall otherChange _ found halfway
          rw [one _ _ _ found (change?_of_halfway? halfway), one _ _ _ here inFlight]
      | refused reason => trivial
  | _ => trivial

def SwitchEvent.AsksFor (position : AutonomySwitch) : SwitchEvent → Prop
  | .read _ req _ => req.target = JsEnum.text position
  | _ => True

theorem onePosition_step
    {position : AutonomySwitch} (one : OnePosition world position)
    (asks : event.AsksFor position)
    (moves : SwitchMoves scrub world event after) : OnePosition after position := by
  have stepped {next : SwitchWorld} {id : ℕ} {call stepped : SwitchCall} {change : SwitchChange}
      (calls : next.calls = world.calls) (here : world.calls id = some call)
      (inFlight : call.change? = some change)
      (kept : stepped.change? = none ∨ stepped.change? = some change) :
      OnePosition (next.put id stepped) position := by
    intro other otherCall otherChange found otherFlies
    rcases put_calls_eq found with ⟨rfl, rfl⟩ | ⟨-, found⟩
    · rcases kept with none | same
      · rw [none] at otherFlies
        cases otherFlies
      · rw [same] at otherFlies
        cases otherFlies
        exact one _ _ _ here inFlight
    · rw [calls] at found
      exact one _ _ _ found otherFlies
  cases moves with
  | @read id req now fresh =>
      intro other otherCall otherChange found otherFlies
      rcases put_calls_eq found with ⟨rfl, rfl⟩ | ⟨-, found⟩
      · have target := beginSwitch_target otherFlies
        have asked : req.target = JsEnum.text position := asks
        rw [asked, JsEnum.ofText_text] at target
        exact (Option.some.inj target).symm
      · exact one _ _ _ found otherFlies
  | write here writes written =>
      exact stepped rfl here (change?_of_writes writes) (change?_written writes written)
  | append here appends appended =>
      exact stepped rfl here (change?_of_appends appends) (change?_appended appends appended)
  | refuse here inFlight => exact stepped rfl here inFlight (.inl rfl)
  | unrecorded here => exact stepped rfl here rfl (.inl rfl)
  | otherRow => exact one

theorem run_of_onePosition
    {world last : SwitchWorld} {position : AutonomySwitch}
    (one : OnePosition world position)
    (asks : ∀ event ∈ events, event.AsksFor position)
    (taken : world.after sha scrub events = some last) :
    Run (OrderlyStep sha scrub) world events last ∧ OnePosition last position := by
  induction events generalizing world with
  | nil =>
      obtain rfl := Option.some.inj taken
      exact ⟨.nil, one⟩
  | cons event events ih =>
      simp only [SwitchWorld.after, Option.bind_eq_bind, Option.bind_eq_some_iff] at taken
      obtain ⟨next, first, rest⟩ := taken
      have kept := onePosition_step one (asks event List.mem_cons_self) (next_moves first)
      obtain ⟨run, last⟩ := ih kept
        (fun other member => asks other (List.mem_cons_of_mem _ member)) rest
      exact ⟨(Run.single ⟨orderly_of_onePosition one event, first⟩).append run, last⟩

/-! Runs on given events. -/

def SwitchEvent.call? : SwitchEvent → Option ℕ
  | .read id _ _ | .write id _ | .append id _ => some id
  | .otherRow _ => none

theorem next_calls_other
    {id : ℕ}
    (taken : world.next sha scrub event = some after) (other : event.call? ≠ some id) :
    after.calls id = world.calls id := by
  have kept (next : SwitchWorld) (acting : ℕ) (call : SwitchCall)
      (acts : event.call? = some acting) : (next.put acting call).calls id = next.calls id := by
    rw [put_calls, if_neg]
    rintro rfl
    exact other acts
  cases event with
  | read acting req now =>
      rw [SwitchWorld.next] at taken
      split at taken
      · cases taken
      · obtain rfl := Option.some.inj taken
        exact kept _ _ _ rfl
  | write acting outcome | append acting outcome =>
      cases outcome
      all_goals simp only [SwitchWorld.next, Option.bind_eq_bind, Option.bind_eq_some_iff] at taken
      · obtain ⟨_, -, _, -, _, -, _, -, same⟩ := taken
        obtain rfl := Option.some.inj same
        exact kept _ _ _ rfl
      · obtain ⟨_, -, _, -, same⟩ := taken
        obtain rfl := Option.some.inj same
        exact kept _ _ _ rfl
  | otherRow entry =>
      rw [SwitchWorld.next] at taken
      split_ifs at taken
      obtain rfl := Option.some.inj taken
      rfl

theorem after_calls_other
    {world last : SwitchWorld} {id : ℕ}
    (taken : world.after sha scrub events = some last)
    (others : ∀ event ∈ events, event.call? ≠ some id) : last.calls id = world.calls id := by
  induction events generalizing world with
  | nil =>
      obtain rfl := Option.some.inj taken
      rfl
  | cons event events ih =>
      simp only [SwitchWorld.after, Option.bind_eq_bind, Option.bind_eq_some_iff] at taken
      obtain ⟨next, first, rest⟩ := taken
      rw [ih rest fun other member => others other (List.mem_cons_of_mem _ member),
        next_calls_other first (others event List.mem_cons_self)]

def SwitchCall.result? : SwitchCall → Option SwitchChangeResult
  | .returned result => some result
  | _ => none

def SwitchCall.raise? : SwitchCall → Option SwitchChange
  | .raising change _ => some change
  | _ => none

def switchTimes : RowTimes := ⟨none, 1767225600000, 1767225600000⟩

def askSwitch (id : ℕ) (target : AutonomySwitch) : SwitchEvent :=
  .read id ⟨JsEnum.text target, .mason, js "asked", .autonomous⟩ 1767225600000

theorem returned_of_results
    {world : SwitchWorld} {first second third : SwitchChangeResult}
    (taken : newSwitchWorld.after sha scrub events = some world)
    (only : ∀ event ∈ events, event.call? = some 1 ∨ event.call? = some 2 ∨ event.call? = some 3)
    (results : [1, 2, 3].map (fun id => (world.calls id).bind SwitchCall.result?) =
      [some first, some second, some third])
    (succeeded : first.succeeded = true ∧ second.succeeded = true ∧ third.succeeded = true)
    (id : ℕ) (call : SwitchCall) (here : world.calls id = some call) :
    ∃ result, call = .returned result ∧ result.succeeded = true := by
  simp only [List.map_cons, List.map_nil, List.cons.injEq, and_true] at results
  have returned {result : SwitchChangeResult}
      (shown : (world.calls id).bind SwitchCall.result? = some result) :
      call = .returned result := by
    rw [here] at shown
    cases call with
    | returned other =>
        cases shown
        rfl
    | _ => cases shown
  by_cases acting : id = 1 ∨ id = 2 ∨ id = 3
  · rcases acting with rfl | rfl | rfl
    · exact ⟨first, returned results.1, succeeded.1⟩
    · exact ⟨second, returned results.2.1, succeeded.2.1⟩
    · exact ⟨third, returned results.2.2, succeeded.2.2⟩
  · rw [after_calls_other taken] at here
    · cases here
    · intro event member
      rcases only event member with same | same | same <;> rw [same] <;> simp <;> omega

theorem after_append
    {world middle last : SwitchWorld} {events more : List SwitchEvent}
    (taken : world.after sha scrub events = some middle)
    (later : middle.after sha scrub more = some last) :
    world.after sha scrub (events ++ more) = some last := by
  induction events generalizing world with
  | nil =>
      obtain rfl := Option.some.inj taken
      exact later
  | cons event events ih =>
      simp only [List.cons_append, SwitchWorld.after, Option.bind_eq_bind,
        Option.bind_eq_some_iff] at taken ⊢
      obtain ⟨next, first, rest⟩ := taken
      exact ⟨next, first, ih rest⟩

/-! Runs whose rows are counted and not formed. -/

theorem appendedRows_some (sha : HashFunction) (change : SwitchChange) {times : RowTimes}
    {entries : List LedgerEntry}
    (shown : isTime times.genesis = true ∧ isTime times.row = true)
    (few : nextSeq (lastHead none entries) < 2000) :
    ∃ rows, appendedRows sha entries times change.row = some rows ∧
      nextSeq (lastHead none (entries ++ rows)) ≤ nextSeq (lastHead none entries) + 2 := by
  have finite : allFinite (.obj change.row.data) = true := rfl
  have safe (head : Option LedgerHead) (small : nextSeq head ≤ 2000) :
      (nextSeq head : ℤ) ≤ JsNumber.maxSafeInteger := by
    rw [JsNumber.maxSafeInteger]
    omega
  rw [appendedRows, if_neg (by simp [validateInput, SwitchChange.row])]
  simp only [lastHead_append]
  cases last : lastHead none entries with
  | none =>
      have plain : allFinite (.obj (genesisInput times.hostBinding .daemon).data) = true := by
        rw [allFinite, genesisInput, membersFinite, allFinite_nullable]
        rfl
      obtain ⟨genesis, _, formedGenesis⟩ := formEntry_some sha none shown.1 (safe none (by decide))
        plain
      have first : nextSeq (some genesis.head) = 1 :=
        congrArg (· + 1) (formEntry_steps formedGenesis).seq
      obtain ⟨row, _, formed⟩ := formEntry_some sha (some genesis.head) shown.2
        (safe _ (by omega)) finite
      refine ⟨[genesis, row], by simp [formedGenesis, formed], ?_⟩
      have second : row.seq = 1 := (formEntry_steps formed).seq.trans first
      exact le_of_eq (congrArg (· + 1) second)
  | some head =>
      rw [last] at few
      obtain ⟨row, _, formed⟩ := formEntry_some sha (some head) shown.2 (safe _ (by omega)) finite
      refine ⟨[row], by simp [formed], ?_⟩
      have next : row.seq = nextSeq (some head) := (formEntry_steps formed).seq
      have after : nextSeq (lastHead (some head) [row]) = row.seq + 1 := rfl
      omega

/-- A step in which one mark stands for the rows that an append leaves. -/
def SwitchWorld.sketch (sha : HashFunction) (scrub : JsString → JsString) (world : SwitchWorld) :
    SwitchEvent → Option SwitchWorld
  | .append id (.appended times) => do
      let call ← world.calls id
      let change ← call.appends
      let after ← call.appended
      if (isTime times.genesis ∧ isTime times.row) ∧ world.entries.length < 1000 then
        let mark : LedgerEntry := ⟨0, [], change.actor, none, none, [], .switchChanged,
          [(js "to", .str (JsEnum.text change.target))], []⟩
        some ({ world with entries := world.entries ++ [mark] }.put id after)
      else none
  | .read id req now => world.next sha scrub (.read id req now)
  | .write id outcome => world.next sha scrub (.write id outcome)
  | _ => none

def SwitchWorld.sketches (sha : HashFunction) (scrub : JsString → JsString)
    (world : SwitchWorld) : List SwitchEvent → Option SwitchWorld
  | [] => some world
  | event :: events => do (← world.sketch sha scrub event).sketches sha scrub events

structure Sketches (drawn world : SwitchWorld) : Prop where
  clamp : world.clamp = drawn.clamp
  calls : world.calls = drawn.calls
  recorded : recordedSwitch world.entries = recordedSwitch drawn.entries
  rows : nextSeq (lastHead none world.entries) ≤ 2 * drawn.entries.length

theorem next_of_sketch
    {drawn world next : SwitchWorld} (same : Sketches drawn world)
    (taken : drawn.sketch sha scrub event = some next) :
    ∃ after, world.next sha scrub event = some after ∧ Sketches next after := by
  obtain ⟨clamp, entries, calls⟩ := world
  obtain ⟨rfl, rfl, recorded, rows⟩ := same
  change nextSeq (lastHead none entries) ≤ _ at rows
  cases event with
  | read id req now =>
      simp only [SwitchWorld.sketch, SwitchWorld.next] at taken ⊢
      cases here : drawn.calls id with
      | some call => simp [here] at taken
      | none =>
          rw [here] at taken
          obtain rfl := Option.some.inj taken
          exact ⟨_, rfl, rfl, rfl, recorded, rows⟩
  | write id outcome =>
      cases outcome
      all_goals
        simp only [SwitchWorld.sketch, SwitchWorld.next, Option.bind_eq_bind,
          Option.bind_eq_some_iff] at taken ⊢
      · obtain ⟨call, here, change, writes, file, stored, stepped, written, leaves⟩ := taken
        obtain rfl := Option.some.inj leaves
        exact ⟨_, ⟨call, here, change, writes, file, stored, stepped, written, rfl⟩, rfl, rfl,
          recorded, rows⟩
      · obtain ⟨call, here, change, writes, leaves⟩ := taken
        obtain rfl := Option.some.inj leaves
        exact ⟨_, ⟨call, here, change, writes, rfl⟩, rfl, rfl, recorded, rows⟩
  | append id outcome =>
      cases outcome with
      | refused => cases taken
      | appended times =>
          simp only [SwitchWorld.sketch, SwitchWorld.next, Option.bind_eq_bind,
            Option.bind_eq_some_iff] at taken ⊢
          obtain ⟨call, here, change, appends, stepped, appended, leaves⟩ := taken
          split_ifs at leaves with possible
          obtain rfl := Option.some.inj leaves
          have few : nextSeq (lastHead none entries) < 2000 := by omega
          obtain ⟨formed, made, bound⟩ := appendedRows_some sha change possible.1 few
          refine ⟨_, ⟨call, here, change, appends, formed, made, stepped, appended, rfl⟩, rfl, rfl,
            ?_, ?_⟩
          · refine (recordedSwitch_appendedRows made).trans
              (Eq.symm (recordedSwitch_switched rfl ?_))
            exact if_pos rfl
          · refine le_trans bound ?_
            simp only [SwitchWorld.put, List.length_append, List.length_singleton]
            omega
  | otherRow => cases taken

theorem after_of_sketches
    {drawn world last : SwitchWorld} (same : Sketches drawn world)
    (taken : drawn.sketches sha scrub events = some last) :
    ∃ after, world.after sha scrub events = some after ∧ Sketches last after := by
  induction events generalizing drawn world with
  | nil =>
      obtain rfl := Option.some.inj taken
      exact ⟨world, rfl, same⟩
  | cons event events ih =>
      simp only [SwitchWorld.sketches, Option.bind_eq_bind, Option.bind_eq_some_iff] at taken
      obtain ⟨next, first, rest⟩ := taken
      obtain ⟨middle, moved, drawnOn⟩ := next_of_sketch same first
      obtain ⟨after, ran, sketched⟩ := ih drawnOn rest
      refine ⟨after, ?_, sketched⟩
      rw [SwitchWorld.after, moved]
      exact ran

theorem sketches_new : Sketches newSwitchWorld newSwitchWorld :=
  ⟨rfl, rfl, rfl, le_refl _⟩

/-- The switch and the ledger under concurrent calls.  When no call writes the switch
while a call for another position is in flight, and none appends its row while such a call
is halfway: once every call has succeeded the stored switch is the one last recorded, and
a raise that began before a lowering does not undo it. -/
theorem setAutonomySwitch_keeps_agreement {sha : HashFunction} {scrub : JsString → JsString}
    {start : SwitchWorld} (idle : ∀ id, start.calls id = none)
    (agree : storedSwitch start.clamp = recordedSwitch start.entries) :
    (∀ events world, Run (OrderlyStep sha scrub) start events world →
      (∀ id call, world.calls id = some call →
        ∃ result, call = .returned result ∧ result.succeeded = true) →
      storedSwitch world.clamp = recordedSwitch world.entries) ∧
    ∀ before first events second more third last raise lower identity change raises current low
        changed ledgered,
      Run (OrderlyStep sha scrub) start before first →
      first.calls raise = some (.raising change raises) → first.calls lower = none →
      Run (OrderlyStep sha scrub) first events second →
      second.calls lower = some (.returned (.ok current low changed ledgered)) →
      low.rank ≤ current.rank → Run (OrderlyStep sha scrub) second more third →
      OrderlyStep sha scrub third (.write raise (.done identity)) last →
      (storedSwitch last.clamp).rank ≤ low.rank := by
  constructor
  · intro events world run returned
    exact switch_agrees_of_orderly idle agree run returned
  · intro _ _ _ _ _ _ _ _ _ _ _ _ _ _ _ _ _ raising fresh run lowered lowers later writes
    exact lowering_stands_of_orderly raising fresh run lowered lowers later writes

/-- One raise reads and another runs to its end, and then a call that has nothing to
change, before the first goes on. -/
theorem setAutonomySwitch_keeps_agreement_propose :
    ∃ first second third last,
      newSwitchWorld.after sha256 id [askSwitch 1 .propose, askSwitch 3 .propose,
        .append 3 (.appended switchTimes), .write 3 (.done 3)] = some first ∧
      first.after sha256 id [askSwitch 2 .propose, .write 2 (.done 2)] = some second ∧
      second.after sha256 id [.append 1 (.appended switchTimes)] = some third ∧
      third.after sha256 id [.write 1 (.done 1)] = some last ∧
      storedSwitch last.clamp = recordedSwitch last.entries ∧
      (storedSwitch last.clamp).rank ≤ AutonomySwitch.propose.rank := by
  have drawn : ((do
      let first ← newSwitchWorld.sketches sha256 id [askSwitch 1 .propose, askSwitch 3 .propose,
        .append 3 (.appended switchTimes), .write 3 (.done 3)]
      let second ← first.sketches sha256 id [askSwitch 2 .propose, .write 2 (.done 2)]
      let third ← second.sketches sha256 id [.append 1 (.appended switchTimes)]
      let last ← third.sketches sha256 id [.write 1 (.done 1)]
      some (((first.calls 1).bind SwitchCall.raise?).isSome, (first.calls 2).isNone,
        (second.calls 2).bind SwitchCall.result?,
        [1, 2, 3].map fun id => (last.calls id).bind SwitchCall.result?)) : Option _) =
      some (true, true, some (.ok .propose .propose false true),
        [some (.ok .off .propose true true),
        some (.ok .propose .propose false true), some (.ok .off .propose true true)]) := by
    decide +kernel
  simp only [Option.bind_eq_bind, Option.bind_eq_some_iff, Option.some.injEq,
    Prod.mk.injEq] at drawn
  obtain ⟨_, drawFirst, _, drawSecond, _, drawThird, _, drawLast, raising, fresh, lowered,
    results⟩ := drawn
  obtain ⟨first, toFirst, likeFirst⟩ := after_of_sketches sketches_new drawFirst
  obtain ⟨second, toSecond, likeSecond⟩ := after_of_sketches likeFirst drawSecond
  obtain ⟨third, toThird, likeThird⟩ := after_of_sketches likeSecond drawThird
  obtain ⟨last, toLast, likeLast⟩ := after_of_sketches likeThird drawLast
  rw [← likeFirst.calls] at raising fresh
  rw [← likeSecond.calls] at lowered
  rw [← likeLast.calls] at results
  have idle : OnePosition newSwitchWorld .propose := fun _ _ _ here => by cases here
  obtain ⟨runFirst, oneFirst⟩ := run_of_onePosition idle
    (by simp [SwitchEvent.AsksFor, askSwitch]) toFirst
  obtain ⟨runSecond, oneSecond⟩ := run_of_onePosition oneFirst
    (by simp [SwitchEvent.AsksFor, askSwitch]) toSecond
  obtain ⟨runThird, oneThird⟩ := run_of_onePosition oneSecond
    (by simp [SwitchEvent.AsksFor]) toThird
  obtain ⟨runLast, -⟩ := run_of_onePosition oneThird (by simp [SwitchEvent.AsksFor]) toLast
  have returned := returned_of_results
    (after_append (after_append (after_append toFirst toSecond) toThird) toLast)
    (by simp [SwitchEvent.call?, askSwitch]) results ⟨rfl, rfl, rfl⟩
  obtain ⟨agreement, standing⟩ :=
    @setAutonomySwitch_keeps_agreement sha256 id newSwitchWorld (fun _ => rfl) rfl
  refine ⟨first, second, third, last, toFirst, toSecond, toThird, toLast,
    agreement _ _ (((runFirst.append runSecond).append runThird).append runLast) returned, ?_⟩
  obtain ⟨change, found⟩ := Option.isSome_iff_exists.mp raising
  obtain ⟨call, here, isRaise⟩ := Option.bind_eq_some_iff.mp found
  have raise : ∃ raises, call = .raising change raises := by
    cases call with
    | raising own raises =>
        cases isRaise
        exact ⟨raises, rfl⟩
    | _ => cases isRaise
  obtain ⟨raises, rfl⟩ := raise
  obtain ⟨done, here', isResult⟩ := lowered
  have result : done = .returned (.ok .propose .propose false true) := by
    cases done with
    | returned other =>
        cases isResult
        rfl
    | _ => cases isResult
  have step : third.next sha256 id (.write 1 (.done 1)) = some last := by
    simpa [SwitchWorld.after] using toLast
  exact standing _ first _ second _ third last 1 2 1 change raises .propose .propose false true
    runFirst here (Option.isNone_iff_eq_none.mp fresh) runSecond (result ▸ here') (le_refl _)
    runThird ⟨orderly_of_onePosition oneThird _, step⟩

/-- A lowering writes, a raise runs to its end, and the lowering's row comes last. -/
def overlappingCalls : List SwitchEvent :=
  [askSwitch 1 .propose, .append 1 (.appended switchTimes), .write 1 (.done 1),
    askSwitch 2 .off, .write 2 (.done 2),
    askSwitch 3 .propose, .append 3 (.appended switchTimes), .write 3 (.done 3),
    .append 2 (.appended switchTimes)]

def undoneLowering : List SwitchEvent :=
  [askSwitch 1 .propose, .append 1 (.appended switchTimes), .write 1 (.done 1),
    askSwitch 2 .autonomous,
    askSwitch 3 .off, .write 3 (.done 3), .append 3 (.appended switchTimes),
    .append 2 (.appended switchTimes), .write 2 (.done 2)]

/-- Calls that all succeed leave the files in disagreement, and a raise that began before
a lowering undoes it. -/
theorem setAutonomySwitch_races :
    (∃ world, newSwitchWorld.after sha256 id overlappingCalls = some world ∧
      (∀ id call, world.calls id = some call →
        ∃ result, call = .returned result ∧ result.succeeded = true) ∧
      storedSwitch world.clamp = .propose ∧ recordedSwitch world.entries = .off) ∧
    ∃ world, newSwitchWorld.after sha256 id undoneLowering = some world ∧
      (world.calls 3).bind SwitchCall.result? = some (.ok .propose .off true true) ∧
      storedSwitch world.clamp = .autonomous := by
  constructor
  · have drawn : (newSwitchWorld.sketches sha256 id overlappingCalls).map (fun world =>
        (storedSwitch world.clamp, recordedSwitch world.entries,
          [1, 2, 3].map fun id => (world.calls id).bind SwitchCall.result?)) =
        some (.propose, .off, [some (.ok .off .propose true true),
          some (.ok .propose .off true true), some (.ok .off .propose true true)]) := by
      decide +kernel
    obtain ⟨_, draws, shown⟩ := Option.map_eq_some_iff.mp drawn
    obtain ⟨world, after, like⟩ := after_of_sketches sketches_new draws
    rw [← like.clamp, ← like.recorded, ← like.calls] at shown
    obtain ⟨stored, shown⟩ := Prod.mk.inj shown
    obtain ⟨recorded, results⟩ := Prod.mk.inj shown
    exact ⟨world, after, returned_of_results after
      (by simp [overlappingCalls, askSwitch, SwitchEvent.call?]) results ⟨rfl, rfl, rfl⟩,
      stored, recorded⟩
  · have drawn : (newSwitchWorld.sketches sha256 id undoneLowering).map (fun world =>
        (storedSwitch world.clamp, (world.calls 3).bind SwitchCall.result?)) =
        some (.autonomous, some (.ok .propose .off true true)) := by
      decide +kernel
    obtain ⟨_, draws, shown⟩ := Option.map_eq_some_iff.mp drawn
    obtain ⟨world, after, like⟩ := after_of_sketches sketches_new draws
    rw [← like.clamp, ← like.calls] at shown
    obtain ⟨stored, lowered⟩ := Prod.mk.inj shown
    exact ⟨world, after, lowered, stored⟩

end AshlrHub.Authority

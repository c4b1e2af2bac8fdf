import AshlrHub.Fleet.HostMergeProtocol
import AshlrHub.Lib.Assembly

namespace AshlrHub.HostMerge

open Js Authority Lib

/-! Others run the same code: what they ask for is foreign to the record of `key`. -/

theorem stop_named (operationPrefix : JsString) (random : HexText) :
    lastName (operationPrefix ++ 0x2E :: (js "stop-" ++ random.text)) =
      js "stop-" ++ random.text := by
  refine lastName_append fun member => ?_
  rcases List.mem_append.mp member with inName | inHex
  · exact absurd inName (by decide)
  · exact absurd (List.all_eq_true.mp random.hex _ inHex) (by decide)

theorem revokeArmed_foreign (key name : JsString) (attempt : MergeAttemptMemo)
    (out : RevokeResult) : (read : HostMergeRevocationReadResult) →
      (revokeArmed name attempt out read).Only (Request.Foreign key)
  | .missing => trivial
  | .degraded _ => trivial
  | .healthy record => by
      dsimp only [revokeArmed]
      cases record.receipts.getLast? with
      | none => trivial
      | some latest =>
          apply Dialogue.Only.ite
          · trivial
          · refine ⟨trivial, fun random => ⟨trivial, fun now => ⟨?_, fun result => ?_⟩⟩⟩
            · intro same
              rw [AuthorityCall.operationId, stop_named] at same
              have first : (js "stop-" ++ random.text).head? = (js "stop-").head? :=
                List.head?_append_of_ne_nil _ (by decide)
              rw [same] at first
              exact absurd first (by decide)
            · simp only [Dialogue.done_andThen]
              cases result.accepted <;> trivial

theorem revokeArmedOf_foreign (key name : JsString) (out : RevokeResult) :
    (read : FleetMergeStateRead) → (revokeArmedOf name out read).Only (Request.Foreign key)
  | .missing => trivial
  | .corrupt => trivial
  | .ok record => by
      dsimp only [revokeArmedOf]
      cases record.merge with
      | none => trivial
      | some attempt =>
          apply Dialogue.Only.ite
          · exact ⟨trivial, revokeArmed_foreign key name attempt out⟩
          · trivial

theorem revokeArmedKeys_foreign (key : JsString) : (keys : List JsString) → (out : RevokeResult) →
    (revokeArmedKeys keys out).Only (Request.Foreign key)
  | [], _ => trivial
  | name :: keys, out => ⟨trivial, fun read =>
      (revokeArmedOf_foreign key name out read).andThen (revokeArmedKeys_foreign key keys)⟩

/-- A Stop elsewhere does nothing that `Others` does not allow for. -/
theorem revokeArmedHostMerges_foreign (key : JsString) :
    revokeArmedHostMerges.Only (Request.Foreign key) := by
  refine ⟨trivial, fun keys => ?_⟩
  cases keys with
  | none => trivial
  | some keys => exact revokeArmedKeys_foreign key keys _

/-! One record, written by a pass that holds its lock and by closes and reopens that do not. -/

def FleetMergeStateV1.mirrored (record : FleetMergeStateV1) (pr : FleetPrMemo) (target : PrState)
    (actor : JsString) : FleetMergeStateV1 :=
  { record with
    pr := some { pr with
      state := target
      closedBy := if target = .closed then some (.actor actor) else none
      nextCheckAt := none } }

def recordPrStateOf (repo : JsString) (number : ℤ) (target : PrState) (actor : JsString) :
    FleetMergeStateRead → Merging Unit
  | .ok record =>
    match record.pr with
    | none => pure ()
    | some pr =>
      if toLowerCase record.repo ≠ toLowerCase repo ∨ pr.number ≠ number then pure ()
      else do
        let _ ← ask (.writeState (record.mirrored pr target actor))
        pure ()
  | .missing => pure ()
  | .corrupt => pure ()

def recordPrStateOn (repo : JsString) (number : ℤ) (target : PrState) (actor : JsString) :
    List JsString → Merging Unit
  | [] => pure ()
  | key :: keys => do
    let read ← ask (.readState key)
    recordPrStateOf repo number target actor read
    recordPrStateOn repo number target actor keys

/-- `recordPrStateLocally` -/
def recordPrStateLocally (repo : JsString) (number : ℤ) (target : PrState) (actor : JsString) :
    Merging Unit := do
  match ← ask .listKeys with
  | none => pure ()
  | some keys => recordPrStateOn repo number target actor keys

/-! The parties. -/

inductive Party where
  /-- Whoever holds the record's lock. -/
  | pass
  | closer (number : ℕ)
  | stop (number : ℕ)
  /-- Whoever sets the switches. -/
  | owner
deriving DecidableEq

inductive Access where
  | read (party : Party) (found : Option FleetMergeStateV1)
  | write (party : Party) (record : FleetMergeStateV1)

def Access.party : Access → Party
  | .read party _ => party
  | .write party _ => party

structure Shared where
  world : World
  log : List Access

/-- `readFleetMergeState`, of a file that can be read. -/
def World.readState (world : World) (key : JsString) : FleetMergeStateRead :=
  match world.states key with
  | none => .missing
  | some record => if record.key = key then .ok record else .corrupt

def FleetMergeStateRead.found : FleetMergeStateRead → Option FleetMergeStateV1
  | .ok record => some record
  | .missing => none
  | .corrupt => none

/-- The accesses to the record of `key` are logged. -/
def updates (key : JsString) (party : Party) (shared : Shared) : (asked : Request) →
    Answer asked → Shared → Prop
  | .readState other, read, after =>
      (read = .corrupt ∧ after = shared) ∨
        (read = shared.world.readState other ∧ read ≠ .corrupt ∧
          after = if other = key then
            { shared with log := shared.log ++ [.read party read.found] } else shared)
  | .writeState state, written, after =>
      (written = false ∧ after = shared) ∨
        after = ⟨shared.world.put state, if state.key = key then
          shared.log ++ [.write party state] else shared.log⟩
  | asked, answer, after => answers shared.world asked answer after.world ∧ after.log = shared.log

inductive Joins (scrubSecrets : JsString → JsString) (key : JsString) :
    Party → Shared → Merging Unit → Shared → Prop
  | pass {shared : Shared} {state : FleetMergeStateV1} (count : ℕ)
      (read : shared.world.readState key = .ok state) :
      Joins scrubSecrets key .pass shared (passUnderLock scrubSecrets count state)
        { shared with log := shared.log ++ [.read .pass (some state)] }
  | fresh {shared : Shared} {state : FleetMergeStateV1} (count : ℕ)
      (missing : shared.world.readState key = .missing) (own : state.key = key)
      (untried : state.merge = none) :
      Joins scrubSecrets key .pass shared (passUnderLock scrubSecrets count state)
        { shared with log := shared.log ++ [.read .pass none] }
  | closer {shared : Shared} (number : ℕ) (repo : JsString) (pr : ℤ) (target : PrState)
      (actor : JsString) : Joins scrubSecrets key (.closer number) shared
        (recordPrStateLocally repo pr target actor) shared
  | stop {shared : Shared} (number : ℕ) : Joins scrubSecrets key (.stop number) shared
      (revokeArmedHostMerges >>= fun _ => pure ()) shared
  | owner {shared : Shared} (switches : Switches) : Joins scrubSecrets key .owner shared (pure ())
      { shared with world := { shared.world with switches } }

abbrev Updating := Assembly Party Shared Request Answer Unit

abbrev UpdateStep (scrubSecrets : JsString → JsString) (key : JsString) :
    Updating → Party → Updating → Prop :=
  Assembly.Step (updates key) (Joins scrubSecrets key)

def Updating.start (world : World) : Updating := ⟨⟨world, []⟩, fun _ => none⟩

/-! What the record should say. -/

def Access.passWrite : Access → Option FleetMergeStateV1
  | .write .pass record => some record
  | _ => none

def passWrote (log : List Access) : Option FleetMergeStateV1 :=
  (log.filterMap Access.passWrite).getLast?

/-- The state of the pull request as a pass has it, and as it was last set: by a close or a
reopen, or by a pass that found another one than it had. -/
structure PrTally where
  seen : Option PrState
  latest : Option PrState

def FleetMergeStateV1.prState (record : FleetMergeStateV1) : Option PrState :=
  record.pr.map FleetPrMemo.state

def PrTally.next (tally : PrTally) : Access → PrTally
  | .read .pass found => { tally with seen := found.bind FleetMergeStateV1.prState }
  | .write .pass record =>
      if record.prState = tally.seen then tally else ⟨record.prState, record.prState⟩
  | .write _ record => { tally with latest := record.prState }
  | .read _ _ => tally

def prTally (log : List Access) : PrTally :=
  log.foldl PrTally.next ⟨none, none⟩

structure Agreed (log : List Access) (stored : Option FleetMergeStateV1) : Prop where
  memo : ∀ written, passWrote log = some written → ∃ record, stored = some record ∧
    record.merge = written.merge ∧ record.landing = written.landing
  pr : ∀ state, (prTally log).latest = some state → ∃ record, stored = some record ∧
    record.prState = some state

structure Undisturbed (log : List Access) : Prop where
  closers : ∀ front found middle written back number,
    log = front ++ .read (.closer number) found :: middle ++ .write (.closer number) written ::
        back →
      (∀ access ∈ middle, access.party ≠ .closer number) → ∀ record, .write .pass record ∉ middle
  passes : ∀ front access middle written back,
    log = front ++ access :: middle ++ .write .pass written :: back →
      access.party = .pass → (∀ other ∈ middle, other.party ≠ .pass) →
        ∀ number record, .write (.closer number) record ∉ middle

/-! Updates that do not cross are not lost; those that cross may be. -/

def Access.written : Access → Option FleetMergeStateV1
  | .write _ record => some record
  | .read _ _ => none

def current (first : Option FleetMergeStateV1) (log : List Access) : Option FleetMergeStateV1 :=
  (log.filterMap Access.written).getLast?.or first

section

variable {first : Option FleetMergeStateV1} {log : List Access} {party : Party}
  {found : Option FleetMergeStateV1} {record : FleetMergeStateV1} {number : ℕ}

@[simp] theorem current_read : current first (log ++ [.read party found]) = current first log := by
  simp [current, Access.written]

@[simp] theorem current_write :
    current first (log ++ [.write party record]) = some record := by
  simp [current, Access.written]

@[simp] theorem passWrote_read : passWrote (log ++ [.read party found]) = passWrote log := by
  simp [passWrote, Access.passWrite]

@[simp] theorem passWrote_pass : passWrote (log ++ [.write .pass record]) = some record := by
  simp [passWrote, Access.passWrite]

@[simp] theorem passWrote_closer :
    passWrote (log ++ [.write (.closer number) record]) = passWrote log := by
  simp [passWrote, Access.passWrite]

theorem prTally_snoc (access : Access) : prTally (log ++ [access]) = (prTally log).next access := by
  simp [prTally]

end

/-! The log. -/

/-- The last access of the close or reopen was its read of `copy`. -/
def LastRead (number : ℕ) (copy : FleetMergeStateV1) (log : List Access) : Prop :=
  ∃ before middle, log = before ++ .read (.closer number) (some copy) :: middle ∧
    ∀ access ∈ middle, access.party ≠ .closer number

def LastPass (log : List Access) : Prop :=
  ∃ before access middle, log = before ++ access :: middle ∧ access.party = .pass ∧
    ∀ other ∈ middle, other.party ≠ .pass

inductive Told (first : Option FleetMergeStateV1) : List Access → Prop
  | nil : Told first []
  | read {log : List Access} (told : Told first log) (party : Party) :
      Told first (log ++ [.read party (current first log)])
  | closer {log : List Access} {number : ℕ} {copy : FleetMergeStateV1} {pr : FleetPrMemo}
      (told : Told first log) (last : LastRead number copy log) (target : PrState)
      (actor : JsString) :
      Told first (log ++ [.write (.closer number) (copy.mirrored pr target actor)])
  | pass {log : List Access} (told : Told first log) (last : LastPass log)
      (record : FleetMergeStateV1) : Told first (log ++ [.write .pass record])

theorem Undisturbed.front {first second : List Access} (undisturbed : Undisturbed (first ++ second))
    :
    Undisturbed first where
  closers front found middle written back number same apart :=
    undisturbed.closers front found middle written (back ++ second) number
      (by rw [same]; simp) apart
  passes front access middle written back same passed apart :=
    undisturbed.passes front access middle written (back ++ second) (by rw [same]; simp) passed
      apart

def FleetMergeStateV1.memo (record : FleetMergeStateV1) :
    Option MergeAttemptMemo × Option PostMerge.LandingRecord :=
  (record.merge, record.landing)

theorem memo_mirrored (record : FleetMergeStateV1) (pr : FleetPrMemo) (target : PrState)
    (actor : JsString) : (record.mirrored pr target actor).memo = record.memo := rfl

def memoOf (stored : Option FleetMergeStateV1) :
    Option (Option MergeAttemptMemo × Option PostMerge.LandingRecord) :=
  stored.map FleetMergeStateV1.memo

structure Comes (first : Option FleetMergeStateV1) (log : List Access) : Prop where
  /-- Until a pass writes, a copy has the memo that is stored. -/
  copies : ∀ before party copy middle, log = before ++ .read party (some copy) :: middle →
    (∀ record, .write .pass record ∉ middle) → memoOf (current first log) = some copy.memo
  memo : ∀ written, passWrote log = some written → memoOf (current first log) = some written.memo
  /-- Until a close or a reopen writes, a pass has the pull request's state that is stored. -/
  seen : ∀ before access middle, log = before ++ access :: middle → access.party = .pass →
    (∀ other ∈ middle, other.party ≠ .pass) →
      (∀ number record, .write (.closer number) record ∉ middle) →
        (prTally log).seen = (current first log).bind FleetMergeStateV1.prState
  pr : ∀ state, (prTally log).latest = some state →
    (current first log).bind FleetMergeStateV1.prState = some state

theorem Comes.nil (first : Option FleetMergeStateV1) : Comes first [] where
  copies before _ _ _ same :=
    absurd same.symm (List.append_ne_nil_of_right_ne_nil before (List.cons_ne_nil _ _))
  memo written none := by cases none
  seen before _ _ same :=
    absurd same.symm (List.append_ne_nil_of_right_ne_nil before (List.cons_ne_nil _ _))
  pr state none := by cases none

section

variable {first : Option FleetMergeStateV1} {log : List Access}

theorem Comes.read (comes : Comes first log) (party : Party) :
    Comes first (log ++ [.read party (current first log)]) where
  copies := by
    intro before other copy middle same apart
    rw [current_read]
    rcases snoc_split same with ⟨-, entry, -⟩ | ⟨rest, rfl, earlier⟩
    · obtain ⟨-, found⟩ := Access.read.inj entry
      rw [memoOf, ← found, Option.map_some]
    · exact comes.copies _ _ _ _ earlier fun record member =>
        apart record (List.mem_append_left _ member)
  memo := by
    intro written wrote
    rw [passWrote_read] at wrote
    rw [current_read]
    exact comes.memo written wrote
  seen := by
    intro before access middle same passed apart undisturbed
    rw [prTally_snoc, current_read]
    rcases snoc_split same with ⟨-, rfl, -⟩ | ⟨rest, rfl, earlier⟩
    · obtain rfl : party = .pass := passed
      rfl
    · have other : party ≠ .pass :=
        apart _ (List.mem_append_right _ List.mem_cons_self)
      have still := comes.seen _ _ _ earlier passed
        (fun entry member => apart entry (List.mem_append_left _ member))
        fun number record member => undisturbed number record (List.mem_append_left _ member)
      cases party with
      | pass => exact absurd rfl other
      | closer number => exact still
      | stop number => exact still
      | owner => exact still
  pr := by
    intro state latest
    rw [prTally_snoc] at latest
    rw [current_read]
    cases party with
    | pass | closer number | stop number | owner => exact comes.pr state latest

theorem Comes.closer {copy : FleetMergeStateV1} {pr : FleetPrMemo} (comes : Comes first log)
    (number : ℕ) (fresh : memoOf (current first log) = some copy.memo) (target : PrState)
    (actor : JsString) :
    Comes first (log ++ [.write (.closer number) (copy.mirrored pr target actor)]) where
  copies := by
    intro before other earlier middle same apart
    rw [current_write, memoOf, Option.map_some, memo_mirrored, ← fresh]
    rcases snoc_split same with ⟨-, entry, -⟩ | ⟨rest, rfl, split⟩
    · cases entry
    · exact comes.copies _ _ _ _ split fun record member =>
        apart record (List.mem_append_left _ member)
  memo := by
    intro written wrote
    rw [passWrote_closer] at wrote
    rw [current_write, memoOf, Option.map_some, memo_mirrored, ← fresh]
    exact comes.memo written wrote
  seen := by
    intro before access middle same passed apart undisturbed
    rcases snoc_split same with ⟨-, rfl, -⟩ | ⟨rest, rfl, -⟩
    · cases passed
    · exact absurd (List.mem_append_right _ List.mem_cons_self) (undisturbed number _)
  pr := by
    intro state latest
    rw [prTally_snoc] at latest
    rw [current_write]
    exact latest

theorem Comes.pass (comes : Comes first log)
    (fresh : (prTally log).seen = (current first log).bind FleetMergeStateV1.prState)
    (record : FleetMergeStateV1) : Comes first (log ++ [.write .pass record]) where
  copies := by
    intro before other earlier middle same apart
    rcases snoc_split same with ⟨-, entry, -⟩ | ⟨rest, rfl, -⟩
    · cases entry
    · exact absurd (List.mem_append_right _ List.mem_cons_self) (apart record)
  memo := by
    intro written wrote
    rw [passWrote_pass] at wrote
    cases wrote
    rw [current_write]
    rfl
  seen := by
    intro before access middle same passed apart undisturbed
    rw [prTally_snoc, current_write, PrTally.next]
    split
    · rename_i same
      exact same.symm
    · rfl
  pr := by
    intro state latest
    rw [prTally_snoc, PrTally.next] at latest
    rw [current_write]
    split at latest
    · rename_i same
      have known := comes.pr state latest
      rw [← fresh, ← same] at known
      exact known
    · exact latest

theorem Told.comes {log : List Access} (told : Told first log) :
    Undisturbed log → Comes first log := by
  induction told with
  | nil => exact fun _ => .nil first
  | read _ party ih => exact fun undisturbed => (ih undisturbed.front).read party
  | closer _ last target actor ih =>
      intro undisturbed
      rename_i log number copy pr _
      obtain ⟨before, middle, split, apart⟩ := last
      have unwritten := undisturbed.closers before (some copy) middle
        (copy.mirrored pr target actor) [] number (by rw [split]) apart
      have comes := ih undisturbed.front
      exact comes.closer number (comes.copies _ _ _ _ split unwritten) target actor
  | pass _ last record ih =>
      intro undisturbed
      obtain ⟨before, access, middle, split, passed, apart⟩ := last
      have unwritten := undisturbed.passes before access middle record [] (by rw [split])
        passed apart
      have comes := ih undisturbed.front
      exact comes.pass (comes.seen _ _ _ split passed apart unwritten) record

theorem Comes.agreed (comes : Comes first log) : Agreed log (current first log) where
  memo := by
    intro written wrote
    obtain ⟨record, stored, same⟩ := Option.map_eq_some_iff.mp (comes.memo written wrote)
    exact ⟨record, stored, congrArg Prod.fst same, congrArg Prod.snd same⟩
  pr := by
    intro state latest
    obtain ⟨record, stored, same⟩ := Option.bind_eq_some_iff.mp (comes.pr state latest)
    exact ⟨record, stored, same⟩

end

end AshlrHub.HostMerge

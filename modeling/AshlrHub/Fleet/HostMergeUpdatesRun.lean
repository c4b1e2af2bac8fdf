import AshlrHub.Fleet.HostMergeAttempts
import AshlrHub.Fleet.HostMergeUpdates

namespace AshlrHub.HostMerge

open Js Authority Lib

/-! Runs of passes, closes, reopens and Stops on one record. -/

structure Recording (key : JsString) (first : Option FleetMergeStateV1) (shared : Shared) :
    Prop where
  told : Told first shared.log
  stored : shared.world.states key = current first shared.log

def Adds (party : Party) (shared after : Shared) : Prop :=
  ∃ more, after.log = shared.log ++ more ∧ ∀ access ∈ more, access.party = party

theorem Adds.none {party : Party} {shared after : Shared} (same : after.log = shared.log) :
    Adds party shared after :=
  ⟨[], by rw [same, List.append_nil], fun _ none => absurd none List.not_mem_nil⟩

theorem Adds.one {party : Party} {shared after : Shared} {access : Access}
    (added : after.log = shared.log ++ [access]) (own : access.party = party) :
    Adds party shared after :=
  ⟨[access], added, fun other member => by rw [List.mem_singleton.mp member, own]⟩

variable {world : World}

theorem step_states {call : AuthorityCall} {after : World}
    {result : HostMergeRevocationWriteResult} (step : call.Step world result after) :
    after.states = world.states := by
  cases step <;> rfl

def Request.Writes : Request → Prop
  | .writeState _ => True
  | _ => False

theorem answers_states {after : World} {asked : Request} {answer : Answer asked}
    (other : ¬ asked.Writes) (answered : answers world asked answer after) :
    after.states = world.states := by
  have silent : after = world → after.states = world.states := fun same => same ▸ rfl
  cases asked with
  | writeState state => exact absurd trivial other
  | nowMs => exact silent answered
  | killEpoch => exact silent answered.2
  | killActive => exact silent answered.2
  | policyEpoch repo => exact silent answered.2
  | randomBytes => exact silent answered
  | noteBegun identity => exact answered ▸ rfl
  | prepareAuthority input | transitionAuthority input => exact step_states answered
  | acquireFence =>
      obtain ⟨owned, rfl⟩ := answered
      rfl
  | ownsFence => exact silent answered.2
  | releaseFence => exact answered ▸ rfl
  | recheck => exact silent answered
  | beforeConsume => exact silent answered
  | token repo => exact silent answered
  | beforeDispatch repo => exact silent answered
  | contact repo identity call => cases answered <;> rfl
  | nextPassStep => exact silent answered
  | listKeys => exact silent answered
  | readState key => exact silent answered
  | readAuthority identity => exact silent answered

section

variable {key : JsString} {first : Option FleetMergeStateV1} {party : Party}
  {shared after : Shared}

theorem Recording.same (recording : Recording key first shared) (log : after.log = shared.log)
    (states : after.world.states key = shared.world.states key) : Recording key first after where
  told := by
    rw [log]
    exact recording.told
  stored := by
    rw [log, states]
    exact recording.stored

theorem readState_found (readable : world.readState key ≠ .corrupt) :
    (world.readState key).found = world.states key := by
  unfold World.readState at readable ⊢
  cases stored : world.states key with
  | none => rfl
  | some record =>
      rw [stored] at readable
      dsimp only at readable ⊢
      split
      · rfl
      · rename_i other
        rw [if_neg other] at readable
        exact absurd rfl readable

theorem readState_key {record : FleetMergeStateV1} (read : world.readState key = .ok record) :
    record.key = key := by
  unfold World.readState at read
  split at read
  · cases read
  · split at read
    · rename_i own
      cases read
      exact own
    · cases read

theorem Recording.read (recording : Recording key first shared)
    (readable : shared.world.readState key ≠ .corrupt)
    (log : after.log = shared.log ++ [.read party (shared.world.readState key).found])
    (states : after.world.states key = shared.world.states key) : Recording key first after where
  told := by
    rw [log, readState_found readable, recording.stored]
    exact recording.told.read party
  stored := by rw [log, current_read, states, recording.stored]

def Justified (key : JsString) (first : Option FleetMergeStateV1) (party : Party)
    (log : List Access) : Request → Prop
  | .writeState state => state.key = key → Told first (log ++ [.write party state])
  | _ => True

theorem updates_recording {asked : Request} {answer : Answer asked}
    (recording : Recording key first shared)
    (justified : Justified key first party shared.log asked)
    (answered : updates key party shared asked answer after) :
    Recording key first after ∧ Adds party shared after := by
  have silent : ¬ asked.Writes →
      answers shared.world asked answer after.world ∧ after.log = shared.log →
        Recording key first after ∧ Adds party shared after := fun other answered =>
    ⟨recording.same answered.2 (congrFun (answers_states other answered.1) key), .none answered.2⟩
  cases asked with
  | readState other =>
      rcases answered with ⟨-, rfl⟩ | ⟨rfl, readable, rfl⟩
      · exact ⟨recording, .none rfl⟩
      · split
        · rename_i same
          subst same
          exact ⟨recording.read readable rfl rfl, .one rfl rfl⟩
        · exact ⟨recording, .none rfl⟩
  | writeState state =>
      rcases answered with ⟨-, rfl⟩ | rfl
      · exact ⟨recording, .none rfl⟩
      · by_cases own : state.key = key
        · have told := justified own
          refine ⟨⟨?_, ?_⟩, .one (if_pos own) rfl⟩
          · rw [if_pos own]
            exact told
          · rw [if_pos own, current_write, ← own]
            exact Function.update_self ..
        · exact ⟨recording.same (if_neg own) (Function.update_of_ne (Ne.symm own) ..),
            .none (if_neg own)⟩
  | nowMs => exact silent id answered
  | killEpoch => exact silent id answered
  | killActive => exact silent id answered
  | policyEpoch repo => exact silent id answered
  | randomBytes => exact silent id answered
  | noteBegun identity => exact silent id answered
  | prepareAuthority input => exact silent id answered
  | transitionAuthority input => exact silent id answered
  | acquireFence => exact silent id answered
  | ownsFence => exact silent id answered
  | releaseFence => exact silent id answered
  | recheck => exact silent id answered
  | beforeConsume => exact silent id answered
  | token repo => exact silent id answered
  | beforeDispatch repo => exact silent id answered
  | contact repo identity call => exact silent id answered
  | nextPassStep => exact silent id answered
  | listKeys => exact silent id answered
  | readAuthority identity => exact silent id answered

/-! Dialogues. -/

abbrev Properly {α : Type} (key : JsString) (first : Option FleetMergeStateV1) (party : Party)
    (final : α → Shared → Prop) (talk : Merging α) (shared : Shared) : Prop :=
  talk.Proper (updates key party) (Assembly.Rely Adds party) (Adds party) (Recording key first)
    final shared

theorem LastPass.adds {other : Party} (last : LastPass shared.log)
    (adds : Adds other shared after) : LastPass after.log := by
  obtain ⟨before, access, middle, split, passed, apart⟩ := last
  obtain ⟨more, grown, own⟩ := adds
  rw [grown]
  by_cases same : other = .pass
  · subst same
    rcases List.eq_nil_or_concat more with rfl | ⟨init, entry, rfl⟩
    · exact ⟨before, access, middle, by rw [split, List.append_nil], passed, apart⟩
    · refine ⟨shared.log ++ init, entry, [], by simp, own entry (by simp), ?_⟩
      exact fun _ none => absurd none List.not_mem_nil
  · refine ⟨before, access, middle ++ more, by rw [split]; simp, passed, fun entry member => ?_⟩
    rcases List.mem_append.mp member with earlier | added
    · exact apart entry earlier
    · rw [own entry added]
      exact same

variable {number : ℕ}

theorem LastRead.adds {copy : FleetMergeStateV1} (last : LastRead number copy shared.log)
    {other : Party} (different : other ≠ .closer number) (adds : Adds other shared after) :
    LastRead number copy after.log := by
  obtain ⟨before, middle, split, apart⟩ := last
  obtain ⟨more, grown, own⟩ := adds
  refine ⟨before, middle ++ more, by rw [grown, split]; simp, fun entry member => ?_⟩
  rcases List.mem_append.mp member with earlier | added
  · exact apart entry earlier
  · rw [own entry added]
    exact different

theorem pass_proper {α : Type} {final : α → Shared → Prop}
    (ends : ∀ value shared, final value shared) :
    (talk : Merging α) → {shared : Shared} → LastPass shared.log →
      Properly key first .pass final talk shared
  | .done value, shared, _ => ends value shared
  | .ask asked next, shared, last => by
      intro before answer after between recording answered
      have still : LastPass before.log := by
        refine Dialogue.Disturbs.keeps (fun world => LastPass world.log)
          (fun held disturbed => ?_) between last
        obtain ⟨⟨other, -, adds⟩, -⟩ := disturbed
        exact held.adds adds
      have justified : Justified key first .pass before.log asked := by
        cases asked <;> first | exact trivial | exact fun _ => recording.told.pass still _
      obtain ⟨kept, adds⟩ := updates_recording recording justified answered
      exact ⟨kept, adds, pass_proper ends (next answer) (still.adds adds)⟩

theorem foreign_proper {α : Type} {final : α → Shared → Prop}
    (ends : ∀ value shared, final value shared) :
    (talk : Merging α) → {shared : Shared} → talk.Only (Request.Foreign key) →
      Properly key first party final talk shared
  | .done value, shared, _ => ends value shared
  | .ask asked next, shared, only => by
      intro before answer after between recording answered
      have justified : Justified key first party before.log asked := by
        have allowed := only.1
        cases asked <;> first | exact trivial | exact fun own => absurd own allowed
      obtain ⟨kept, adds⟩ := updates_recording recording justified answered
      exact ⟨kept, adds, foreign_proper ends (next answer) (only.2 answer)⟩

def Copied (key : JsString) (number : ℕ) (shared : Shared) : FleetMergeStateRead → Prop
  | .ok record => record.key = key → LastRead number record shared.log
  | .missing => True
  | .corrupt => True

variable {repo actor : JsString} {pr : ℤ} {target : PrState}

theorem recordPrStateOf_proper : {read : FleetMergeStateRead} → Copied key number shared read →
      Properly key first (.closer number) (fun _ _ => True)
        (recordPrStateOf repo pr target actor read) shared
  | .missing, _ => trivial
  | .corrupt, _ => trivial
  | .ok record, copied => by
      dsimp only [recordPrStateOf]
      cases record.pr with
      | none => trivial
      | some memo =>
          refine Dialogue.Proper.ite (fun _ => trivial) fun _ => ?_
          intro before written after between recording answered
          have justified : Justified key first (.closer number) before.log
              (.writeState (record.mirrored memo target actor)) := by
            intro own
            have last : LastRead number record before.log := by
              refine Dialogue.Disturbs.keeps (fun world => LastRead number record world.log)
                (fun held disturbed => ?_) between (copied own)
              obtain ⟨⟨other, different, adds⟩, -⟩ := disturbed
              exact held.adds different adds
            exact recording.told.closer last target actor
          obtain ⟨kept, adds⟩ := updates_recording recording justified answered
          exact ⟨kept, adds, trivial⟩

theorem recordPrStateOn_proper : (keys : List JsString) → {shared : Shared} →
      Properly key first (.closer number) (fun _ _ => True)
        (recordPrStateOn repo pr target actor keys) shared
  | [], _ => trivial
  | other :: keys, shared => by
      intro before read after between recording answered
      obtain ⟨kept, adds⟩ := updates_recording recording (by exact trivial) answered
      refine ⟨kept, adds, ?_⟩
      change Properly key first (.closer number) (fun _ _ => True)
        ((recordPrStateOf repo pr target actor read).andThen fun _ =>
          recordPrStateOn repo pr target actor keys) after
      refine Dialogue.Proper.andThen (recordPrStateOf_proper ?_) fun _ _ _ =>
        recordPrStateOn_proper keys
      rcases answered with ⟨rfl, -⟩ | ⟨rfl, readable, rfl⟩
      · trivial
      · cases found : before.world.readState other with
        | missing => trivial
        | corrupt => trivial
        | ok record =>
            intro own
            have same : other = key := (readState_key found).symm.trans own
            rw [if_pos same]
            exact ⟨before.log, [], rfl, fun _ none => absurd none List.not_mem_nil⟩

theorem recordPrStateLocally_proper : Properly key first (.closer number) (fun _ _ => True)
      (recordPrStateLocally repo pr target actor) shared := by
  intro before keys after between recording answered
  obtain ⟨kept, adds⟩ := updates_recording recording (by exact trivial) answered
  refine ⟨kept, adds, ?_⟩
  cases keys with
  | none => trivial
  | some keys => exact recordPrStateOn_proper keys

theorem update_rules (scrubSecrets : JsString → JsString) (key : JsString)
    (first : Option FleetMergeStateV1) :
    Assembly.Rules Adds (updates key) (Joins scrubSecrets key) (Recording key first)
      fun _ _ => True where
  stable _ _ := trivial
  opened := by
    intro party shared dialogue next recording _ begun
    cases begun with
    | pass count read =>
        have found : (shared.world.readState key).found = some _ := congrArg _ read
        have readable : shared.world.readState key ≠ .corrupt := by simp [read]
        refine ⟨recording.read readable (by rw [found]) rfl, .one rfl rfl,
          pass_proper (fun _ _ => trivial) _ ⟨_, _, [], rfl, rfl, ?_⟩⟩
        exact fun _ none => absurd none List.not_mem_nil
    | fresh count missing own untried =>
        have found : (shared.world.readState key).found = none := congrArg _ missing
        have readable : shared.world.readState key ≠ .corrupt := by simp [missing]
        refine ⟨recording.read readable (by rw [found]) rfl, .one rfl rfl,
          pass_proper (fun _ _ => trivial) _ ⟨_, _, [], rfl, rfl, ?_⟩⟩
        exact fun _ none => absurd none List.not_mem_nil
    | closer number repo pr target actor =>
        exact ⟨recording, .none rfl, recordPrStateLocally_proper⟩
    | stop number =>
        exact ⟨recording, .none rfl, foreign_proper (fun _ _ => trivial) _
          ((revokeArmedHostMerges_foreign key).andThen fun _ => trivial)⟩
    | owner switches => exact ⟨⟨recording.told, recording.stored⟩, .none rfl, trivial⟩

end

/-- Where no update crosses another one, none is lost: in every state of every run the record has
the memo and the landing that a pass last wrote, and the pull request's state as last set. -/
theorem updates_agreed {scrubSecrets : JsString → JsString} {key : JsString} {world : World}
    {marks : List Party} {state : Updating}
    (run : Run (UpdateStep scrubSecrets key) (.start world) marks state)
    (undisturbed : Undisturbed state.world.log) :
    Agreed state.world.log (state.world.world.states key) := by
  have holds := Assembly.run_holds (update_rules scrubSecrets key (world.states key)) run
    ⟨⟨.nil, rfl⟩, fun _ => trivial⟩
  rw [holds.met.stored]
  exact (holds.met.told.comes undisturbed).agreed

/-! A close whose write crosses the writes of a pass. -/

def contended (party : Party) (shared : Shared) : (asked : Request) → Answer asked × Shared
  | .readState key =>
    match shared.world.readState key with
    | .corrupt => (.corrupt, shared)
    | read => (read, if key = js "p" then
        { shared with log := shared.log ++ [.read party read.found] } else shared)
  | .writeState state => (true, ⟨shared.world.put state, if state.key = js "p" then
      shared.log ++ [.write party state] else shared.log⟩)
  | .prepareAuthority _ => (.degraded (js "state-lock-contended"), shared)
  | .listKeys => (some [js "p"], shared)
  | asked => ((lostAnswer shared.world asked).1,
      { shared with world := (lostAnswer shared.world asked).2 })

theorem contended_updates (party : Party) (shared : Shared) (asked : Request) :
    updates (js "p") party shared asked (contended party shared asked).1
      (contended party shared asked).2 := by
  cases asked with
  | readState key =>
      dsimp only [contended]
      cases read : shared.world.readState key with
      | corrupt => exact .inl ⟨rfl, rfl⟩
      | missing | ok record => exact .inr ⟨read.symm, nofun, rfl⟩
  | writeState state => exact .inr rfl
  | prepareAuthority input => exact ⟨.unavailable _, rfl⟩
  | listKeys => exact ⟨rfl, rfl⟩
  | nowMs | killEpoch | killActive | policyEpoch repo => exact ⟨lostAnswer_answers _ _, rfl⟩
  | randomBytes | noteBegun identity => exact ⟨lostAnswer_answers _ _, rfl⟩
  | transitionAuthority input | acquireFence | ownsFence => exact ⟨lostAnswer_answers _ _, rfl⟩
  | releaseFence | recheck | beforeConsume | token repo => exact ⟨lostAnswer_answers _ _, rfl⟩
  | beforeDispatch repo | contact repo identity call => exact ⟨lostAnswer_answers _ _, rfl⟩
  | nextPassStep | readAuthority identity => exact ⟨lostAnswer_answers _ _, rfl⟩

def isDone : Merging Unit → Bool
  | .done _ => true
  | .ask _ _ => false

def crossBegun : Merging Unit × Shared :=
  Dialogue.follow (contended .pass) 6 (passUnderLock id 1 sampleState)
    ⟨sampleStart.world, [.read .pass (some sampleState)]⟩

def crossRead : Merging Unit × Shared :=
  Dialogue.follow (contended (.closer 0)) 2
    (recordPrStateLocally (js "o/r") 7 .closed (js "leader")) crossBegun.2

def crossFailed : Merging Unit × Shared :=
  Dialogue.follow (contended .pass) 4 crossBegun.1 crossRead.2

def crossWritten : Merging Unit × Shared :=
  Dialogue.follow (contended (.closer 0)) 2 crossRead.1 crossFailed.2

def FleetMergeStateV1.attemptPhase (record : FleetMergeStateV1) : Option MergeAttemptPhase :=
  record.merge.map MergeAttemptMemo.phase

theorem done_of_isDone {talk : Merging Unit} (done : isDone talk = true) : talk = .done () := by
  cases talk with
  | done value => rfl
  | ask asked next => cases done

def duo (pass close : Option (Merging Unit)) : Party → Option (Merging Unit)
  | .pass => pass
  | .closer 0 => close
  | _ => none

theorem duo_pass (pass close next : Option (Merging Unit)) :
    Function.update (duo pass close) .pass next = duo next close := by
  funext party
  by_cases same : party = .pass
  · rw [same, Function.update_self]
    rfl
  · rw [Function.update_of_ne same]
    cases party with
    | pass => exact absurd rfl same
    | closer number => cases number <;> rfl
    | stop number => rfl
    | owner => rfl

theorem duo_close (pass close next : Option (Merging Unit)) :
    Function.update (duo pass close) (.closer 0) next = duo pass next := by
  funext party
  by_cases same : party = .closer 0
  · rw [same, Function.update_self]
    rfl
  · rw [Function.update_of_ne same]
    cases party with
    | pass => rfl
    | closer number =>
        cases number with
        | zero => exact absurd rfl same
        | succ number => rfl
    | stop number => rfl
    | owner => rfl

abbrev Reaches (state next : Updating) : Prop :=
  ∃ marks, Run (UpdateStep id (js "p")) state marks next

theorem Reaches.trans {first second third : Updating} (early : Reaches first second)
    (late : Reaches second third) : Reaches first third :=
  ⟨_, early.choose_spec.append late.choose_spec⟩

theorem Reaches.step {state next : Updating} {party : Party}
    (step : UpdateStep id (js "p") state party next) : Reaches state next :=
  ⟨_, .single step⟩

theorem reaches_pass (count : ℕ) (talk : Merging Unit) (close : Option (Merging Unit))
    (shared : Shared) : Reaches ⟨shared, duo (some talk) close⟩
      ⟨(Dialogue.follow (contended .pass) count talk shared).2,
        duo (some (Dialogue.follow (contended .pass) count talk shared).1) close⟩ := by
  have busy : duo (some talk) close .pass = some talk := rfl
  rw [← duo_pass (some talk) close (some (Dialogue.follow (contended .pass) count talk shared).1)]
  exact Assembly.run_leads (Dialogue.leads_follow (contended_updates .pass) count talk shared) busy

theorem reaches_close (count : ℕ) (talk : Merging Unit) (pass : Option (Merging Unit))
    (shared : Shared) : Reaches ⟨shared, duo pass (some talk)⟩
      ⟨(Dialogue.follow (contended (.closer 0)) count talk shared).2,
        duo pass (some (Dialogue.follow (contended (.closer 0)) count talk shared).1)⟩ := by
  have busy : duo pass (some talk) (.closer 0) = some talk := rfl
  rw [← duo_close pass (some talk) (some (Dialogue.follow (contended (.closer 0)) count talk
    shared).1)]
  exact Assembly.run_leads
    (Dialogue.leads_follow (contended_updates (.closer 0)) count talk shared) busy

theorem pass_opens : Reaches ⟨⟨sampleStart.world, []⟩, duo none none⟩
    ⟨⟨sampleStart.world, [.read .pass (some sampleState)]⟩,
      duo (some (passUnderLock id 1 sampleState)) none⟩ := by
  have readable : sampleStart.world.readState (js "p") = .ok sampleState := by
    simp [World.readState, sampleStart, start, sampleState]
  have step : UpdateStep id (js "p") ⟨⟨sampleStart.world, []⟩, duo none none⟩ .pass
      ⟨_, Function.update (duo none none) .pass _⟩ := .opened rfl (.pass 1 readable)
  rw [duo_pass] at step
  exact .step step

theorem close_opens (pass : Option (Merging Unit)) (shared : Shared) :
    Reaches ⟨shared, duo pass none⟩ ⟨shared, duo pass
      (some (recordPrStateLocally (js "o/r") 7 .closed (js "leader")))⟩ := by
  have step : UpdateStep id (js "p") ⟨shared, duo pass none⟩ (.closer 0)
      ⟨_, Function.update (duo pass none) (.closer 0) _⟩ :=
    .opened rfl (.closer 0 (js "o/r") 7 .closed (js "leader"))
  rw [duo_close] at step
  exact .step step

theorem pass_ends (close : Option (Merging Unit)) (shared : Shared) :
    Reaches ⟨shared, duo (some (.done ())) close⟩ ⟨shared, duo none close⟩ := by
  have step : UpdateStep id (js "p") ⟨shared, duo (some (.done ())) close⟩ .pass
      ⟨shared, Function.update (duo (some (.done ())) close) .pass none⟩ := .ended rfl
  rw [duo_pass] at step
  exact .step step

theorem close_ends (pass : Option (Merging Unit)) (shared : Shared) :
    Reaches ⟨shared, duo pass (some (.done ()))⟩ ⟨shared, duo pass none⟩ := by
  have step : UpdateStep id (js "p") ⟨shared, duo pass (some (.done ()))⟩ (.closer 0)
      ⟨shared, Function.update (duo pass (some (.done ()))) (.closer 0) none⟩ := .ended rfl
  rw [duo_close] at step
  exact .step step

theorem cross_run : Reaches ⟨⟨sampleStart.world, []⟩, duo none none⟩
    ⟨crossWritten.2, duo none none⟩ := by
  have passDone : crossFailed.1 = .done () := done_of_isDone (by decide +kernel)
  have closeDone : crossWritten.1 = .done () := done_of_isDone (by decide +kernel)
  have begins : Reaches ⟨⟨sampleStart.world, []⟩, duo none none⟩
      ⟨crossBegun.2, duo (some crossBegun.1) none⟩ := pass_opens.trans (reaches_pass 6 _ none _)
  have reads : Reaches ⟨crossBegun.2, duo (some crossBegun.1) none⟩
      ⟨crossRead.2, duo (some crossBegun.1) (some crossRead.1)⟩ :=
    (close_opens _ _).trans (reaches_close 2 _ _ _)
  have fails : Reaches ⟨crossRead.2, duo (some crossBegun.1) (some crossRead.1)⟩
      ⟨crossFailed.2, duo (some crossFailed.1) (some crossRead.1)⟩ := reaches_pass 4 _ _ _
  have writes : Reaches ⟨crossFailed.2, duo (some crossFailed.1) (some crossRead.1)⟩
      ⟨crossWritten.2, duo (some crossFailed.1) (some crossWritten.1)⟩ := reaches_close 2 _ _ _
  rw [passDone] at fails writes
  rw [closeDone] at writes
  exact (((begins.trans reads).trans fails).trans writes).trans
    ((pass_ends _ _).trans (close_ends _ _))

theorem duo_rest : (fun _ => none) = duo none none := by
  funext party
  cases party with
  | pass => rfl
  | closer number => cases number <;> rfl
  | stop number => rfl
  | owner => rfl

/-- The pass and the close are done, the pass has last recorded that its attempt failed, and the
record says that the attempt is still prepared. -/
theorem close_loses_attempt : ∃ marks state,
    Run (UpdateStep id (js "p")) (.start sampleStart.world) marks state ∧
      (∀ party, state.talks party = none) ∧
      (passWrote state.world.log).bind FleetMergeStateV1.attemptPhase = some .failed ∧
      (state.world.world.states (js "p")).bind FleetMergeStateV1.attemptPhase = some .prepared ∧
      ¬ Agreed state.world.log (state.world.world.states (js "p")) := by
  obtain ⟨marks, run⟩ := cross_run
  have wrote : (passWrote crossWritten.2.log).bind FleetMergeStateV1.attemptPhase =
      some .failed := by decide +kernel
  have stored : (crossWritten.2.world.states (js "p")).bind FleetMergeStateV1.attemptPhase =
      some .prepared := by decide +kernel
  refine ⟨marks, _, by rwa [Updating.start, duo_rest], fun party => ?_, wrote, stored, ?_⟩
  · exact congrFun duo_rest.symm party
  · intro agreed
    obtain ⟨written, last, failed⟩ := Option.bind_eq_some_iff.mp wrote
    obtain ⟨record, same, merge, -⟩ := agreed.memo written last
    rw [same, Option.bind_some, FleetMergeStateV1.attemptPhase, merge,
      ← FleetMergeStateV1.attemptPhase, failed] at stored
    cases stored

/-! A close behind the pass. -/

theorem split_of_notMem {α : Type} {first second front rest : List α} {entry : α}
    (same : first ++ second = front ++ entry :: rest) (absent : entry ∉ first) :
    ∃ before, second = before ++ entry :: rest := by
  rcases List.append_eq_append_iff.mp same with ⟨before, -, split⟩ | ⟨more, split, tail⟩
  · exact ⟨before, split⟩
  · cases more with
    | nil => exact ⟨[], tail.symm⟩
    | cons other more =>
        obtain ⟨rfl, -⟩ := List.cons.inj tail
        exact absurd (split ▸ List.mem_append_right front List.mem_cons_self) absent

theorem undisturbed_append {first second : List Access}
    (pass : ∀ access ∈ first, access.party = .pass)
    (others : ∀ access ∈ second, access.party ≠ .pass) : Undisturbed (first ++ second) where
  closers front found middle written back number same _ record member := by
    have absent : Access.read (.closer number) found ∉ first := fun inFirst => by
      cases pass _ inFirst
    have whole : first ++ second = front ++ .read (.closer number) found ::
        (middle ++ .write (.closer number) written :: back) := by
      rw [same]
      simp
    obtain ⟨before, split⟩ := split_of_notMem whole absent
    refine others (.write .pass record) ?_ rfl
    rw [split]
    exact List.mem_append_right _ (List.mem_cons_of_mem _ (List.mem_append_left _ member))
  passes front access middle written back same _ _ number record member := by
    obtain ⟨early, late, rfl⟩ := List.append_of_mem member
    have absent : Access.write (.closer number) record ∉ first := fun inFirst => by
      cases pass _ inFirst
    have whole : first ++ second = (front ++ access :: early) ++
        .write (.closer number) record :: (late ++ .write .pass written :: back) := by
      rw [same]
      simp
    obtain ⟨before, split⟩ := split_of_notMem whole absent
    refine others (.write .pass written) ?_ rfl
    rw [split]
    simp

def lonePass : Merging Unit × Shared :=
  Dialogue.follow (contended .pass) 10 (passUnderLock id 1 sampleState)
    ⟨sampleStart.world, [.read .pass (some sampleState)]⟩

def lateClose : Merging Unit × Shared :=
  Dialogue.follow (contended (.closer 0)) 4
    (recordPrStateLocally (js "o/r") 7 .closed (js "leader")) lonePass.2

theorem lateClose_parties : lateClose.2.log.map Access.party =
    [.pass, .pass, .pass] ++ [.closer 0, .closer 0] := by
  decide +kernel

theorem updates_agreed_lateClose :
    Agreed lateClose.2.log (lateClose.2.world.states (js "p")) := by
  have early : Reaches ⟨⟨sampleStart.world, []⟩, duo none none⟩
      ⟨lonePass.2, duo (some lonePass.1) none⟩ := pass_opens.trans (reaches_pass 10 _ none _)
  have late : Reaches ⟨lonePass.2, duo (some lonePass.1) none⟩
      ⟨lateClose.2, duo (some lonePass.1) (some lateClose.1)⟩ :=
    (close_opens _ _).trans (reaches_close 4 _ _ _)
  obtain ⟨marks, run⟩ := early.trans late
  obtain ⟨first, second, split, passes, closes⟩ := List.map_eq_append_iff.mp lateClose_parties
  have undisturbed : Undisturbed lateClose.2.log := by
    rw [split]
    refine undisturbed_append (fun access member => ?_) fun access member => ?_
    · have among : access.party ∈ first.map Access.party := List.mem_map_of_mem member
      rw [passes] at among
      simpa using among
    · have among : access.party ∈ second.map Access.party := List.mem_map_of_mem member
      rw [closes] at among
      have closer : access.party = .closer 0 := by simpa using among
      simp [closer]
  rw [← duo_rest] at run
  exact updates_agreed run undisturbed

end AshlrHub.HostMerge

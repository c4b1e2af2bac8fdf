import AshlrHub.Fleet.QueueLockCalls

namespace AshlrHub.QueueLock

open Fleet Lib

/-! Transactions, and runs of any number of processes. -/

section

variable {α : Type} {party : ℕ} {disk : Disk} {guard : Guard} {file : ℕ} {lock : SharedStoreLock}
  {queue : SharedFleetQueue}

def Calls (party : ℕ) (change : SharedFleetQueue → Option SharedFleetQueue) (disk : Disk) : Prop :=
  (disk.trail party).change = change

variable {change : SharedFleetQueue → Option SharedFleetQueue}

theorem stable_calls : Stable party (Calls party change) := by
  intro disk after calls disturbed
  obtain ⟨⟨other, different, spares⟩, -⟩ := disturbed
  rw [Calls, spares.trail (Ne.symm different)]
  exact calls

theorem reacts_calls {after : Disk} {request : Request} {answer : Answer request}
    (calls : Calls party change disk) (reacted : reacts party disk request answer after) :
    Calls party change after := by
  have silent : after = disk → Calls party change after := by
    intro same
    rw [same]
    exact calls
  have marked : ∀ {trail : Trail}, trail.change = (disk.trail party).change →
      Calls party change (disk.mark party trail) := by
    intro trail same
    rw [Calls, trail_mark_self, same]
    exact calls
  cases request with
  | verifyStorageCapabilities => exact silent reacted
  | randomUUID => exact silent reacted
  | isStale stat => exact silent reacted
  | existsLock => exact silent reacted.2
  | lstatLock =>
      rw [reacted.2]
      exact marked rfl
  | lstatGuard guard => exact silent reacted.2
  | createLock =>
      simp only [reacts] at reacted
      split at reacted
      · exact silent reacted.2
      · obtain ⟨-, ino, -, rfl⟩ := reacted
        exact marked rfl
  | openLock => exact silent reacted.2
  | fstat fd => exact silent reacted.2
  | writeToken fd token =>
      obtain rfl := reacted
      exact calls
  | readToken fd => exact silent reacted.2
  | linkLock guard =>
      simp only [reacts] at reacted
      split at reacted
      · rw [reacted.2]
        exact calls
      · exact silent reacted.2
  | unlinkLock =>
      rw [reacted.2]
      exact calls
  | unlinkGuard guard =>
      rw [reacted.2]
      exact marked rfl
  | existsQueue =>
      rw [reacted.2]
      split
      · exact calls
      · exact marked rfl
  | readQueue =>
      rcases reacted with ⟨-, same⟩ | ⟨-, same⟩
      · exact silent same
      · rw [same]
        exact marked rfl
  | renameQueue queue =>
      rcases reacted with ⟨-, same⟩ | same
      · exact silent same
      · rw [same]
        exact calls

structure Working (party : ℕ) (lock : SharedStoreLock) (file : ℕ)
    (change : SharedFleetQueue → Option SharedFleetQueue) (disk : Disk) : Prop where
  bare : Bare party disk
  acquired : Acquired party lock file disk
  calls : Calls party change disk

theorem stable_working : Stable party (Working party lock file change) :=
  fun _ _ working disturbed => ⟨stable_bare _ _ working.bare disturbed,
    stable_acquired _ _ working.acquired disturbed, stable_calls _ _ working.calls disturbed⟩

section

variable (working : Working party lock file change disk)
include working

theorem Working.noteRead :
    Working party lock file change (disk.noteRead party) where
  bare := working.bare
  acquired := by
    refine ⟨?_, working.acquired.numbered.below, working.acquired.numbered.ino⟩
    rw [Disk.noteRead, trail_mark_self]
    exact working.acquired.created
  calls := by
    rw [Calls, Disk.noteRead, trail_mark_self]
    exact working.calls

theorem Working.bases {current : SharedFleetQueue}
    (valid : readQueueResult disk.queue = some current) (changed : change current = some queue) :
    Bases party queue (disk.noteRead party) := by
  rw [Bases, Disk.noteRead, trail_mark_self]
  refine ⟨disk.reading, current, rfl, valid, ?_, fun _ _ _ => rfl⟩
  dsimp only
  rw [working.calls]
  exact changed

theorem readQueueFile_proper :
    Properly party (fun read after => Working party lock file change after ∧
      ∀ current queue, read = some current → change current = some queue →
        Bases party queue after) readQueueFile disk := by
  refine ask_proper stable_working working (fun _ _ => trivial) ?_
  intro before answer _ _ working _ _ reacted
  obtain ⟨rfl, rfl⟩ := reacted
  cases found : before.queue with
  | none =>
      refine ⟨working.noteRead, fun current queue read changed => ?_⟩
      refine working.bases ?_ changed
      rw [found]
      exact read
  | some queue =>
      refine ask_proper stable_working working (fun _ _ => trivial) ?_
      intro reading answer _ _ working _ _ reacted
      rcases reacted with ⟨rfl, rfl⟩ | ⟨rfl, rfl⟩
      · exact ⟨working, fun _ _ read => nomatch read⟩
      · cases held : reading.queue with
        | none => exact ⟨working.noteRead, fun _ _ read => nomatch read⟩
        | some queue =>
            refine ⟨working.noteRead, fun current queue read changed => ?_⟩
            refine working.bases ?_ changed
            rw [held]
            exact read

end

section

variable (ready : Ready party guard lock file queue disk) (pinned : Pinned party file disk)
include ready pinned

theorem Ready.computed : Commit.Computed
      ⟨(disk.trail party).change, (disk.trail party).read, disk.reading, bounded queue⟩ := by
  obtain ⟨reading, current, read, valid, changed, fresh⟩ := ready.bases
  have same := fresh file ready.acquired.created pinned.locked
  rw [same] at read valid
  exact ⟨read, current, queue, valid, changed, rfl⟩

theorem writeQueue_proper :
    Properly party (fun _ after => Holding party guard file after ∧ Acquired party lock file after)
      (writeQueue queue) disk := by
  refine Dialogue.Proper.ite (fun _ => ⟨ready.holding, ready.acquired⟩) fun _ => ?_
  refine ask_proper (stable_ready.and stable_pinned) ⟨ready, pinned⟩ ?_ ?_
  · intro before _ held
    exact ⟨⟨file, held.2.locked, held.1.acquired.created⟩, held.1.computed held.2⟩
  · intro before _ _ _ held _ _ reacted
    rcases reacted with ⟨-, rfl⟩ | rfl
    · exact ⟨held.1.holding, held.1.acquired⟩
    · exact ⟨held.1.holding, held.1.acquired.created, held.1.acquired.numbered.below,
        held.1.acquired.numbered.ino⟩

end

theorem commitQueue_proper (bare : Bare party disk) (acquired : Acquired party lock file disk)
    (bases : Bases party queue disk) :
    Properly party (fun _ => Bare party) (commitQueue lock queue) disk := by
  refine (pinLock_proper bare acquired bases).andThen fun pin after held => ?_
  cases pin with
  | none => exact held
  | some guard =>
      refine (writeQueue_proper held.1 held.2).andThen fun written after held => ?_
      exact (unpinLock_proper held).andThen fun _ _ bare => bare

theorem transact_proper {fn : Change α} {fallback : α}
    (working : Working party lock file (fun queue => (fn queue).map Prod.fst) disk) :
    Properly party (fun _ => Bare party) (transact lock fn fallback) disk := by
  refine (readQueueFile_proper working).andThen fun read after held => ?_
  cases read with
  | none => exact held.1.bare
  | some current =>
      dsimp only
      cases changed : fn current with
      | none => exact held.1.bare
      | some pair =>
          have bases := held.2 current pair.1 rfl (by rw [changed]; rfl)
          refine (commitQueue_proper held.1.bare held.1.acquired bases).andThen ?_
          intro committed after bare
          cases committed with
          | false => exact bare
          | true => exact bare

theorem withLock_proper {retries : ℕ} {fn : Change α} {fallback : α} (bare : Bare party disk)
    (calls : Calls party (fun queue => (fn queue).map Prod.fst) disk) :
    Properly party (fun _ => Bare party) (withLock retries fn fallback) disk := by
  have taking := Dialogue.Proper.frame (fun held disturbed => stable_calls _ _ held disturbed)
    (fun held reacted => reacts_calls held reacted.2) (acquireLockWithRetry_proper retries bare)
    calls
  refine taking.andThen fun acquired after held => ?_
  cases acquired with
  | none => exact held.1
  | some lock =>
      obtain ⟨⟨bare, file, acquired⟩, calls⟩ := held
      refine (transact_proper ⟨bare, acquired, calls⟩).andThen fun answer after bare => ?_
      exact (releaseLock_proper bare).andThen fun _ _ bare => bare

end

/-- A step in which no pin lands on the lock file of another call. -/
abbrev CarefulStep (α : Type) :
    Assembly ℕ Disk Request Answer α → ℕ → Assembly ℕ Disk Request Answer α → Prop :=
  Assembly.Step carefully Opens

theorem queue_rules (α : Type) : Assembly.Rules Spares carefully (Opens (α := α)) Sound Bare where
  stable bare disturbed := stable_bare _ _ bare disturbed
  opened := by
    intro party disk dialogue next sound bare begun
    cases begun with
    | withLock retries fn fallback =>
        exact ⟨sound.begin, .mark, withLock_proper bare (congrArg Trail.change trail_mark_self)⟩

structure Disk.Quiet (disk : Disk) : Prop where
  lock_lt : ∀ {file}, disk.lock = some file → file < disk.created
  guards : disk.guards = []
  trail : ∀ party, (disk.trail party).created = none ∧ (disk.trail party).sole = none
  commits : disk.commits = []

variable {disk : Disk}

theorem Disk.Quiet.sound (quiet : disk.Quiet) : Sound disk where
  lock_lt := quiet.lock_lt
  guard_lt member := by
    rw [quiet.guards] at member
    cases member
  distinct {one other} first second _ := by
    have locked : ∀ {file}, disk.Alive file → disk.lock = some file := by
      intro file alive
      rcases alive with locked | ⟨link, member, -⟩
      · exact locked
      · rw [quiet.guards] at member
        cases member
    exact Option.some.inj ((locked first).symm.trans (locked second))
  created_lt {party file} made := by
    rw [(quiet.trail party).1] at made
    cases made
  apart {party other file} made := by
    rw [(quiet.trail party).1] at made
    cases made
  guarded {party file} sole := by
    rw [(quiet.trail party).2] at sole
    cases sole
  single {party other file} sole := by
    rw [(quiet.trail party).2] at sole
    cases sole
  computed commit member := by
    rw [quiet.commits] at member
    cases member

theorem nlink_of_bare {file : ℕ} (bare : ∀ party, Bare party disk)
    (locked : disk.lock = some file) : disk.nlink file = 1 := by
  have none : disk.guards = [] := by
    apply List.eq_nil_iff_forall_not_mem.mpr
    intro link member
    have own : link ∈ disk.own link.party := mem_own.mpr ⟨member, rfl⟩
    rw [bare link.party] at own
    cases own
  rw [Disk.nlink, if_pos locked, none, List.countP_nil]

/-- Where no pin lands on the lock file of another call, every queue that is renamed into place
was computed from the queue that it replaces, and the lock that the calls leave has one link. -/
theorem commits_computed {α : Type} {disk : Disk} {labels : List ℕ}
    {assembly : Assembly ℕ Disk Request Answer α} (quiet : disk.Quiet)
    (run : Run (CarefulStep α) ⟨disk, fun _ => none⟩ labels assembly) :
    (∀ commit ∈ assembly.world.commits, commit.Computed) ∧
      ((∀ party, assembly.talks party = none) → ∀ file, assembly.world.lock = some file →
        assembly.world.nlink file = 1) := by
  have bare : ∀ party, Bare party disk := by
    intro party
    rw [Bare, Disk.own, quiet.guards, List.filter_nil]
  have holds := Assembly.run_holds (queue_rules α) run ⟨quiet.sound, bare⟩
  refine ⟨holds.met.computed, fun idle file locked => nlink_of_bare (fun party => ?_) locked⟩
  have stands := holds.stands party
  rw [idle party] at stands
  exact stands

/-! A run to its end, and a pin that lands on a successor's lock. -/

def directory : Disk where
  lock := none
  guards := []
  created := 0
  ino := id
  token _ := none
  version := 0
  queue := none
  trail _ := ⟨some, none, none, none⟩
  commits := []

theorem directory_quiet : directory.Quiet where
  lock_lt locked := nomatch locked
  guards := rfl
  trail _ := ⟨rfl, rfl⟩
  commits := rfl

def Disk.freshIno (disk : Disk) : ℕ :=
  ((disk.lock.toList ++ disk.guards.map Link.file).map disk.ino).sum + disk.created + 1

theorem freshIno_free {file : ℕ} (alive : disk.Alive file) :
    disk.ino file ≠ disk.freshIno := by
  have member : file ∈ disk.lock.toList ++ disk.guards.map Link.file := by
    rcases alive with locked | ⟨link, member, rfl⟩
    · exact List.mem_append_left _ (by rw [locked]; exact List.mem_singleton_self _)
    · exact List.mem_append_right _ (List.mem_map_of_mem member)
  have below := List.single_le_sum (fun _ _ => Nat.zero_le _) _
    (List.mem_map_of_mem (f := disk.ino) member)
  unfold Disk.freshIno
  omega

def respond (party : ℕ) (disk : Disk) : (request : Request) → Answer request × Disk
  | .verifyStorageCapabilities => (true, disk)
  | .randomUUID => (disk.created, disk)
  | .isStale _ => (true, disk)
  | .existsLock => (disk.lock.isSome, disk)
  | .lstatLock => (disk.lock.map disk.stat, disk.noteSeen party)
  | .lstatGuard guard => ((disk.guarded party guard).map disk.stat, disk)
  | .createLock =>
      match disk.lock with
      | some _ => (none, disk)
      | none => (some disk.created, disk.create party disk.freshIno)
  | .openLock => (disk.lock, disk)
  | .fstat fd => (disk.stat fd, disk)
  | .writeToken fd token => ((), { disk with token := Function.update disk.token fd (some token) })
  | .readToken fd => (disk.token fd, disk)
  | .linkLock guard =>
      match disk.lock, disk.guarded party guard with
      | some file, none => (true, disk.link party guard file)
      | _, _ => (false, disk)
  | .unlinkLock => (disk.lock.isSome, { disk with lock := none })
  | .unlinkGuard guard => ((disk.guarded party guard).isSome, disk.unlink party guard)
  | .existsQueue => (disk.queue.isSome, if disk.queue.isSome then disk else disk.noteRead party)
  | .readQueue => (disk.queue, disk.noteRead party)
  | .renameQueue queue => (true, disk.install party queue)

theorem respond_reacts (party : ℕ) (disk : Disk) (request : Request) :
    reacts party disk request (respond party disk request).1 (respond party disk request).2 := by
  cases request with
  | createLock =>
      simp only [reacts, respond]
      cases disk.lock with
      | some file => exact ⟨rfl, rfl⟩
      | none => exact ⟨rfl, _, fun _ => freshIno_free, rfl⟩
  | linkLock guard =>
      simp only [reacts, respond]
      cases disk.lock with
      | none => exact ⟨rfl, rfl⟩
      | some file =>
          cases disk.guarded party guard with
          | none => exact ⟨rfl, rfl⟩
          | some other => exact ⟨rfl, rfl⟩
  | readQueue => exact .inr ⟨rfl, rfl⟩
  | renameQueue queue => exact .inr rfl
  | verifyStorageCapabilities => rfl
  | randomUUID => rfl
  | isStale stat => rfl
  | writeToken fd token => rfl
  | existsLock => exact ⟨rfl, rfl⟩
  | lstatLock => exact ⟨rfl, rfl⟩
  | lstatGuard guard => exact ⟨rfl, rfl⟩
  | openLock => exact ⟨rfl, rfl⟩
  | fstat fd => exact ⟨rfl, rfl⟩
  | readToken fd => exact ⟨rfl, rfl⟩
  | unlinkLock => exact ⟨rfl, rfl⟩
  | unlinkGuard guard => exact ⟨rfl, rfl⟩
  | existsQueue => exact ⟨rfl, rfl⟩

def rewriteQueue : Locking Unit := withLock 0 (fun queue => some (queue, ())) ()

def Disk.rewrites (disk : Disk) (party : ℕ) : Disk :=
  disk.begin party fun queue => ((fun queue => some (queue, ())) queue).map Prod.fst

/-- Both calls are begun; then the first process works, and the second behind it. -/
def bothBegun : Disk := (directory.rewrites 0).rewrites 1

def firstCall : Locking Unit × Disk := Dialogue.follow (respond 0) 40 rewriteQueue bothBegun

def secondCall : Locking Unit × Disk := Dialogue.follow (respond 1) 40 rewriteQueue firstCall.2

def bothTalks : ℕ → Option (Locking Unit) :=
  Function.update (Function.update (fun _ => none) 0 (some rewriteQueue)) 1 (some rewriteQueue)

theorem leads_respond {party : ℕ} {disk : Disk}
    (vetted : Dialogue.Vetted (Careful party) (respond party) 40 rewriteQueue disk) :
    Dialogue.Leads (carefully party) rewriteQueue disk
      (Dialogue.follow (respond party) 40 rewriteQueue disk).1
      (Dialogue.follow (respond party) 40 rewriteQueue disk).2 :=
  Dialogue.leads_vetted (fun disk request careful => ⟨careful, respond_reacts party disk request⟩)
    40 rewriteQueue disk vetted

theorem commits_computed_secondCall :
    secondCall.2.commits.length = 2 ∧ ∀ commit ∈ secondCall.2.commits, commit.Computed := by
  have first := leads_respond (by decide +kernel : Dialogue.Vetted (Careful 0) (respond 0) 40
    rewriteQueue bothBegun)
  have second := leads_respond (by decide +kernel : Dialogue.Vetted (Careful 1) (respond 1) 40
    rewriteQueue firstCall.2)
  have begun : Run (CarefulStep Unit) ⟨directory, fun _ => none⟩ [0, 1] ⟨bothBegun, bothTalks⟩ :=
    (Run.single (.opened rfl (.withLock 0 (fun queue => some (queue, ())) ()))).snoc
      (.opened rfl (.withLock 0 (fun queue => some (queue, ())) ()))
  obtain ⟨_, worked⟩ : ∃ labels, Run (CarefulStep Unit) ⟨bothBegun, bothTalks⟩ labels
      ⟨firstCall.2, Function.update bothTalks 0 (some firstCall.1)⟩ :=
    Assembly.run_leads first rfl
  obtain ⟨_, ended⟩ : ∃ labels, Run (CarefulStep Unit)
      ⟨firstCall.2, Function.update bothTalks 0 (some firstCall.1)⟩ labels _ :=
    Assembly.run_leads second rfl
  exact ⟨by decide +kernel,
    (commits_computed directory_quiet ((begun.append worked).append ended)).1⟩

/-! Two calls. -/

def duo (first second : Option (Locking Unit)) : ℕ → Option (Locking Unit)
  | 0 => first
  | 1 => second
  | _ => none

theorem duo_first (first second next : Option (Locking Unit)) :
    Function.update (duo first second) 0 next = duo next second := by
  funext party
  match party with
  | 0 => rfl
  | 1 => rfl
  | party + 2 => rfl

theorem duo_second (first second next : Option (Locking Unit)) :
    Function.update (duo first second) 1 next = duo first next := by
  funext party
  match party with
  | 0 => rfl
  | 1 => rfl
  | party + 2 => rfl

theorem duo_rest : (fun _ => none) = duo none none := by
  funext party
  match party with
  | 0 => rfl
  | 1 => rfl
  | party + 2 => rfl

abbrev Reaches (state next : Assembly ℕ Disk Request Answer Unit) : Prop :=
  ∃ labels, Run (QueueStep Unit) state labels next

theorem Reaches.trans {first second third : Assembly ℕ Disk Request Answer Unit}
    (early : Reaches first second) (late : Reaches second third) : Reaches first third :=
  ⟨_, early.choose_spec.append late.choose_spec⟩

theorem Reaches.step {state next : Assembly ℕ Disk Request Answer Unit} {party : ℕ}
    (step : QueueStep Unit state party next) : Reaches state next :=
  ⟨_, .single step⟩

theorem reaches_first (count : ℕ) (talk : Locking Unit) (second : Option (Locking Unit))
    (disk : Disk) : Reaches ⟨disk, duo (some talk) second⟩
      ⟨(Dialogue.follow (respond 0) count talk disk).2,
        duo (some (Dialogue.follow (respond 0) count talk disk).1) second⟩ := by
  have busy : duo (some talk) second 0 = some talk := rfl
  rw [← duo_first (some talk) second (some (Dialogue.follow (respond 0) count talk disk).1)]
  exact Assembly.run_leads (Dialogue.leads_follow (respond_reacts 0) count talk disk) busy

theorem reaches_second (count : ℕ) (talk : Locking Unit) (first : Option (Locking Unit))
    (disk : Disk) : Reaches ⟨disk, duo first (some talk)⟩
      ⟨(Dialogue.follow (respond 1) count talk disk).2,
        duo first (some (Dialogue.follow (respond 1) count talk disk).1)⟩ := by
  have busy : duo first (some talk) 1 = some talk := rfl
  rw [← duo_second first (some talk) (some (Dialogue.follow (respond 1) count talk disk).1)]
  exact Assembly.run_leads (Dialogue.leads_follow (respond_reacts 1) count talk disk) busy

theorem first_opens (second : Option (Locking Unit)) (disk : Disk) :
    Reaches ⟨disk, duo none second⟩ ⟨disk.rewrites 0, duo (some rewriteQueue) second⟩ := by
  have step : QueueStep Unit ⟨disk, duo none second⟩ 0
      ⟨_, Function.update (duo none second) 0 _⟩ :=
    .opened rfl (.withLock 0 (fun queue => some (queue, ())) ())
  rw [duo_first] at step
  exact .step step

theorem second_opens (first : Option (Locking Unit)) (disk : Disk) :
    Reaches ⟨disk, duo first none⟩ ⟨disk.rewrites 1, duo first (some rewriteQueue)⟩ := by
  have step : QueueStep Unit ⟨disk, duo first none⟩ 1
      ⟨_, Function.update (duo first none) 1 _⟩ :=
    .opened rfl (.withLock 0 (fun queue => some (queue, ())) ())
  rw [duo_second] at step
  exact .step step

theorem duo_ends (disk : Disk) :
    Reaches ⟨disk, duo (some (.done ())) (some (.done ()))⟩ ⟨disk, duo none none⟩ := by
  have first : QueueStep Unit ⟨disk, duo (some (.done ())) (some (.done ()))⟩ 0
      ⟨disk, Function.update (duo (some (.done ())) (some (.done ()))) 0 none⟩ := .ended rfl
  have second : QueueStep Unit ⟨disk, duo none (some (.done ()))⟩ 1
      ⟨disk, Function.update (duo none (some (.done ()))) 1 none⟩ := .ended rfl
  rw [duo_first] at first
  rw [duo_second] at second
  exact (Reaches.step first).trans (.step second)

def aboutToPin : Locking Unit × Disk :=
  Dialogue.follow (respond 0) 13 rewriteQueue (directory.rewrites 0)

/-- The second call has removed that lock as a stale one, and has created its own. -/
def takenOver : Locking Unit × Disk :=
  Dialogue.follow (respond 1) 17 rewriteQueue (aboutToPin.2.rewrites 1)

def strayPin : Locking Unit × Disk := Dialogue.follow (respond 0) 20 aboutToPin.1 takenOver.2

/-- The second call finds a second link on its lock, and gives up too. -/
def stranded : Locking Unit × Disk := Dialogue.follow (respond 1) 20 takenOver.1 strayPin.2

/-- Nobody is at work, and the lock that is left has two links. -/
theorem pin_strands_lock : directory.Quiet ∧ ∃ labels assembly,
    Run (QueueStep Unit) ⟨directory, fun _ => none⟩ labels assembly ∧
      (∀ party, assembly.talks party = none) ∧
      ∃ file, assembly.world.lock = some file ∧ assembly.world.nlink file = 2 := by
  have opens : Reaches ⟨directory, duo none none⟩ ⟨aboutToPin.2, duo (some aboutToPin.1) none⟩ :=
    (first_opens _ _).trans (reaches_first 13 _ _ _)
  have takes : Reaches ⟨aboutToPin.2, duo (some aboutToPin.1) none⟩
      ⟨takenOver.2, duo (some aboutToPin.1) (some takenOver.1)⟩ :=
    (second_opens _ _).trans (reaches_second 17 _ _ _)
  have pins : Reaches ⟨takenOver.2, duo (some aboutToPin.1) (some takenOver.1)⟩
      ⟨strayPin.2, duo (some strayPin.1) (some takenOver.1)⟩ := reaches_first 20 _ _ _
  have gives : Reaches ⟨strayPin.2, duo (some strayPin.1) (some takenOver.1)⟩
      ⟨stranded.2, duo (some strayPin.1) (some stranded.1)⟩ := reaches_second 20 _ _ _
  have firstDone : strayPin.1 = .done () := by rfl
  have secondDone : stranded.1 = .done () := by rfl
  rw [firstDone] at pins gives
  rw [secondDone] at gives
  obtain ⟨labels, run⟩ := (((opens.trans takes).trans pins).trans gives).trans (duo_ends _)
  refine ⟨directory_quiet, labels, _, by rwa [duo_rest], congrFun duo_rest.symm, 1, ?_, ?_⟩
  · decide +kernel
  · decide +kernel

end AshlrHub.QueueLock

import AshlrHub.Fleet.QueueLockGuards

namespace AshlrHub.QueueLock

open Fleet Lib

/-! Calls whose pins land on the lock files that they created. -/

/-- The link of `pinLock`. -/
def Request.pins : Request → Bool
  | .linkLock ⟨.commit, _⟩ => true
  | _ => false

def Careful (party : ℕ) (disk : Disk) (request : Request) : Prop :=
  request.pins = true → disk.lock ≠ none → (disk.trail party).created = disk.lock

instance {party : ℕ} {disk : Disk} {request : Request} :
    Decidable (Careful party disk request) :=
  inferInstanceAs (Decidable (_ → _))

def carefully (party : ℕ) : Dialogue.Reaction Disk Request Answer :=
  fun disk request answer after =>
    Careful party disk request ∧ reacts party disk request answer after

abbrev Properly {α : Type} (party : ℕ) (final : α → Disk → Prop) (talk : Locking α)
    (disk : Disk) : Prop :=
  talk.Proper (carefully party) (Assembly.Rely Spares party) (Spares party) Sound final disk

def Stable (party : ℕ) (fact : Disk → Prop) : Prop :=
  ∀ disk after, fact disk → Dialogue.Disturbs (Assembly.Rely Spares party) Sound disk after →
    fact after

section

variable {α : Type} {party : ℕ} {disk : Disk} {fact other : Disk → Prop} {guard : Guard}
  {file : ℕ} {lock : SharedStoreLock} {queue : SharedFleetQueue}

theorem Stable.and (first : Stable party fact) (second : Stable party other) :
    Stable party fun disk => fact disk ∧ other disk :=
  fun _ _ held disturbed => ⟨first _ _ held.1 disturbed, second _ _ held.2 disturbed⟩

theorem Stable.implied {condition : Prop} (stable : Stable party fact) :
    Stable party fun disk => condition → fact disk :=
  fun _ _ held disturbed condition => stable _ _ (held condition) disturbed

theorem ask_proper {request : Request} {next : Answer request → Locking α}
    {final : α → Disk → Prop} (stable : Stable party fact) (held : fact disk)
    (allowed : ∀ {before}, Sound before → fact before → Allowed party before request)
    (rest : ∀ {before answer after}, Sound before → fact before → Sound after →
      Careful party before request → reacts party before request answer after →
        Properly party final (next answer) after) :
    Properly party final (.ask request next) disk := by
  intro before answer after between sound reacted
  have still : fact before := Dialogue.Disturbs.keeps fact (stable _ _) between held
  obtain ⟨kept, spares⟩ := reacts_sound sound (allowed sound still) reacted.2
  exact ⟨kept, spares, rest sound still kept reacted.1 reacted.2⟩

/-! What a call knows. -/

def Bare (party : ℕ) (disk : Disk) : Prop := disk.own party = []

def Holding (party : ℕ) (guard : Guard) (file : ℕ) (disk : Disk) : Prop :=
  disk.own party = [⟨party, guard, file⟩]

structure Numbered (file ino : ℕ) (disk : Disk) : Prop where
  below : file < disk.created
  ino : disk.ino file = ino

structure Acquired (party : ℕ) (lock : SharedStoreLock) (file : ℕ) (disk : Disk) : Prop where
  created : (disk.trail party).created = some file
  numbered : Numbered file lock.ino disk

def Bases (party : ℕ) (queue : SharedFleetQueue) (disk : Disk) : Prop :=
  ∃ reading current, (disk.trail party).read = some reading ∧
    readQueueResult reading.queue = some current ∧
      (disk.trail party).change current = some queue ∧
        ∀ file, (disk.trail party).created = some file → disk.lock = some file →
          reading = disk.reading

structure Pinned (party file : ℕ) (disk : Disk) : Prop where
  locked : disk.lock = some file
  sole : (disk.trail party).sole = some file

theorem stable_bare : Stable party (Bare party) := by
  intro disk after bare disturbed
  obtain ⟨⟨other, different, spares⟩, -⟩ := disturbed
  exact (spares.own (Ne.symm different)).trans bare

theorem stable_holding : Stable party (Holding party guard file) := by
  intro disk after holding disturbed
  obtain ⟨⟨other, different, spares⟩, -⟩ := disturbed
  exact (spares.own (Ne.symm different)).trans holding

theorem stable_numbered {ino : ℕ} : Stable party (Numbered file ino) := by
  intro disk after numbered disturbed
  obtain ⟨⟨other, -, spares⟩, -⟩ := disturbed
  exact ⟨Nat.lt_of_lt_of_le numbered.below spares.created,
    (spares.ino numbered.below).trans numbered.ino⟩

theorem stable_acquired : Stable party (Acquired party lock file) := by
  intro disk after acquired disturbed
  refine ⟨?_, stable_numbered _ _ acquired.numbered disturbed⟩
  obtain ⟨⟨other, different, spares⟩, -⟩ := disturbed
  rw [spares.trail (Ne.symm different)]
  exact acquired.created

theorem stable_bases : Stable party (Bases party queue) := by
  intro disk after bases disturbed
  obtain ⟨⟨other, different, spares⟩, -⟩ := disturbed
  obtain ⟨reading, current, read, valid, changed, fresh⟩ := bases
  rw [Bases, spares.trail (Ne.symm different)]
  refine ⟨reading, current, read, valid, changed, fun file created locked => ?_⟩
  obtain ⟨still, same⟩ := spares.current (Ne.symm different) created locked
  rw [fresh file created still, same]

theorem stable_pinned : Stable party (Pinned party file) := by
  intro disk after pinned disturbed
  obtain ⟨⟨other, different, spares⟩, -⟩ := disturbed
  refine ⟨spares.pinned (Ne.symm different) pinned.locked pinned.sole, ?_⟩
  rw [spares.trail (Ne.symm different)]
  exact pinned.sole

def Looked (party : ℕ) (fact : Disk → Prop) : Prop :=
  ∀ disk, fact disk → fact (disk.noteSeen party)

theorem looked_bare : Looked party (Bare party) := fun _ => id

theorem looked_holding : Looked party (Holding party guard file) := fun _ => id

theorem looked_acquired : Looked party (Acquired party lock file) := by
  intro disk acquired
  refine ⟨?_, acquired.numbered.below, acquired.numbered.ino⟩
  rw [Disk.noteSeen, trail_mark_self]
  exact acquired.created

theorem looked_bases : Looked party (Bases party queue) := by
  intro disk bases
  rw [Bases, Disk.noteSeen, trail_mark_self]
  exact bases

theorem Looked.and (first : Looked party fact) (second : Looked party other) :
    Looked party fun disk => fact disk ∧ other disk :=
  fun _ held => ⟨first _ held.1, second _ held.2⟩

/-! Guards. -/

theorem Holding.member (holding : Holding party guard file disk) :
    ⟨party, guard, file⟩ ∈ disk.own party := by
  rw [holding]
  exact List.mem_singleton_self _

section

variable (holding : Holding party guard file disk)
include holding

theorem Holding.guarded :
    disk.guarded party guard = some file := by
  have own : disk.own party = [⟨party, guard, file⟩] := holding
  simp [Disk.guarded, own]

theorem Holding.alive : disk.Alive file :=
  .inr ⟨_, (mem_own.mp holding.member).1, rfl⟩

theorem Holding.unlink :
    Bare party (disk.unlink party guard) := by
  rw [Bare, own_unlink_self, holding]
  exact List.filter_cons_of_neg (by simp)

end

theorem Bare.link (bare : Bare party disk) :
    Holding party guard file (disk.link party guard file) := by
  rw [Holding, own_link_self, bare]

theorem Holding.pinned {place : ℕ} (sound : Sound disk) (holding : Holding party guard file disk)
    (locked : disk.lock = some place) (links : disk.nlink place = 2)
    (ino : disk.ino place = disk.ino file) : Pinned party file (disk.noteSeen party) := by
  obtain rfl := sound.distinct (.inl locked) holding.alive ino
  refine ⟨locked, ?_⟩
  rw [Disk.noteSeen, trail_mark_self]
  exact seen_of_guard locked links holding.member rfl

/-! Removing the lock. -/

theorem unlinkGuarded_proper {expected : ℕ} (held : Holding party guard file disk) :
    Properly party (fun _ => Holding party guard file) (unlinkGuarded guard expected) disk := by
  refine ask_proper stable_holding held (fun _ _ => trivial) ?_
  intro _ _ before sound holding _ _ reacted
  obtain ⟨rfl, rfl⟩ := reacted
  rw [holding.guarded]
  have numbered : Numbered file (before.ino file) before := ⟨sound.guard_lt
    (mem_own.mp holding.member).1, rfl⟩
  refine ask_proper (stable_holding.and stable_numbered) ⟨holding, numbered⟩ (fun _ _ => trivial) ?_
  intro looking _ _ sound held _ _ reacted
  obtain ⟨rfl, rfl⟩ := reacted
  have holding := looked_holding _ held.1
  cases locked : looking.lock with
  | none => exact holding
  | some place =>
      refine Dialogue.Proper.ite (fun _ => holding) fun passed => ?_
      push Not at passed
      obtain ⟨ino, -, same, links⟩ := passed
      have pinned : Pinned party file (looking.noteSeen party) :=
        held.1.pinned sound locked links (by rw [held.2.ino]; exact same.trans ino.symm)
      refine ask_proper (stable_holding.and stable_pinned) ⟨holding, pinned⟩ ?_ ?_
      · intro before _ held place locked
        rw [held.2.sole]
        exact held.2.locked.symm.trans locked
      · intro before removed _ _ held _ _ reacted
        obtain ⟨rfl, rfl⟩ := reacted
        rw [held.2.locked]
        refine ask_proper stable_holding held.1 (fun _ _ => trivial) ?_
        intro before _ _ _ holding _ _ reacted
        obtain ⟨rfl, rfl⟩ := reacted
        rw [holding.guarded]
        exact holding

theorem safelyUnlinkLock_proper {expected : ℕ} (bare : Bare party disk) :
    Properly party (fun _ => Bare party) (safelyUnlinkLock expected) disk := by
  refine ask_proper stable_bare bare (fun _ _ => trivial) ?_
  rintro _ uuid _ - bare - - rfl
  refine ask_proper stable_bare bare (fun _ _ => trivial) ?_
  rintro before _ _ - bare - - ⟨rfl, rfl⟩
  cases before.lock with
  | none => exact bare
  | some place =>
      refine Dialogue.Proper.ite (fun _ => bare) fun _ => ?_
      refine ask_proper stable_bare (looked_bare _ bare) (fun _ _ => trivial) ?_
      intro linking answer _ _ bare _ _ reacted
      simp only [reacts] at reacted
      split at reacted
      · rename_i file _ _
        obtain ⟨rfl, rfl⟩ := reacted
        refine (unlinkGuarded_proper bare.link).andThen fun removed after holding => ?_
        refine ask_proper stable_holding holding (fun _ _ => trivial) ?_
        rintro last _ _ - holding - - ⟨-, rfl⟩
        exact holding.unlink
      · obtain ⟨rfl, rfl⟩ := reacted
        exact bare

/-! Holding the lock. -/

theorem ownsLock_proper (stable : Stable party fact) (looked : Looked party fact)
    (held : fact disk) : Properly party (fun _ => fact) (ownsLock lock) disk := by
  refine ask_proper stable held (fun _ _ => trivial) ?_
  rintro before _ _ - held - - ⟨rfl, rfl⟩
  cases before.lock with
  | none => exact looked _ held
  | some place =>
      refine Dialogue.Proper.ite (fun _ => looked _ held) fun _ => ?_
      refine ask_proper stable (looked _ held) (fun _ _ => trivial) ?_
      rintro _ _ opening - held - - ⟨rfl, rfl⟩
      cases opening.lock with
      | none => exact held
      | some fd =>
          refine ask_proper stable held (fun _ _ => trivial) ?_
          rintro _ _ _ - held - - ⟨rfl, rfl⟩
          refine Dialogue.Proper.ite (fun _ => held) fun _ => ?_
          refine ask_proper stable held (fun _ _ => trivial) ?_
          rintro _ _ _ - held - - ⟨rfl, rfl⟩
          exact held

theorem unpinLock_proper (held : Holding party guard file disk ∧ Acquired party lock file disk) :
    Properly party (fun _ => Bare party) (unpinLock guard lock) disk := by
  refine ask_proper (stable_holding.and stable_acquired) held (fun _ _ => trivial) ?_
  rintro _ _ before - held - - ⟨rfl, rfl⟩
  rw [held.1.guarded]
  refine Dialogue.Proper.ite (fun _ => ?_) fun other => absurd held.2.numbered.ino other
  refine ask_proper stable_holding held.1 (fun _ _ => trivial) ?_
  rintro last _ _ - holding - - ⟨-, rfl⟩
  exact holding.unlink

/-- What a call knows between its pin and its commit. -/
structure Ready (party : ℕ) (guard : Guard) (lock : SharedStoreLock) (file : ℕ)
    (queue : SharedFleetQueue) (disk : Disk) : Prop where
  holding : Holding party guard file disk
  acquired : Acquired party lock file disk
  bases : Bases party queue disk

theorem stable_ready : Stable party (Ready party guard lock file queue) :=
  fun _ _ ready disturbed => ⟨stable_holding _ _ ready.holding disturbed,
    stable_acquired _ _ ready.acquired disturbed, stable_bases _ _ ready.bases disturbed⟩

theorem looked_ready : Looked party (Ready party guard lock file queue) :=
  fun _ ready => ⟨looked_holding _ ready.holding, looked_acquired _ ready.acquired,
    looked_bases _ ready.bases⟩

theorem isPinned_proper (held : Ready party guard lock file queue disk) :
    Properly party (fun pinned after => Ready party guard lock file queue after ∧
      (pinned = true → Pinned party file after)) (isPinned guard lock) disk := by
  refine ask_proper stable_ready held (fun _ _ => trivial) ?_
  rintro before _ _ sound ready - - ⟨rfl, rfl⟩
  cases locked : before.lock with
  | none => exact ⟨looked_ready _ ready, fun wrong => absurd wrong Bool.false_ne_true⟩
  | some place =>
      have pinned : (before.nlink place = 2 ∧ before.ino place = lock.ino) →
          Pinned party file (before.noteSeen party) := fun checked =>
        ready.holding.pinned sound locked checked.1
          (checked.2.trans ready.acquired.numbered.ino.symm)
      refine ask_proper (stable_ready.and stable_pinned.implied) ⟨looked_ready _ ready, pinned⟩
        (fun _ _ => trivial) ?_
      rintro _ _ after - held - - ⟨rfl, rfl⟩
      rw [held.1.holding.guarded]
      refine ⟨held.1, fun checked => held.2 ?_⟩
      obtain ⟨links, ino, -⟩ := of_decide_eq_true checked
      exact ⟨links, ino⟩

/-- What `pinLock` leaves. -/
def PinnedBy (party : ℕ) (lock : SharedStoreLock) (file : ℕ) (queue : SharedFleetQueue) :
    Option Guard → Disk → Prop
  | none, disk => Bare party disk
  | some guard, disk => Ready party guard lock file queue disk ∧ Pinned party file disk

theorem pinLock_proper (bare : Bare party disk) (acquired : Acquired party lock file disk)
    (bases : Bases party queue disk) :
    Properly party (PinnedBy party lock file queue) (pinLock lock) disk := by
  let fact := fun disk => Bare party disk ∧ Acquired party lock file disk ∧ Bases party queue disk
  have stable : Stable party fact := stable_bare.and (stable_acquired.and stable_bases)
  have looked : Looked party fact := looked_bare.and (looked_acquired.and looked_bases)
  refine ask_proper stable ⟨bare, acquired, bases⟩ (fun _ _ => trivial) ?_
  rintro _ uuid _ - held - - rfl
  refine (ownsLock_proper stable looked held).andThen fun owns after held => ?_
  cases owns with
  | false => exact held.1
  | true =>
      refine ask_proper stable held (fun _ _ => trivial) ?_
      intro linking answer _ sound held _ careful reacted
      simp only [reacts] at reacted
      split at reacted
      · rename_i place locked _
        obtain ⟨rfl, rfl⟩ := reacted
        obtain ⟨bare, acquired, bases⟩ := held
        have own := careful rfl (by rw [locked]; exact Option.some_ne_none place)
        rw [acquired.created, locked] at own
        obtain rfl := Option.some.inj own
        have ready : Ready party ⟨.commit, uuid⟩ lock file queue
            (linking.link party ⟨.commit, uuid⟩ file) :=
          ⟨bare.link, ⟨acquired.created, acquired.numbered.below, acquired.numbered.ino⟩, bases⟩
        refine (isPinned_proper ready).andThen fun pinned after held => ?_
        cases pinned with
        | true => exact ⟨held.1, held.2 rfl⟩
        | false =>
            refine (unpinLock_proper ⟨held.1.holding, held.1.acquired⟩).andThen ?_
            exact fun _ _ bare => bare
      · obtain ⟨rfl, rfl⟩ := reacted
        exact held.1

/-! Taking the lock. -/

theorem clearStale_proper (bare : Bare party disk) :
    Properly party (fun _ => Bare party) clearStale disk := by
  refine ask_proper stable_bare bare (fun _ _ => trivial) ?_
  rintro _ exists' _ - bare - - ⟨-, rfl⟩
  cases exists' with
  | false => exact bare
  | true =>
      refine ask_proper stable_bare bare (fun _ _ => trivial) ?_
      rintro before _ _ - bare - - ⟨rfl, rfl⟩
      cases before.lock with
      | none => exact bare
      | some place =>
          refine Dialogue.Proper.ite (fun _ => bare) fun _ => ?_
          refine ask_proper stable_bare (looked_bare _ bare) (fun _ _ => trivial) ?_
          rintro _ stale _ - bare - - rfl
          cases stale with
          | false => exact bare
          | true => exact safelyUnlinkLock_proper bare

def AcquiredBy (party : ℕ) : Option SharedStoreLock → Disk → Prop
  | none, disk => Bare party disk
  | some lock, disk => Bare party disk ∧ ∃ file, Acquired party lock file disk

theorem installLock_proper {token fd : ℕ} {opened : Stat}
    (held : Bare party disk ∧ Acquired party ⟨token, opened.ino⟩ fd disk) :
    Properly party (AcquiredBy party) (installLock token fd opened) disk := by
  refine Dialogue.Proper.ite (fun _ => held.1) fun _ => ?_
  refine ask_proper (stable_bare.and stable_acquired) held (fun _ _ => trivial) ?_
  rintro writing _ _ - ⟨bare, acquired⟩ - - rfl
  have written : Acquired party ⟨token, opened.ino⟩ fd
      { writing with token := Function.update writing.token fd (some token) } :=
    ⟨acquired.created, acquired.numbered.below, acquired.numbered.ino⟩
  refine ask_proper (stable_bare.and stable_acquired) ⟨bare, written⟩ (fun _ _ => trivial) ?_
  rintro looking _ _ - held - - ⟨rfl, rfl⟩
  cases looking.lock with
  | none => exact looked_bare _ held.1
  | some place =>
      refine Dialogue.Proper.ite (fun _ => looked_bare _ held.1) fun passed => ?_
      push Not at passed
      refine ⟨looked_bare _ held.1, fd, ?_⟩
      rw [passed.2]
      exact looked_acquired _ held.2

theorem createLock_proper (bare : Bare party disk) :
    Properly party (AcquiredBy party) createLock disk := by
  refine ask_proper stable_bare bare (fun _ _ => trivial) ?_
  rintro _ token _ - bare - - rfl
  refine ask_proper stable_bare bare (fun _ _ => trivial) ?_
  intro before answer _ _ bare _ _ reacted
  simp only [reacts] at reacted
  split at reacted
  · obtain ⟨rfl, rfl⟩ := reacted
    exact bare
  · obtain ⟨rfl, ino, -, rfl⟩ := reacted
    have acquired : Acquired party ⟨token, ino⟩ before.created (before.create party ino) :=
      ⟨congrArg Trail.created trail_mark_self, Nat.lt_succ_self _, Function.update_self ..⟩
    refine ask_proper (stable_bare.and stable_acquired) ⟨bare, acquired⟩ (fun _ _ => trivial) ?_
    rintro _ _ opened - held - - ⟨rfl, rfl⟩
    have same : (opened.stat before.created).ino = ino := held.2.numbered.ino
    refine (installLock_proper ⟨held.1, by rw [same]; exact held.2⟩).andThen ?_
    intro acquired after held
    cases acquired with
    | some lock => exact held
    | none => exact (safelyUnlinkLock_proper held).andThen fun _ _ bare => bare

theorem acquireLock_proper (bare : Bare party disk) :
    Properly party (AcquiredBy party) acquireLock disk := by
  refine ask_proper stable_bare bare (fun _ _ => trivial) ?_
  rintro _ verified _ - bare - - rfl
  cases verified with
  | false => exact bare
  | true =>
      refine (clearStale_proper bare).andThen fun cleared after bare => ?_
      cases cleared with
      | false => exact bare
      | true => exact createLock_proper bare

theorem acquireLockWithRetry_proper : (retries : ℕ) → {disk : Disk} → Bare party disk →
    Properly party (AcquiredBy party) (acquireLockWithRetry retries) disk
  | 0, _, bare => acquireLock_proper bare
  | retries + 1, _, bare => by
      refine (acquireLock_proper bare).andThen fun acquired after held => ?_
      cases acquired with
      | some lock => exact held
      | none => exact acquireLockWithRetry_proper retries held

theorem releaseLock_proper (bare : Bare party disk) :
    Properly party (fun _ => Bare party) (releaseLock lock) disk := by
  refine (ownsLock_proper stable_bare looked_bare bare).andThen fun owns after bare => ?_
  cases owns with
  | false => exact bare
  | true => exact (safelyUnlinkLock_proper bare).andThen fun _ _ bare => bare

end

end AshlrHub.QueueLock

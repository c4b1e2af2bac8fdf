import AshlrHub.Fleet.QueueLock

namespace AshlrHub.QueueLock

open Fleet Lib

/-! What every step of every process keeps, and what it spares the others. -/

def Commit.Computed (commit : Commit) : Prop :=
  commit.read = some commit.replaced ∧ ∃ current next,
    readQueueResult commit.replaced.queue = some current ∧ commit.change current = some next ∧
      commit.queue = bounded next

structure Sound (disk : Disk) : Prop where
  lock_lt : ∀ {file}, disk.lock = some file → file < disk.created
  guard_lt : ∀ {link}, link ∈ disk.guards → link.file < disk.created
  distinct : ∀ {one other}, disk.Alive one → disk.Alive other →
    disk.ino one = disk.ino other → one = other
  created_lt : ∀ {party file}, (disk.trail party).created = some file → file < disk.created
  apart : ∀ {party other file}, (disk.trail party).created = some file →
    (disk.trail other).created = some file → party = other
  guarded : ∀ {party file}, (disk.trail party).sole = some file →
    ∃ link ∈ disk.own party, link.file = file
  single : ∀ {party other file}, (disk.trail party).sole = some file →
    (disk.trail other).sole = some file → party = other
  computed : ∀ commit ∈ disk.commits, commit.Computed

structure Spares (party : ℕ) (disk after : Disk) : Prop where
  own : ∀ {other}, other ≠ party → after.own other = disk.own other
  trail : ∀ {other}, other ≠ party → after.trail other = disk.trail other
  created : disk.created ≤ after.created
  ino : ∀ {file}, file < disk.created → after.ino file = disk.ino file
  pinned : ∀ {other file}, other ≠ party → disk.lock = some file →
    (disk.trail other).sole = some file → after.lock = some file
  current : ∀ {other file}, other ≠ party → (disk.trail other).created = some file →
    after.lock = some file → disk.lock = some file ∧ after.reading = disk.reading

section

variable {party other : ℕ} {disk after : Disk} {guard : Guard} {file : ℕ}

theorem mem_own {link : Link} :
    link ∈ disk.own party ↔ link ∈ disk.guards ∧ link.party = party := by
  rw [Disk.own, List.mem_filter, decide_eq_true_eq]

variable {trail : Trail}

theorem trail_mark_self : (disk.mark party trail).trail party = trail :=
  Function.update_self ..

theorem trail_mark_other (different : other ≠ party) :
    (disk.mark party trail).trail other = disk.trail other :=
  Function.update_of_ne different ..

theorem own_link_self :
    (disk.link party guard file).own party = ⟨party, guard, file⟩ :: disk.own party :=
  List.filter_cons_of_pos (decide_eq_true rfl)

theorem own_link_other (different : other ≠ party) :
    (disk.link party guard file).own other = disk.own other :=
  List.filter_cons_of_neg (by simpa using Ne.symm different)

theorem own_unlink_self : (disk.unlink party guard).own party =
    (disk.own party).filter fun link => ¬ link.guard = guard := by
  unfold Disk.own Disk.unlink
  rw [List.filter_filter, List.filter_filter]
  apply List.filter_congr
  intro link _
  by_cases same : link.party = party <;> simp [same]

theorem own_unlink_other (different : other ≠ party) :
    (disk.unlink party guard).own other = disk.own other := by
  unfold Disk.own Disk.unlink
  rw [List.filter_filter]
  apply List.filter_congr
  intro link _
  by_cases same : link.party = other
  · simp [same, different]
  · simp [same]

/-! The lock of which one process alone sees its guard. -/

theorem seen_eq_some (seen : disk.seen party = some file) :
    disk.lock = some file ∧ disk.nlink file = 2 ∧ ∃ link ∈ disk.own party, link.file = file := by
  obtain ⟨locked, met⟩ := Option.filter_eq_some_iff.mp seen
  rw [Bool.and_eq_true, decide_eq_true_eq, List.any_eq_true] at met
  obtain ⟨links, link, member, same⟩ := met
  exact ⟨locked, links, link, member, of_decide_eq_true same⟩

theorem seen_of_guard {link : Link} (locked : disk.lock = some file) (links : disk.nlink file = 2)
    (member : link ∈ disk.own party) (same : link.file = file) : disk.seen party = some file := by
  rw [Disk.seen, locked]
  apply Option.filter_eq_some_iff.mpr
  refine ⟨rfl, ?_⟩
  rw [Bool.and_eq_true, decide_eq_true_eq, List.any_eq_true]
  exact ⟨links, link, member, decide_eq_true same⟩

theorem guard_unique {one two : Link} (locked : disk.lock = some file)
    (links : disk.nlink file = 2) (first : one ∈ disk.own party) (onFile : one.file = file)
    (second : two ∈ disk.own other) (onFile' : two.file = file) : party = other := by
  unfold Disk.nlink at links
  rw [if_pos locked, List.countP_eq_length_filter] at links
  have single : (disk.guards.filter fun link => link.file = file).length = 1 := by omega
  obtain ⟨only, alone⟩ := List.length_eq_one_iff.mp single
  obtain ⟨oneMember, oneOwn⟩ := mem_own.mp first
  obtain ⟨twoMember, twoOwn⟩ := mem_own.mp second
  have oneOnly : one ∈ [only] := by
    rw [← alone]
    exact List.mem_filter.mpr ⟨oneMember, decide_eq_true onFile⟩
  have twoOnly : two ∈ [only] := by
    rw [← alone]
    exact List.mem_filter.mpr ⟨twoMember, decide_eq_true onFile'⟩
  rw [← oneOwn, ← twoOwn, List.mem_singleton.mp oneOnly, List.mem_singleton.mp twoOnly]

/-! What each kind of step keeps. -/

theorem Sound.mark (sound : Sound disk)
    (created : ∀ {file}, trail.created = some file → (disk.trail party).created = some file)
    (guarded : ∀ {file}, trail.sole = some file → ∃ link ∈ disk.own party, link.file = file)
    (single : ∀ {other file}, other ≠ party → trail.sole = some file →
      (disk.trail other).sole ≠ some file) : Sound (disk.mark party trail) where
  lock_lt := sound.lock_lt
  guard_lt := sound.guard_lt
  distinct := sound.distinct
  created_lt {other file} made := by
    by_cases same : other = party
    · subst same
      rw [trail_mark_self] at made
      exact sound.created_lt (created made)
    · rw [trail_mark_other same] at made
      exact sound.created_lt made
  apart {one two file} first second := by
    have before : ∀ {other}, ((disk.mark party trail).trail other).created = some file →
        (disk.trail other).created = some file := by
      intro other made
      by_cases same : other = party
      · subst same
        rw [trail_mark_self] at made
        exact created made
      · rwa [trail_mark_other same] at made
    exact sound.apart (before first) (before second)
  guarded {other file} sole := by
    by_cases same : other = party
    · subst same
      rw [trail_mark_self] at sole
      exact guarded sole
    · rw [trail_mark_other same] at sole
      exact sound.guarded sole
  single {one two file} first second := by
    by_cases ofOne : one = party
    · by_cases ofTwo : two = party
      · rw [ofOne, ofTwo]
      · subst ofOne
        rw [trail_mark_self] at first
        rw [trail_mark_other ofTwo] at second
        exact absurd second (single ofTwo first)
    · rw [trail_mark_other ofOne] at first
      by_cases ofTwo : two = party
      · subst ofTwo
        rw [trail_mark_self] at second
        exact absurd first (single ofOne second)
      · rw [trail_mark_other ofTwo] at second
        exact sound.single first second
  computed := sound.computed

theorem Sound.noteSeen (sound : Sound disk) : Sound (disk.noteSeen party) := by
  apply sound.mark
  · exact id
  · intro file seen
    exact (seen_eq_some seen).2.2
  · intro other file different seen sole
    obtain ⟨locked, links, link, member, same⟩ := seen_eq_some seen
    obtain ⟨link', member', same'⟩ := sound.guarded sole
    exact different (guard_unique locked links member' same' member same)

theorem Sound.noteRead (sound : Sound disk) : Sound (disk.noteRead party) := by
  apply sound.mark
  · exact id
  · exact sound.guarded
  · intro other file different mine theirs
    exact different (sound.single theirs mine)

theorem Sound.begin {change : SharedFleetQueue → Option SharedFleetQueue} (sound : Sound disk) :
    Sound (disk.begin party change) := by
  apply sound.mark
  · intro file made
    cases made
  · intro file sole
    cases sole
  · intro other file _ sole
    cases sole

theorem Sound.create {ino : ℕ} (sound : Sound disk)
    (free : ∀ file, disk.Alive file → disk.ino file ≠ ino) : Sound (disk.create party ino) where
  lock_lt {file} locked := by
    obtain rfl := Option.some.inj locked
    exact Nat.lt_succ_self _
  guard_lt member := Nat.lt_succ_of_lt (sound.guard_lt member)
  distinct {one two} first second same := by
    -- a file is the new one, or it was there and keeps its number
    have kinds : ∀ {file}, (disk.create party ino).Alive file →
        file = disk.created ∧ (disk.create party ino).ino file = ino ∨
          disk.Alive file ∧ (disk.create party ino).ino file = disk.ino file := by
      intro file alive
      rcases alive with locked | ⟨link, member, onFile⟩
      · obtain rfl := Option.some.inj locked
        exact .inl ⟨rfl, Function.update_self ..⟩
      · have below := sound.guard_lt member
        rw [onFile] at below
        exact .inr ⟨.inr ⟨link, member, onFile⟩, Function.update_of_ne (Nat.ne_of_lt below) ..⟩
    rcases kinds first with ⟨newOne, inoOne⟩ | ⟨aliveOne, inoOne⟩ <;>
      rcases kinds second with ⟨newTwo, inoTwo⟩ | ⟨aliveTwo, inoTwo⟩
    · rw [newOne, newTwo]
    · rw [inoOne, inoTwo] at same
      exact absurd same.symm (free two aliveTwo)
    · rw [inoOne, inoTwo] at same
      exact absurd same (free one aliveOne)
    · rw [inoOne, inoTwo] at same
      exact sound.distinct aliveOne aliveTwo same
  created_lt {other file} made := by
    change ((disk.mark party _).trail other).created = some file at made
    by_cases same : other = party
    · subst same
      rw [trail_mark_self] at made
      obtain rfl := Option.some.inj made
      exact Nat.lt_succ_self _
    · rw [trail_mark_other same] at made
      exact Nat.lt_succ_of_lt (sound.created_lt made)
  apart {one two file} first second := by
    change ((disk.mark party _).trail one).created = some file at first
    change ((disk.mark party _).trail two).created = some file at second
    by_cases ofOne : one = party <;> by_cases ofTwo : two = party
    · rw [ofOne, ofTwo]
    · rw [ofOne, trail_mark_self] at first
      rw [trail_mark_other ofTwo] at second
      obtain rfl := Option.some.inj first
      exact absurd (sound.created_lt second) (Nat.lt_irrefl _)
    · rw [trail_mark_other ofOne] at first
      rw [ofTwo, trail_mark_self] at second
      obtain rfl := Option.some.inj second
      exact absurd (sound.created_lt first) (Nat.lt_irrefl _)
    · rw [trail_mark_other ofOne] at first
      rw [trail_mark_other ofTwo] at second
      exact sound.apart first second
  guarded {other file} sole := by
    change ((disk.mark party _).trail other).sole = some file at sole
    by_cases same : other = party
    · subst same
      rw [trail_mark_self] at sole
      exact sound.guarded sole
    · rw [trail_mark_other same] at sole
      exact sound.guarded sole
  single {one two file} first second := by
    have before : ∀ {other}, ((disk.create party ino).trail other).sole = some file →
        (disk.trail other).sole = some file := by
      intro other sole
      change ((disk.mark party _).trail other).sole = some file at sole
      by_cases same : other = party
      · subst same
        rwa [trail_mark_self] at sole
      · rwa [trail_mark_other same] at sole
    exact sound.single (before first) (before second)
  computed := sound.computed

theorem Sound.write {token : ℕ → Option ℕ} (sound : Sound disk) :
    Sound { disk with token := token } where
  lock_lt := sound.lock_lt
  guard_lt := sound.guard_lt
  distinct := sound.distinct
  created_lt := sound.created_lt
  apart := sound.apart
  guarded := sound.guarded
  single := sound.single
  computed := sound.computed

section

variable (sound : Sound disk)
include sound

theorem Sound.link (locked : disk.lock = some file) :
    Sound (disk.link party guard file) where
  lock_lt := sound.lock_lt
  guard_lt {link} member := by
    rcases List.mem_cons.mp member with rfl | earlier
    · exact sound.lock_lt locked
    · exact sound.guard_lt earlier
  distinct {one two} first second same := by
    have before : ∀ {other}, (disk.link party guard file).Alive other → disk.Alive other := by
      rintro other (held | ⟨link, member, onFile⟩)
      · exact .inl held
      · rcases List.mem_cons.mp member with rfl | earlier
        · exact .inl (onFile ▸ locked)
        · exact .inr ⟨link, earlier, onFile⟩
    exact sound.distinct (before first) (before second) same
  created_lt := sound.created_lt
  apart := sound.apart
  guarded {other onFile} sole := by
    obtain ⟨link, member, same⟩ := sound.guarded sole
    obtain ⟨inGuards, ofOther⟩ := mem_own.mp member
    exact ⟨link, mem_own.mpr ⟨List.mem_cons_of_mem _ inGuards, ofOther⟩, same⟩
  single := sound.single
  computed := sound.computed

theorem Sound.unlink : Sound (disk.unlink party guard) where
  lock_lt := sound.lock_lt
  guard_lt member := sound.guard_lt (List.mem_of_mem_filter member)
  distinct {one two} first second same := by
    have before : ∀ {other}, (disk.unlink party guard).Alive other → disk.Alive other := by
      rintro other (held | ⟨link, member, onFile⟩)
      · exact .inl held
      · exact .inr ⟨link, List.mem_of_mem_filter member, onFile⟩
    exact sound.distinct (before first) (before second) same
  created_lt {other file} made := by
    change ((disk.mark party _).trail other).created = some file at made
    by_cases same : other = party
    · subst same
      rw [trail_mark_self] at made
      exact sound.created_lt made
    · rw [trail_mark_other same] at made
      exact sound.created_lt made
  apart {one two file} first second := by
    have before : ∀ {other}, ((disk.unlink party guard).trail other).created = some file →
        (disk.trail other).created = some file := by
      intro other made
      change ((disk.mark party _).trail other).created = some file at made
      by_cases same : other = party
      · subst same
        rwa [trail_mark_self] at made
      · rwa [trail_mark_other same] at made
    exact sound.apart (before first) (before second)
  guarded {other file} sole := by
    change ((disk.mark party _).trail other).sole = some file at sole
    by_cases same : other = party
    · subst same
      rw [trail_mark_self] at sole
      cases sole
    · rw [trail_mark_other same] at sole
      rw [own_unlink_other same]
      exact sound.guarded sole
  single {one two file} first second := by
    change ((disk.mark party _).trail one).sole = some file at first
    change ((disk.mark party _).trail two).sole = some file at second
    by_cases ofOne : one = party
    · rw [ofOne, trail_mark_self] at first
      cases first
    · by_cases ofTwo : two = party
      · rw [ofTwo, trail_mark_self] at second
        cases second
      · rw [trail_mark_other ofOne] at first
        rw [trail_mark_other ofTwo] at second
        exact sound.single first second
  computed := sound.computed

theorem Sound.unlock : Sound { disk with lock := none } where
  lock_lt locked := by cases locked
  guard_lt := sound.guard_lt
  distinct {one two} first second same := by
    have before : ∀ {other}, Disk.Alive { disk with lock := none } other → disk.Alive other := by
      rintro other (held | linked)
      · cases held
      · exact .inr linked
    exact sound.distinct (before first) (before second) same
  created_lt := sound.created_lt
  apart := sound.apart
  guarded := sound.guarded
  single := sound.single
  computed := sound.computed

theorem Sound.install {queue : SharedFleetQueue} (computed : Commit.Computed
      ⟨(disk.trail party).change, (disk.trail party).read, disk.reading, queue⟩) :
    Sound (disk.install party queue) where
  lock_lt := sound.lock_lt
  guard_lt := sound.guard_lt
  distinct := sound.distinct
  created_lt := sound.created_lt
  apart := sound.apart
  guarded := sound.guarded
  single := sound.single
  computed commit member := by
    rcases List.mem_append.mp member with earlier | added
    · exact sound.computed commit earlier
    · rw [List.mem_singleton.mp added]
      exact computed

end

/-! What each kind of step spares. -/

theorem Spares.quiet (own : ∀ {other}, other ≠ party → after.own other = disk.own other)
    (trail : ∀ {other}, other ≠ party → after.trail other = disk.trail other)
    (created : after.created = disk.created) (ino : after.ino = disk.ino)
    (lock : after.lock = disk.lock) (reading : after.reading = disk.reading) :
    Spares party disk after where
  own := own
  trail := trail
  created := created.ge
  ino _ := congrFun ino _
  pinned _ locked _ := lock.trans locked
  current _ _ locked := ⟨lock.symm.trans locked, reading⟩

theorem Spares.mark : Spares party disk (disk.mark party trail) :=
  .quiet (fun _ => rfl) trail_mark_other rfl rfl rfl rfl

theorem Spares.self : Spares party disk disk :=
  .quiet (fun _ => rfl) (fun _ => rfl) rfl rfl rfl rfl

theorem Spares.create {ino : ℕ} (sound : Sound disk) (absent : disk.lock = none) :
    Spares party disk (disk.create party ino) where
  own _ := rfl
  trail := trail_mark_other
  created := Nat.le_succ _
  ino below := Function.update_of_ne (Nat.ne_of_lt below) ..
  pinned _ locked _ := by
    rw [absent] at locked
    cases locked
  current _ made locked := by
    obtain rfl := Option.some.inj locked
    exact absurd (sound.created_lt made) (Nat.lt_irrefl _)

theorem Spares.unlock (sound : Sound disk)
    (sole : ∀ {file}, disk.lock = some file → (disk.trail party).sole = some file) :
    Spares party disk { disk with lock := none } where
  own _ := rfl
  trail _ := rfl
  created := le_rfl
  ino _ := rfl
  pinned different locked theirs := absurd (sound.single theirs (sole locked)) different
  current _ _ locked := by cases locked

theorem Spares.install {queue : SharedFleetQueue} (sound : Sound disk)
    (locked : disk.lock = some file) (made : (disk.trail party).created = some file) :
    Spares party disk (disk.install party queue) where
  own _ := rfl
  trail _ := rfl
  created := le_rfl
  ino _ := rfl
  pinned _ locked _ := locked
  current different theirs held := by
    have same := locked.symm.trans held
    obtain rfl := Option.some.inj same
    exact absurd (sound.apart theirs made) different

def Allowed (party : ℕ) (disk : Disk) : Request → Prop
  | .unlinkLock => ∀ {file}, disk.lock = some file → (disk.trail party).sole = some file
  | .renameQueue queue => (∃ file, disk.lock = some file ∧
      (disk.trail party).created = some file) ∧ Commit.Computed
        ⟨(disk.trail party).change, (disk.trail party).read, disk.reading, queue⟩
  | _ => True

theorem reacts_sound {request : Request} {answer : Answer request} (sound : Sound disk)
    (allowed : Allowed party disk request) (reacted : reacts party disk request answer after) :
    Sound after ∧ Spares party disk after := by
  have silent : after = disk → Sound after ∧ Spares party disk after := by
    rintro rfl
    exact ⟨sound, .self⟩
  cases request with
  | verifyStorageCapabilities => exact silent reacted
  | randomUUID => exact silent reacted
  | isStale stat => exact silent reacted
  | existsLock => exact silent reacted.2
  | lstatLock =>
      obtain ⟨-, rfl⟩ := reacted
      exact ⟨sound.noteSeen, .mark⟩
  | lstatGuard guard => exact silent reacted.2
  | createLock =>
      cases locked : disk.lock with
      | some file =>
          simp only [reacts, locked] at reacted
          exact silent reacted.2
      | none =>
          simp only [reacts, locked] at reacted
          obtain ⟨-, ino, free, rfl⟩ := reacted
          exact ⟨sound.create free, .create sound locked⟩
  | openLock => exact silent reacted.2
  | fstat fd => exact silent reacted.2
  | writeToken fd token =>
      obtain rfl := reacted
      exact ⟨sound.write, .quiet (fun _ => rfl) (fun _ => rfl) rfl rfl rfl rfl⟩
  | readToken fd => exact silent reacted.2
  | linkLock guard =>
      simp only [reacts] at reacted
      split at reacted
      · rename_i file locked free
        obtain ⟨-, rfl⟩ := reacted
        exact ⟨sound.link locked, .quiet own_link_other (fun _ => rfl) rfl rfl rfl rfl⟩
      · exact silent reacted.2
  | unlinkLock =>
      obtain ⟨-, rfl⟩ := reacted
      exact ⟨sound.unlock, .unlock sound allowed⟩
  | unlinkGuard guard =>
      obtain ⟨-, rfl⟩ := reacted
      exact ⟨sound.unlink, .quiet own_unlink_other trail_mark_other rfl rfl rfl rfl⟩
  | existsQueue =>
      obtain ⟨-, rfl⟩ := reacted
      split
      · exact ⟨sound, .self⟩
      · exact ⟨sound.noteRead, .mark⟩
  | readQueue =>
      rcases reacted with ⟨-, same⟩ | ⟨-, rfl⟩
      · exact silent same
      · exact ⟨sound.noteRead, .mark⟩
  | renameQueue queue =>
      rcases reacted with ⟨-, same⟩ | rfl
      · exact silent same
      · obtain ⟨⟨file, locked, made⟩, computed⟩ := allowed
        exact ⟨sound.install computed, .install sound locked made⟩

end

end AshlrHub.QueueLock

import AshlrHub.Fleet.SharedStore
import AshlrHub.Lib.Assembly

namespace AshlrHub.QueueLock

open Fleet Lib

/-! The lock of the shared queue: a file that its owner creates, and hard links that guard it. -/

/-- What is asked of a status; the queue's directory holds regular files of one device. -/
structure Stat where
  ino : ℕ
  nlink : ℕ
  size : ℕ

inductive Purpose where
  | commit
  | unlink
deriving DecidableEq

structure Guard where
  purpose : Purpose
  uuid : ℕ
deriving DecidableEq

structure SharedStoreLock where
  token : ℕ
  ino : ℕ

inductive Request where
  | verifyStorageCapabilities
  | randomUUID
  | existsLock
  | lstatLock
  | lstatGuard (guard : Guard)
  /-- `Date.now() - Number(stale.mtimeMs) > this.staleLockMs()` -/
  | isStale (stat : Stat)
  /-- `openSync` with `O_CREAT | O_EXCL` -/
  | createLock
  | openLock
  | fstat (fd : ℕ)
  | writeToken (fd token : ℕ)
  | readToken (fd : ℕ)
  | linkLock (guard : Guard)
  | unlinkLock
  | unlinkGuard (guard : Guard)
  | existsQueue
  /-- From `lstatSync` to `readSync`, for a file whose content is never changed in place. -/
  | readQueue
  /-- The temporary file, and `renameSync` onto the queue. -/
  | renameQueue (queue : SharedFleetQueue)

/-- Where a call can throw, the answer is `none` or `false`. -/
def Answer : Request → Type
  | .verifyStorageCapabilities => Bool
  | .randomUUID => ℕ
  | .existsLock => Bool
  | .lstatLock => Option Stat
  | .lstatGuard _ => Option Stat
  | .isStale _ => Bool
  | .createLock => Option ℕ
  | .openLock => Option ℕ
  | .fstat _ => Stat
  | .writeToken _ _ => Unit
  | .readToken _ => Option ℕ
  | .linkLock _ => Bool
  | .unlinkLock => Bool
  | .unlinkGuard _ => Bool
  | .existsQueue => Bool
  | .readQueue => Option SharedFleetQueue
  | .renameQueue _ => Bool

abbrev Locking (α : Type) : Type := Dialogue Request Answer α

abbrev ask (request : Request) : Locking (Answer request) := Dialogue.request request

/-! Removing the lock. -/

/-- The body of `safelyUnlinkLock` once its guard is linked. -/
def unlinkGuarded (guard : Guard) (expected : ℕ) : Locking Bool := do
  match ← ask (.lstatGuard guard) with
  | none => pure false
  | some pinned =>
    match ← ask .lstatLock with
    | none => pure false
    | some stillCurrent =>
      if pinned.ino ≠ expected ∨ pinned.nlink ≠ 2 ∨
          stillCurrent.ino ≠ expected ∨ stillCurrent.nlink ≠ 2 then pure false
      else do
        match ← ask .unlinkLock with
        | false => pure false
        | true =>
          match ← ask (.lstatGuard guard) with
          | none => pure false
          | some remaining => pure (decide (remaining.ino = expected ∧ remaining.nlink = 1))

def safelyUnlinkLock (expected : ℕ) : Locking Bool := do
  let uuid ← ask .randomUUID
  match ← ask .lstatLock with
  | none => pure false
  | some current =>
    if current.nlink ≠ 1 ∨ current.ino ≠ expected then pure false
    else do
      match ← ask (.linkLock ⟨.unlink, uuid⟩) with
      | false => pure false
      | true => do
        let removed ← unlinkGuarded ⟨.unlink, uuid⟩ expected
        let _ ← ask (.unlinkGuard ⟨.unlink, uuid⟩)
        pure removed

/-! Holding the lock. -/

def ownsLock (lock : SharedStoreLock) : Locking Bool := do
  match ← ask .lstatLock with
  | none => pure false
  | some named =>
    if named.nlink ≠ 1 ∨ named.ino ≠ lock.ino then pure false
    else do
      match ← ask .openLock with
      | none => pure false
      | some fd => do
        let opened ← ask (.fstat fd)
        if opened.nlink ≠ 1 ∨ opened.ino ≠ lock.ino ∨ opened.size < 2 ∨ 512 < opened.size then
          pure false
        else do
          let owner : Option ℕ ← ask (.readToken fd)
          pure (decide (owner = some lock.token))

/-- The guard goes where it links the file that the call created. -/
def unpinLock (guard : Guard) (lock : SharedStoreLock) : Locking Unit := do
  match ← ask (.lstatGuard guard) with
  | none => pure ()
  | some pinned =>
    if pinned.ino = lock.ino then do
      let _ ← ask (.unlinkGuard guard)
      pure ()
    else pure ()

/-- The check of `pinLock` once its guard is linked. -/
def isPinned (guard : Guard) (lock : SharedStoreLock) : Locking Bool := do
  match ← ask .lstatLock with
  | none => pure false
  | some named =>
    match ← ask (.lstatGuard guard) with
    | none => pure false
    | some pinnedStat =>
      pure (decide (named.nlink = 2 ∧ named.ino = lock.ino ∧
        pinnedStat.nlink = 2 ∧ pinnedStat.ino = lock.ino))

def pinLock (lock : SharedStoreLock) : Locking (Option Guard) := do
  let uuid ← ask .randomUUID
  match ← ownsLock lock with
  | false => pure none
  | true =>
    match ← ask (.linkLock ⟨.commit, uuid⟩) with
    | false => pure none
    | true =>
      match ← isPinned ⟨.commit, uuid⟩ lock with
      | true => pure (some ⟨.commit, uuid⟩)
      | false => do
        -- the clean-up leaves a guard on any other file where it is
        unpinLock ⟨.commit, uuid⟩ lock
        pure none

/-! Taking the lock. -/

/-- The first part of `acquireLock`: nothing is in the way, or what was has been removed. -/
def clearStale : Locking Bool := do
  match ← ask .existsLock with
  | false => pure true
  | true =>
    match ← ask .lstatLock with
    | none => pure false
    | some stale =>
      if stale.nlink ≠ 1 then pure false
      else do
        match ← ask (.isStale stale) with
        | false => pure false
        | true => safelyUnlinkLock stale.ino

def installLock (token fd : ℕ) (opened : Stat) : Locking (Option SharedStoreLock) := do
  if opened.nlink ≠ 1 then pure none
  else do
    let _ ← ask (.writeToken fd token)
    match ← ask .lstatLock with
    | none => pure none
    | some installed =>
      if installed.nlink ≠ 1 ∨ installed.ino ≠ opened.ino then pure none
      else pure (some ⟨token, installed.ino⟩)

/-- The second part of `acquireLock`. -/
def createLock : Locking (Option SharedStoreLock) := do
  let token ← ask .randomUUID
  match ← ask .createLock with
  | none => pure none
  | some fd => do
    let opened ← ask (.fstat fd)
    match ← installLock token fd opened with
    | some acquired => pure (some acquired)
    | none => do
      let _ ← safelyUnlinkLock opened.ino
      pure none

def acquireLock : Locking (Option SharedStoreLock) := do
  match ← ask .verifyStorageCapabilities with
  | false => pure none
  | true =>
    match ← clearStale with
    | false => pure none
    | true => createLock

/-- As many further attempts as the deadline allows. -/
def acquireLockWithRetry : ℕ → Locking (Option SharedStoreLock)
  | 0 => acquireLock
  | retries + 1 => do
    match ← acquireLock with
    | some lock => pure (some lock)
    | none => acquireLockWithRetry retries

def releaseLock (lock : SharedStoreLock) : Locking Unit := do
  match ← ownsLock lock with
  | false => pure ()
  | true => do
    let _ ← safelyUnlinkLock lock.ino
    pure ()

/-! Transactions. -/

/-- `readQueueResult`, where the result is readable. -/
def readQueueFile : Locking (Option SharedFleetQueue) := do
  match ← ask .existsQueue with
  | false => pure (readQueueResult none)
  | true =>
    match ← ask .readQueue with
    | none => pure none
    | some queue => pure (readQueueResult (some queue))

def writeQueue (queue : SharedFleetQueue) : Locking Bool := do
  if validQueue (bounded queue) = false then pure false
  else ask (.renameQueue (bounded queue))

/-- From `pinLock` to `unpinLock`. -/
def commitQueue (lock : SharedStoreLock) (queue : SharedFleetQueue) : Locking Bool := do
  match ← pinLock lock with
  | none => pure false
  | some pin => do
    let written ← writeQueue queue
    unpinLock pin lock
    pure written

abbrev Change (α : Type) : Type := SharedFleetQueue → Option (SharedFleetQueue × α)

def transact {α : Type} (lock : SharedStoreLock) (fn : Change α) (fallback : α) : Locking α := do
  match ← readQueueFile with
  | none => pure fallback
  | some current =>
    match fn current with
    | none => pure fallback
    | some (queue, result) =>
      match ← commitQueue lock queue with
      | false => pure fallback
      | true => pure result

def withLock {α : Type} (retries : ℕ) (fn : Change α) (fallback : α) : Locking α := do
  match ← acquireLockWithRetry retries with
  | none => pure fallback
  | some lock => do
    let answer ← transact lock fn fallback
    releaseLock lock
    pure answer

/-! The directory. -/

structure Reading where
  version : ℕ
  queue : Option SharedFleetQueue

structure Link where
  party : ℕ
  guard : Guard
  file : ℕ

structure Trail where
  change : SharedFleetQueue → Option SharedFleetQueue
  /-- The lock file that the call created last. -/
  created : Option ℕ
  /-- The lock file of which the call last saw no links but its name and the call's own guard. -/
  sole : Option ℕ
  read : Option Reading

structure Commit where
  change : SharedFleetQueue → Option SharedFleetQueue
  read : Option Reading
  replaced : Reading
  queue : SharedFleetQueue

structure Disk where
  /-- The file at the lock's path; files are numbered as they are created. -/
  lock : Option ℕ
  guards : List Link
  created : ℕ
  ino : ℕ → ℕ
  token : ℕ → Option ℕ
  version : ℕ
  queue : Option SharedFleetQueue
  trail : ℕ → Trail
  commits : List Commit

def lockBytes : ℕ := 88

namespace Disk

variable (disk : Disk) (party : ℕ)

def reading : Reading := ⟨disk.version, disk.queue⟩

def nlink (file : ℕ) : ℕ :=
  (if disk.lock = some file then 1 else 0) + disk.guards.countP fun link => link.file = file

def stat (file : ℕ) : Stat where
  ino := disk.ino file
  nlink := disk.nlink file
  size := if (disk.token file).isSome then lockBytes else 0

def Alive (file : ℕ) : Prop :=
  disk.lock = some file ∨ ∃ link ∈ disk.guards, link.file = file

def own : List Link := disk.guards.filter fun link => link.party = party

def guarded (guard : Guard) : Option ℕ :=
  ((disk.own party).find? fun link => link.guard = guard).map Link.file

def mark (trail : Trail) : Disk := { disk with trail := Function.update disk.trail party trail }

def seen : Option ℕ :=
  disk.lock.filter fun file =>
    disk.nlink file = 2 && (disk.own party).any fun link => link.file = file

def noteSeen : Disk := disk.mark party { disk.trail party with sole := disk.seen party }

def noteRead : Disk := disk.mark party { disk.trail party with read := some disk.reading }

/-- A new lock file, of which the number may be one whose last link is gone. -/
def create (ino : ℕ) : Disk :=
  { disk.mark party { disk.trail party with created := some disk.created } with
    lock := some disk.created
    created := disk.created + 1
    ino := Function.update disk.ino disk.created ino
    token := Function.update disk.token disk.created none }

def link (guard : Guard) (file : ℕ) : Disk :=
  { disk with guards := ⟨party, guard, file⟩ :: disk.guards }

def unlink (guard : Guard) : Disk :=
  { disk.mark party { disk.trail party with sole := none } with
    guards := disk.guards.filter fun link => ¬ (link.party = party ∧ link.guard = guard) }

def install (queue : SharedFleetQueue) : Disk :=
  { disk with
    version := disk.version + 1
    queue := some queue
    commits := disk.commits ++
      [⟨(disk.trail party).change, (disk.trail party).read, disk.reading, queue⟩] }

def begin (change : SharedFleetQueue → Option SharedFleetQueue) : Disk :=
  disk.mark party ⟨change, none, none, none⟩

end Disk

def reacts (party : ℕ) (disk : Disk) : (request : Request) → Answer request → Disk → Prop
  | .verifyStorageCapabilities, _, after => after = disk
  | .randomUUID, _, after => after = disk
  | .isStale _, _, after => after = disk
  | .existsLock, answer, after => answer = disk.lock.isSome ∧ after = disk
  | .lstatLock, answer, after => answer = disk.lock.map disk.stat ∧ after = disk.noteSeen party
  | .lstatGuard guard, answer, after =>
      answer = (disk.guarded party guard).map disk.stat ∧ after = disk
  | .createLock, answer, after =>
      match disk.lock with
      | some _ => answer = none ∧ after = disk
      | none => answer = some disk.created ∧
          ∃ ino, (∀ file, disk.Alive file → disk.ino file ≠ ino) ∧ after = disk.create party ino
  | .openLock, answer, after => answer = disk.lock ∧ after = disk
  | .fstat fd, answer, after => answer = disk.stat fd ∧ after = disk
  | .writeToken fd token, _, after =>
      after = { disk with token := Function.update disk.token fd (some token) }
  | .readToken fd, answer, after => answer = disk.token fd ∧ after = disk
  | .linkLock guard, answer, after =>
      match disk.lock, disk.guarded party guard with
      | some file, none => answer = true ∧ after = disk.link party guard file
      | _, _ => answer = false ∧ after = disk
  | .unlinkLock, answer, after => answer = disk.lock.isSome ∧ after = { disk with lock := none }
  | .unlinkGuard guard, answer, after =>
      answer = (disk.guarded party guard).isSome ∧ after = disk.unlink party guard
  | .existsQueue, answer, after =>
      answer = disk.queue.isSome ∧ after = if disk.queue.isSome then disk else disk.noteRead party
  | .readQueue, answer, after =>
      answer = none ∧ after = disk ∨ answer = disk.queue ∧ after = disk.noteRead party
  -- a rename that went through may still be reported as failed
  | .renameQueue queue, answer, after =>
      answer = false ∧ after = disk ∨ after = disk.install party queue

inductive Opens {α : Type} (party : ℕ) (disk : Disk) : Locking α → Disk → Prop
  | withLock (retries : ℕ) (fn : Change α) (fallback : α) :
      Opens party disk (withLock retries fn fallback)
        (disk.begin party fun queue => (fn queue).map Prod.fst)

abbrev QueueStep (α : Type) :
    Assembly ℕ Disk Request Answer α → ℕ → Assembly ℕ Disk Request Answer α → Prop :=
  Assembly.Step reacts Opens

end AshlrHub.QueueLock

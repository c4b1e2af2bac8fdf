import AshlrHub.Records.Content

namespace AshlrHub.Records

open Js Lib

/-! The writers' programs follow the store as they mean it. -/

variable {R : Type} {config : Config} {codec : Codec R} {record : R} {paths : RecordPaths}
  {store : Store R} {shape : Shape R}

/-! What the file operations do where they find their files. -/

theorem existsSync_apply (path : Path) :
    existsSync path store = .done store (store.lookup path).isSome := rfl

theorem readRecordFile_apply (path : Path) (expectedLinks : ℕ) :
    readRecordFile config codec path expectedLinks store =
      .done store (store.readRecord config codec path expectedLinks) := rfl

variable {ino : ℕ}

theorem lstatSync_apply {path : Path} (found : store.lookup path = some ino) :
    lstatSync path store = .done store (store.stat ino) := by
  simp [lstatSync, found]

theorem removeExactFile_apply {path : Path} {ino : ℕ} {identity : Stat}
    (found : store.lookup path = some ino) (same : identity.ino = ino)
    (links : (store.inode ino).nlink = 1 ∨ (store.inode ino).nlink = 2) :
    removeExactFile path identity store =
      (Course.done (store.remove path) true).after (store.remove path) := by
  have exact : ¬ ((store.stat ino).ino ≠ identity.ino ||
      ((store.stat ino).nlink ≠ 1 && (store.stat ino).nlink ≠ 2) : Bool) = true := by
    rw [same]
    rcases links with one | two
    · simp [Store.stat, one]
    · simp [Store.stat, two]
  simp only [removeExactFile, Program.attempt_apply, Program.bind_apply, lstatSync_apply found,
    Course.done_andThen, if_neg exact, unlinkSync, Program.look_apply, found, Program.step_apply,
    Course.after_andThen, Program.pure_apply, Course.after_orElse, Course.done_orElse]

theorem renameSync_apply {source target : JsString} {event : Event R}
    (found : store.staging.get? source = some ino) :
    renameSync source target event store =
      (Course.done ((store.move source target ino).note event) ()).after
        ((store.move source target ino).note event) := by
  simp [renameSync, found]

theorem linkSync_apply {source target : JsString} {event : Event R} {ino : ℕ}
    (found : store.staging.get? source = some ino) (short : nameTooLong target = false)
    (free : store.records target = none) :
    linkSync source target event store =
      (Course.done ((store.link ino target).note event) LinkOutcome.linked).after
        ((store.link ino target).note event) := by
  simp [linkSync, found, short, free]

theorem linkSync_long {source target : JsString} {event : Event R} {ino : ℕ}
    (found : store.staging.get? source = some ino) (long : nameTooLong target = true) :
    linkSync source target event store = .done store LinkOutcome.error := by
  simp [linkSync, found, long]

/-! The files of a shape. -/

def Residue.links (codec : Codec R) (residue : Residue R) (name : JsString) : ℕ :=
  match residue with
  | .linked record => if codec.target record = name then 2 else 1
  | _ => 1

structure Shown (config : Config) (codec : Codec R) (store : Store R) (residue : Residue R)
    (name : JsString) (record : R) (ino : ℕ) : Prop where
  entry : store.records name = some ino
  old : ino < store.fresh
  file : store.inode ino = ⟨codec.bytes record, residue.links codec name⟩
  writable : ∃ paths, Writable config codec record paths
  target : codec.target record = name

/-- A file of `staging/` that nothing in `records/` shares. -/
structure Unshared (store : Store R) (entry : JsString) (ino : ℕ) (bytes : Bytes) : Prop where
  entry : store.staging = [(entry, ino)]
  old : ino < store.fresh
  file : store.inode ino = ⟨bytes, 1⟩
  alone : ∀ name, store.records name ≠ some ino

structure Linked (config : Config) (codec : Codec R) (store : Store R) (record : R)
    (paths : RecordPaths) (ino : ℕ) : Prop where
  writable : Writable config codec record paths
  entry : store.staging = [(paths.stage, ino)]
  shown : Shown config codec store (.linked record) (codec.target record) record ino

/-- The residue that `staging/` holds. -/
inductive Left (config : Config) (codec : Codec R) (store : Store R) : Residue R → Prop
  | clean : store.staging = [] → Left config codec store .clean
  | writing {record : R} {written : Bytes} {paths : RecordPaths} {ino : ℕ} :
      Writable config codec record paths → nameTooLong paths.temporary = false →
      written <+: codec.bytes record → Unshared store paths.temporary ino written →
      store.records (codec.target record) = none → Left config codec store (.writing record written)
  | staged {record : R} {paths : RecordPaths} {ino : ℕ} :
      Writable config codec record paths →
      Unshared store paths.stage ino (codec.bytes record) →
      store.records (codec.target record) = none → Left config codec store (.staged record)
  | linked {record : R} {paths : RecordPaths} {ino : ℕ} :
      Linked config codec store record paths ino → Left config codec store (.linked record)

structure Holds (config : Config) (codec : Codec R) (store : Store R) (shape : Shape R) :
    Prop where
  history : store.history = shape.history
  absent : ∀ name, shape.visible name = none → store.records name = none
  present : ∀ name record, shape.visible name = some record →
    ∃ ino, Shown config codec store shape.residue name record ino
  distinct : ∀ name other ino, store.records name = some ino → store.records other = some ino →
    name = other
  left : Left config codec store shape.residue

variable {name : JsString}

theorem Holds.visible_none (holds : Holds config codec store shape)
    (none : store.records name = none) : shape.visible name = Option.none := by
  cases seen : shape.visible name with
  | none => rfl
  | some record =>
      obtain ⟨ino, shown⟩ := holds.present name record seen
      rw [shown.entry] at none
      cases none

theorem holds_empty : Holds config codec Store.empty (Shape.empty : Shape R) where
  history := rfl
  absent _ _ := rfl
  present _ _ seen := by cases seen
  distinct _ _ _ seen := by cases seen
  left := .clean rfl

/-! One step of a writer, on the files and on the shape. -/

theorem Shown.kept {other : Store R} {residue after : Residue R}
    (shown : Shown config codec store residue name record ino)
    (entry : other.records name = store.records name) (old : store.fresh ≤ other.fresh)
    (file : other.inode ino = store.inode ino)
    (links : after.links codec name = residue.links codec name) :
    Shown config codec other after name record ino where
  entry := entry.trans shown.entry
  old := Nat.lt_of_lt_of_le shown.old old
  file := by rw [file, shown.file, links]
  writable := shown.writable
  target := shown.target

theorem Left.noted {residue : Residue R} (left : Left config codec store residue)
    (event : Event R) : Left config codec (store.note event) residue := by
  cases left with
  | clean empty => exact .clean empty
  | writing writable short begun unshared free =>
      exact .writing writable short begun ⟨unshared.entry, unshared.old, unshared.file,
        unshared.alone⟩ free
  | staged writable unshared free =>
      exact .staged writable ⟨unshared.entry, unshared.old, unshared.file, unshared.alone⟩ free
  | linked linked =>
      exact .linked ⟨linked.writable, linked.entry, linked.shown.kept rfl (Nat.le_refl _) rfl rfl⟩

theorem Holds.noted (holds : Holds config codec store shape) (event : Event R) :
    Holds config codec (store.note event) (shape.note event) where
  history := congrArg (event :: ·) holds.history
  absent := holds.absent
  present name record seen := by
    obtain ⟨ino, shown⟩ := holds.present name record seen
    exact ⟨ino, shown.kept rfl (Nat.le_refl _) rfl rfl⟩
  distinct := holds.distinct
  left := holds.left.noted event

/-- What stays of a shape when the files of `staging/` change and nothing visible does. -/
theorem Holds.restage (holds : Holds config codec store shape) {other : Store R}
    {residue : Residue R} (records : other.records = store.records)
    (history : other.history = store.history) (old : store.fresh ≤ other.fresh)
    (files : ∀ name ino, store.records name = some ino → other.inode ino = store.inode ino)
    (links : ∀ name, residue.links codec name = shape.residue.links codec name)
    (left : Left config codec other residue) :
    Holds config codec other (shape.become residue) where
  history := history.trans holds.history
  absent name unseen := by
    rw [records]
    exact holds.absent name unseen
  present name record seen := by
    obtain ⟨ino, shown⟩ := holds.present name record seen
    exact ⟨ino, shown.kept (congrFun records name) old (files name ino shown.entry) (links name)⟩
  distinct := by
    rw [records]
    exact holds.distinct
  left := left

variable {bytes : Bytes}

theorem Unshared.lookup {entry : JsString}
    (unshared : Unshared store entry ino bytes) : store.lookup (.staging entry) = some ino := by
  rw [Store.lookup, unshared.entry, JsMap.get?_cons, if_pos rfl]

theorem Unshared.other {entry name : JsString}
    (unshared : Unshared store entry ino bytes) (differ : entry ≠ name) :
    store.lookup (.staging name) = none := by
  rw [Store.lookup, unshared.entry, JsMap.get?_cons, if_neg differ, JsMap.get?_nil]

theorem Unshared.files {entry : JsString}
    (unshared : Unshared store entry ino bytes) (file : Inode) {other : ℕ}
    (seen : store.records name = some other) :
    Function.update store.inode ino file other = store.inode other := by
  apply Function.update_of_ne
  rintro rfl
  exact unshared.alone name seen

theorem Holds.removed (holds : Holds config codec store shape) {entry : JsString} {ino : ℕ}
    {bytes : Bytes} (unshared : Unshared store entry ino bytes)
    (links : ∀ name, shape.residue.links codec name = 1) :
    Holds config codec (store.remove (.staging entry)) (shape.become .clean) := by
  have removed : store.remove (.staging entry) =
      { store.setLinks ino ((store.inode ino).nlink - 1) with
        staging := store.staging.delete entry } := by
    rw [Store.remove, unshared.lookup]
  rw [removed]
  refine holds.restage rfl rfl (Nat.le_refl _) (fun name other seen => unshared.files _ seen)
    (fun name => (links name).symm) (.clean ?_)
  change store.staging.delete entry = []
  rw [unshared.entry]
  simp [JsMap.delete]

theorem Unshared.move {source target : JsString}
    (unshared : Unshared store source ino bytes) (differ : source ≠ target) :
    store.move source target ino = { store with staging := [(target, ino)] } := by
  rw [Store.move, Store.remove, unshared.other differ]
  dsimp only
  rw [unshared.entry]
  simp [JsMap.delete, JsMap.set]

theorem Unshared.moved {source target : JsString} {ino : ℕ} {bytes : Bytes} {event : Event R}
    (unshared : Unshared store source ino bytes) (differ : source ≠ target) :
    Unshared ((store.move source target ino).note event) target ino bytes := by
  rw [unshared.move differ]
  exact ⟨rfl, unshared.old, unshared.file, unshared.alone⟩

theorem Holds.moved (holds : Holds config codec store shape)
    (writable : Writable config codec record paths) {ino : ℕ}
    (unshared : Unshared store paths.temporary ino (codec.bytes record))
    (free : store.records (codec.target record) = none)
    (links : ∀ name, shape.residue.links codec name = 1) :
    Holds config codec ((store.move paths.temporary paths.stage ino).note (.staged record))
      (shape.stage record) := by
  have differ := temporary_ne_stage writable.named
  rw [unshared.move differ]
  refine @Holds.noted R config codec _ (shape.become (.staged record)) ?_ (.staged record)
  exact holds.restage rfl rfl (Nat.le_refl _) (fun _ _ _ => rfl) (fun name => (links name).symm)
    (.staged writable ⟨rfl, unshared.old, unshared.file, unshared.alone⟩ free)

theorem Holds.empty (holds : Holds config codec store shape) (clean : shape.residue = .clean) :
    store.staging = [] := by
  have left := holds.left
  rw [clean] at left
  cases left
  assumption

theorem Holds.created (holds : Holds config codec store shape)
    (clean : shape.residue = .clean) (writable : Writable config codec record paths)
    (short : nameTooLong paths.temporary = false)
    (free : store.records (codec.target record) = none) :
    Unshared (store.create paths.temporary) paths.temporary store.fresh [] ∧
      Holds config codec (store.create paths.temporary) (shape.become (.writing record [])) := by
  have empty := holds.empty clean
  have older {name : JsString} {ino : ℕ} (seen : store.records name = some ino) :
      ino ≠ store.fresh := by
    cases visible : shape.visible name with
    | none =>
        rw [holds.absent name visible] at seen
        cases seen
    | some other =>
        obtain ⟨known, shown⟩ := holds.present name other visible
        rw [shown.entry] at seen
        cases seen
        exact Nat.ne_of_lt shown.old
  have unshared : Unshared (store.create paths.temporary) paths.temporary store.fresh [] :=
    ⟨by simp [Store.create, empty, JsMap.set], Nat.lt_succ_self _, Function.update_self ..,
      fun name seen => older seen rfl⟩
  refine ⟨unshared, holds.restage rfl rfl (Nat.le_succ _) ?_ ?_ ?_⟩
  · intro name ino seen
    exact Function.update_of_ne (older seen) _ _
  · intro name
    rw [clean]
    rfl
  · exact .writing writable short (List.nil_prefix) unshared free

theorem Holds.appended (holds : Holds config codec store shape)
    (writable : Writable config codec record paths) (short : nameTooLong paths.temporary = false)
    {written : Bytes} {byte : UInt8}
    (unshared : Unshared store paths.temporary ino written)
    (begun : written ++ [byte] <+: codec.bytes record)
    (free : store.records (codec.target record) = none)
    (links : ∀ name, shape.residue.links codec name = 1) :
    Unshared (store.append ino byte) paths.temporary ino (written ++ [byte]) ∧
      Holds config codec (store.append ino byte)
        (shape.become (.writing record (written ++ [byte]))) := by
  have grown : Unshared (store.append ino byte) paths.temporary ino (written ++ [byte]) := by
    refine ⟨unshared.entry, unshared.old, ?_, unshared.alone⟩
    change Function.update _ _ _ _ = _
    rw [Function.update_self, unshared.file]
  exact ⟨grown, holds.restage rfl rfl (Nat.le_refl _)
    (fun name other seen => unshared.files _ seen) (fun name => (links name).symm)
    (.writing writable short begun grown free)⟩

theorem Unshared.revealed (writable : Writable config codec record paths)
    (unshared : Unshared store paths.stage ino (codec.bytes record)) :
    Linked config codec ((store.link ino (codec.target record)).note (.visible record)) record
      paths ino := by
  refine ⟨writable, unshared.entry, ?_, unshared.old, ?_, ⟨paths, writable⟩, rfl⟩
  · exact Function.update_self ..
  · change Function.update _ _ _ _ = _
    rw [Function.update_self, unshared.file, Residue.links, if_pos rfl]

theorem Holds.revealed (holds : Holds config codec store shape)
    (writable : Writable config codec record paths)
    (unshared : Unshared store paths.stage ino (codec.bytes record))
    (links : ∀ name, shape.residue.links codec name = 1) :
    Holds config codec ((store.link ino (codec.target record)).note (.visible record))
      (shape.reveal codec record) := by
  have entry (name : JsString) : (store.link ino (codec.target record)).records name =
      if name = codec.target record then some ino else store.records name := by
    change Function.update _ _ _ _ = _
    rw [Function.update_apply]
  have visible (name : JsString) : (shape.reveal codec record).visible name =
      if name = codec.target record then some record else shape.visible name := by
    change Function.update _ _ _ _ = _
    rw [Function.update_apply]
  have linked := unshared.revealed writable
  refine ⟨congrArg (Event.visible record :: ·) holds.history, ?_, ?_, ?_, .linked linked⟩
  · intro name unseen
    rw [visible] at unseen
    split_ifs at unseen with same
    exact (entry name).trans ((if_neg same).trans (holds.absent name unseen))
  · intro name other seen
    rw [visible] at seen
    split_ifs at seen with same
    · cases seen
      exact ⟨ino, same ▸ linked.shown⟩
    · obtain ⟨known, old⟩ := holds.present name other seen
      refine ⟨known, old.kept ((entry name).trans (if_neg same)) (Nat.le_refl _)
        (unshared.files _ old.entry) ?_⟩
      rw [links]
      exact if_neg (Ne.symm same)
  · intro name other known first second
    change (store.link ino (codec.target record)).records _ = _ at first second
    rw [entry] at first second
    split_ifs at first second with same also also
    · rw [same, also]
    · cases first
      exact absurd second (unshared.alone other)
    · cases second
      exact absurd first (unshared.alone name)
    · exact holds.distinct name other known first second

namespace Linked

variable {ino : ℕ} (linked : Linked config codec store record paths ino)

include linked

theorem lookup : store.lookup (.staging paths.stage) = some ino := by
  rw [Store.lookup, linked.entry, JsMap.get?_cons, if_pos rfl]

theorem file : store.inode ino = ⟨codec.bytes record, 2⟩ := by
  rw [linked.shown.file, Residue.links, if_pos rfl]

theorem target : store.records paths.target = some ino := by
  rw [(recordPaths_some linked.writable.named).1, linked.shown.entry]

theorem remove : store.remove (.staging paths.stage) =
    { store.setLinks ino 1 with staging := [] } := by
  rw [Store.remove, linked.lookup]
  dsimp only
  rw [linked.file, linked.entry]
  simp [JsMap.delete]

end Linked

variable {ino : ℕ}

theorem Holds.finished (holds : Holds config codec store shape)
    (linked : Linked config codec store record paths ino)
    (residue : shape.residue = .linked record) :
    Holds config codec (store.remove (.staging paths.stage)) (shape.become .clean) := by
  rw [linked.remove]
  refine ⟨holds.history, holds.absent, ?_, holds.distinct, .clean rfl⟩
  intro name other seen
  obtain ⟨known, shown⟩ := holds.present name other seen
  rw [residue] at shown
  refine ⟨known, shown.entry, shown.old, ?_, shown.writable, shown.target⟩
  change Function.update store.inode ino ⟨(store.inode ino).bytes, 1⟩ known = _
  by_cases same : known = ino
  · subst same
    rw [Function.update_self, shown.file]
    rfl
  · rw [Function.update_of_ne same, shown.file]
    have differ : codec.target record ≠ name := by
      rintro rfl
      have entry := linked.shown.entry
      rw [shown.entry] at entry
      exact same (Option.some.inj entry)
    rw [Residue.links, if_neg differ]
    rfl

theorem Shown.read {residue : Residue R} {name : JsString} {ino : ℕ}
    (shown : Shown config codec store residue name record ino) (canonical : codec.Canonical) :
    store.readRecord config codec (.records name) (residue.links codec name) = some record := by
  obtain ⟨paths, writable⟩ := shown.writable
  rw [Store.readRecord, Store.lookup, shown.entry]
  dsimp only
  rw [shown.file, if_neg (not_not.mpr rfl)]
  exact recordOfBytes_bytes writable canonical

theorem Holds.read (holds : Holds config codec store shape) (canonical : codec.Canonical)
    {name : JsString} (seen : shape.visible name = some record)
    (links : shape.residue.links codec name = 1) :
    store.readRecord config codec (.records name) 1 = some record := by
  obtain ⟨ino, shown⟩ := holds.present name record seen
  have read := shown.read canonical
  rwa [links] at read

theorem Holds.seen (holds : Holds config codec store shape) (canonical : codec.Canonical)
    {residue : Residue R} {name : JsString} {ino : ℕ}
    (shown : Shown config codec store residue name record ino) :
    shape.visible name = some record := by
  cases visible : shape.visible name with
  | none =>
      have entry := shown.entry
      rw [holds.absent name visible] at entry
      cases entry
  | some other =>
      obtain ⟨known, old⟩ := holds.present name other visible
      have entry := shown.entry
      rw [old.entry] at entry
      cases entry
      obtain ⟨paths, writable⟩ := shown.writable
      obtain ⟨otherPaths, otherWritable⟩ := old.writable
      have bytes : codec.bytes other = codec.bytes record := by
        have same := old.file.symm.trans shown.file
        exact congrArg Inode.bytes same
      have read := recordOfBytes_bytes otherWritable canonical
      rwa [bytes, recordOfBytes_bytes writable canonical, eq_comm] at read

theorem Unshared.read {entry : JsString} {ino : ℕ} {bytes : Bytes}
    (unshared : Unshared store entry ino bytes) :
    store.readRecord config codec (.staging entry) 1 = recordOfBytes config codec bytes := by
  rw [Store.readRecord, unshared.lookup]
  dsimp only
  rw [unshared.file, if_neg (not_not.mpr rfl)]

theorem Linked.read {ino : ℕ} (linked : Linked config codec store record paths ino)
    (canonical : codec.Canonical) :
    store.readRecord config codec (.staging paths.stage) 2 = some record := by
  rw [Store.readRecord, linked.lookup]
  dsimp only
  rw [linked.file, if_neg (not_not.mpr rfl)]
  exact recordOfBytes_bytes linked.writable canonical

/-! Recovery. -/

section

variable (canonical : codec.Canonical) (holds : Holds config codec store shape)
include canonical holds

section

variable (linked : Linked config codec store record paths ino)
  (residue : shape.residue = .linked record)
include linked residue

theorem finalizeStage_apply {stagedIdentity : Stat}
    (identity : stagedIdentity.ino = ino)
    (reflexive : recordsEquivalent codec record record = true) :
    finalizeStage config codec record paths stagedIdentity store =
      (Course.done (store.remove (.staging paths.stage)) Recovery.recovered).after
        (store.remove (.staging paths.stage)) := by
  have stage := lstatSync_apply linked.lookup
  have target := lstatSync_apply (show store.lookup (.records paths.target) = some ino from
    linked.target)
  have exact : ¬ ((store.stat ino).nlink ≠ 2 || (store.stat ino).nlink ≠ 2 ||
      (store.stat ino).ino ≠ stagedIdentity.ino || (store.stat ino).ino ≠ (store.stat ino).ino :
        Bool) = true := by
    simp [Store.stat, linked.file, identity]
  have links : (store.inode ino).nlink = 2 := by rw [linked.file]
  have removed := @removeExactFile_apply R store _ ino (store.stat ino) linked.lookup rfl
    (.inr links)
  have seen : shape.visible paths.target = some record := by
    rw [(recordPaths_some linked.writable.named).1]
    exact holds.seen canonical linked.shown
  have read := (holds.finished linked residue).read canonical
    (show (shape.become .clean).visible paths.target = some record from seen) rfl
  simp only [finalizeStage, Program.bind_apply, stage, target, Course.done_andThen, if_neg exact,
    removed, Course.after_andThen, Bool.not_true, Bool.false_eq_true, if_false,
    readRecordFile_apply, read, reflexive, if_true, Program.pure_apply]

theorem recoverStage_linked :
    recoverStage config codec record paths store =
      if recordsEquivalent codec record record then
        (Course.done (store.remove (.staging paths.stage)) Recovery.recovered).after
          (store.remove (.staging paths.stage))
      else .done store .conflicted := by
  have targetEntry : store.lookup (.records paths.target) = some ino := linked.target
  have exact : ¬ ((store.stat ino).nlink ≠ 2 || (store.stat ino).nlink ≠ 2 ||
      (store.stat ino).ino ≠ (store.stat ino).ino : Bool) = true := by
    simp [Store.stat, linked.file]
  simp only [recoverStage, Program.bind_apply, existsSync_apply, linked.lookup, targetEntry,
    Option.isSome_some, Bool.not_true, Bool.false_eq_true, if_false, if_true, Course.done_andThen,
    lstatSync_apply linked.lookup, lstatSync_apply targetEntry, if_neg exact, readRecordFile_apply,
    linked.read canonical]
  cases reflexive : recordsEquivalent codec record record with
  | false => simp
  | true =>
      simp only [Bool.not_true, Bool.false_eq_true, if_false, if_true]
      exact finalizeStage_apply canonical holds linked residue rfl reflexive

end

theorem recoverStage_staged (writable : Writable config codec record paths)
    (unshared : Unshared store paths.stage ino (codec.bytes record))
    (free : store.records (codec.target record) = none)
    (links : ∀ name, shape.residue.links codec name = 1) :
    recoverStage config codec record paths store =
      if recordsEquivalent codec record record then
        if nameTooLong (codec.target record) then .thrown store
        else
          let visible := (store.link ino (codec.target record)).note (.visible record)
          ((Course.done (visible.remove (.staging paths.stage)) Recovery.recovered).after
            (visible.remove (.staging paths.stage))).after visible
      else .done store .conflicted := by
  have target : paths.target = codec.target record := (recordPaths_some writable.named).1
  have noTarget : store.lookup (.records paths.target) = none := by rw [target]; exact free
  have single : (store.stat ino).nlink = 1 := by rw [Store.stat, unshared.file]
  have entry : store.staging.get? paths.stage = some ino := unshared.lookup
  simp only [recoverStage, Program.bind_apply, existsSync_apply, unshared.lookup, noTarget,
    Option.isSome_some, Option.isSome_none, Bool.not_true, Bool.false_eq_true, if_false,
    Course.done_andThen, lstatSync_apply unshared.lookup, single, ne_eq, not_true_eq_false,
    readRecordFile_apply, unshared.read, recordOfBytes_bytes writable canonical]
  cases reflexive : recordsEquivalent codec record record with
  | false => simp
  | true =>
      simp only [Bool.not_true, Bool.false_eq_true, if_false, if_true, Program.bind_apply]
      cases long : nameTooLong (codec.target record) with
      | true =>
          rw [linkSync_long entry (by rwa [target])]
          simp
      | false =>
          rw [linkSync_apply entry (by rwa [target]) (by rwa [target])]
          simp only [Course.after_andThen, Course.done_andThen, Bool.false_eq_true, if_false]
          rw [target]
          have revealed := holds.revealed writable unshared links
          rw [finalizeStage_apply canonical revealed (unshared.revealed writable) rfl rfl reflexive]

end

section

variable (absent : store.lookup (.staging paths.temporary) = none)
include absent

theorem recoverTemporary_none :
    recoverTemporary config codec record paths store = .done store none := by
  simp [recoverTemporary, existsSync_apply, absent]

theorem recoverInterruptedPublication_none :
    recoverInterruptedPublication config codec record paths store =
      (recoverStage config codec record paths store).orElse .failed := by
  simp [recoverInterruptedPublication, recoverTemporary_none absent]

end

theorem recoverInterruptedPublication_written (canonical : codec.Canonical)
    (writable : Writable config codec record paths)
    (unshared : Unshared store paths.temporary ino (codec.bytes record)) :
    recoverInterruptedPublication config codec record paths store =
      if recordsEquivalent codec record record then
        let staged := (store.move paths.temporary paths.stage ino).note (.staged record)
        ((recoverStage config codec record paths staged).orElse .failed).after staged
      else .done store .conflicted := by
  have differ := temporary_ne_stage writable.named
  have single : (store.stat ino).nlink = 1 := by rw [Store.stat, unshared.file]
  have entry : store.staging.get? paths.temporary = some ino := unshared.lookup
  have moved := @Unshared.moved R store paths.temporary paths.stage ino (codec.bytes record)
    (.staged record) unshared differ
  cases reflexive : recordsEquivalent codec record record with
  | false =>
      simp [recoverInterruptedPublication, recoverTemporary, existsSync_apply, unshared.lookup,
        unshared.other differ, lstatSync_apply unshared.lookup, single, readRecordFile_apply,
        unshared.read, recordOfBytes_bytes writable canonical, reflexive]
  | true =>
      have same : ¬ (((((store.move paths.temporary paths.stage ino).note (.staged record)).stat
          ino).nlink ≠ 1 || (((store.move paths.temporary paths.stage ino).note
            (.staged record)).stat ino).ino ≠ (store.stat ino).ino : Bool)) = true := by
        simp [Store.stat, moved.file]
      simp only [recoverInterruptedPublication, recoverTemporary, Program.attempt_apply,
        Program.bind_apply, existsSync_apply, unshared.lookup, unshared.other differ,
        Option.isSome_some, Option.isSome_none, Bool.not_true, Bool.false_eq_true, if_false,
        Course.done_andThen, lstatSync_apply unshared.lookup, single, ne_eq, not_true_eq_false,
        readRecordFile_apply, unshared.read, recordOfBytes_bytes writable canonical, reflexive,
        renameSync_apply entry, Course.after_andThen, lstatSync_apply moved.lookup, if_neg same,
        Program.pure_apply, Course.after_orElse, if_true]

/-! The namespace. -/

def recoveredEntry (codec : Codec R) (record : R) : Recovery → Program (Store R) (Recovered R)
  | .recovered => pure (some [(codec.recordId record, record)])
  | .none => pure (some [])
  | .conflicted | .failed => pure none

def recoverEntry (config : Config) (codec : Codec R) (record : R) (paths : RecordPaths) :
    Program (Store R) (Recovered R) := do
  recoveredEntry codec record (← recoverInterruptedPublication config codec record paths)

theorem recoverStagingNamespace_clean (empty : store.staging = []) :
    recoverStagingNamespace config codec store = .done store (some []) := by
  simp [recoverStagingNamespace, empty, JsMap.keys, recoverEntries]

theorem recoverStagingNamespace_single {entry : JsString}
    (single : store.staging = [(entry, ino)]) :
    recoverStagingNamespace config codec store =
      (recoverEntries config codec [] [entry] store).orElse none := by
  have few : ¬ config.hardMaxFiles + 1 < 1 := by omega
  simp [recoverStagingNamespace, single, JsMap.keys, few]

theorem recoverEntries_stage (writable : Writable config codec record paths)
    (found : store.lookup (.staging paths.stage) = some ino)
    (links : (store.inode ino).nlink = 1 ∨ (store.inode ino).nlink = 2)
    (read : store.readRecord config codec (.staging paths.stage) (store.inode ino).nlink =
      some record) :
    recoverEntries config codec [] [paths.stage] store =
      recoverEntry config codec record paths store := by
  obtain ⟨suffix, notTemporary⟩ := stage_suffix writable.named
  have safe := (recordPaths_some writable.named).2.2.1
  have count : ¬ ((store.stat ino).nlink ≠ 1 && (store.stat ino).nlink ≠ 2 : Bool) = true := by
    rcases links with one | two
    · simp [Store.stat, one]
    · simp [Store.stat, two]
  have readHere : store.readRecord config codec (.staging paths.stage) (store.stat ino).nlink =
      some record := read
  simp only [recoverEntries, suffix, notTemporary, safe, stage_head writable.named, Bool.not_true,
    Bool.not_false, Bool.and_true, Bool.true_and, Bool.or_self, ne_eq, not_true_eq_false,
    decide_false, Bool.false_eq_true, if_false, Program.bind_apply, lstatSync_apply found,
    Course.done_andThen, if_neg count, readRecordFile_apply, readHere, writable.named]
  refine congrArg (Course.andThen _) (funext fun recovery => ?_)
  cases recovery <;> rfl

theorem recoverEntries_temporary {written : Bytes}
    (writable : Writable config codec record paths)
    (short : nameTooLong paths.temporary = false)
    (unshared : Unshared store paths.temporary ino written)
    (read : recordOfBytes config codec written = none ∨
      recordOfBytes config codec written = some record) :
    recoverEntries config codec [] [paths.temporary] store =
      if recordOfBytes config codec written = none then
        (Course.done (store.remove (.staging paths.temporary)) (some [])).after
          (store.remove (.staging paths.temporary))
      else recoverEntry config codec record paths store := by
  have suffix := temporary_suffix writable.named
  have safe := temporary_safe writable.named short
  have one : (store.stat ino).nlink = 1 := by rw [Store.stat, unshared.file]
  have links : (store.inode ino).nlink = 1 := by rw [unshared.file]
  rcases read with unread | read
  · have removed := @removeExactFile_apply R store _ ino (store.stat ino) unshared.lookup rfl
      (.inl links)
    simp only [recoverEntries, suffix, safe, temporary_head writable.named, Bool.not_true,
      Bool.false_and, Bool.or_self, ne_eq, not_true_eq_false, decide_false, Bool.false_eq_true,
      if_false, Program.bind_apply, lstatSync_apply unshared.lookup, Course.done_andThen,
      readRecordFile_apply, one, unshared.read, unread, removed, Course.after_andThen, if_true]
    rfl
  · simp only [recoverEntries, suffix, safe, temporary_head writable.named, Bool.not_true,
      Bool.false_and, Bool.or_self, ne_eq, not_true_eq_false, decide_false, Bool.false_eq_true,
      if_false, Program.bind_apply, lstatSync_apply unshared.lookup, Course.done_andThen,
      readRecordFile_apply, one, unshared.read, read, writable.named, if_true, reduceCtorEq]
    refine congrArg (Course.andThen _) (funext fun recovery => ?_)
    cases recovery <;> rfl

section

variable (canonical : codec.Canonical) (holds : Holds config codec store shape)
include canonical holds

theorem recoverStaged_follows (writable : Writable config codec record paths)
    (unshared : Unshared store paths.stage ino (codec.bytes record))
    (free : store.records (codec.target record) = none)
    (links : ∀ name, shape.residue.links codec name = 1) :
    Course.Follows (Holds config codec)
      (((recoverStage config codec record paths store).orElse .failed).andThen
        (recoveredEntry codec record))
      (if recordsEquivalent codec record record then Shape.publishStaged codec record shape
      else .done shape none) := by
  rw [recoverStage_staged canonical holds writable unshared free links]
  split_ifs with reflexive long
  · simp only [Course.thrown_orElse, Course.done_andThen, Shape.publishStaged, if_pos long]
    exact .done holds
  · have revealed := holds.revealed writable unshared links
    have finished := revealed.finished (unshared.revealed writable) rfl
    simp only [Course.after_orElse, Course.done_orElse, Course.after_andThen, Course.done_andThen,
      Shape.publishStaged, if_neg long, Program.bind_apply, Program.step_apply]
    exact .after revealed (.after finished (.done finished))
  · exact .done holds

theorem recoverStagingNamespace_follows :
    Course.Follows (Holds config codec) (recoverStagingNamespace config codec store)
      (Shape.settle codec shape) := by
  have left := holds.left
  cases residue : shape.residue with
  | clean =>
      rw [residue] at left
      cases left with
      | clean empty =>
          rw [recoverStagingNamespace_clean empty, Shape.settle_clean residue]
          exact .done holds
  | writing record written =>
      have links (name : JsString) : shape.residue.links codec name = 1 := by rw [residue]; rfl
      rw [residue] at left
      cases left with
      | @writing _ _ paths ino writable short begun unshared free =>
          rw [recoverStagingNamespace_single unshared.entry]
          refine Course.Follows.orElse ?_ (Shape.settle_isSome codec shape)
          by_cases whole : written = codec.bytes record
          · subst whole
            have read := recordOfBytes_bytes writable canonical
            rw [recoverEntries_temporary writable short unshared (.inr read), read,
              if_neg (by simp), recoverEntry, Program.bind_apply,
              recoverInterruptedPublication_written canonical writable unshared,
              Shape.settle_writing residue, if_neg (not_not.mpr rfl)]
            split_ifs with reflexive
            · have moved := holds.moved writable unshared free links
              have stage := @Unshared.moved R store paths.temporary paths.stage ino
                (codec.bytes record) (.staged record) unshared (temporary_ne_stage writable.named)
              have still : ((store.move paths.temporary paths.stage ino).note
                  (.staged record)).records (codec.target record) = none := by
                rw [unshared.move (temporary_ne_stage writable.named)]
                exact free
              have follows := recoverStaged_follows canonical moved writable stage still
                (fun _ => rfl)
              rw [if_pos reflexive] at follows
              rw [Course.after_andThen]
              exact .after moved follows
            · exact .done holds
          · have unread := recordOfBytes_partial writable canonical begun whole
            rw [recoverEntries_temporary writable short unshared (.inl unread), if_pos unread,
              Shape.settle_writing residue, if_pos whole]
            have removed := holds.removed unshared links
            exact .after removed (.done removed)
  | staged record =>
      have links (name : JsString) : shape.residue.links codec name = 1 := by rw [residue]; rfl
      rw [residue] at left
      cases left with
      | @staged _ paths ino writable unshared free =>
          have single : (store.inode ino).nlink = 1 := by rw [unshared.file]
          have read : store.readRecord config codec (.staging paths.stage)
              (store.inode ino).nlink = some record := by
            rw [single, unshared.read, recordOfBytes_bytes writable canonical]
          rw [recoverStagingNamespace_single unshared.entry,
            recoverEntries_stage writable unshared.lookup (.inl single) read, recoverEntry,
            Program.bind_apply, recoverInterruptedPublication_none
              (unshared.other (temporary_ne_stage writable.named).symm)]
          refine Course.Follows.orElse ?_ (Shape.settle_isSome codec shape)
          rw [Shape.settle_staged residue]
          exact recoverStaged_follows canonical holds writable unshared free links
  | linked record =>
      rw [residue] at left
      cases left with
      | @linked _ paths ino linked =>
          have double : (store.inode ino).nlink = 2 := by rw [linked.file]
          have read : store.readRecord config codec (.staging paths.stage)
              (store.inode ino).nlink = some record := by
            rw [double, linked.read canonical]
          have differ := temporary_ne_stage linked.writable.named
          have absent : store.lookup (.staging paths.temporary) = none := by
            rw [Store.lookup, linked.entry, JsMap.get?_cons, if_neg differ.symm, JsMap.get?_nil]
          rw [recoverStagingNamespace_single linked.entry,
            recoverEntries_stage linked.writable linked.lookup (.inr double) read, recoverEntry,
            Program.bind_apply, recoverInterruptedPublication_none absent,
            recoverStage_linked canonical holds linked residue]
          refine Course.Follows.orElse ?_ (Shape.settle_isSome codec shape)
          rw [Shape.settle_linked residue]
          split_ifs with reflexive
          · have finished := holds.finished linked residue
            exact .after finished (.done finished)
          · exact .done holds

end

end AshlrHub.Records

import AshlrHub.Records.Run

namespace AshlrHub.Records

open Js Lib

/-! Publication and its authorization, for every codec. -/

variable {R : Type} {config : Config} {codec : Codec R} {record : R} {paths : RecordPaths}
  {store last : Store R}

def Alike (codec : Codec R) (caller record : R) : Prop :=
  record = caller ∨ recordsEquivalent codec record caller = true

/-- Since the last staging a call for such a record had `true` from its check. -/
inductive Authorized (codec : Codec R) (record : R) : List (Event R) → Prop
  | checked {caller : R} {older : List (Event R)} (alike : Alike codec caller record) :
      Authorized codec record (.checked caller :: older)
  | later {event : Event R} {older : List (Event R)} (unstaged : ∀ other, event ≠ .staged other)
      (authorized : Authorized codec record older) : Authorized codec record (event :: older)

def Behind (codec : Codec R) : List (Event R) → Prop
  | [] => True
  | .visible record :: older => Authorized codec record older ∧ Behind codec older
  | .staged _ :: older => Behind codec older
  | .checked _ :: older => Behind codec older

/-- An unlinked file of `staging/` that a recovery would make visible. -/
structure Publishable (config : Config) (codec : Codec R) (store : Store R) (entry : JsString)
    (paths : RecordPaths) (found : R) : Prop where
  read : store.readRecord config codec (.staging entry) 1 = some found
  named : recordPaths codec found = some paths
  reflexive : recordsEquivalent codec found found = true
  short : nameTooLong paths.target = false
  free : store.records paths.target = none

def Committed (config : Config) (codec : Codec R) (store : Store R) (caller : R) : Prop :=
  ∀ entry paths found, Publishable config codec store entry paths found →
    entry ≠ paths.temporary ∧
      (entry = paths.stage → Authorized codec found store.history ∨ Alike codec caller found)

/-- At most one file in `staging/`, and nothing visible without its authorization. -/
structure Orderly (codec : Codec R) (store : Store R) : Prop where
  single : store.staging = [] ∨ ∃ entry ino, store.staging = [(entry, ino)]
  behind : Behind codec store.history

/-! File operations. -/

theorem lstatSync_ensures {α : Type} {path : Path} {each : Store R → Prop}
    {final : α → Store R → Prop} {next : Stat → Program (Store R) α} (meets : each store)
    (rest : ∀ ino, store.lookup path = some ino →
      (next (store.stat ino) store).Ensures each final) :
    ((lstatSync path >>= next) store).Ensures each final := by
  rw [Program.bind_apply]
  cases found : store.lookup path with
  | none =>
      have missing : lstatSync path store = .thrown store := by simp [lstatSync, found]
      rw [missing]
      exact .thrown meets
  | some ino =>
      rw [lstatSync_apply found]
      exact rest ino found

variable {ino : ℕ}

variable {name : JsString}

theorem Orderly.entry (orderly : Orderly codec store)
    (found : store.lookup (.staging name) = some ino) : store.staging = [(name, ino)] := by
  rw [Store.lookup] at found
  rcases orderly.single with empty | ⟨entry, other, single⟩
  · rw [empty] at found
    cases found
  · rw [single, JsMap.get?_cons] at found
    split_ifs at found with same
    · obtain rfl : entry = name := same
      obtain rfl : other = ino := Option.some.inj found
      exact single
    · cases found

theorem Orderly.noted (orderly : Orderly codec store) (record : R) :
    Orderly codec (store.note (.checked record)) :=
  ⟨orderly.single, orderly.behind⟩

theorem Orderly.shown (orderly : Orderly codec store) {ino : ℕ} {target : JsString}
    (authorized : Authorized codec record store.history) :
    Orderly codec ((store.link ino target).note (.visible record)) :=
  ⟨orderly.single, authorized, orderly.behind⟩

theorem Orderly.emptied (orderly : Orderly codec store) (empty : last.staging = [])
    (history : last.history = store.history) : Orderly codec last :=
  ⟨.inl empty, by rw [history]; exact orderly.behind⟩

theorem remove_staging (entry : store.staging = [(name, ino)]) :
    (store.remove (.staging name)).staging = [] ∧
      (store.remove (.staging name)).history = store.history := by
  have found : store.lookup (.staging name) = some ino := by
    rw [Store.lookup, entry, JsMap.get?_cons, if_pos rfl]
  rw [Store.remove, found]
  refine ⟨?_, rfl⟩
  change store.staging.delete name = []
  rw [entry]
  simp [JsMap.delete]

theorem removeExactFile_ensures (orderly : Orderly codec store) (identity : Stat) :
    (removeExactFile (.staging name) identity store).Ensures (Orderly codec)
      fun removed last => removed = true → last.staging = [] := by
  rw [removeExactFile, Program.attempt_apply]
  refine .orElse (lstatSync_ensures orderly fun ino found => ?_) fun _ _ removed => by cases removed
  obtain ⟨empty, history⟩ := remove_staging (orderly.entry found)
  have cleared := orderly.emptied empty history
  split_ifs
  · exact .done orderly fun removed => by cases removed
  · rw [Program.bind_apply, unlinkSync, Program.bind_apply, Program.look_apply,
      Course.done_andThen, found]
    exact .after cleared (.done cleared fun _ => empty)

/-! Recovery. -/

def Finished (recovery : Recovery) (last : Store R) : Prop :=
  recovery ≠ .none ∧ (recovery = .recovered → last.staging = [])

section

variable (orderly : Orderly codec store)
include orderly

theorem Orderly.stops {recovery : Recovery}
    (neither : recovery ≠ .none ∧ recovery ≠ .recovered) :
    (Course.done store recovery).Ensures (Orderly codec) Finished :=
  .done orderly ⟨neither.1, fun recovered => absurd recovered neither.2⟩

theorem finalizeStage_ensures (expected : R)
    (stagedIdentity : Stat) :
    (finalizeStage config codec expected paths stagedIdentity store).Ensures (Orderly codec)
      Finished := by
  refine lstatSync_ensures orderly fun stage _ => lstatSync_ensures orderly fun target _ => ?_
  split_ifs
  · exact orderly.stops (by decide)
  · refine .andThen (removeExactFile_ensures orderly _) fun removed last cleared empty => ?_
    cases removed with
    | false => exact cleared.stops (by decide)
    | true =>
        rw [Bool.not_true, if_neg Bool.false_ne_true, Program.bind_apply, readRecordFile_apply,
          Course.done_andThen]
        cases last.readRecord config codec (.records paths.target) 1 with
        | none => exact cleared.stops (by decide)
        | some recovered =>
            refine .done cleared ⟨?_, fun _ => empty rfl⟩
            split_ifs <;> decide

theorem linkSync_ensures {target : JsString}
    (authorized : store.records target = none → nameTooLong target = false →
      Authorized codec record store.history) :
    (linkSync paths.stage target (.visible record) store).Ensures (Orderly codec)
      fun _ _ => True := by
  rw [linkSync, Program.bind_apply, Program.look_apply, Course.done_andThen]
  cases store.staging.get? paths.stage with
  | none => exact .done orderly trivial
  | some ino =>
      dsimp only
      split_ifs with long
      · exact .done orderly trivial
      · rw [Program.bind_apply, Program.look_apply, Course.done_andThen]
        split_ifs with taken
        · exact .done orderly trivial
        · have free : store.records target = none := by simpa using taken
          have shown := @Orderly.shown R codec record store orderly ino target
            (authorized free (Bool.of_not_eq_true long))
          exact .after shown (.done shown trivial)

theorem recoverStage_ensures (expected : R)
    (entry : store.lookup (.staging paths.stage) = some ino)
    (authorized : ∀ found, store.readRecord config codec (.staging paths.stage) 1 = some found →
      recordsEquivalent codec found expected = true → store.records paths.target = none →
      nameTooLong paths.target = false → Authorized codec found store.history) :
    (recoverStage config codec expected paths store).Ensures (Orderly codec) Finished := by
  rw [recoverStage, Program.bind_apply, existsSync_apply, Course.done_andThen, entry,
    Option.isSome_some, Bool.not_true, if_neg Bool.false_ne_true, Program.bind_apply,
    existsSync_apply, Course.done_andThen]
  split_ifs with taken
  · refine lstatSync_ensures orderly fun stage _ => lstatSync_ensures orderly fun target _ => ?_
    split_ifs
    · exact orderly.stops (by decide)
    · rw [Program.bind_apply, readRecordFile_apply, Course.done_andThen]
      cases store.readRecord config codec (.staging paths.stage) 2 with
      | none => exact orderly.stops (by decide)
      | some found =>
          dsimp only
          split_ifs
          · exact orderly.stops (by decide)
          · exact finalizeStage_ensures orderly expected _
  · refine lstatSync_ensures orderly fun stage _ => ?_
    split_ifs
    · exact orderly.stops (by decide)
    · rw [Program.bind_apply, readRecordFile_apply, Course.done_andThen]
      cases read : store.readRecord config codec (.staging paths.stage) 1 with
      | none => exact orderly.stops (by decide)
      | some found =>
          dsimp only
          split_ifs with equivalent
          · exact orderly.stops (by decide)
          · refine .andThen (linkSync_ensures orderly fun free short =>
              authorized found read (by simpa using equivalent) free short) ?_
            intro outcome linked meets _
            cases outcome with
            | linked => exact finalizeStage_ensures meets expected _
            | exist => exact .thrown meets
            | error => exact .thrown meets

end

def Cleared (config : Config) (codec : Codec R) (store : Store R) : Prop :=
  ∀ entry paths found, Publishable config codec store entry paths found →
    entry ≠ paths.temporary ∧ (entry = paths.stage → Authorized codec found store.history)

theorem Store.readRecord_links {path : Path} {links : ℕ} {found : R}
    (read : store.readRecord config codec path links = some found)
    (entry : store.lookup path = some ino) : (store.inode ino).nlink = links := by
  rw [Store.readRecord, entry] at read
  dsimp only at read
  split_ifs at read with differ
  exact not_not.mp differ

theorem recoverStageEntry_ensures (orderly : Orderly codec store)
    (cleared : Cleared config codec store) (named : recordPaths codec record = some paths)
    (entry : store.lookup (.staging paths.stage) = some ino)
    (read : store.readRecord config codec (.staging paths.stage) (store.inode ino).nlink =
      some record) :
    (recoverInterruptedPublication config codec record paths store).Ensures (Orderly codec)
      Finished := by
  have absent : store.lookup (.staging paths.temporary) = none := by
    rw [Store.lookup, orderly.entry entry, JsMap.get?_cons,
      if_neg (temporary_ne_stage named).symm, JsMap.get?_nil]
  rw [recoverInterruptedPublication_none absent]
  refine .orElse (recoverStage_ensures orderly record entry ?_) fun _ _ =>
    ⟨by decide, fun recovered => by cases recovered⟩
  intro found readAgain equivalent free short
  rw [Store.readRecord_links readAgain entry, readAgain] at read
  obtain rfl := Option.some.inj read
  exact (cleared paths.stage paths found ⟨readAgain, named, equivalent, short, free⟩).2 rfl

theorem move_staging {source target : JsString}
    (entry : store.staging = [(source, ino)]) (differ : source ≠ target) :
    store.move source target ino = { store with staging := [(target, ino)] } := by
  have other : store.lookup (.staging target) = none := by
    rw [Store.lookup, entry, JsMap.get?_cons, if_neg differ, JsMap.get?_nil]
  rw [Store.move, Store.remove, other]
  dsimp only
  rw [entry]
  simp [JsMap.delete, JsMap.set]

section

variable (orderly : Orderly codec store)
include orderly

theorem recoverTemporaryEntry_ensures
    (cleared : Cleared config codec store) (named : recordPaths codec record = some paths)
    (entry : store.lookup (.staging paths.temporary) = some ino)
    (read : store.readRecord config codec (.staging paths.temporary) (store.inode ino).nlink =
      some record) :
    (recoverInterruptedPublication config codec record paths store).Ensures (Orderly codec)
      Finished := by
  have differ := temporary_ne_stage named
  have single := orderly.entry entry
  have absent : store.lookup (.staging paths.stage) = none := by
    rw [Store.lookup, single, JsMap.get?_cons, if_neg differ, JsMap.get?_nil]
  rw [recoverInterruptedPublication, Program.attempt_apply]
  have failing (last : Store R) (_ : Orderly codec last) : Finished .failed last :=
    ⟨by decide, fun recovered => by cases recovered⟩
  refine .orElse ?_ failing
  rw [recoverTemporary, Program.bind_apply, Program.bind_apply, existsSync_apply, entry,
    Course.done_andThen, Option.isSome_some, Bool.not_true, if_neg Bool.false_ne_true,
    Program.bind_apply, existsSync_apply, absent, Course.done_andThen, Option.isSome_none,
    if_neg Bool.false_ne_true, Program.bind_apply, lstatSync_apply entry, Course.done_andThen]
  split_ifs with links
  · exact orderly.stops (by decide)
  · have one : (store.inode ino).nlink = 1 := not_not.mp links
    rw [one] at read
    rw [Program.bind_apply, readRecordFile_apply, read, Course.done_andThen]
    dsimp only
    split_ifs with equivalent
    · exact orderly.stops (by decide)
    · have source : store.staging.get? paths.temporary = some ino := entry
      have moved := move_staging single differ
      have staged : Orderly codec
          ((store.move paths.temporary paths.stage ino).note (.staged record)) := by
        rw [moved]
        exact ⟨.inr ⟨_, _, rfl⟩, orderly.behind⟩
      have there : ((store.move paths.temporary paths.stage ino).note
          (.staged record)).lookup (.staging paths.stage) = some ino := by
        rw [moved]
        rw [Store.note, Store.lookup, JsMap.get?_cons, if_pos rfl]
      rw [Program.bind_apply, renameSync_apply source, Course.after_andThen, Course.done_andThen,
        Course.after_andThen]
      refine .after staged ?_
      rw [Program.bind_apply, lstatSync_apply there, Course.done_andThen]
      split_ifs
      · exact staged.stops (by decide)
      · refine recoverStage_ensures staged record there fun found _ _ free short => ?_
        rw [moved] at free
        have exposed := cleared paths.temporary paths record
          ⟨read, named, by simpa using equivalent, short, free⟩
        exact absurd rfl exposed.1

theorem recoverStagingNamespace_ensures (cleared : Cleared config codec store) :
    (recoverStagingNamespace config codec store).Ensures (Orderly codec)
      fun recovered last => recovered.isSome = true → last.staging = [] := by
  have none_ {each : Store R → Prop} {last : Store R} (meets : each last) :
      (Course.done last (none : Recovered R)).Ensures each
        fun recovered last => recovered.isSome = true → last.staging = [] :=
    .done meets fun some => by cases some
  rcases orderly.single with empty | ⟨entry, ino, single⟩
  · rw [recoverStagingNamespace_clean empty]
    exact .done orderly fun _ => empty
  · rw [recoverStagingNamespace_single single]
    refine .orElse ?_ fun _ _ some => by cases some
    have found : store.lookup (.staging entry) = some ino := by
      rw [Store.lookup, single, JsMap.get?_cons, if_pos rfl]
    rw [recoverEntries]
    refine .ite (fun _ => none_ orderly) fun _ => ?_
    rw [Program.bind_apply, lstatSync_apply found, Course.done_andThen]
    refine .ite (fun _ => none_ orderly) fun _ => ?_
    rw [Program.bind_apply, readRecordFile_apply, Course.done_andThen]
    cases read : store.readRecord config codec (.staging entry) (store.stat ino).nlink with
    | none =>
        refine .ite (fun _ => none_ orderly) fun _ => ?_
        refine .andThen (removeExactFile_ensures orderly _) fun removed last meets empty => ?_
        cases removed with
        | false => exact none_ meets
        | true => exact .done meets fun _ => empty rfl
    | some record =>
        dsimp only
        cases named : recordPaths codec record with
        | none => exact none_ orderly
        | some paths =>
            refine .ite (fun _ => none_ orderly) fun same => ?_
            have finished : (recoverInterruptedPublication config codec record paths store).Ensures
                (Orderly codec) Finished := by
              have same := not_not.mp same
              split_ifs at same with temporary
              · subst same
                exact recoverTemporaryEntry_ensures orderly cleared named found read
              · subst same
                exact recoverStageEntry_ensures orderly cleared named found read
            refine .andThen finished fun recovery last meets ended => ?_
            cases recovery with
            | none => exact absurd rfl ended.1
            | recovered => exact .done meets fun _ => ended.2 rfl
            | conflicted => exact none_ meets
            | failed => exact none_ meets

/-! Publication. -/

theorem finishPublication_ensures (stagedIdentity : Stat) :
    (finishPublication paths stagedIdentity store).Ensures (Orderly codec) fun _ _ => True := by
  refine lstatSync_ensures orderly fun stage _ => lstatSync_ensures orderly fun target _ => ?_
  refine .ite (fun _ => .thrown orderly) fun _ => ?_
  refine .andThen (removeExactFile_ensures orderly _) fun removed last meets _ => ?_
  refine .ite (fun _ => .thrown meets) fun _ => lstatSync_ensures meets fun published _ => ?_
  exact .ite (fun _ => .thrown meets) fun _ => .done meets trivial

theorem removeStage_ensures {α : Type}
    {identity : Stat} {next : Program (Store R) α}
    (rest : ∀ last, Orderly codec last → (next last).Ensures (Orderly codec) fun _ _ => True) :
    ((removeExactFile (.staging name) identity >>= fun _ => next) store).Ensures (Orderly codec)
      fun _ _ => True :=
  .andThen (removeExactFile_ensures orderly identity) fun _ last meets _ => rest last meets

theorem linkStage_ensures
    (authorized : Authorized codec record store.history) (stagedIdentity : Stat) :
    (linkStage record paths stagedIdentity store).Ensures (Orderly codec) fun _ _ => True := by
  refine .andThen (linkSync_ensures orderly fun _ _ => authorized) fun outcome last meets _ => ?_
  cases outcome with
  | linked => exact finishPublication_ensures meets stagedIdentity
  | exist => exact removeStage_ensures meets fun _ meets => .done meets trivial
  | error => exact removeStage_ensures meets fun _ meets => .thrown meets

theorem commitStage_ensures (answer : Bool) :
    (commitStage record paths (some answer) store).Ensures (Orderly codec) fun _ _ => True := by
  refine lstatSync_ensures orderly fun stage _ => ?_
  refine .ite (fun _ => removeStage_ensures orderly fun _ meets => .thrown meets) fun _ => ?_
  cases answer with
  | false => exact removeStage_ensures orderly fun _ meets => .thrown meets
  | true =>
      have noted := orderly.noted record
      exact .after noted (linkStage_ensures noted (.checked (.inl rfl)) _)

theorem writeAll_orderly {entry : JsString}
    (single : store.staging = [(entry, ino)]) (bytes : Bytes) :
    (writeAll ino bytes store).Ensures (Orderly codec) fun _ last =>
      last.staging = [(entry, ino)] := by
  induction bytes generalizing store with
  | nil => exact .done orderly single
  | cons byte bytes ih =>
      have grown : Orderly codec (store.append ino byte) := ⟨orderly.single, orderly.behind⟩
      exact .after grown (ih grown single)

theorem publishWithoutClobber_ensures
    (empty : store.staging = []) (differ : paths.temporary ≠ paths.stage) (serialized : JsString)
    (answer : Bool) :
    (publishWithoutClobber record paths serialized (some answer) store).Ensures (Orderly codec)
      fun _ _ => True := by
  rw [publishWithoutClobber, writePrivateFileAtomically, bind_assoc, Program.bind_apply]
  by_cases long : nameTooLong paths.temporary
  · have refused : createExclusive paths.temporary store = .thrown store := by
      simp [createExclusive, long]
    rw [refused]
    exact .thrown orderly
  · have opened : createExclusive paths.temporary store =
        (Course.done (store.create paths.temporary) store.fresh).after
          (store.create paths.temporary) := by
      simp [createExclusive, long, empty]
    have single : (store.create paths.temporary).staging = [(paths.temporary, store.fresh)] := by
      simp [Store.create, empty, JsMap.set]
    have created : Orderly codec (store.create paths.temporary) :=
      ⟨.inr ⟨_, _, single⟩, orderly.behind⟩
    rw [opened, Course.after_andThen, Course.done_andThen, bind_assoc]
    refine .after created (.andThen (writeAll_orderly created single _) ?_)
    intro _ written meets single
    have source : written.staging.get? paths.temporary = some store.fresh := by
      rw [single, JsMap.get?_cons, if_pos rfl]
    have staged : Orderly codec
        ((written.move paths.temporary paths.stage store.fresh).note (.staged record)) := by
      rw [move_staging single differ]
      exact ⟨.inr ⟨_, _, rfl⟩, meets.behind⟩
    rw [Program.bind_apply, renameSync_apply source, Course.after_andThen, Course.done_andThen]
    exact .after staged (commitStage_ensures staged answer)

theorem compareExisting_ensures :
    (compareExisting config codec record paths store).Ensures (Orderly codec) fun _ _ => True := by
  rw [compareExisting, Program.bind_apply, readRecordFile_apply, Course.done_andThen]
  cases store.readRecord config codec (.records paths.target) 1 with
  | none | some existing => exact .done orderly trivial

theorem publicationDisposition_ensures (publication : Publication) :
    (publicationDisposition config codec record paths publication store).Ensures (Orderly codec)
      fun _ _ => True := by
  cases publication with
  | exist => exact compareExisting_ensures orderly
  | published =>
      rw [publicationDisposition, Program.bind_apply, readRecordFile_apply, Course.done_andThen]
      cases store.readRecord config codec (.records paths.target) 1 with
      | none | some persisted => exact .done orderly trivial

theorem allowed_ensures (answer : Bool) :
    (allowed record (some answer) store).Ensures (Orderly codec) fun granted last =>
      last.staging = store.staging ∧
        (granted = true → answer = true ∧ last = store.note (.checked record)) := by
  cases answer with
  | false => exact .done orderly ⟨rfl, fun granted => by cases granted⟩
  | true =>
      have noted := orderly.noted record
      exact .after noted (.done noted ⟨rfl, fun _ => ⟨rfl, rfl⟩⟩)

end

theorem Committed.cleared (committed : Committed config codec store record) :
    Cleared config codec (store.note (.checked record)) := by
  intro entry paths found publishable
  obtain ⟨read, named, reflexive, short, free⟩ := publishable
  obtain ⟨stage, spoken⟩ := committed entry paths found ⟨read, named, reflexive, short, free⟩
  refine ⟨stage, fun same => ?_⟩
  rcases spoken same with authorized | alike
  · exact .later (fun _ other => by cases other) authorized
  · exact .checked alike

theorem writeLocked_ensures (orderly : Orderly codec store)
    (named : recordPaths codec record = some paths) (serialized : JsString)
    (prepublish : Prepublish)
    (committed : prepublish.start = true → Committed config codec store record) :
    (writeLocked config codec record paths serialized (some prepublish) store).Ensures
      (Orderly codec) fun _ _ => True := by
  refine .andThen (allowed_ensures orderly prepublish.start) fun granted asked meets checked => ?_
  cases granted with
  | false => exact .done meets trivial
  | true =>
      obtain ⟨started, rfl⟩ := checked.2 rfl
      have cleared := (committed started).cleared
      rw [Bool.not_true, if_neg Bool.false_ne_true]
      refine .andThen (recoverStagingNamespace_ensures meets cleared) ?_
      intro recovered brought meets empty
      cases recovered with
      | none => exact .done meets trivial
      | some recovered =>
          have empty := empty rfl
          dsimp only
          cases recovered.get? (codec.recordId record) with
          | some found => exact .done meets trivial
          | none =>
              dsimp only
              rw [Program.bind_apply, recoverInterruptedPublication_empty empty,
                Course.done_andThen]
              dsimp only
              rw [Program.bind_apply, existsSync_apply, Course.done_andThen]
              refine .ite (fun _ => compareExisting_ensures meets) fun _ => ?_
              refine .andThen (allowed_ensures meets prepublish.recovered) ?_
              intro granted last meets checked
              refine .ite (fun _ => .done meets trivial) fun _ => ?_
              exact .andThen (publishWithoutClobber_ensures meets (checked.1.trans empty)
                (temporary_ne_stage named) serialized _)
                fun publication _ meets _ => publicationDisposition_ensures meets publication

/-! Runs. -/

structure WriteCall.Proceeds (config : Config) (codec : Codec R) (call : WriteCall R) : Prop where
  optionsValid : call.optionsValid = true
  codecAvailable : call.codecAvailable = true
  serialized : canonicalSerializedRecord config codec call.record ≠ none
  directoriesSafe : call.directoriesSafe = true
  named : recordPaths codec call.record ≠ none
  lockAcquired : call.lockAcquired = true
  started : call.prepublish.map (·.start) = some true

theorem call_orderly (orderly : Orderly codec store) (call : WriteCall R)
    (checks : call.prepublish ≠ none)
    (committed : call.Proceeds config codec → Committed config codec store call.record) :
    (writeImmutablePrivateRecord config codec call store).Ensures (Orderly codec)
      fun _ _ => True := by
  have stopped (answer : WriteDisposition) :
      (Course.done store answer).Ensures (Orderly codec) fun _ _ => True :=
    .done orderly trivial
  obtain ⟨prepublish, checks⟩ := Option.ne_none_iff_exists'.mp checks
  rw [writeImmutablePrivateRecord]
  refine .ite (fun _ => stopped _) fun valid => .ite (fun _ => stopped _) fun available => ?_
  cases serialized : canonicalSerializedRecord config codec call.record with
  | none => exact stopped _
  | some text =>
      refine .ite (fun _ => stopped _) fun safe => ?_
      cases named : recordPaths codec call.record with
      | none => exact stopped _
      | some paths =>
          refine .ite (fun _ => stopped _) fun locked => .orElse ?_ fun _ _ => trivial
          rw [checks]
          refine writeLocked_ensures orderly named text prepublish fun started => committed ?_
          refine ⟨?_, ?_, ?_, ?_, ?_, ?_, ?_⟩
          · simpa using valid
          · simpa using available
          · rw [serialized]
            exact Option.some_ne_none text
          · simpa using safe
          · rw [named]
            exact Option.some_ne_none paths
          · simpa using locked
          · rw [checks, Option.map_some, started]

/-- A call with a prepublish check, before which `staging/` holds nothing that its recovery would
publish without authorization. -/
structure GuardedStep (config : Config) (codec : Codec R) (store : Store R) (attempt : Attempt R)
    (next : Store R) : Prop where
  step : StoreStep config codec store attempt next
  checks : attempt.call.prepublish ≠ none
  committed : attempt.call.Proceeds config codec → Committed config codec store attempt.call.record

theorem run_orderly {attempts : List (Attempt R)}
    (run : Run (GuardedStep config codec) Store.empty attempts store) : Orderly codec store := by
  refine run.invariant ?_ ⟨.inl rfl, trivial⟩
  intro before attempt next orderly guarded
  exact ((call_orderly orderly attempt.call guarded.checks guarded.committed).ends orderly
    guarded.step).1

/-- In such a run every record that became visible was authorized once its staging was over. -/
theorem run_behind {attempts : List (Attempt R)}
    (run : Run (GuardedStep config codec) Store.empty attempts store) :
    Behind codec store.history :=
  (run_orderly run).behind

/-! Two records, each with its own id. -/

def pairCodec : Codec Bool := { flagCodec splitName with recordId := splitName }

def checkedCall (record : R) : WriteCall R :=
  { plainCall record with prepublish := some ⟨true, true, true⟩ }

def crashedStage : Store Bool := stoppedAt pairCodec (checkedCall true) 8

theorem crashedStage_step :
    StoreStep smallConfig pairCodec Store.empty ⟨checkedCall true, none⟩ crashedStage :=
  stoppedAt_step (by decide +kernel)

theorem crashedStage_committed : Committed smallConfig pairCodec crashedStage true := by
  intro entry paths found publishable
  have staged : crashedStage.staging = [(js ".yes.token.stage", 0)] := by decide +kernel
  obtain rfl : entry = js ".yes.token.stage" := by
    by_contra other
    have read := publishable.read
    rw [Store.readRecord, Store.lookup, staged, JsMap.get?_cons, if_neg (Ne.symm other)] at read
    cases read
  have whole : crashedStage.readRecord smallConfig pairCodec (.staging (js ".yes.token.stage")) 1 =
      some true := by decide +kernel
  obtain rfl := Option.some.inj (whole.symm.trans publishable.read)
  have temporary : (recordPaths pairCodec true).map (·.temporary) =
      some (js ".yes.token.stage.tmp") := by decide +kernel
  rw [publishable.named, Option.map_some, Option.some_inj] at temporary
  rw [temporary]
  exact ⟨by decide, fun _ => .inr (.inl rfl)⟩

/-- A crash before the last check, and the same call again. -/
theorem run_behind_flag :
    Behind pairCodec (writeImmutablePrivateRecord smallConfig pairCodec (checkedCall true)
      crashedStage).last.history := by
  have crashed : Run (GuardedStep smallConfig pairCodec) Store.empty
      [⟨checkedCall true, none⟩] crashedStage :=
    .single ⟨crashedStage_step, by decide, fun _ _ _ _ publishable => by cases publishable.read⟩
  have again : StoreStep smallConfig pairCodec crashedStage ⟨checkedCall true, some .recorded⟩
      (writeImmutablePrivateRecord smallConfig pairCodec (checkedCall true) crashedStage).last :=
    .answered (by decide +kernel)
  exact run_behind (crashed.snoc ⟨again, by decide, fun _ => crashedStage_committed⟩)

/-- A crash before the last check, and the write of another record makes the first one
visible. -/
theorem crashedStage_published :
    ∃ store, Run (fun before attempt next => StoreStep smallConfig pairCodec before attempt next ∧
        attempt.call.prepublish ≠ none) Store.empty
        [⟨checkedCall true, none⟩, ⟨checkedCall false, some .recorded⟩] store ∧
      recordsEquivalent pairCodec true false = false ∧
      store.file (js "yes") = some (utf8Encode (flagText true)) ∧
      ¬ Behind pairCodec store.history := by
  refine ⟨_, .snoc (.single ⟨crashedStage_step, by decide⟩) ⟨.answered ?_, by decide⟩, by decide,
    ?_, ?_⟩
  · decide +kernel
  · decide +kernel
  · have history : (writeImmutablePrivateRecord smallConfig pairCodec (checkedCall false)
        crashedStage).last.history =
        [.visible false, .checked false, .staged false, .checked false, .visible true,
          .checked false, .staged true, .checked true, .checked true] := by decide +kernel
    rw [history]
    rintro ⟨-, authorized, -⟩
    cases authorized with
    | checked alike =>
        rcases alike with same | equivalent
        · cases same
        · revert equivalent
          decide
    | later _ authorized =>
        cases authorized with
        | later unstaged _ => exact unstaged true rfl

end AshlrHub.Records

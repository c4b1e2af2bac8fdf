import AshlrHub.Records.Refines

namespace AshlrHub.Records

open Js Lib

/-! The calls: publication, and the whole write. -/

variable {R : Type} {config : Config} {codec : Codec R} {record : R} {paths : RecordPaths}
  {store : Store R} {shape : Shape R}

theorem allowed_follows (holds : Holds config codec store shape) (answer : Option Bool) :
    Course.Follows (Holds config codec) (allowed record answer store)
      (Shape.ask record answer shape) := by
  cases answer with
  | none => exact .done holds
  | some granted =>
      cases granted with
      | false => exact .done holds
      | true =>
          have noted := holds.noted (.checked record)
          exact .after noted (.done noted)

theorem Shape.ask_isSome (answer : Option Bool) :
    (Shape.ask record answer shape).result.isSome = true := by
  match answer with
  | none => rfl
  | some false => rfl
  | some true => rfl

theorem Shape.ask_last (answer : Option Bool) :
    (Shape.ask record answer shape).last.residue = shape.residue ∧
      (Shape.ask record answer shape).last.visible = shape.visible := by
  match answer with
  | none => exact ⟨rfl, rfl⟩
  | some false => exact ⟨rfl, rfl⟩
  | some true => exact ⟨rfl, rfl⟩

theorem writeAll_follows (holds : Holds config codec store shape)
    (writable : Writable config codec record paths)
    (short : nameTooLong paths.temporary = false) {ino : ℕ} {written rest : Bytes}
    (unshared : Unshared store paths.temporary ino written)
    (whole : written ++ rest = codec.bytes record)
    (free : store.records (codec.target record) = none)
    (residue : shape.residue = .writing record written) :
    Course.Follows (Holds config codec) (writeAll ino rest store)
      (Shape.writeAll record written rest shape) := by
  induction rest generalizing store shape written with
  | nil => exact .done holds
  | cons byte rest ih =>
      have links (name : JsString) : shape.residue.links codec name = 1 := by rw [residue]; rfl
      have begun : written ++ [byte] <+: codec.bytes record := by
        rw [← whole]
        exact ⟨rest, by rw [List.append_assoc]; rfl⟩
      obtain ⟨grown, appended⟩ := holds.appended writable short unshared begun free links
      have more := ih appended grown (by rw [← List.append_cons]; exact whole) free rfl
      exact .after appended more

theorem finishPublication_apply {ino : ℕ} (linked : Linked config codec store record paths ino)
    {stagedIdentity : Stat} (identity : stagedIdentity.ino = ino) :
    finishPublication paths stagedIdentity store =
      (Course.done (store.remove (.staging paths.stage)) Publication.published).after
        (store.remove (.staging paths.stage)) := by
  have target : store.lookup (.records paths.target) = some ino := linked.target
  have exact : ¬ ((store.stat ino).nlink ≠ 2 || (store.stat ino).nlink ≠ 2 ||
      stagedIdentity.ino ≠ (store.stat ino).ino || (store.stat ino).ino ≠ (store.stat ino).ino :
        Bool) = true := by
    simp [Store.stat, linked.file, identity]
  have links : (store.inode ino).nlink = 2 := by rw [linked.file]
  have removed := @removeExactFile_apply R store _ ino (store.stat ino) linked.lookup rfl
    (.inr links)
  have behind : (store.remove (.staging paths.stage)).lookup (.records paths.target) =
      some ino := by
    rw [linked.remove]
    exact linked.target
  have single : ¬ (((store.remove (.staging paths.stage)).stat ino).nlink ≠ 1 ||
      (store.stat ino).ino ≠ ((store.remove (.staging paths.stage)).stat ino).ino : Bool) =
        true := by
    rw [linked.remove]
    simp [Store.stat, Store.setLinks]
  simp only [finishPublication, Program.bind_apply, lstatSync_apply linked.lookup,
    lstatSync_apply target, Course.done_andThen, if_neg exact, removed, Course.after_andThen,
    Bool.not_true, Bool.false_eq_true, if_false, lstatSync_apply behind, if_neg single,
    Program.pure_apply]

theorem linkStage_follows (canonical : codec.Canonical)
    (holds : Holds config codec store shape) {ino : ℕ}
    (writable : Writable config codec record paths)
    (unshared : Unshared store paths.stage ino (codec.bytes record))
    (free : store.records (codec.target record) = none)
    (links : ∀ name, shape.residue.links codec name = 1) {stagedIdentity : Stat}
    (identity : stagedIdentity.ino = ino) :
    Course.Follows (Holds config codec)
      (((linkStage record paths stagedIdentity store).andThen
        (publicationDisposition config codec record paths)).orElse .failed)
      (Shape.present codec record shape) := by
  have target : paths.target = codec.target record := (recordPaths_some writable.named).1
  have entry : store.staging.get? paths.stage = some ino := unshared.lookup
  have single : (store.inode ino).nlink = 1 := by rw [unshared.file]
  rw [Shape.present]
  by_cases long : nameTooLong (codec.target record)
  · rw [if_pos long]
    have removed := @removeExactFile_apply R store _ ino stagedIdentity unshared.lookup identity
      (.inl single)
    have behind := holds.removed unshared links
    have refuse := @linkSync_long R store paths.stage paths.target (.visible record) ino entry
      (by rwa [target])
    simp only [linkStage, Program.bind_apply, refuse, Course.done_andThen, removed,
      Course.after_andThen, Program.throw_apply,
      Course.thrown_andThen, Course.after_orElse, Course.thrown_orElse, Program.step_apply,
      Program.pure_apply]
    exact .after behind (.done behind)
  · rw [if_neg long]
    have revealed := holds.revealed writable unshared links
    have linked := unshared.revealed writable
    have finished := revealed.finished linked rfl
    have seen : ((shape.reveal codec record).become .clean).visible (codec.target record) =
        some record := Function.update_self ..
    have read := finished.read canonical seen rfl
    have linkIt := @linkSync_apply R store paths.stage paths.target (.visible record) ino entry
      (by rw [target]; exact Bool.of_not_eq_true long) (by rwa [target])
    rw [target] at linkIt
    simp only [linkStage, Program.bind_apply, target, linkIt, Course.after_andThen,
      Course.done_andThen, finishPublication_apply linked identity, publicationDisposition,
      readRecordFile_apply, read, Course.after_orElse, Program.step_apply, Program.pure_apply,
      Course.done_orElse]
    exact .after revealed (.after finished (.done finished))

theorem commitStage_follows (canonical : codec.Canonical)
    (holds : Holds config codec store shape) (residue : shape.residue = .staged record)
    (named : recordPaths codec record = some paths) (answer : Option Bool) :
    Course.Follows (Holds config codec)
      (((commitStage record paths answer store).andThen
        (publicationDisposition config codec record paths)).orElse .failed)
      (Shape.commit codec record answer shape) := by
  have links (name : JsString) : shape.residue.links codec name = 1 := by rw [residue]; rfl
  have left := holds.left
  rw [residue] at left
  cases left with
  | @staged _ other ino writable unshared free =>
      obtain rfl : other = paths := Option.some.inj (writable.named.symm.trans named)
      have single : (store.stat ino).nlink = 1 := by rw [Store.stat, unshared.file]
      rcases answer with _ | _ | _
      · have follows := linkStage_follows canonical holds writable unshared free links
          (show (store.stat ino).ino = ino from rfl)
        simpa only [commitStage, Shape.commit, Program.bind_apply,
          lstatSync_apply unshared.lookup, Course.done_andThen, single, ne_eq,
          not_true_eq_false, if_false, allowed, Shape.ask, Program.pure_apply, Bool.not_true,
          Bool.false_eq_true] using follows
      · have removed := @removeExactFile_apply R store _ ino (store.stat ino) unshared.lookup rfl
          (.inl single)
        have behind := holds.removed unshared links
        simp only [commitStage, Shape.commit, Program.bind_apply,
          lstatSync_apply unshared.lookup, Course.done_andThen, single, ne_eq,
          not_true_eq_false, if_false, allowed, Shape.ask, Program.pure_apply, Bool.not_false,
          if_true, removed, Course.after_andThen, Program.throw_apply, Course.thrown_andThen,
          Course.after_orElse, Course.thrown_orElse, Program.step_apply]
        exact .after behind (.done behind)
      · have noted := holds.noted (.checked record)
        have follows := linkStage_follows canonical noted writable
          ⟨unshared.entry, unshared.old, unshared.file, unshared.alone⟩ free links
          (show (store.stat ino).ino = ino from rfl)
        simp only [commitStage, Shape.commit, Program.bind_apply,
          lstatSync_apply unshared.lookup, Course.done_andThen, single, ne_eq,
          not_true_eq_false, if_false, allowed, Shape.ask, Program.step_apply,
          Program.pure_apply, Course.after_andThen, Bool.not_true, Bool.false_eq_true,
          Course.after_orElse]
        exact .after noted follows

theorem Shape.writeAll_isSome (record : R) (rest : Bytes) (written : Bytes) (shape : Shape R) :
    (Shape.writeAll record written rest shape).result.isSome = true := by
  induction rest generalizing written shape with
  | nil => rfl
  | cons byte rest ih => exact ih (written ++ [byte]) _

theorem Shape.writeAll_residue {written rest : Bytes}
    (residue : shape.residue = .writing record written) :
    (Shape.writeAll record written rest shape).last.residue =
      .writing record (written ++ rest) := by
  induction rest generalizing written shape with
  | nil => rw [List.append_nil]; exact residue
  | cons byte rest ih =>
      rw [List.append_cons]
      exact @ih (shape.become (.writing record (written ++ [byte]))) _ rfl

theorem renameStage_follows (canonical : codec.Canonical) (holds : Holds config codec store shape)
    (residue : shape.residue = .writing record (codec.bytes record))
    (named : recordPaths codec record = some paths) (answer : Option Bool) :
    Course.Follows (Holds config codec)
      (((renameSync paths.temporary paths.stage (.staged record) >>= fun _ =>
        commitStage record paths answer >>= publicationDisposition config codec record paths)
          store).orElse .failed)
      ((Shape.commit codec record answer (shape.stage record)).after (shape.stage record)) := by
  have links (name : JsString) : shape.residue.links codec name = 1 := by rw [residue]; rfl
  have left := holds.left
  rw [residue] at left
  cases left with
  | @writing _ _ other ino writable short begun unshared free =>
      obtain rfl : other = paths := Option.some.inj (writable.named.symm.trans named)
      have moved := holds.moved writable unshared free links
      have entry : store.staging.get? other.temporary = some ino := unshared.lookup
      rw [Program.bind_apply, renameSync_apply entry, Course.after_andThen, Course.done_andThen,
        Course.after_orElse]
      exact .after moved (commitStage_follows canonical moved rfl named answer)

theorem publish_follows (canonical : codec.Canonical)
    (holds : Holds config codec store shape) (clean : shape.residue = .clean)
    (writable : Writable config codec record paths)
    (free : store.records (codec.target record) = none) (answer : Option Bool) :
    Course.Follows (Holds config codec)
      (((publishWithoutClobber record paths (codec.serialize record) answer >>=
        publicationDisposition config codec record paths) store).orElse .failed)
      (Shape.publish codec record paths answer shape) := by
  have empty := holds.empty clean
  rw [Shape.publish]
  by_cases long : nameTooLong paths.temporary
  · have refused : createExclusive paths.temporary store = .thrown store := by
      simp [createExclusive, long]
    simp only [publishWithoutClobber, writePrivateFileAtomically, Program.bind_apply, refused,
      Course.thrown_andThen, Course.thrown_orElse, if_pos long, Program.pure_apply]
    exact .done holds
  · have short : nameTooLong paths.temporary = false := Bool.of_not_eq_true long
    obtain ⟨unshared, created⟩ := holds.created clean writable short free
    have opened : createExclusive paths.temporary store =
        (Course.done (store.create paths.temporary) store.fresh).after
          (store.create paths.temporary) := by
      simp [createExclusive, short, empty]
    have written := @writeAll_follows R config codec record paths _ _ created writable short _ []
      (codec.bytes record) unshared rfl free rfl
    rw [publishWithoutClobber, writePrivateFileAtomically, bind_assoc, bind_assoc,
      Program.bind_apply, opened, Course.after_andThen, Course.done_andThen,
      Course.after_orElse, bind_assoc, if_neg long, Program.bind_apply,
      Program.bind_apply, Program.step_apply, Course.after_andThen, Course.done_andThen]
    refine .after created (.andThen_orElse written (Shape.writeAll_isSome ..) ?_)
    intro _ _ whole
    have residue := @Shape.writeAll_residue R record (shape.become (.writing record [])) []
      (codec.bytes record) rfl
    exact renameStage_follows canonical whole residue writable.named answer

theorem Shape.settle_residue {recovered : JsMap JsString R}
    (settled : (Shape.settle codec shape).result = some (some recovered)) :
    (Shape.settle codec shape).last.residue = .clean := by
  cases residue : shape.residue with
  | clean => rw [Shape.settle_clean residue]; exact residue
  | writing record written =>
      rw [Shape.settle_writing residue, Shape.publishStaged_apply] at settled ⊢
      split_ifs at settled ⊢ <;> first | rfl | cases settled
  | staged record =>
      rw [Shape.settle_staged residue, Shape.publishStaged_apply] at settled ⊢
      split_ifs at settled ⊢ <;> first | rfl | cases settled
  | linked record =>
      rw [Shape.settle_linked residue] at settled ⊢
      split_ifs at settled ⊢ <;> first | rfl | cases settled

theorem recoverInterruptedPublication_empty (empty : store.staging = []) :
    recoverInterruptedPublication config codec record paths store = .done store .none := by
  have absent (name : JsString) : store.lookup (.staging name) = none := by
    rw [Store.lookup, empty, JsMap.get?_nil]
  rw [recoverInterruptedPublication_none (absent paths.temporary), recoverStage,
    Program.bind_apply, existsSync_apply, absent paths.stage]
  rfl

section

variable (canonical : codec.Canonical) (holds : Holds config codec store shape)
include canonical holds

theorem settled_follows (clean : shape.residue = .clean)
    (writable : Writable config codec record paths) (prepublish : Option Prepublish) :
    Course.Follows (Holds config codec)
      (((do
        if ← existsSync (.records paths.target) then compareExisting config codec record paths
        else publishRecord config codec record paths (codec.serialize record) prepublish :
          Program (Store R) WriteDisposition) store).orElse .failed)
      ((do
        match ← .look fun shape => shape.visible (codec.target record) with
        | some existing =>
            pure (if recordsEquivalent codec existing record then .replayed else .conflicted)
        | none =>
            if !(← Shape.ask record (prepublish.map (·.recovered))) then pure .failed
            else Shape.publish codec record paths (prepublish.map (·.commit)) :
              Program (Shape R) WriteDisposition) shape) := by
  have target : paths.target = codec.target record := (recordPaths_some writable.named).1
  rw [Program.bind_apply, Program.bind_apply, Program.look_apply, existsSync_apply,
    Course.done_andThen, Course.done_andThen, target, Store.lookup]
  cases seen : shape.visible (codec.target record) with
  | some existing =>
      obtain ⟨ino, shown⟩ := holds.present _ _ seen
      have read := holds.read canonical seen (by rw [clean]; rfl)
      rw [shown.entry, Option.isSome_some, if_pos rfl, compareExisting, Program.bind_apply,
        readRecordFile_apply, target, read]
      exact .done holds
  | none =>
      have free := holds.absent _ seen
      rw [free, Option.isSome_none, if_neg Bool.false_ne_true, publishRecord, Program.bind_apply]
      refine .andThen_orElse (allowed_follows holds _) (Shape.ask_isSome _) ?_
      intro granted _ noted
      obtain ⟨residue, visible⟩ := @Shape.ask_last R record shape
        (prepublish.map (·.recovered))
      cases granted with
      | false => exact .done noted
      | true =>
          have still := noted.absent (codec.target record) (by rw [visible]; exact seen)
          exact publish_follows canonical noted (residue.trans clean) writable still _

theorem writeLocked_follows (writable : Writable config codec record paths)
    (prepublish : Option Prepublish) :
    Course.Follows (Holds config codec)
      ((writeLocked config codec record paths (codec.serialize record) prepublish store).orElse
        .failed)
      (Shape.write codec record paths prepublish shape) := by
  rw [writeLocked, Shape.write, Program.bind_apply, Program.bind_apply]
  refine .andThen_orElse (allowed_follows holds _) (Shape.ask_isSome _) ?_
  intro granted _ noted
  cases granted with
  | false => exact .done noted
  | true =>
      rw [Bool.not_true, if_neg Bool.false_ne_true, if_neg Bool.false_ne_true,
        Program.bind_apply, Program.bind_apply]
      refine .andThen_orElse (recoverStagingNamespace_follows canonical noted)
        (Shape.settle_isSome codec _) ?_
      intro recovered settled brought
      cases recovered with
      | none => exact .done brought
      | some recovered =>
          dsimp only
          cases found : recovered.get? (codec.recordId record) with
          | some other => exact .done brought
          | none =>
              have clean := Shape.settle_residue settled
              have nothing := @recoverInterruptedPublication_empty R config codec record paths _
                (brought.empty clean)
              dsimp only
              rw [Program.bind_apply, nothing, Course.done_andThen]
              exact settled_follows canonical brought clean writable prepublish

theorem call_follows (call : WriteCall R) :
    Course.Follows (Holds config codec) (writeImmutablePrivateRecord config codec call store)
      (Shape.call config codec call shape) := by
  unfold writeImmutablePrivateRecord Shape.call
  cases call.optionsValid with
  | false => exact .done holds
  | true =>
  cases call.codecAvailable with
  | false => exact .done holds
  | true =>
  cases serialized : canonicalSerializedRecord config codec call.record with
  | none => exact .done holds
  | some text =>
  obtain rfl := serialized_eq serialized
  cases call.directoriesSafe with
  | false => exact .done holds
  | true =>
  cases named : recordPaths codec call.record with
  | none => exact .done holds
  | some paths =>
  cases call.lockAcquired with
  | false => exact .done holds
  | true => exact writeLocked_follows canonical holds ⟨named, serialized⟩ call.prepublish

end

end AshlrHub.Records

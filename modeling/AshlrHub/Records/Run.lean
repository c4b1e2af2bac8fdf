import AshlrHub.Lib.Run
import AshlrHub.Records.Publication

namespace AshlrHub.Records

open Js Lib

/-! Runs of calls, and what a crash leaves of them. -/

variable {R : Type} {config : Config} {codec : Codec R} {record : R} {shape reached : Shape R}

structure Attempt (R : Type) where
  call : WriteCall R
  answer : Option WriteDisposition

def StoreStep (config : Config) (codec : Codec R) (store : Store R) (attempt : Attempt R)
    (next : Store R) : Prop :=
  (writeImmutablePrivateRecord config codec attempt.call store).Ends store attempt.answer next

/-! What a call does to a shape. -/

def Shape.Sound (codec : Codec R) (shape : Shape R) : Prop :=
  match shape.residue with
  | .clean => True
  | .writing record _ => shape.visible (codec.target record) = none
  | .staged record => shape.visible (codec.target record) = none
  | .linked record => shape.visible (codec.target record) = some record

def Shape.Closed (codec : Codec R) (name : JsString) (shape : Shape R) : Prop :=
  shape.visible name ≠ none ∧ ∀ record, shape.residue = .linked record → codec.target record ≠ name

structure Shape.Climbs (codec : Codec R) (shape reached : Shape R) : Prop where
  sound : reached.Sound codec
  kept : ∀ name record, shape.visible name = some record → reached.visible name = some record
  closed : ∀ name, shape.Closed codec name → reached.Closed codec name

namespace Shape

theorem Climbs.self (sound : shape.Sound codec) : shape.Climbs codec shape :=
  ⟨sound, fun _ _ seen => seen, fun _ closed => closed⟩

theorem Climbs.trans {last : Shape R} (first : shape.Climbs codec reached)
    (second : reached.Climbs codec last) : shape.Climbs codec last :=
  ⟨second.sound, fun name record seen => second.kept name record (first.kept name record seen),
    fun name closed => second.closed name (first.closed name closed)⟩

theorem Climbs.note (climbs : shape.Climbs codec reached) (event : Event R) :
    shape.Climbs codec (reached.note event) :=
  ⟨climbs.sound, climbs.kept, climbs.closed⟩

theorem Climbs.become (climbs : shape.Climbs codec reached) {residue : Residue R}
    (sound : (reached.become residue).Sound codec)
    (unlinked : ∀ record, residue ≠ .linked record) :
    shape.Climbs codec (reached.become residue) where
  sound := sound
  kept := climbs.kept
  closed name closed := ⟨(climbs.closed name closed).1, fun record linked => absurd linked
    (unlinked record)⟩

theorem Climbs.clean (climbs : shape.Climbs codec reached) :
    shape.Climbs codec (reached.become .clean) :=
  climbs.become trivial fun _ linked => by cases linked

theorem Climbs.writing (climbs : shape.Climbs codec reached)
    (free : reached.visible (codec.target record) = none) (written : Bytes) :
    shape.Climbs codec (reached.become (.writing record written)) :=
  climbs.become free fun _ linked => by cases linked

section

variable (climbs : shape.Climbs codec reached)
include climbs

theorem Climbs.stage (free : reached.visible (codec.target record) = none) :
    shape.Climbs codec (reached.stage record) :=
  (@Climbs.become R codec shape reached climbs (.staged record) free
    fun _ linked => by cases linked).note (.staged record)

theorem Climbs.reveal (free : reached.visible (codec.target record) = none) :
    shape.Climbs codec (reached.reveal codec record) := by
  have other {name : JsString} (seen : reached.visible name ≠ none) :
      name ≠ codec.target record ∧
        (reached.reveal codec record).visible name = reached.visible name := by
    have differ : name ≠ codec.target record := by
      rintro rfl
      exact seen free
    exact ⟨differ, Function.update_of_ne differ ..⟩
  refine ⟨Function.update_self .., ?_, ?_⟩
  · intro name found seen
    have still := climbs.kept name found seen
    rw [(other (by rw [still]; exact Option.some_ne_none found)).2, still]
  · intro name closed
    have still := (climbs.closed name closed).1
    refine ⟨by rw [(other still).2]; exact still, ?_⟩
    intro found linked
    cases linked
    exact (other still).1.symm

theorem ask_ensures (answer : Option Bool) :
    (ask record answer reached).Ensures (shape.Climbs codec) fun _ last =>
      last.residue = reached.residue ∧ last.visible = reached.visible := by
  match answer with
  | none | some false => exact .done climbs ⟨rfl, rfl⟩
  | some true =>
      have noted := climbs.note (.checked record)
      exact .after noted (.done noted ⟨rfl, rfl⟩)

end

def Settles (codec : Codec R) (shape : Shape R) (recovered : Recovered R) (last : Shape R) :
    Prop :=
  match recovered with
  | none => last.visible = shape.visible
  | some recovered =>
      last.residue = .clean ∧ ∀ id record, recovered.get? id = some record →
        codec.recordId record = id ∧ last.visible (codec.target record) = some record ∧
          ¬ shape.Closed codec (codec.target record)

theorem settles_single (clean : reached.residue = .clean)
    (seen : reached.visible (codec.target record) = some record)
    (opened : ¬ shape.Closed codec (codec.target record)) :
    Settles codec shape (some [(codec.recordId record, record)]) reached := by
  refine ⟨clean, fun id found entry => ?_⟩
  rw [JsMap.get?_cons] at entry
  split_ifs at entry with same
  · cases entry
    exact ⟨same, seen, opened⟩
  · cases entry

theorem publishStaged_ensures (climbs : shape.Climbs codec reached)
    (visible : reached.visible = shape.visible)
    (free : shape.visible (codec.target record) = none) :
    (publishStaged codec record reached).Ensures (shape.Climbs codec) (Settles codec shape) := by
  rw [publishStaged_apply]
  split_ifs with long
  · exact .done climbs visible
  · have revealed := climbs.reveal (by rw [visible]; exact free)
    refine .after revealed (.after revealed.clean (.done revealed.clean ?_))
    exact settles_single rfl (Function.update_self ..) fun closed => closed.1 free

theorem settle_ensures (sound : shape.Sound codec) :
    (settle codec shape).Ensures (shape.Climbs codec) (Settles codec shape) := by
  have climbs := Climbs.self sound
  have cleaned : Settles codec shape (some []) (shape.become .clean) :=
    ⟨rfl, fun _ _ entry => by cases entry⟩
  unfold Sound at sound
  cases residue : shape.residue with
  | clean =>
      rw [settle_clean residue]
      exact .done climbs ⟨residue, fun _ _ entry => by cases entry⟩
  | writing record written =>
      rw [residue] at sound
      rw [settle_writing residue]
      split_ifs
      · exact .after climbs.clean (.done climbs.clean cleaned)
      · have staged : shape.Climbs codec (shape.stage record) := climbs.stage sound
        exact .after staged (publishStaged_ensures staged rfl sound)
      · exact .done climbs rfl
  | staged record =>
      rw [residue] at sound
      rw [settle_staged residue]
      split_ifs
      · exact publishStaged_ensures climbs rfl sound
      · exact .done climbs rfl
  | linked record =>
      rw [residue] at sound
      rw [settle_linked residue]
      split_ifs
      · refine .after climbs.clean (.done climbs.clean (settles_single rfl sound ?_))
        exact fun closed => closed.2 record residue rfl
      · exact .done climbs rfl

theorem writeAll_ensures (climbs : shape.Climbs codec reached)
    (free : reached.visible (codec.target record) = none) (written rest : Bytes) :
    (writeAll record written rest reached).Ensures (shape.Climbs codec) fun _ last =>
      last.visible = reached.visible := by
  induction rest generalizing reached written with
  | nil => exact .done climbs rfl
  | cons byte rest ih =>
      have grown := climbs.writing free (written ++ [byte])
      exact .after grown (ih grown free _)

/-- What an answer to a call for a record says, where the call left `start` for `last`. -/
structure Answers (codec : Codec R) (record : R) (start : Shape R) (answer : WriteDisposition)
    (last : Shape R) : Prop where
  ended : last.residue = .clean ∨
    ((answer = .failed ∨ answer = .invalid) ∧ last.visible = start.visible)
  stands : answer = .recorded ∨ answer = .replayed → last.residue = .clean ∧
    ∃ existing, last.visible (codec.target record) = some existing ∧
      recordsEquivalent codec existing record = true
  opened : answer = .recorded → ¬ start.Closed codec (codec.target record)

theorem Answers.clean {answer : WriteDisposition} (clean : reached.residue = .clean)
    (neither : answer ≠ .recorded ∧ answer ≠ .replayed) :
    Answers codec record shape answer reached :=
  ⟨.inl clean, fun either => absurd either (not_or.mpr neither),
    fun recorded => absurd recorded neither.1⟩

theorem Answers.unchanged {answer : WriteDisposition}
    (turnedAway : answer = .failed ∨ answer = .invalid) (visible : reached.visible = shape.visible)
      :
    Answers codec record shape answer reached := by
  refine ⟨.inr ⟨turnedAway, visible⟩, ?_, ?_⟩
  · rintro (rfl | rfl) <;> simp at turnedAway
  · rintro rfl
    simp at turnedAway

theorem present_ensures (climbs : shape.Climbs codec reached)
    (free : reached.visible (codec.target record) = none)
    (opened : ¬ shape.Closed codec (codec.target record)) :
    (present codec record reached).Ensures (shape.Climbs codec) (Answers codec record shape) := by
  rw [present]
  split_ifs with long reflexive
  · exact .after climbs.clean (.done climbs.clean (.clean rfl (by decide)))
  · have revealed := climbs.reveal free
    refine .after revealed (.after revealed.clean (.done revealed.clean ?_))
    exact ⟨.inl rfl, fun _ => ⟨rfl, record, Function.update_self .., reflexive⟩, fun _ => opened⟩
  · have revealed := climbs.reveal free
    exact .after revealed (.after revealed.clean (.done revealed.clean (.clean rfl (by decide))))

theorem publish_ensures (climbs : shape.Climbs codec reached) (clean : reached.residue = .clean)
    (free : reached.visible (codec.target record) = none)
    (opened : ¬ shape.Closed codec (codec.target record)) (paths : RecordPaths)
    (answer : Option Bool) :
    (publish codec record paths answer reached).Ensures (shape.Climbs codec)
      (Answers codec record shape) := by
  rw [publish]
  split_ifs with long
  · exact .done climbs (.clean clean (by decide))
  · have begun := climbs.writing free []
    refine .after begun (.andThen (writeAll_ensures begun free [] _) fun _ whole wrote same => ?_)
    have free : whole.visible (codec.target record) = none := by rw [same]; exact free
    have staged : shape.Climbs codec (whole.stage record) := wrote.stage free
    refine .after staged (.andThen (ask_ensures staged answer) fun granted last asked kept => ?_)
    cases granted with
    | false => exact .after asked.clean (.done asked.clean (.clean rfl (by decide)))
    | true => exact present_ensures asked (by rw [kept.2]; exact free) opened

theorem target_eq (canonical : codec.Canonical) {left right : R}
    (same : codec.recordId left = codec.recordId right) :
    codec.target left = codec.target right := by
  rw [Codec.target, Codec.target, canonical.named left right same]

theorem write_ensures (canonical : codec.Canonical) (sound : shape.Sound codec)
    (paths : RecordPaths) (prepublish : Option Prepublish) :
    (write codec record paths prepublish shape).Ensures (shape.Climbs codec)
      (Answers codec record shape) := by
  refine .andThen (ask_ensures (.self sound) _) fun granted asked asking same => ?_
  cases granted with
  | false => exact .done asking (.unchanged (.inl rfl) same.2)
  | true =>
      refine .andThen ((settle_ensures asking.sound).imp (fun _ more => asking.trans more)
        fun _ _ _ settled => settled) fun recovered last climbs settled => ?_
      cases recovered with
      | none => exact .done climbs (.unchanged (.inl rfl) (settled.trans same.2))
      | some recovered =>
          obtain ⟨clean, each⟩ := settled
          dsimp only
          cases entry : recovered.get? (codec.recordId record) with
          | some found =>
              obtain ⟨sameId, seen, opened⟩ := each _ _ entry
              rw [target_eq canonical sameId] at seen opened
              refine .done climbs ?_
              split_ifs with equivalent
              · refine ⟨.inl clean, fun _ => ⟨clean, found, seen, equivalent⟩, fun _ closed => ?_⟩
                exact opened (asking.closed _ closed)
              · exact .clean clean (by decide)
          | none =>
              dsimp only
              rw [Program.bind_apply, Program.look_apply, Course.done_andThen]
              cases seen : last.visible (codec.target record) with
              | some existing =>
                  refine .done climbs ?_
                  split_ifs with equivalent
                  · exact ⟨.inl clean, fun _ => ⟨clean, existing, seen, equivalent⟩,
                      fun recorded => by cases recorded⟩
                  · exact .clean clean (by decide)
              | none =>
                  refine .andThen (ask_ensures climbs _) fun granted state asking same => ?_
                  have clean := same.1.trans clean
                  cases granted with
                  | false => exact .done asking (.clean clean (by decide))
                  | true =>
                      refine publish_ensures asking clean ?_ ?_ paths _
                      · rw [same.2]
                        exact seen
                      · exact fun closed => (climbs.closed _ closed).1 seen

theorem call_ensures (canonical : codec.Canonical) (sound : shape.Sound codec)
    (request : WriteCall R) :
    (call config codec request shape).Ensures (shape.Climbs codec)
      (Answers codec request.record shape) := by
  have unchanged {answer : WriteDisposition} (turnedAway : answer = .failed ∨ answer = .invalid) :
      (Course.done shape answer).Ensures (shape.Climbs codec)
        (Answers codec request.record shape) :=
    .done (.self sound) (.unchanged turnedAway rfl)
  unfold call
  split_ifs
  · exact unchanged (.inr rfl)
  · exact unchanged (.inl rfl)
  · exact unchanged (.inr rfl)
  · exact unchanged (.inl rfl)
  · cases recordPaths codec request.record with
    | none => exact unchanged (.inr rfl)
    | some paths => exact unchanged (.inl rfl)
  · cases recordPaths codec request.record with
    | none => exact unchanged (.inr rfl)
    | some paths => exact write_ensures canonical sound paths request.prepublish

end Shape

/-! What a run keeps of the files. -/

variable {store next : Store R} {attempt : Attempt R}

/-- The bytes under a name of `records/`. -/
def Store.file (store : Store R) (name : JsString) : Option Bytes :=
  (store.records name).map fun ino => (store.inode ino).bytes

theorem Holds.sound (holds : Holds config codec store shape) (canonical : codec.Canonical) :
    shape.Sound codec := by
  have left := holds.left
  unfold Shape.Sound
  cases residue : shape.residue with
  | clean => trivial
  | writing record written =>
      rw [residue] at left
      cases left with
      | writing _ _ _ _ free => exact holds.visible_none free
  | staged record =>
      rw [residue] at left
      cases left with
      | staged _ _ free => exact holds.visible_none free
  | linked record =>
      rw [residue] at left
      cases left with
      | linked linked =>
          cases seen : shape.visible (codec.target record) with
          | none =>
              have absent := holds.absent _ seen
              rw [linked.shown.entry] at absent
              cases absent
          | some other =>
              obtain ⟨ino, shown⟩ := holds.present _ _ seen
              obtain ⟨paths, writable⟩ := shown.writable
              have sameFile := Option.some.inj (shown.entry.symm.trans linked.shown.entry)
              have file := shown.file
              rw [sameFile, linked.shown.file] at file
              have same := recordOfBytes_bytes writable canonical
              rw [← (Inode.mk.inj file).1, recordOfBytes_bytes linked.writable canonical] at same
              exact seen.trans same.symm

theorem Holds.file (holds : Holds config codec store shape) (name : JsString) :
    store.file name = (shape.visible name).map codec.bytes := by
  rw [Store.file]
  cases seen : shape.visible name with
  | none => rw [holds.absent name seen, Option.map_none, Option.map_none]
  | some record =>
      obtain ⟨ino, shown⟩ := holds.present name record seen
      rw [shown.entry, Option.map_some, Option.map_some, shown.file]

theorem step_shape (canonical : codec.Canonical) (holds : Holds config codec store shape)
    (step : StoreStep config codec store attempt next) :
    ∃ reached, Holds config codec next reached ∧ shape.Climbs codec reached ∧
      ∀ answer, attempt.answer = some answer →
        Shape.Answers codec attempt.call.record shape answer reached := by
  have sound := holds.sound canonical
  obtain ⟨reached, related, ends⟩ := (call_follows canonical holds attempt.call).ends holds step
  obtain ⟨climbs, answers⟩ := (Shape.call_ensures canonical sound attempt.call).ends
    (.self sound) ends
  exact ⟨reached, related, climbs, answers⟩

/-- A file of `records/` as it is meant to be. -/
def Complete (config : Config) (codec : Codec R) (name : JsString) (bytes : Bytes) : Prop :=
  ∃ record, canonicalSerializedRecord config codec record = some (codec.serialize record) ∧
    bytes = utf8Encode (codec.serialize record) ∧
    name = fileSystemName (codec.recordFileName record) ∧
    recordOfBytes config codec bytes = some record

theorem Holds.complete (holds : Holds config codec store shape) (canonical : codec.Canonical)
    {name : JsString} {bytes : Bytes} (file : store.file name = some bytes) :
    Complete config codec name bytes := by
  rw [holds.file] at file
  cases seen : shape.visible name with
  | none => rw [seen] at file; cases file
  | some record =>
      rw [seen, Option.map_some] at file
      obtain rfl := Option.some.inj file
      obtain ⟨ino, shown⟩ := holds.present name record seen
      obtain ⟨paths, writable⟩ := shown.writable
      exact ⟨record, writable.canonical, rfl, shown.target.symm,
        recordOfBytes_bytes writable canonical⟩

theorem run_keeps (canonical : codec.Canonical) (holds : Holds config codec store shape)
    {attempts : List (Attempt R)} (run : Run (StoreStep config codec) store attempts next) :
    ∃ reached, Holds config codec next reached ∧
      ∀ name record, shape.visible name = some record → reached.visible name = some record := by
  induction run with
  | nil => exact ⟨shape, holds, fun _ _ seen => seen⟩
  | snoc _ step ih =>
      obtain ⟨middle, related, kept⟩ := ih
      obtain ⟨reached, holds, climbs, -⟩ := step_shape canonical related step
      exact ⟨reached, holds, fun name record seen => climbs.kept name record
        (kept name record seen)⟩

theorem Holds.keeps {reached : Shape R} (holds : Holds config codec store shape)
    (after : Holds config codec next reached)
    (kept : ∀ name record, shape.visible name = some record →
      reached.visible name = some record) {name : JsString} {bytes : Bytes}
    (file : store.file name = some bytes) : next.file name = some bytes := by
  rw [holds.file] at file
  rw [after.file]
  cases seen : shape.visible name with
  | none => rw [seen] at file; cases file
  | some record => rwa [kept name record seen, ← seen]

def Attempt.recorded (attempt : Attempt R) : Prop := attempt.answer = some .recorded

def OnceRecorded (codec : Codec R) (first second : Attempt R) : Prop :=
  first.recorded → second.recorded →
    codec.recordId first.call.record ≠ codec.recordId second.call.record

theorem Shape.Answers.closed (answers : Shape.Answers codec record shape .recorded reached) :
    reached.Closed codec (codec.target record) := by
  obtain ⟨clean, existing, seen, -⟩ := answers.stands (.inl rfl)
  refine ⟨by rw [seen]; exact Option.some_ne_none existing, fun other linked => ?_⟩
  rw [clean] at linked
  cases linked

theorem run_records (canonical : codec.Canonical) {attempts : List (Attempt R)}
    (run : Run (StoreStep config codec) Store.empty attempts store) :
    ∃ shape, Holds config codec store shape ∧ attempts.Pairwise (OnceRecorded codec) ∧
      ∀ attempt ∈ attempts, attempt.recorded →
        shape.Closed codec (codec.target attempt.call.record) := by
  induction run with
  | nil => exact ⟨Shape.empty, holds_empty, .nil, fun _ member => by cases member⟩
  | @snoc attempts middle next attempt _ step ih =>
      obtain ⟨shape, holds, once, closed⟩ := ih
      obtain ⟨reached, related, climbs, answers⟩ := step_shape canonical holds step
      refine ⟨reached, related, List.pairwise_append.mpr ⟨once, List.pairwise_singleton .., ?_⟩, ?_⟩
      · intro earlier member other last earlierRecorded recorded same
        obtain rfl := List.mem_singleton.mp last
        apply (answers _ recorded).opened rfl
        rw [← Shape.target_eq canonical same]
        exact closed earlier member earlierRecorded
      · intro earlier member recorded
        rcases List.mem_append.mp member with old | new
        · exact climbs.closed _ (closed earlier old recorded)
        · obtain rfl := List.mem_singleton.mp new
          exact (answers _ recorded).closed

structure CrashSafe (config : Config) (codec : Codec R) (attempts : List (Attempt R))
    (store : Store R) : Prop where
  /-- Files are complete, and stay as they are whatever comes next. -/
  complete : ∀ name bytes, store.file name = some bytes → Complete config codec name bytes
  immutable : ∀ more later, Run (StoreStep config codec) store more later →
    ∀ name bytes, store.file name = some bytes → later.file name = some bytes
  once : attempts.Pairwise (OnceRecorded codec)
  /-- A good answer speaks of a record that stands. -/
  stands : ∀ attempt next, StoreStep config codec store attempt next →
    attempt.answer = some .recorded ∨ attempt.answer = some .replayed →
      ∃ existing, next.readRecord config codec
        (.records (fileSystemName (codec.recordFileName attempt.call.record))) 1 = some existing ∧
          recordsEquivalent codec existing attempt.call.record = true
  /-- The next call that comes to its end cleans up, or fails and leaves `records/`. -/
  recovers : ∀ attempt next, StoreStep config codec store attempt next →
    attempt.answer ≠ none →
      (next.staging = [] ∧ ∀ name bytes, store.file name = some bytes →
        next.file name = some bytes) ∨
      ((attempt.answer = some .failed ∨ attempt.answer = some .invalid) ∧ next.file = store.file)

theorem run_crash_safe (canonical : codec.Canonical) {attempts : List (Attempt R)}
    (run : Run (StoreStep config codec) Store.empty attempts store) :
    CrashSafe config codec attempts store := by
  obtain ⟨shape, holds, once, -⟩ := run_records canonical run
  refine ⟨fun _ _ file => holds.complete canonical file, ?_, once, ?_, ?_⟩
  · intro more later onward name bytes file
    obtain ⟨reached, after, kept⟩ := run_keeps canonical holds onward
    exact holds.keeps after kept file
  · intro attempt next step either
    obtain ⟨reached, after, -, answers⟩ := step_shape canonical holds step
    have stands : reached.residue = .clean ∧
        ∃ existing, reached.visible (codec.target attempt.call.record) = some existing ∧
          recordsEquivalent codec existing attempt.call.record = true := by
      rcases either with recorded | replayed
      · exact (answers _ recorded).stands (.inl rfl)
      · exact (answers _ replayed).stands (.inr rfl)
    obtain ⟨clean, existing, seen, equivalent⟩ := stands
    exact ⟨existing, after.read canonical seen (by rw [clean]; rfl), equivalent⟩
  · intro attempt next step answered
    obtain ⟨reached, after, climbs, answers⟩ := step_shape canonical holds step
    obtain ⟨answer, found⟩ := Option.ne_none_iff_exists'.mp answered
    rcases (answers _ found).ended with clean | ⟨turnedAway, same⟩
    · exact .inl ⟨after.empty clean, fun _ _ file => holds.keeps after climbs.kept file⟩
    · refine .inr ⟨?_, funext fun name => by rw [after.file, holds.file, same]⟩
      rw [found, Option.some.injEq, Option.some.injEq]
      exact turnedAway

/-! Codecs of flags, under the names a store gives them. -/

def flagOfJson : JsValue → Option Bool
  | .bool flag => some flag
  | _ => none

def flagText (flag : Bool) : JsString := if flag then js "true\n" else js "false\n"

def flagCodec (fileName : Bool → JsString) : Codec Bool where
  parse := flagOfJson
  serialize := flagText
  recordId _ := js "flag"
  recordFileName := fileName
  isRecordFileName _ := true
  stageToken _ := js "token"
  equivalent left right := left == right

def smallConfig : Config := ⟨64, 4⟩

def plainCall (record : R) : WriteCall R := ⟨record, none, true, true, true, true⟩

theorem flagOfJson_flagText : ∀ flag, (parseJson (flagText flag)).bind flagOfJson = some flag := by
  decide +kernel

theorem wellFormed_flagText : ∀ flag, wellFormed (flagText flag) = true := by
  decide +kernel

theorem flagCodec_canonical (name : JsString) : (flagCodec fun _ => name).Canonical where
  identity := flagOfJson_flagText
  formed := wellFormed_flagText
  named _ _ _ := rfl

/-- A first call whose process ends behind `count` of its steps. -/
def stoppedAt (codec : Codec R) (call : WriteCall R) (count : ℕ) : Store R :=
  (writeImmutablePrivateRecord smallConfig codec call Store.empty).passed.getD count Store.empty

theorem stoppedAt_step {call : WriteCall R} {count : ℕ}
    (inside : count <
      (writeImmutablePrivateRecord smallConfig codec call Store.empty).passed.length) :
    StoreStep smallConfig codec Store.empty ⟨call, none⟩ (stoppedAt codec call count) := by
  refine .crashed (.inr ?_)
  rw [stoppedAt, List.getD_eq_getElem?_getD, List.getElem?_eq_getElem inside, Option.getD_some]
  exact List.getElem_mem inside

def oneFile : Codec Bool := flagCodec fun _ => js "flag"

def flagAttempts : List (Attempt Bool) :=
  [⟨plainCall true, none⟩, ⟨plainCall false, some .conflicted⟩, ⟨plainCall true, some .replayed⟩]

theorem run_crash_safe_flag : ∃ store,
    Run (StoreStep smallConfig oneFile) Store.empty flagAttempts store ∧
      store.file (js "flag") = some (utf8Encode (flagText true)) ∧
      CrashSafe smallConfig oneFile flagAttempts store := by
  have crashes := @stoppedAt_step _ oneFile (plainCall true) 6 (by decide +kernel)
  have refused : StoreStep smallConfig oneFile (stoppedAt oneFile (plainCall true) 6)
      ⟨plainCall false, some .conflicted⟩ _ := .answered (by decide +kernel)
  obtain ⟨store, run, file⟩ : ∃ store,
      Run (StoreStep smallConfig oneFile) Store.empty flagAttempts store ∧
        store.file (js "flag") = some (utf8Encode (flagText true)) := by
    refine ⟨_, .snoc (.snoc (.single crashes) refused) (.answered ?_), ?_⟩
    · decide +kernel
    · decide +kernel
  exact ⟨store, run, file, run_crash_safe (flagCodec_canonical (js "flag")) run⟩

def loneCodec : Codec Unit where
  parse value :=
    match value with
    | .str [0xD800] => some ()
    | _ => none
  serialize _ := [0x22, 0xD800, 0x22, 0x0A]
  recordId _ := js "lone"
  recordFileName _ := js "lone"
  isRecordFileName _ := true
  stageToken _ := js "token"
  equivalent _ _ := true

def splitName (flag : Bool) : JsString := if flag then js "yes" else js "no"

/-- Where the file name does not follow from the id, two records of one id are recorded; and
where the text does not survive its encoding, a file stays that is no record. -/
theorem flagCodec_records_both :
    ((∀ flag, (parseJson ((flagCodec splitName).serialize flag)).bind
        (flagCodec splitName).parse = some flag) ∧
      ∃ store, Run (StoreStep smallConfig (flagCodec splitName)) Store.empty
          [⟨plainCall true, some .recorded⟩, ⟨plainCall false, some .recorded⟩] store ∧
        (flagCodec splitName).recordId true = (flagCodec splitName).recordId false ∧
        recordsEquivalent (flagCodec splitName) true false = false) ∧
    ((∀ record, (parseJson (loneCodec.serialize record)).bind loneCodec.parse = some record) ∧
      ∃ store bytes, Run (StoreStep smallConfig loneCodec) Store.empty
          [⟨plainCall (), some .failed⟩] store ∧
        store.file (js "lone") = some bytes ∧
        ¬ Complete smallConfig loneCodec (js "lone") bytes) := by
  refine ⟨⟨flagOfJson_flagText, ?_⟩, by decide +kernel, ?_⟩
  · refine ⟨_, .snoc (.single (.answered ?_)) (.answered ?_), rfl, rfl⟩
    · decide +kernel
    · decide +kernel
  · refine ⟨_, [0x22, 0xEF, 0xBF, 0xBD, 0x22, 0x0A], .single (.answered ?_), ?_, ?_⟩
    · decide +kernel
    · decide +kernel
    · rintro ⟨record, -, -, -, read⟩
      have unread : recordOfBytes smallConfig loneCodec [0x22, 0xEF, 0xBF, 0xBD, 0x22, 0x0A] =
          none := by decide +kernel
      rw [unread] at read
      cases read

end AshlrHub.Records

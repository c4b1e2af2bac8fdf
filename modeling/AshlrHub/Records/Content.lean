import AshlrHub.Records.Write
import AshlrHub.Js.Line

namespace AshlrHub.Records

open Js Lib

/-! The store as its writers mean it: the records that are visible, and at most one record on
its way. -/

variable {R : Type}

/-- What `staging/` holds. -/
inductive Residue (R : Type) where
  | clean
  /-- A temporary file with this much of the record. -/
  | writing (record : R) (written : Bytes)
  /-- A whole stage without a link in `records/`. -/
  | staged (record : R)
  /-- A stage whose link in `records/` is there. -/
  | linked (record : R)

structure Shape (R : Type) where
  visible : JsString → Option R
  residue : Residue R
  history : List (Event R)

def Shape.empty : Shape R where
  visible _ := none
  residue := .clean
  history := []

def Codec.bytes (codec : Codec R) (record : R) : Bytes :=
  utf8Encode (codec.serialize record)

/-- The name a record has in `records/`. -/
def Codec.target (codec : Codec R) (record : R) : JsString :=
  fileSystemName (codec.recordFileName record)

namespace Shape

def become (residue : Residue R) (shape : Shape R) : Shape R :=
  { shape with residue }

def note (event : Event R) (shape : Shape R) : Shape R :=
  { shape with history := event :: shape.history }

def stage (record : R) (shape : Shape R) : Shape R :=
  (shape.become (.staged record)).note (.staged record)

def reveal (codec : Codec R) (record : R) (shape : Shape R) : Shape R :=
  { shape with
    visible := Function.update shape.visible (codec.target record) (some record)
    residue := .linked record
    history := .visible record :: shape.history }

def publishStaged (codec : Codec R) (record : R) : Program (Shape R) (Recovered R) := do
  if nameTooLong (codec.target record) then pure none
  else
    .step (reveal codec record)
    .step (become .clean)
    pure (some [(codec.recordId record, record)])

/-- Bring `staging/` in order. -/
def settle (codec : Codec R) : Program (Shape R) (Recovered R) := fun shape =>
  match shape.residue with
  | .clean => (pure (some []) : Program (Shape R) (Recovered R)) shape
  | .writing record written =>
      (if written ≠ codec.bytes record then do
        .step (become .clean)
        pure (some [])
      else if !recordsEquivalent codec record record then pure none
      else do
        .step (stage record)
        publishStaged codec record : Program (Shape R) (Recovered R)) shape
  | .staged record =>
      (if !recordsEquivalent codec record record then pure none
      else publishStaged codec record : Program (Shape R) (Recovered R)) shape
  | .linked record =>
      (if !recordsEquivalent codec record record then pure none
      else do
        .step (become .clean)
        pure (some [(codec.recordId record, record)]) : Program (Shape R) (Recovered R)) shape

variable {shape : Shape R}

variable {codec : Codec R}

theorem settle_clean (residue : shape.residue = .clean) :
    settle codec shape = .done shape (some []) := by
  rw [settle, residue]
  rfl

variable {record : R}

theorem settle_writing {written : Bytes} (residue : shape.residue = .writing record written) :
    settle codec shape =
      if written ≠ codec.bytes record then
        (Course.done (shape.become .clean) (some [])).after (shape.become .clean)
      else if recordsEquivalent codec record record then
        (publishStaged codec record (shape.stage record)).after (shape.stage record)
      else .done shape none := by
  rw [settle, residue]
  dsimp only
  cases recordsEquivalent codec record record <;> split_ifs <;> simp_all

theorem settle_staged (residue : shape.residue = .staged record) :
    settle codec shape =
      if recordsEquivalent codec record record then publishStaged codec record shape
      else .done shape none := by
  rw [settle, residue]
  dsimp only
  cases recordsEquivalent codec record record <;> simp

theorem settle_linked (residue : shape.residue = .linked record) :
    settle codec shape =
      if recordsEquivalent codec record record then
        (Course.done (shape.become .clean) (some [(codec.recordId record, record)])).after
          (shape.become .clean)
      else .done shape none := by
  rw [settle, residue]
  dsimp only
  cases recordsEquivalent codec record record <;> simp

theorem publishStaged_apply :
    publishStaged codec record shape =
      if nameTooLong (codec.target record) then .done shape none
      else
        ((Course.done ((shape.reveal codec record).become .clean)
          (some [(codec.recordId record, record)])).after
            ((shape.reveal codec record).become .clean)).after (shape.reveal codec record) := by
  rw [publishStaged]
  split_ifs <;> simp

theorem settle_isSome (codec : Codec R) (shape : Shape R) :
    (settle codec shape).result.isSome = true := by
  cases residue : shape.residue with
  | clean => rw [settle_clean residue]; rfl
  | writing record written =>
      rw [settle_writing residue, publishStaged_apply]
      split_ifs <;> rfl
  | staged record =>
      rw [settle_staged residue, publishStaged_apply]
      split_ifs <;> rfl
  | linked record =>
      rw [settle_linked residue]
      split_ifs <;> rfl

def ask (record : R) : Option Bool → Program (Shape R) Bool
  | none => pure true
  | some false => pure false
  | some true => do
      .step (note (.checked record))
      pure true

def writeAll (record : R) (written : Bytes) : Bytes → Program (Shape R) Unit
  | [] => pure ()
  | byte :: bytes => do
      .step (become (.writing record (written ++ [byte])))
      writeAll record (written ++ [byte]) bytes

def present (codec : Codec R) (record : R) : Program (Shape R) WriteDisposition := do
  if nameTooLong (codec.target record) then
    .step (become .clean)
    pure .failed
  else
    .step (reveal codec record)
    .step (become .clean)
    pure (if recordsEquivalent codec record record then .recorded else .failed)

def commit (codec : Codec R) (record : R) (answer : Option Bool) :
    Program (Shape R) WriteDisposition := do
  if !(← ask record answer) then
    .step (become .clean)
    pure .failed
  else present codec record

def publish (codec : Codec R) (record : R) (paths : RecordPaths) (answer : Option Bool) :
    Program (Shape R) WriteDisposition := do
  if nameTooLong paths.temporary then pure .failed
  else
    .step (become (.writing record []))
    writeAll record [] (codec.bytes record)
    .step (stage record)
    commit codec record answer

def write (codec : Codec R) (record : R) (paths : RecordPaths)
    (prepublish : Option Prepublish) : Program (Shape R) WriteDisposition := do
  if !(← ask record (prepublish.map (·.start))) then pure .failed
  else
    match ← settle codec with
    | none => pure .failed
    | some recovered =>
        match recovered.get? (codec.recordId record) with
        | some found =>
            pure (if recordsEquivalent codec found record then .recorded else .conflicted)
        | none =>
            match ← .look fun shape => shape.visible (codec.target record) with
            | some existing =>
                pure (if recordsEquivalent codec existing record then .replayed else .conflicted)
            | none =>
                if !(← ask record (prepublish.map (·.recovered))) then pure .failed
                else publish codec record paths (prepublish.map (·.commit))

/-- The whole call; nothing happens where it is turned away. -/
def call (config : Config) (codec : Codec R) (request : WriteCall R) :
    Program (Shape R) WriteDisposition :=
  if !request.optionsValid then pure .invalid
  else if !request.codecAvailable then pure .failed
  else if canonicalSerializedRecord config codec request.record = none then pure .invalid
  else if !request.directoriesSafe then pure .failed
  else
    match recordPaths codec request.record with
    | none => pure .invalid
    | some paths =>
        if !request.lockAcquired then pure .failed
        else write codec request.record paths request.prepublish

end Shape

/-! What the files of a record hold, and what they are called. -/

variable {config : Config} {codec : Codec R} {record : R} {paths : RecordPaths}

structure Codec.Canonical (codec : Codec R) : Prop where
  identity : ∀ record, (parseJson (codec.serialize record)).bind codec.parse = some record
  formed : ∀ record, wellFormed (codec.serialize record) = true
  named : ∀ left right, codec.recordId left = codec.recordId right →
    codec.recordFileName left = codec.recordFileName right

structure Writable (config : Config) (codec : Codec R) (record : R) (paths : RecordPaths) :
    Prop where
  named : recordPaths codec record = some paths
  canonical : canonicalSerializedRecord config codec record = some (codec.serialize record)

theorem serialized_eq {serialized : JsString}
    (canonical : canonicalSerializedRecord config codec record = some serialized) :
    serialized = codec.serialize record := by
  unfold canonicalSerializedRecord at canonical
  dsimp only at canonical
  split_ifs at canonical
  cases parsed : (parseJson (codec.serialize record)).bind codec.parse with
  | none =>
      rw [parsed] at canonical
      cases canonical
  | some other =>
      rw [parsed] at canonical
      dsimp only at canonical
      split_ifs at canonical
      exact (Option.some.inj canonical).symm

section

variable (writable : Writable config codec record paths)
include writable

theorem Writable.line :
    ∃ front, codec.serialize record = front ++ [0x0A] ∧ front ≠ [] ∧ 0x0A ∉ front := by
  have canonical := writable.canonical
  unfold canonicalSerializedRecord at canonical
  dsimp only at canonical
  split_ifs at canonical with refused
  simp only [Bool.or_eq_true, decide_eq_true_eq, not_or, Bool.not_eq_true', isOneLine,
    Bool.not_eq_false, Bool.and_eq_true, Nat.not_lt] at refused
  obtain ⟨⟨⟨long, last, single⟩, -⟩, -⟩ := refused
  obtain ⟨front, split⟩ := List.getLast?_eq_some_iff.mp last
  refine ⟨front, split, ?_, ?_⟩
  · rintro rfl
    rw [split] at long
    simp at long
  · rw [split, List.dropLast_concat] at single
    simpa using single

theorem Writable.bytes (canonical : codec.Canonical) :
    ∃ front, codec.bytes record = front ++ [0x0A] ∧ front ≠ [] ∧ 0x0A ∉ front := by
  obtain ⟨front, split, some, single⟩ := writable.line
  have formed := canonical.formed record
  rw [split] at formed
  refine ⟨utf8Encode front, ?_, ?_, newline_not_mem_utf8Encode single⟩
  · rw [Codec.bytes, split, utf8Encode_line formed]
  · intro none
    apply some
    have back := utf8Decode_utf8Encode (wellFormed_of_concat (by decide) formed)
    rw [none] at back
    exact back.symm

theorem Writable.length_le :
    (codec.bytes record).length ≤ config.maxRecordBytes := by
  have canonical := writable.canonical
  unfold canonicalSerializedRecord at canonical
  dsimp only at canonical
  split_ifs at canonical with refused
  simp only [Bool.or_eq_true, decide_eq_true_eq, not_or, Nat.not_lt] at refused
  exact refused.1.2

theorem recordOfBytes_bytes (canonical : codec.Canonical) :
    recordOfBytes config codec (codec.bytes record) = some record := by
  obtain ⟨front, split, some, -⟩ := writable.bytes canonical
  obtain ⟨line, serialized, -, single⟩ := writable.line
  have long : 2 ≤ (codec.bytes record).length := by
    rw [split, List.length_append]
    have positive := List.length_pos_iff.mpr some
    change 2 ≤ front.length + 1
    omega
  have decoded : utf8Decode (codec.bytes record) = codec.serialize record :=
    utf8Decode_utf8Encode (canonical.formed record)
  have oneLine : isOneLine (codec.serialize record) = true := by
    rw [isOneLine, serialized, List.getLast?_concat, List.dropLast_concat]
    simpa using single
  have small : ¬ ((codec.bytes record).length < 2 ||
      config.maxRecordBytes < (codec.bytes record).length : Bool) = true := by
    have bound := writable.length_le
    rw [Bool.or_eq_true, decide_eq_true_eq, decide_eq_true_eq]
    omega
  rw [recordOfBytes, if_neg small]
  dsimp only
  rw [decoded, ← Codec.bytes, bne_self_eq_false, oneLine, Bool.not_true, Bool.or_false,
    if_neg Bool.false_ne_true, canonical.identity record]
  dsimp only
  rw [if_pos rfl]

theorem recordOfBytes_partial
    (canonical : codec.Canonical) {written : Bytes} (begun : written <+: codec.bytes record)
    (unfinished : written ≠ codec.bytes record) : recordOfBytes config codec written = none := by
  obtain ⟨front, split, -, single⟩ := writable.bytes canonical
  have noNewline : 0x0A ∉ written := by
    intro member
    rw [split] at begun unfinished
    rcases List.prefix_concat_iff.mp begun with whole | inside
    · exact unfinished whole
    · exact single (inside.subset member)
  unfold recordOfBytes
  split_ifs with size
  · rfl
  · dsimp only
    split_ifs with refused
    · rfl
    · exfalso
      simp only [Bool.or_eq_true, not_or, Bool.not_eq_true', Bool.not_eq_false, bne_iff_ne,
        ne_eq, not_not, isOneLine, Bool.and_eq_true, decide_eq_true_eq] at refused
      obtain ⟨same, last, -⟩ := refused
      obtain ⟨line, ends⟩ := List.getLast?_eq_some_iff.mp last
      have formed := wellFormed_utf8Decode written
      rw [ends] at formed same
      rw [utf8Encode_line formed] at same
      apply noNewline
      rw [same]
      exact List.mem_append_right _ List.mem_cons_self

end

/-! Names. -/

section

variable (named : recordPaths codec record = some paths)
include named

theorem recordPaths_some :
    paths.target = codec.target record ∧ paths.temporary = paths.stage ++ js ".tmp" ∧
      safePathComponent paths.stage = true ∧
      ∃ middle, paths.stage = js "." ++ middle ++ js ".stage" := by
  unfold recordPaths at named
  dsimp only at named
  split_ifs at named with refused wrong
  cases named
  rw [Bool.not_eq_true', Bool.not_eq_false] at wrong
  refine ⟨rfl, rfl, wrong, codec.recordId record ++ js "." ++ codec.stageToken record, ?_⟩
  simp only [List.append_assoc]

theorem stage_head :
    paths.stage.head? = some 0x2E := by
  obtain ⟨-, -, -, middle, split⟩ := recordPaths_some named
  rw [split, List.append_assoc]
  rfl

theorem stage_suffix :
    endsWith paths.stage (js ".stage") = true ∧ endsWith paths.stage (js ".stage.tmp") = false := by
  obtain ⟨-, -, -, middle, split⟩ := recordPaths_some named
  constructor
  · rw [endsWith, List.isSuffixOf_iff_suffix, split]
    exact List.suffix_append _ _
  · rw [endsWith, ← Bool.not_eq_true, List.isSuffixOf_iff_suffix]
    rintro ⟨front, same⟩
    have last := congrArg List.getLast? same
    rw [split, List.getLast?_append_of_ne_nil _ (by decide),
      List.getLast?_append_of_ne_nil _ (by decide)] at last
    revert last
    decide +kernel

theorem temporary_head :
    paths.temporary.head? = some 0x2E := by
  rw [(recordPaths_some named).2.1, List.head?_append, stage_head named]
  rfl

theorem temporary_suffix :
    endsWith paths.temporary (js ".stage.tmp") = true := by
  obtain ⟨-, temporary, -, middle, split⟩ := recordPaths_some named
  have spelled : js ".stage.tmp" = js ".stage" ++ js ".tmp" := by decide +kernel
  rw [endsWith, List.isSuffixOf_iff_suffix, temporary, split, spelled, List.append_assoc]
  exact List.suffix_append _ _

theorem temporary_ne_stage :
    paths.temporary ≠ paths.stage := by
  intro same
  have long := congrArg List.length (recordPaths_some named).2.1
  rw [same, List.length_append] at long
  change paths.stage.length = paths.stage.length + 4 at long
  omega

theorem temporary_safe
    (short : nameTooLong paths.temporary = false) : safePathComponent paths.temporary = true := by
  obtain ⟨-, temporary, safe, -⟩ := recordPaths_some named
  have units := length_le_utf8Encode paths.temporary
  rw [nameTooLong, decide_eq_false_iff_not, Nat.not_lt] at short
  simp only [safePathComponent, Bool.and_eq_true, decide_eq_true_eq, Bool.not_eq_true',
    bne_iff_ne] at safe ⊢
  obtain ⟨⟨⟨⟨⟨positive, -⟩, noSlash⟩, -⟩, -⟩, noNull⟩ := safe
  have long : 5 ≤ paths.temporary.length := by
    rw [temporary, List.length_append]
    change 5 ≤ paths.stage.length + 4
    omega
  refine ⟨⟨⟨⟨⟨by omega, by omega⟩, ?_⟩, ?_⟩, ?_⟩, ?_⟩
  · rw [temporary, List.contains_append, noSlash]
    decide +kernel
  · rintro same
    rw [same] at long
    revert long
    decide +kernel
  · rintro same
    rw [same] at long
    revert long
    decide +kernel
  · rw [temporary, List.contains_append, noNull]
    decide +kernel

end

end AshlrHub.Records

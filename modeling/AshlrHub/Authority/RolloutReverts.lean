import AshlrHub.Authority.RolloutHistory

namespace AshlrHub.Authority

open Js

/-! A red merge holds its stage until its revert is on the ledger, and a revert is charged to
the stage of the merge it names. -/

section Rows

variable (id : JsString) (entry : LedgerEntry)

def Merges : Prop :=
  ∃ row, evidenceOf entry = some row ∧ row.kind = .mergeLanded ∧ row.landingId = some id

def Reports (verdict : Verdict) : Prop :=
  ∃ row, evidenceOf entry = some row ∧ row.kind = .postMergeResult ∧
    row.landingId = some id ∧ row.verdict = some verdict

def Settles : Prop :=
  ∃ row, evidenceOf entry = some row ∧ settles row = some id

end Rows

structure RevertedRed (before : List LedgerEntry) (red : LedgerEntry)
    (middle : List LedgerEntry) (revert : LedgerEntry) (after : List LedgerEntry)
    (id : JsString) (redMs revertMs : ℤ) : Prop where
  verdict : Reports id red .red
  last : ∀ entry ∈ middle ++ revert :: after, ∀ verdict, ¬ Reports id entry verdict
  reverts : Settles id revert
  redAt : dateParse red.at' = some redMs
  revertAt : dateParse revert.at' = some revertMs
  inTime : revertMs ≤ redMs + revertSettleMs

def MergedSince (position : RolloutPositionInternal) (id : JsString)
    (entries : List LedgerEntry) : Prop :=
  ∃ entry ∈ entries, Merges id entry ∧ position.entrySeq < entry.seq

def Advances (snapshot : LedgerSnapshot) (grant : StandingGrantV1) (nowMs : ℤ) : Prop :=
  ∃ result row, stepRolloutUnderLock snapshot grant nowMs = some (result, some row) ∧
    row.kind = .rolloutAdvanced

theorem advances_decided {snapshot : LedgerSnapshot} {grant : StandingGrantV1} {nowMs : ℤ}
    (advances : Advances snapshot grant nowMs) :
    ∃ position evaluation, rolloutPositionFor grant snapshot.index = some position ∧
      evaluateRollout grant position snapshot.index.evidence nowMs = some evaluation ∧
      evaluation.decision = .advance := by
  obtain ⟨result, row, stepped, kind⟩ := advances
  unfold stepRolloutUnderLock at stepped
  simp only [Option.bind_eq_bind, Option.bind_eq_some_iff] at stepped
  obtain ⟨-, -, position, found, evaluation, evaluated, moved⟩ := stepped
  refine ⟨position, evaluation, found, evaluated, ?_⟩
  cases decision : evaluation.decision with
  | advance => rfl
  | hold =>
      rw [decision] at moved
      cases moved
  | regress =>
      simp only [decision, Option.bind_eq_some_iff] at moved
      obtain ⟨target, -, made⟩ := moved
      cases made
      cases kind

section Settling

variable {rows : List LedgerEvidenceRow} {id : JsString}

theorem mem_foldl_addToSet {ids set : List JsString} :
    id ∈ ids.foldl (fun set id => addToSet id set) set ↔ id ∈ set ∨ id ∈ ids := by
  induction ids generalizing set with
  | nil => simp
  | cons first ids ih =>
      rw [List.foldl_cons, ih, mem_addToSet, List.mem_cons]
      tauto

theorem mem_stageLandingIds :
    id ∈ stageLandingIds rows ↔
      ∃ row ∈ rows, row.kind = .mergeLanded ∧ row.landingId = some id := by
  rw [stageLandingIds, mem_foldl_addToSet, List.mem_filterMap]
  simp [rowsOf, and_assoc]

def reportsOn (id : JsString) (row : LedgerEvidenceRow) : Prop :=
  row.kind = .postMergeResult ∧ row.landingId = some id ∧ row.verdict ≠ none

theorem enterVerdict_get? {landingIds : List JsString} {row : LedgerEvidenceRow}
    {verdicts : JsMap JsString (Verdict × JsString)} (other : ¬ reportsOn id row) :
    (enterVerdict landingIds verdicts row).get? id = verdicts.get? id := by
  unfold enterVerdict
  split
  · next named verdict landing reported =>
    split_ifs with entered
    · have different : id ≠ named := by
        rintro rfl
        exact other ⟨entered.1, landing, by simp [reported]⟩
      rw [JsMap.get?_set_ne different]
    · rfl
  · rfl

theorem foldl_enterVerdict_get? {landingIds : List JsString} :
    {rows : List LedgerEvidenceRow} → {verdicts : JsMap JsString (Verdict × JsString)} →
    (∀ row ∈ rows, ¬ reportsOn id row) →
    (rows.foldl (enterVerdict landingIds) verdicts).get? id = verdicts.get? id
  | [], _, _ => rfl
  | row :: rows, verdicts, others => by
      rw [List.foldl_cons, foldl_enterVerdict_get? fun other member =>
        others other (List.mem_cons_of_mem _ member)]
      exact enterVerdict_get? (others row List.mem_cons_self)

theorem stageVerdicts_last {front back : List LedgerEvidenceRow} {row : LedgerEvidenceRow}
    {verdict : Verdict} (kind : row.kind = .postMergeResult) (landing : row.landingId = some id)
    (reported : row.verdict = some verdict)
    (listed : id ∈ stageLandingIds (front ++ row :: back))
    (last : ∀ other ∈ back, ¬ reportsOn id other) :
    (stageVerdicts (front ++ row :: back)).get? id = some (verdict, row.at') := by
  rw [stageVerdicts, List.foldl_append, List.foldl_cons, foldl_enterVerdict_get? last,
    enterVerdict, landing, reported]
  dsimp only
  rw [if_pos ⟨kind, listed⟩, JsMap.get?_set_self]

theorem not_advance_of_settling {grant : StandingGrantV1} {position : RolloutPositionInternal}
    {evidence : List LedgerEvidenceRow} {nowMs : ℤ} {evaluation : RolloutEvaluation}
    (evaluated : evaluateRollout grant position evidence nowMs = some evaluation)
    {entry : JsString × Verdict × JsString}
    (member : entry ∈ stageVerdicts (stageRows position evidence))
    (waits : settling (stageRows position evidence) nowMs entry = true) :
    evaluation.decision ≠ .advance := by
  cases there : grant.stages[position.stageIndex]? with
  | none => simp [evaluateRollout, there] at evaluated
  | some stage =>
      obtain ⟨-, unmet, decision⟩ := evaluateRollout_eq there evaluated
      have counted : 0 < revertsSettling (stageRows position evidence) nowMs :=
        List.countP_pos_iff.mpr ⟨entry, member, waits⟩
      have listed : UnmetCriterion.revertsSettling
          (revertsSettling (stageRows position evidence) nowMs) ∈ evaluation.progress.unmet := by
        rw [unmet, unmetCriteria, if_pos counted]
        simp
      have some : evaluation.progress.unmet ≠ [] := List.ne_nil_of_mem listed
      rw [decision]
      split_ifs with broken met
      · simp
      · exact absurd met.1 some
      · simp

end Settling

section Ledger

variable {grant : StandingGrantV1}

variable {position : RolloutPositionInternal}

theorem mem_stageRows {evidence : List LedgerEvidenceRow} {row : LedgerEvidenceRow} :
    row ∈ stageRows position evidence ↔ row ∈ evidence ∧ position.entrySeq < row.seq := by
  rw [stageRows, List.mem_filter, decide_eq_true_eq]

theorem stageRows_split {before after : List LedgerEntry}
    {entry : LedgerEntry} {row : LedgerEvidenceRow} (evidence : evidenceOf entry = some row)
    (late : position.entrySeq < entry.seq) :
    stageRows position (ledgerEvidence (before ++ entry :: after)) =
      stageRows position (ledgerEvidence before) ++
        row :: stageRows position (ledgerEvidence after) := by
  have seq : position.entrySeq < row.seq := (evidenceOf_seq evidence).1 ▸ late
  rw [ledgerEvidence, List.filterMap_append, List.filterMap_cons_some evidence, stageRows,
    List.filter_append, List.filter_cons_of_pos (by simpa using seq)]
  rfl

theorem seq_lt_of_contiguous {before after : List LedgerEntry} {entry earlier : LedgerEntry}
    (contiguous : Contiguous 0 (before ++ entry :: after)) (member : earlier ∈ before) :
    earlier.seq < entry.seq := by
  obtain ⟨front, seq, -⟩ := contiguous_append.mp contiguous
  obtain ⟨i, bound, rfl⟩ := List.getElem_of_mem member
  have placed := seq_of_contiguous front (List.getElem?_eq_getElem bound)
  omega

theorem not_advances_between {before part rest after : List LedgerEntry}
    {red revert : LedgerEntry} {id : JsString} {redMs revertMs nowMs : ℤ}
    {snapshot : LedgerSnapshot}
    (contiguous : Contiguous 0 (before ++ red :: (part ++ rest) ++ revert :: after))
    (reverted : RevertedRed before red (part ++ rest) revert after id redMs revertMs)
    (first : ∀ entry ∈ before ++ red :: (part ++ rest), ¬ Settles id entry)
    (index : snapshot.index = ledgerIndex (before ++ red :: part))
    (stood : rolloutPositionFor grant snapshot.index = some position)
    (merged : MergedSince position id before) (early : nowMs < revertMs) :
    ¬ Advances snapshot grant nowMs := by
  intro advances
  obtain ⟨same, evaluation, also, evaluated, decision⟩ := advances_decided advances
  obtain rfl : position = same := Option.some.inj (stood.symm.trans also)
  obtain ⟨redRow, redEvidence, kind, landing, isRed⟩ := reverted.verdict
  obtain ⟨merge, mergeMember, ⟨mergeRow, mergeEvidence, mergeKind, mergeLanding⟩, since⟩ := merged
  have redLate : position.entrySeq < red.seq := by
    rw [List.append_assoc, List.cons_append] at contiguous
    exact since.trans (seq_lt_of_contiguous contiguous mergeMember)
  have evidence : snapshot.index.evidence = ledgerEvidence (before ++ red :: part) := by
    rw [index, ledgerIndex_evidence]
  have rows := @stageRows_split position before part red _ redEvidence redLate
  have listed : id ∈ stageLandingIds (stageRows position snapshot.index.evidence) := by
    refine mem_stageLandingIds.mpr ⟨mergeRow, ?_, mergeKind, mergeLanding⟩
    rw [evidence, mem_stageRows, mem_ledgerEvidence, (evidenceOf_seq mergeEvidence).1]
    exact ⟨⟨merge, List.mem_append_left _ mergeMember, mergeEvidence⟩, since⟩
  have last : ∀ other ∈ stageRows position (ledgerEvidence part), ¬ reportsOn id other := by
    rintro other member ⟨otherKind, otherLanding, reported⟩
    obtain ⟨entry, inPart, otherEvidence⟩ :=
      mem_ledgerEvidence.mp (mem_stageRows.mp member).1
    obtain ⟨verdict, given⟩ := Option.ne_none_iff_exists'.mp reported
    exact reverted.last entry (List.mem_append_left _ (List.mem_append_left _ inPart)) verdict
      ⟨other, otherEvidence, otherKind, otherLanding, given⟩
  have stands := @stageVerdicts_last id _ (stageRows position (ledgerEvidence part)) _ _
    kind landing isRed (by rw [← rows, ← evidence]; exact listed) last
  rw [← rows, ← evidence] at stands
  refine not_advance_of_settling evaluated (JsMap.mem_of_get? stands) ?_ decision
  have unsettled : id ∉ settled (stageRows position snapshot.index.evidence) := by
    intro member
    obtain ⟨row, inRows, settles⟩ := List.mem_filterMap.mp member
    rw [evidence] at inRows
    obtain ⟨entry, inSeen, rowEvidence⟩ := mem_ledgerEvidence.mp (mem_stageRows.mp inRows).1
    refine first entry ?_ ⟨row, rowEvidence, settles⟩
    rcases List.mem_append.mp inSeen with inBefore | inRest
    · exact List.mem_append_left _ inBefore
    · rw [← List.cons_append]
      exact List.mem_append_right _ (List.mem_append_left _ inRest)
  have redTime : dateParse redRow.at' = some redMs := by
    rw [(evidenceOf_seq redEvidence).2]
    exact reverted.redAt
  have inTime := reverted.inTime
  simp only [settling, redTime, List.contains_eq_mem, unsettled, decide_true, decide_false,
    Bool.not_false, Bool.true_and, decide_eq_true_eq]
  omega

def ChargedAt (grant : StandingGrantV1) (entries : List LedgerEntry)
    (position : RolloutPositionInternal) (row : LedgerEvidenceRow) : Prop :=
  rolloutPositionFor grant (ledgerIndex entries) = some position ∧
    row ∈ chargedReverts (stageRows position (ledgerEvidence entries))

variable {entries more : List LedgerEntry} {position later : RolloutPositionInternal}
  {row : LedgerEvidenceRow}

theorem ChargedAt.entered (charged : ChargedAt grant entries position row) :
    row ∈ ledgerEvidence entries ∧ position.entrySeq < row.seq :=
  mem_stageRows.mp (List.mem_filter.mp (List.mem_filter.mp charged.2).1).1

theorem seq_lt_length (contiguous : Contiguous 0 entries) (member : row ∈ ledgerEvidence entries) :
    row.seq < entries.length := by
  obtain ⟨entry, inEntries, evidence⟩ := mem_ledgerEvidence.mp member
  obtain ⟨i, bound, rfl⟩ := List.getElem_of_mem inEntries
  rw [(evidenceOf_seq evidence).1, seq_of_contiguous contiguous (List.getElem?_eq_getElem bound)]
  omega

theorem ChargedAt.same (contiguous : Contiguous 0 (entries ++ more))
    (charged : ChargedAt grant entries position row)
    (again : ChargedAt grant (entries ++ more) later row) : position = later := by
  have bound := seq_lt_length (contiguous_append.mp contiguous).1 charged.entered.1
  have stood := rolloutPositionFor_part contiguous again.1 (again.entered.2.trans bound)
  exact Option.some.inj (charged.1.symm.trans stood)

theorem ChargedAt.madeThere {id : JsString} (contiguous : Contiguous 0 entries)
    (charged : ChargedAt grant entries position row) (named : row.revertsLandingId = some id)
    (nonempty : id ≠ []) :
    ∃ front merge back, entries = front ++ merge :: back ∧ Merges id merge ∧
      rolloutPositionFor grant (ledgerIndex (front ++ [merge])) = some position := by
  have here := (List.mem_filter.mp charged.2).2
  have listed : id ∈ stageLandingIds (stageRows position (ledgerEvidence entries)) := by
    unfold chargedHere at here
    rw [named] at here
    cases id with
    | nil => exact absurd rfl nonempty
    | cons unit id => exact List.contains_iff_mem.mp here
  obtain ⟨mergeRow, inRows, kind, landing⟩ := mem_stageLandingIds.mp listed
  obtain ⟨inEvidence, since⟩ := mem_stageRows.mp inRows
  obtain ⟨merge, inEntries, evidence⟩ := mem_ledgerEvidence.mp inEvidence
  obtain ⟨front, back, split⟩ := List.append_of_mem inEntries
  refine ⟨front, merge, back, split, ⟨mergeRow, evidence, kind, landing⟩, ?_⟩
  have found := charged.1
  rw [split, List.append_cons] at found contiguous
  refine rolloutPositionFor_part contiguous found ?_
  obtain ⟨-, seq, -⟩ := contiguous_append.mp (contiguous_append.mp contiguous).1
  rw [(evidenceOf_seq evidence).1] at since
  rw [List.length_append, List.length_singleton]
  omega

end Ledger

/-- In every ledger: a red merge of the current stage, whose first revert row comes in time,
holds the stage until that row; and a revert that names its landing is charged to one stage,
the one in which that merge was made. -/
theorem reverts_charged_first (grant : StandingGrantV1) {ledger : List LedgerEntry}
    (contiguous : Contiguous 0 ledger) :
    (∀ before red part rest revert after id redMs revertMs nowMs position
        (snapshot : LedgerSnapshot),
      ledger = before ++ red :: (part ++ rest) ++ revert :: after →
      RevertedRed before red (part ++ rest) revert after id redMs revertMs →
      (∀ entry ∈ before ++ red :: (part ++ rest), ¬ Settles id entry) →
      snapshot.index = ledgerIndex (before ++ red :: part) →
      rolloutPositionFor grant snapshot.index = some position →
      MergedSince position id before → nowMs < revertMs →
      ¬ Advances snapshot grant nowMs) ∧
    ∀ first second position other row id,
      first <+: ledger → second <+: ledger → row.revertsLandingId = some id → id ≠ [] →
      ChargedAt grant first position row → ChargedAt grant second other row →
      position = other ∧ ∃ front merge back, first = front ++ merge :: back ∧
        Merges id merge ∧ rolloutPositionFor grant (ledgerIndex (front ++ [merge])) =
          some position := by
  constructor
  · rintro before red part rest revert after id redMs revertMs nowMs position snapshot rfl
      reverted unsettled index stood merged early
    exact not_advances_between contiguous reverted unsettled index stood merged early
  · intro first second position other row id firstPart secondPart named nonempty charged again
    have within : ∀ {part : List LedgerEntry}, part <+: ledger → Contiguous 0 part := by
      rintro part ⟨more, rfl⟩
      exact (contiguous_append.mp contiguous).1
    refine ⟨?_, charged.madeThere (within firstPart) named nonempty⟩
    rcases List.prefix_or_prefix_of_prefix firstPart secondPart with ⟨more, rfl⟩ | ⟨more, rfl⟩
    · exact charged.same (within secondPart) again
    · exact (again.same (within firstPart) charged).symm

/-! A merge whose revert failed is reported red again, and its revert lands after all. -/

def ladderEntry (seq : ℕ) (at' : String) (kind : LedgerEventKind)
    (data : List (JsString × JsValue)) : LedgerEntry :=
  ⟨seq, js at', .daemon, some twoRungs.grantId, some ladderRepo, [], kind, data, []⟩

def acceptedEntries : List LedgerEntry :=
  [ladderEntry 0 "2026-09-01T00:00:00.000Z" .ledgerGenesis [],
    ladderEntry 1 "2026-09-01T00:00:00.000Z" .grantAccepted
      [(js "grantId", .str twoRungs.grantId), (js "grantSeq", jsInt 1)],
    ladderEntry 2 "2026-09-02T00:00:00.000Z" .mergeLanded [(js "id", .str (js "one"))]]

def failedEntries : List LedgerEntry :=
  acceptedEntries ++
    [ladderEntry 3 "2026-09-02T01:00:00.000Z" .postMergeResult
        [(js "landingId", .str (js "one")), (js "verdict", .str (js "red"))],
      ladderEntry 4 "2026-09-02T02:00:00.000Z" .revertFailed [(js "landingId", .str (js "one"))]]

def redEntry (seq : ℕ) : LedgerEntry :=
  ladderEntry seq "2026-09-02T03:00:00.000Z" .postMergeResult
    [(js "landingId", .str (js "one")), (js "verdict", .str (js "red"))]

def revertEntry (seq : ℕ) : LedgerEntry :=
  ladderEntry seq "2026-09-02T03:30:00.000Z" .revertLanded
    [(js "id", .str (js "undo")), (js "revertsLandingId", .str (js "one"))]

def snapshotAfter (entries : List LedgerEntry) : LedgerSnapshot :=
  ⟨.ok, none, none, none, ledgerIndex entries, none⟩

theorem redEntry_reverted (before : List LedgerEntry) (seq : ℕ) :
    RevertedRed before (redEntry seq) [] (revertEntry (seq + 1)) [] (js "one")
      1788318000000 1788319800000 where
  verdict := ⟨_, rfl, rfl, rfl, rfl⟩
  last := by
    intro entry member verdict ⟨row, evidence, kind, _⟩
    obtain rfl : entry = revertEntry (seq + 1) := by simpa using member
    obtain rfl := Option.some.inj evidence
    cases kind
  reverts := ⟨_, rfl, rfl⟩
  redAt := show dateParse (js "2026-09-02T03:00:00.000Z") = _ by decide +kernel
  revertAt := show dateParse (js "2026-09-02T03:30:00.000Z") = _ by decide +kernel
  inTime := by decide

/-- The stage advances between the second red verdict and the revert: the row that gave the
first revert up has settled the merge. -/
theorem advances_afterFailed :
    Contiguous 0 (failedEntries ++ redEntry 5 :: ([] ++ []) ++ [revertEntry 6]) ∧
      RevertedRed failedEntries (redEntry 5) [] (revertEntry 6) [] (js "one")
        1788318000000 1788319800000 ∧
      (∃ position, rolloutPositionFor twoRungs (ledgerIndex (failedEntries ++ [redEntry 5])) =
        some position ∧ MergedSince position (js "one") failedEntries) ∧
      Advances (snapshotAfter (failedEntries ++ [redEntry 5])) twoRungs 1788319000000 := by
  refine ⟨by repeat' constructor, redEntry_reverted _ 5, ⟨⟨0, js "2a",
    js "2026-09-01T00:00:00.000Z", 1⟩, by decide +kernel, ladderEntry 2 "2026-09-02T00:00:00.000Z"
      .mergeLanded [(js "id", .str (js "one"))], by simp [failedEntries, acceptedEntries],
      ⟨_, rfl, rfl, rfl⟩, by decide⟩, ?_⟩
  have moved : ((stepRolloutUnderLock (snapshotAfter (failedEntries ++ [redEntry 5])) twoRungs
      1788319000000).map fun step => step.2.map (·.kind)) = some (some .rolloutAdvanced) := by
    decide +kernel
  obtain ⟨⟨result, row⟩, stepped, made⟩ := Option.map_eq_some_iff.mp moved
  obtain ⟨written, rfl, kind⟩ := Option.map_eq_some_iff.mp made
  exact ⟨result, written, stepped, kind⟩

/-- Without the failed revert the stage waits. -/
theorem reverts_charged_first_red :
    ¬ Advances (snapshotAfter (acceptedEntries ++ [redEntry 3])) twoRungs 1788319000000 := by
  have contiguous : Contiguous 0 (acceptedEntries ++ redEntry 3 :: ([] ++ []) ++
      revertEntry 4 :: []) := by
    repeat' constructor
  refine (reverts_charged_first twoRungs contiguous).1 acceptedEntries (redEntry 3) [] []
    (revertEntry 4) [] (js "one") 1788318000000 1788319800000 1788319000000
    ⟨0, js "2a", js "2026-09-01T00:00:00.000Z", 1⟩ _ rfl (redEntry_reverted _ 3) ?_ rfl
    (by decide +kernel) ?_ (by decide)
  · intro entry member ⟨row, evidence, settled⟩
    simp only [acceptedEntries, List.append_nil, List.cons_append, List.nil_append,
      List.mem_cons, List.not_mem_nil, or_false] at member
    rcases member with rfl | rfl | rfl | rfl <;> cases evidence <;> cases settled
  · exact ⟨ladderEntry 2 "2026-09-02T00:00:00.000Z" .mergeLanded [(js "id", .str (js "one"))],
      by simp [acceptedEntries], ⟨_, rfl, rfl, rfl⟩, by decide⟩

end AshlrHub.Authority

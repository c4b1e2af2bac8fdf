import AshlrHub.Authority.Rollout

namespace AshlrHub.Authority

open Js

/-! The index of a whole ledger: its evidence, and where a grant stands after each row. -/

section

variable (entries : List LedgerEntry)

def ledgerIndex : LedgerAuthorityIndex :=
  entries.foldl indexEntry emptyIndex

def evidenceOf (entry : LedgerEntry) : Option LedgerEvidenceRow :=
  (evidenceKind entry).map (evidenceRow entry)

def ledgerEvidence : List LedgerEvidenceRow :=
  entries.filterMap evidenceOf

theorem ledgerIndex_snoc (entry : LedgerEntry) :
    ledgerIndex (entries ++ [entry]) = indexEntry (ledgerIndex entries) entry := by
  rw [ledgerIndex, List.foldl_append]
  rfl

theorem indexEntry_evidence (index : LedgerAuthorityIndex) (entry : LedgerEntry) :
    (indexEntry index entry).evidence = index.evidence ++ (evidenceOf entry).toList := by
  unfold indexEntry evidenceOf evidenceKind
  cases entry.kind <;> dsimp only
  case mergeLanded => split_ifs <;> rfl
  all_goals
    first
      | rfl
      | exact (List.append_nil _).symm
      | (refine Eq.trans ?_ (List.append_nil _).symm; split <;> rfl)
      | (refine Eq.trans ?_ (List.append_nil _).symm; unfold indexRollout; split <;> rfl)

theorem ledgerIndex_evidence : (ledgerIndex entries).evidence = ledgerEvidence entries := by
  induction entries using List.reverseRecOn with
  | nil => rfl
  | append_singleton entries entry ih =>
      rw [ledgerIndex_snoc, indexEntry_evidence, ih, ledgerEvidence, ledgerEvidence,
        List.filterMap_append]
      cases found : evidenceOf entry <;> simp [found]

end

theorem mem_ledgerEvidence {entries : List LedgerEntry} {row : LedgerEvidenceRow} :
    row ∈ ledgerEvidence entries ↔ ∃ entry ∈ entries, evidenceOf entry = some row :=
  List.mem_filterMap

theorem evidenceOf_seq {entry : LedgerEntry} {row : LedgerEvidenceRow}
    (evidence : evidenceOf entry = some row) : row.seq = entry.seq ∧ row.at' = entry.at' := by
  obtain ⟨kind, -, rfl⟩ := Option.map_eq_some_iff.mp evidence
  exact ⟨rfl, rfl⟩

/-! A row moves the grant, or leaves it where it stands. -/

section Moves

variable (grant : StandingGrantV1)

def standsOn (index : LedgerAuthorityIndex) :
    Option LedgerAcceptedGrant × Option LedgerRolloutPosition :=
  (index.accepted.get? grant.grantId, index.rollout.get? grant.grantId)

/-- Every acceptance so far stands before `seq`. -/
def AcceptedBefore (seq : ℕ) (index : LedgerAuthorityIndex) : Prop :=
  ∀ accepted, index.accepted.get? grant.grantId = some accepted → accepted.seq < seq

def namesGrant (entry : LedgerEntry) : Prop :=
  nonEmpty (getMember entry.data (js "grantId")) = some grant.grantId

def acceptsGrant (entry : LedgerEntry) : Prop :=
  entry.kind = .grantAccepted ∧ namesGrant grant entry ∧
    (int? (getMember entry.data (js "grantSeq"))).isSome = true

def movesGrant (entry : LedgerEntry) : Prop :=
  (entry.kind = .rolloutAdvanced ∨ entry.kind = .rolloutRegressed) ∧ namesGrant grant entry

variable {grant} {index : LedgerAuthorityIndex} {entry : LedgerEntry}

theorem indexRollout_standing (move : RolloutMove) :
    standsOn grant (indexRollout index entry move) = standsOn grant index ∨
      namesGrant grant entry ∧ (indexRollout index entry move).accepted = index.accepted ∧
        ∃ moved, (indexRollout index entry move).rollout.get? grant.grantId = some moved ∧
          moved.entrySeq = entry.seq := by
  unfold indexRollout
  split
  · next grantId stageIndex stageId named _ _ =>
    rcases eq_or_ne grant.grantId grantId with rfl | other
    · exact .inr ⟨named, rfl, _, JsMap.get?_set_self _ _ _, rfl⟩
    · left
      simp only [standsOn, JsMap.get?_set_ne other]
  · exact .inl rfl

theorem indexEntry_standing :
    standsOn grant (indexEntry index entry) = standsOn grant index ∨
      (acceptsGrant grant entry ∧ ∃ accepted,
        standsOn grant (indexEntry index entry) = (some accepted, none) ∧
          accepted.seq = entry.seq) ∨
      movesGrant grant entry ∧ (indexEntry index entry).accepted = index.accepted ∧
        ∃ moved, (indexEntry index entry).rollout.get? grant.grantId = some moved ∧
          moved.entrySeq = entry.seq := by
  unfold indexEntry
  split
  case h_3 kind =>
    split
    · next grantId grantSeq named numbered =>
      rcases eq_or_ne grant.grantId grantId with rfl | other
      · refine .inr (.inl ⟨⟨kind, named, by rw [numbered]; rfl⟩,
          acceptedGrant entry grant.grantId grantSeq, ?_, rfl⟩)
        simp only [standsOn, JsMap.get?_set_self, JsMap.get?_delete_self]
      · left
        simp only [standsOn, JsMap.get?_set_ne other, JsMap.get?_delete_ne other]
    · exact .inl rfl
  case h_8 kind =>
    exact (indexRollout_standing .advanced).imp_right fun moved =>
      .inr ⟨⟨.inl kind, moved.1⟩, moved.2⟩
  case h_9 kind =>
    exact (indexRollout_standing .regressed).imp_right fun moved =>
      .inr ⟨⟨.inr kind, moved.1⟩, moved.2⟩
  all_goals first | exact .inl rfl | (split <;> exact .inl rfl)

theorem rolloutPositionFor_congr {other : LedgerAuthorityIndex}
    (same : standsOn grant other = standsOn grant index) :
    rolloutPositionFor grant other = rolloutPositionFor grant index := by
  have accepted := congrArg Prod.fst same
  have rollout := congrArg Prod.snd same
  simp only [standsOn] at accepted rollout
  rw [rolloutPositionFor, rolloutPositionFor, accepted, rollout]

theorem acceptedBefore_indexEntry (before : AcceptedBefore grant entry.seq index) :
    AcceptedBefore grant (entry.seq + 1) (indexEntry index entry) := by
  intro accepted found
  rcases @indexEntry_standing grant index entry with
    same | ⟨-, latest, became, seq⟩ | ⟨-, kept, -⟩
  · exact Nat.lt_succ_of_lt (before accepted ((congrArg Prod.fst same).symm.trans found))
  · obtain rfl : latest = accepted :=
      Option.some.inj ((congrArg Prod.fst became).symm.trans found)
    omega
  · rw [kept] at found
    exact Nat.lt_succ_of_lt (before accepted found)

theorem rolloutPositionFor_indexEntry {position : RolloutPositionInternal}
    (before : AcceptedBefore grant entry.seq index)
    (found : rolloutPositionFor grant (indexEntry index entry) = some position) :
    rolloutPositionFor grant index = some position ∨ position.entrySeq = entry.seq := by
  rcases @indexEntry_standing grant index entry with
    same | ⟨-, accepted, became, seq⟩ | ⟨-, kept, moved, latest, seq⟩
  · exact .inl ((rolloutPositionFor_congr same).symm.trans found)
  · right
    have first := congrArg Prod.fst became
    have none := congrArg Prod.snd became
    simp only [standsOn] at first none
    simp only [rolloutPositionFor, first, none, Option.map_eq_some_iff] at found
    obtain ⟨stage, -, rfl⟩ := found
    exact seq
  · right
    unfold rolloutPositionFor at found
    cases accepted : index.accepted.get? grant.grantId with
    | none => simp [kept, accepted] at found
    | some latestAccepted =>
        have earlier := before latestAccepted accepted
        have late : ¬ moved.entrySeq < latestAccepted.seq := by omega
        simp only [kept, accepted, latest, late, if_false] at found
        cases there : grant.stages[moved.stageIndex]? with
        | none => simp [there] at found
        | some stage =>
            simp only [there] at found
            split_ifs at found
            obtain rfl := Option.some.inj found
            exact seq

end Moves

section Runs

variable {grant : StandingGrantV1}

theorem acceptedBefore_ledgerIndex {entries : List LedgerEntry}
    (contiguous : Contiguous 0 entries) :
    AcceptedBefore grant entries.length (ledgerIndex entries) := by
  induction entries using List.reverseRecOn with
  | nil => exact fun accepted found => by cases found
  | append_singleton entries entry ih =>
      obtain ⟨front, seq, -⟩ := contiguous_append.mp contiguous
      rw [Nat.zero_add] at seq
      have step := @acceptedBefore_indexEntry grant _ entry (seq ▸ ih front)
      rw [ledgerIndex_snoc, List.length_append, List.length_singleton]
      rwa [seq] at step

theorem rolloutPositionFor_part {part more : List LedgerEntry}
    {position : RolloutPositionInternal} (contiguous : Contiguous 0 (part ++ more))
    (found : rolloutPositionFor grant (ledgerIndex (part ++ more)) = some position)
    (entered : position.entrySeq < part.length) :
    rolloutPositionFor grant (ledgerIndex part) = some position := by
  induction more using List.reverseRecOn with
  | nil => simpa using found
  | append_singleton more entry ih =>
      rw [← List.append_assoc] at contiguous found
      obtain ⟨front, seq, -⟩ := contiguous_append.mp contiguous
      rw [ledgerIndex_snoc] at found
      have before := @acceptedBefore_ledgerIndex grant _ front
      rw [Nat.zero_add] at seq
      rcases rolloutPositionFor_indexEntry (seq ▸ before) found with stood | moved
      · exact ih front stood
      · rw [List.length_append] at seq
        omega

end Runs

/-! The rates a stage is judged by, beside the exact ones. -/

section Percent

variable {part whole bound : ℕ}

theorem le_pct_iff (positive : 0 < whole) :
    bound ≤ pct part whole ↔ bound * whole ≤ 100 * part :=
  Nat.le_div_iff_mul_le positive

theorem lt_min_pct_iff (positive : 0 < whole) :
    bound < min 100 (pct part whole) ↔ bound < 100 ∧ (bound + 1) * whole ≤ 100 * part := by
  rw [lt_min_iff, ← le_pct_iff positive]
  exact Iff.rfl

end Percent

section Criteria

variable (stage : RolloutStage) (rows : List LedgerEvidenceRow)

def mergesLanded : ℕ :=
  (rowsOf rows .mergeLanded).length

def RevertRateAbove : Prop :=
  stage.criteria.maxRevertRatePct * mergesLanded rows < 100 * (chargedReverts rows).length

def GreenEnough : Prop :=
  stage.criteria.minPostMergeGreenPct * completedWatches rows ≤ 100 * verdictCount rows .green

/-- With no finished watch there is no percentage, and the criterion asks for one. -/
def Unwatched : Prop :=
  completedWatches rows = 0 ∧ 0 < stage.criteria.minPostMergeGreenPct ∧ 0 < stage.criteria.minMerges

def GreenMet (unmet : List UnmetCriterion) : Prop :=
  .noWatchFinished ∉ unmet ∧ ∀ percent minimum, .postMergeGreen percent minimum ∉ unmet

def AboveByAPercent : Prop :=
  stage.criteria.maxRevertRatePct < 100 ∧
    (stage.criteria.maxRevertRatePct + 1) * mergesLanded rows ≤ 100 * (chargedReverts rows).length

variable {stage rows}

section

variable (merged : 0 < mergesLanded rows)
include merged

theorem aboveByAPercent_above (above : AboveByAPercent stage rows) :
    RevertRateAbove stage rows := by
  have next := above.2
  rw [Nat.add_one_mul] at next
  exact Nat.lt_of_lt_of_le (Nat.lt_add_of_pos_right merged) next

theorem revertRateBreach_isSome :
    (revertRateBreach stage rows).isSome = true ↔ AboveByAPercent stage rows := by
  have landed : 0 < (rowsOf rows .mergeLanded).length := merged
  rw [revertRateBreach, revertRatePct, if_pos landed, Option.filter_some, AboveByAPercent,
    ← lt_min_pct_iff merged]
  simp [mergesLanded]

theorem rolloutBreach_isSome (violations : rowsOf rows .sandboxViolation = [])
    (breaches : rowsOf rows .reserveBreach = []) :
    (rolloutBreach stage rows).isSome = true ↔ AboveByAPercent stage rows := by
  rw [rolloutBreach]
  simp only [violations, breaches, List.length_nil, lt_irrefl, if_false, Option.isSome_map]
  exact revertRateBreach_isSome merged

end

theorem greenMet_unmetCriteria {position : RolloutPositionInternal} {nowMs : ℤ} :
    GreenMet (unmetCriteria stage rows position nowMs) ↔ GreenMet (unmetWatches stage rows) := by
  have only : ∀ item : UnmetCriterion,
      (item = .noWatchFinished ∨ ∃ percent minimum, item = .postMergeGreen percent minimum) →
      (item ∈ unmetCriteria stage rows position nowMs ↔ item ∈ unmetWatches stage rows) := by
    intro item which
    unfold unmetCriteria
    cases rate : revertRateBreach stage rows <;>
      rcases which with rfl | ⟨percent, minimum, rfl⟩ <;> simp
  have share := fun percent minimum =>
    only (.postMergeGreen percent minimum) (.inr ⟨percent, minimum, rfl⟩)
  simp only [GreenMet, only .noWatchFinished (.inl rfl), share]

theorem greenMet_unmetWatches :
    GreenMet (unmetWatches stage rows) ↔ GreenEnough stage rows ∧ ¬ Unwatched stage rows := by
  unfold unmetWatches GreenEnough Unwatched postMergeGreenPct
  dsimp only
  rcases Nat.eq_zero_or_pos stage.criteria.minPostMergeGreenPct with none | asked
  · simp [none, GreenMet]
  rcases Nat.eq_zero_or_pos (completedWatches rows) with idle | completed
  · have green : verdictCount rows .green = 0 := by
      unfold completedWatches at idle
      omega
    rw [if_pos asked, if_neg (by omega)]
    rcases Nat.eq_zero_or_pos stage.criteria.minMerges with free | counted
    · simp [GreenMet, idle, free, green]
    · simp [GreenMet, idle, counted, asked]
  · have share := @le_pct_iff (verdictCount rows .green) _ stage.criteria.minPostMergeGreenPct
      completed
    rw [if_pos asked, if_pos completed, ← share]
    by_cases enough : stage.criteria.minPostMergeGreenPct ≤
        pct (verdictCount rows .green) (completedWatches rows)
    · simp [GreenMet, enough, completed.ne', not_lt.mpr enough]
    · simp [GreenMet, enough, completed.ne', not_le.mp enough]

end Criteria

section Decision

variable {grant : StandingGrantV1} {position : RolloutPositionInternal} {stage : RolloutStage}
  {evidence : List LedgerEvidenceRow} {nowMs : ℤ} {evaluation : RolloutEvaluation}

section

variable (there : grant.stages[position.stageIndex]? = some stage)
  (evaluated : evaluateRollout grant position evidence nowMs = some evaluation)
include there evaluated

theorem evaluateRollout_eq :
    evaluation.breach = rolloutBreach stage (stageRows position evidence) ∧
      evaluation.progress.unmet = unmetCriteria stage (stageRows position evidence) position nowMs ∧
      evaluation.decision =
        if evaluation.breach.isSome then .regress
        else if evaluation.progress.unmet = [] ∧ ¬ grant.stages.length - 1 ≤ position.stageIndex
          then .advance
        else .hold := by
  rw [evaluateRollout, there] at evaluated
  obtain rfl := Option.some.inj evaluated
  exact ⟨rfl, rfl, rfl⟩

theorem regress_iff :
    evaluation.decision = .regress ↔
      (rolloutBreach stage (stageRows position evidence)).isSome = true := by
  obtain ⟨breach, -, decision⟩ := evaluateRollout_eq there evaluated
  rw [decision, ← breach]
  by_cases broken : evaluation.breach.isSome = true
  · rw [if_pos broken]
    exact iff_of_true rfl broken
  · rw [if_neg broken]
    refine iff_of_false ?_ broken
    split_ifs <;> simp

end

theorem greenEnough_of_unwatched {rows : List LedgerEvidenceRow} (idle : Unwatched stage rows) :
    GreenEnough stage rows := by
  rw [GreenEnough, idle.1, Nat.mul_zero]
  exact Nat.zero_le _

/-- Both rates are judged as the exact rationals are, but for a revert rate above its maximum
by less than a whole percent, for one above the maximum 100, and where no watch has finished. -/
theorem evaluateRollout_exact_iff (there : grant.stages[position.stageIndex]? = some stage)
    (evaluated : evaluateRollout grant position evidence nowMs = some evaluation)
    (merged : 0 < mergesLanded (stageRows position evidence))
    (violations : rowsOf (stageRows position evidence) .sandboxViolation = [])
    (breaches : rowsOf (stageRows position evidence) .reserveBreach = []) :
    ((evaluation.decision = .regress ↔ RevertRateAbove stage (stageRows position evidence)) ∧
        (GreenMet evaluation.progress.unmet ↔ GreenEnough stage (stageRows position evidence))) ↔
      (RevertRateAbove stage (stageRows position evidence) →
        AboveByAPercent stage (stageRows position evidence)) ∧
        ¬ Unwatched stage (stageRows position evidence) := by
  rw [regress_iff there evaluated, rolloutBreach_isSome merged violations breaches,
    (evaluateRollout_eq there evaluated).2.1, greenMet_unmetCriteria]
  rw [greenMet_unmetWatches]
  constructor
  · intro both
    exact ⟨both.1.mpr, fun idle => (both.2.mpr (greenEnough_of_unwatched idle)).2 idle⟩
  · rintro ⟨rate, watched⟩
    exact ⟨⟨aboveByAPercent_above merged, rate⟩, and_iff_left watched⟩

end Decision

/-! One revert of three merges, where a third of them is too many. -/

def ladderRepo : JsString := js "ashlrai/ashlrcode"

def thirdStage : RolloutStage where
  id := js "2a"
  repos := [⟨ladderRepo, .merge⟩]
  engines := [.local]
  maxRisk := .low
  maxFiles := 4
  maxLines := 150
  maxMergesPerRepoPerDay := 4
  leaderClasses := []
  criteria := ⟨1, 0, 33, 0⟩

def twoRungs : StandingGrantV1 where
  grantId := List.replicate 32 0x61
  grantSeq := 1
  keyId := js "custody"
  issuedAt := js "2026-09-01T00:00:00.000Z"
  expiresAt := js "2026-09-15T00:00:00.000Z"
  hostBinding := List.replicate 64 0x61
  authoritySurfaceDigest := List.replicate 64 0x62
  repos := [⟨ladderRepo, .merge, .server, .low, 4⟩]
  merge := ⟨false, 4, 150, .proposeOnly⟩
  spend := ⟨.balanced, 0, []⟩
  engines := [.local]
  leader := ⟨[], 30⟩
  conductorGoals := false
  stages := [thirdStage, { thirdStage with id := js "full" }]
  websitePublication := none

def onFirstRung : RolloutPositionInternal :=
  ⟨0, js "2a", js "2026-09-01T00:00:00.000Z", 1⟩

def landedRow (seq : ℕ) (kind : LedgerEvidenceKind) (id : String) (reverts : Option JsString) :
    LedgerEvidenceRow :=
  ⟨seq, js "2026-09-02T00:00:00.000Z", kind, some ladderRepo, some (js id), none, reverts, none,
    none⟩

def thirdReverted : List LedgerEvidenceRow :=
  [landedRow 2 .mergeLanded "one" none, landedRow 3 .mergeLanded "two" none,
    landedRow 4 .mergeLanded "three" none, landedRow 5 .revertLanded "undo" (some (js "one"))]

/-- A third of the merges is above 33 percent, and the ladder climbs. -/
theorem evaluateRollout_third :
    ((evaluateRollout twoRungs onFirstRung thirdReverted 1788393600000).map (·.decision)) =
        some .advance ∧
      RevertRateAbove thirdStage (stageRows onFirstRung thirdReverted) := by
  refine ⟨by decide +kernel, ?_⟩
  unfold RevertRateAbove
  decide +kernel

/-- With a second revert both are judged exactly. -/
theorem evaluateRollout_exact_twoThirds :
    ∃ evaluation, evaluateRollout twoRungs onFirstRung
        (thirdReverted ++ [landedRow 6 .revertLanded "undo two" (some (js "two"))])
        1788393600000 = some evaluation ∧
      evaluation.decision = .regress ∧ GreenMet evaluation.progress.unmet := by
  obtain ⟨evaluation, evaluated⟩ := Option.isSome_iff_exists.mp
    (show (evaluateRollout twoRungs onFirstRung
      (thirdReverted ++ [landedRow 6 .revertLanded "undo two" (some (js "two"))])
      1788393600000).isSome = true by decide +kernel)
  obtain ⟨rate, share⟩ := (@evaluateRollout_exact_iff _ _ thirdStage _ _ _ rfl evaluated
    (by decide +kernel) (by decide +kernel) (by decide +kernel)).mpr
      ⟨fun _ => ⟨by decide, by decide +kernel⟩, fun idle => absurd idle.2.1 (lt_irrefl 0)⟩
  exact ⟨evaluation, evaluated, rate.mpr (by unfold RevertRateAbove; decide +kernel),
    share.mpr (by unfold GreenEnough; decide +kernel)⟩

end AshlrHub.Authority

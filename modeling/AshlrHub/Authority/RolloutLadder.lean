import AshlrHub.Authority.RolloutReverts
import AshlrHub.Lib.Run

namespace AshlrHub.Authority

open Js

/-! The ladder over a whole ledger: what the rows that `stepRolloutUnderLock` asks for do when
they are read back. -/

/-- What the grant parser checks of a ladder. -/
structure Ladder (grant : StandingGrantV1) : Prop where
  named : grant.grantId ≠ []
  some : grant.stages ≠ []
  few : (grant.stages.length : ℤ) ≤ JsNumber.maxSafeInteger
  stageIds : ∀ stage ∈ grant.stages, stage.id ≠ []

/-- The evidence a stage is left upwards on. -/
structure Earned (stage : RolloutStage) (rows : List LedgerEvidenceRow)
    (position : RolloutPositionInternal) (nowMs : ℤ) : Prop where
  violations : rowsOf rows .sandboxViolation = []
  breaches : rowsOf rows .reserveBreach = []
  unknown : evidenceUnknownHolding rows nowMs = 0
  merges : stage.criteria.minMerges ≤ mergeCount stage rows
  watched : 0 < stage.criteria.minPostMergeGreenPct → pendingWatches rows = 0
  hours : stage.criteria.minHours * hourMs ≤ elapsedMs position nowMs

/-- The row was asked for under the lock, on the ledger before it. -/
def Asked (sha : HashFunction) (grant : StandingGrantV1) (front : List LedgerEntry)
    (entry : LedgerEntry) : Prop :=
  ∃ snapshot nowMs result input head now text,
    snapshot.index = ledgerIndex front ∧
      stepRolloutUnderLock snapshot grant nowMs = some (result, some input) ∧
      formEntry sha head now input = some (entry, text)

/-- What one row does to the rung the grant stands on. -/
inductive RungStep (grant : StandingGrantV1) (front : List LedgerEntry) (entry : LedgerEntry) :
    Option RolloutPositionInternal → Option RolloutPositionInternal → Prop
  | stays {stood : Option RolloutPositionInternal} (unaccepted : ¬ acceptsGrant grant entry)
      (unmoved : ¬ movesGrant grant entry) : RungStep grant front entry stood stood
  | restarts {stood : Option RolloutPositionInternal} {stage : RolloutStage}
      (accepts : acceptsGrant grant entry) (first : grant.stages[0]? = some stage) :
      RungStep grant front entry stood (some ⟨0, stage.id, entry.at', entry.seq⟩)
  | advances {position : RolloutPositionInternal} {stage target : RolloutStage} {nowMs : ℤ}
      (kind : entry.kind = .rolloutAdvanced)
      (stands : grant.stages[position.stageIndex]? = some stage)
      (earned : Earned stage (stageRows position (ledgerEvidence front)) position nowMs)
      (there : grant.stages[position.stageIndex + 1]? = some target) :
      RungStep grant front entry (some position)
        (some ⟨position.stageIndex + 1, target.id, entry.at', entry.seq⟩)
  | regresses {position : RolloutPositionInternal} {target : RolloutStage}
      (kind : entry.kind = .rolloutRegressed)
      (there : grant.stages[position.stageIndex - 1]? = some target) :
      RungStep grant front entry (some position)
        (some ⟨position.stageIndex - 1, target.id, entry.at', entry.seq⟩)

/-- Every rollout row of the grant was asked for. -/
def Laddered (sha : HashFunction) (grant : StandingGrantV1) (ledger : List LedgerEntry) : Prop :=
  ∀ front entry back, ledger = front ++ entry :: back → movesGrant grant entry →
    Asked sha grant front entry

section Steps

variable {grant : StandingGrantV1} {index : LedgerAuthorityIndex} {front : List LedgerEntry}
  {entry : LedgerEntry} {sha : HashFunction}

theorem earned_of_unmet {stage : RolloutStage} {rows : List LedgerEvidenceRow}
    {position : RolloutPositionInternal} {nowMs : ℤ}
    (met : unmetCriteria stage rows position nowMs = []) : Earned stage rows position nowMs := by
  simp only [unmetCriteria, List.append_eq_nil_iff, ite_eq_right_iff, List.cons_ne_nil,
    imp_false, not_lt, Nat.le_zero, List.length_eq_zero_iff] at met
  obtain ⟨⟨⟨⟨⟨⟨⟨merges, watches⟩, -⟩, -⟩, hours⟩, violations⟩, breaches⟩, unknown⟩ := met
  refine ⟨violations, breaches, unknown, merges, fun asked => ?_, hours⟩
  rw [unmetWatches] at watches
  simp only [if_pos asked, List.append_eq_nil_iff, ite_eq_right_iff, List.cons_ne_nil, imp_false,
    not_lt, Nat.le_zero] at watches
  exact watches.2

section

variable (ladder : Ladder grant)
include ladder

/-- A rollout row that is read back puts the grant on the rung it was asked for. -/
theorem rolloutPositionFor_formed {head : Option LedgerHead} {now : ℤ} {text : JsString}
    {input : LedgerAppendInput} {position : RolloutPositionInternal} {toIndex : ℕ}
    {target : RolloutStage}
    (stood : rolloutPositionFor grant index = some position)
    (before : AcceptedBefore grant entry.seq index)
    (formed : formEntry sha head now input = some (entry, text))
    (kind : entry.kind = .rolloutAdvanced ∨ entry.kind = .rolloutRegressed)
    (there : grant.stages[toIndex]? = some target)
    (named : (js "grantId", .str grant.grantId) ∈ input.data)
    (numbered : (js "toStageIndex", jsInt toIndex) ∈ input.data)
    (spelled : (js "toStageId", .str target.id) ∈ input.data) :
    rolloutPositionFor grant (indexEntry index entry) =
      some ⟨toIndex, target.id, entry.at', entry.seq⟩ := by
  have normal := (formEntry_steps formed).data
  obtain ⟨bound, member⟩ := List.getElem?_eq_some_iff.mp there
  have few := ladder.few
  have grantId := (congrArg nonEmpty (getMember_normalized input.distinct normal named rfl)).trans
    (nonEmpty_str ladder.named)
  have stageIndex := (congrArg int? (getMember_normalized input.distinct normal numbered rfl)).trans
    (int?_jsInt (by omega))
  have stageId := (congrArg nonEmpty (getMember_normalized input.distinct normal spelled rfl)).trans
    (nonEmpty_str (ladder.stageIds _ (member ▸ List.getElem_mem bound)))
  obtain ⟨accepted, found⟩ : ∃ accepted, index.accepted.get? grant.grantId = some accepted := by
    refine Option.ne_none_iff_exists'.mp fun absent => ?_
    rw [rolloutPositionFor, absent] at stood
    cases stood
  have late := Nat.lt_asymm (before accepted found)
  rcases kind with kind | kind <;> rw [indexEntry, kind] <;>
    simp only [indexRollout, grantId, stageIndex, stageId, rolloutPositionFor, found,
      JsMap.get?_set_self, late, there, if_false, if_true]

theorem rolloutPositionFor_accepted (accepts : acceptsGrant grant entry) :
    ∃ stage, grant.stages[0]? = some stage ∧
      rolloutPositionFor grant (indexEntry index entry) =
        some ⟨0, stage.id, entry.at', entry.seq⟩ := by
  obtain ⟨kind, named, numbered⟩ := accepts
  obtain ⟨grantSeq, numbered⟩ := Option.isSome_iff_exists.mp numbered
  obtain ⟨stage, rest, stages⟩ := List.exists_cons_of_ne_nil ladder.some
  unfold namesGrant at named
  refine ⟨stage, by rw [stages]; rfl, ?_⟩
  rw [indexEntry, kind]
  simp only [named, numbered, rolloutPositionFor, JsMap.get?_set_self, JsMap.get?_delete_self,
    stages, List.head?_cons, Option.map_some, acceptedGrant]

theorem Asked.rungStep (before : AcceptedBefore grant entry.seq (ledgerIndex front))
    (asked : Asked sha grant front entry) :
    RungStep grant front entry (rolloutPositionFor grant (ledgerIndex front))
      (rolloutPositionFor grant (indexEntry (ledgerIndex front) entry)) := by
  obtain ⟨snapshot, nowMs, result, input, head, now, text, index, stepped, formed⟩ := asked
  have kind := (formEntry_steps formed).kind
  unfold stepRolloutUnderLock at stepped
  simp only [Option.bind_eq_bind, Option.bind_eq_some_iff, index, ledgerIndex_evidence] at stepped
  obtain ⟨-, -, position, stood, evaluation, evaluated, stepped⟩ := stepped
  cases decision : evaluation.decision with
  | hold => simp [decision] at stepped
  | advance =>
      simp only [decision, Option.bind_eq_some_iff, Option.pure_def, Option.some.injEq,
        Prod.mk.injEq] at stepped
      obtain ⟨target, there, -, rfl⟩ := stepped
      have stands := List.getElem?_eq_getElem
        (Nat.lt_of_succ_lt (List.getElem?_eq_some_iff.mp there).1)
      obtain ⟨-, unmet, decided⟩ := evaluateRollout_eq stands evaluated
      rw [decision] at decided
      split_ifs at decided with broken met
      rw [rolloutPositionFor_formed ladder stood before formed (.inl kind) there
        (by simp [advancedRow]) (by simp [advancedRow]) (by simp [advancedRow]), stood]
      exact .advances kind stands (earned_of_unmet (unmet ▸ met.1)) there
  | regress =>
      simp only [decision, Option.bind_eq_some_iff, Option.pure_def, Option.some.injEq,
        Prod.mk.injEq] at stepped
      obtain ⟨target, there, -, rfl⟩ := stepped
      rw [rolloutPositionFor_formed ladder stood before formed (.inr kind) there
        (by simp [regressedRow]) (by simp [regressedRow]) (by simp [regressedRow]), stood]
      exact .regresses kind there

theorem rungStep (contiguous : Contiguous 0 (front ++ [entry]))
    (asked : movesGrant grant entry → Asked sha grant front entry) :
    RungStep grant front entry (rolloutPositionFor grant (ledgerIndex front))
      (rolloutPositionFor grant (ledgerIndex (front ++ [entry]))) := by
  obtain ⟨earlier, seq, -⟩ := contiguous_append.mp contiguous
  rw [Nat.zero_add] at seq
  rw [ledgerIndex_snoc]
  by_cases moves : movesGrant grant entry
  · exact (asked moves).rungStep ladder (seq ▸ acceptedBefore_ledgerIndex earlier)
  by_cases accepts : acceptsGrant grant entry
  · obtain ⟨stage, first, stands⟩ := rolloutPositionFor_accepted ladder accepts
    rw [stands]
    exact .restarts accepts first
  rcases @indexEntry_standing grant (ledgerIndex front) entry with same | became | moved
  · rw [rolloutPositionFor_congr same]
    exact .stays accepts moves
  · exact absurd became.1 accepts
  · exact absurd moved.1 moves

end

end Steps

/-- In every ledger whose rollout rows of the grant were asked for under the lock: each row
leaves the grant where it stands, restarts it on the first rung or moves it by one rung, upwards
only on evidence earned since it was entered; and a grant once accepted always stands on a rung. -/
theorem rollout_climbs {grant : StandingGrantV1} {sha : HashFunction} {ledger : List LedgerEntry}
    (ladder : Ladder grant) (contiguous : Contiguous 0 ledger)
    (laddered : Laddered sha grant ledger) :
    (∀ front entry back, ledger = front ++ entry :: back →
      RungStep grant front entry (rolloutPositionFor grant (ledgerIndex front))
        (rolloutPositionFor grant (ledgerIndex (front ++ [entry])))) ∧
      ((∃ entry ∈ ledger, acceptsGrant grant entry) →
        ∃ position, rolloutPositionFor grant (ledgerIndex ledger) = some position ∧
          position.stageIndex < grant.stages.length) := by
  have steps : ∀ front entry back, ledger = front ++ entry :: back →
      RungStep grant front entry (rolloutPositionFor grant (ledgerIndex front))
        (rolloutPositionFor grant (ledgerIndex (front ++ [entry]))) := by
    intro front entry back split
    rw [split, List.append_cons] at contiguous
    exact rungStep ladder (contiguous_append.mp contiguous).1 (laddered front entry back split)
  refine ⟨steps, ?_⟩
  have within : ∀ front back, ledger = front ++ back →
      (∃ entry ∈ front, acceptsGrant grant entry) →
        ∃ position, rolloutPositionFor grant (ledgerIndex front) = some position ∧
          position.stageIndex < grant.stages.length := by
    intro front
    induction front using List.reverseRecOn with
    | nil => simp
    | append_singleton front entry ih =>
        intro back split accepted
        rw [List.append_assoc] at split
        have step := steps front entry back split
        generalize rolloutPositionFor grant (ledgerIndex (front ++ [entry])) = after at step ⊢
        generalize stood : rolloutPositionFor grant (ledgerIndex front) = before at step
        cases step with
        | stays unaccepted _ =>
            obtain ⟨other, member, accepts⟩ := accepted
            rcases List.mem_append.mp member with inFront | last
            · exact stood ▸ ih _ split ⟨other, inFront, accepts⟩
            · exact absurd (List.mem_singleton.mp last ▸ accepts) unaccepted
        | restarts _ there | advances _ _ _ there | regresses _ there =>
            exact ⟨_, rfl, (List.getElem?_eq_some_iff.mp there).1⟩
  exact within ledger [] (List.append_nil _).symm

def watchedEntries : List LedgerEntry :=
  failedEntries ++ [redEntry 5]

/-- The row that leaves the first of two rungs. -/
theorem rollout_climbs_second : ∃ entry, entry.kind = .rolloutAdvanced ∧
    RungStep twoRungs watchedEntries entry
      (rolloutPositionFor twoRungs (ledgerIndex watchedEntries))
      (rolloutPositionFor twoRungs (ledgerIndex (watchedEntries ++ [entry]))) := by
  have asks : ((stepRolloutUnderLock (snapshotAfter watchedEntries) twoRungs 1788319000000).map
      fun step => step.2.map fun row => (row.kind, allFinite (.obj row.data))) =
        some (some (.rolloutAdvanced, true)) := by
    decide +kernel
  obtain ⟨⟨result, row⟩, stepped, asked⟩ := Option.map_eq_some_iff.mp asks
  obtain ⟨input, rfl, made⟩ := Option.map_eq_some_iff.mp asked
  obtain ⟨kind, finite⟩ := Prod.mk.inj made
  obtain ⟨entry, text, formed⟩ := formEntry_some sha256 (some ⟨5, [], []⟩)
    (show isTime 1788319000000 = true by decide) (by decide) finite
  have steps := formEntry_steps formed
  refine ⟨entry, steps.kind.trans kind, (@rollout_climbs twoRungs sha256 (watchedEntries ++ [entry])
    ⟨by decide, by decide, by decide, by decide⟩ (contiguous_append.mpr
      ⟨by repeat' constructor, steps.seq, trivial⟩) ?_).1 _ entry [] rfl⟩
  intro front other back split moves
  rcases Lib.snoc_split split with ⟨rfl, rfl, -⟩ | ⟨rest, -, earlier⟩
  · exact ⟨_, _, _, _, _, _, _, rfl, stepped, formed⟩
  · have kinds : ∀ entry ∈ watchedEntries,
        entry.kind ≠ .rolloutAdvanced ∧ entry.kind ≠ .rolloutRegressed := by decide +kernel
    have unmoved := kinds other (by simp [earlier])
    exact absurd moves.1 (not_or.mpr unmoved)

end AshlrHub.Authority

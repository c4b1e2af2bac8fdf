import AshlrHub.Lib.Sorting
import AshlrHub.Universe.EliteArchive

namespace AshlrHub.Universe

open Js Lib

/-! The records of a universe in another order. -/

variable {reading : UniverseReading} {stored : ManifestRecord}
  {records first second : List UniverseRecord}

def Once (records : List UniverseRecord) : Prop :=
  (records.map (·.id)).Nodup

theorem Once.perm (once : Once first) (perm : first.Perm second) : Once second :=
  (perm.map _).nodup_iff.mp once

theorem Once.eq_of_id (once : Once records) {a b : UniverseRecord} (left : a ∈ records)
    (right : b ∈ records) (same : a.id = b.id) : a = b :=
  List.inj_on_of_nodup_map once left right same

theorem readRecords_perm {ledger other : EvidenceLedger}
    (perm : ledger.records.Perm other.records) : readRecords ledger = readRecords other := by
  have total : ∀ a b : UniverseRecord, (decide (a.id ≤ b.id) || decide (b.id ≤ a.id)) = true := by
    intro a b
    rw [Bool.or_eq_true, decide_eq_true_eq, decide_eq_true_eq]
    exact List.le_total _ _
  have trans : ∀ a b c : UniverseRecord, decide (a.id ≤ b.id) = true →
      decide (b.id ≤ c.id) = true → decide (a.id ≤ c.id) = true := by
    intro a b c low high
    rw [decide_eq_true_eq] at low high ⊢
    exact List.le_trans low high
  have sorted := fun records : List UniverseRecord =>
    List.pairwise_mergeSort trans total records
  refine List.Perm.eq_of_pairwise ?_ (sorted _) (sorted _) ?_
  · intro a b left right low high
    rw [decide_eq_true_eq] at low high
    exact Once.eq_of_id ledger.distinct (List.mem_mergeSort.mp left)
      (perm.mem_iff.mpr (List.mem_mergeSort.mp right)) (List.le_antisymm low high)
  · exact (List.mergeSort_perm _ _).trans (perm.trans (List.mergeSort_perm _ _).symm)

/-! What the projection looks up. -/

theorem finalOf_eq_some (once : Once records) {id : JsString} {run : UniverseRun} :
    finalOf records id = some run ↔ .final run ∈ records ∧ run.id = id := by
  constructor
  · exact mem_of_finalOf
  · rintro ⟨member, rfl⟩
    cases found : finalOf records run.id with
    | none =>
        have missing := List.findSome?_eq_none_iff.mp found _ member
        simp at missing
    | some other =>
        obtain ⟨listed, same⟩ := mem_of_finalOf found
        have ids : (UniverseRecord.final other).id = (UniverseRecord.final run).id :=
          congrArg (· ++ js ".final") same
        cases once.eq_of_id listed member ids
        rfl

theorem manifestOf_eq_some (once : Once records) :
    manifestOf records = some stored ↔ .manifest stored ∈ records := by
  have mem_of : ∀ {other}, manifestOf records = some other → .manifest other ∈ records := by
    intro other found
    obtain ⟨record, member, matched⟩ := List.exists_of_findSome?_eq_some found
    cases record with
    | manifest own =>
        cases matched
        exact member
    | start own => cases matched
    | trial owner own => cases matched
    | final own => cases matched
  constructor
  · exact mem_of
  · intro member
    cases found : manifestOf records with
    | none =>
        have missing := List.findSome?_eq_none_iff.mp found _ member
        simp at missing
    | some other =>
        cases once.eq_of_id (mem_of found) member rfl
        rfl

theorem finalOf_perm (once : Once first) (perm : first.Perm second) (id : JsString) :
    finalOf first id = finalOf second id := by
  apply Option.ext
  intro run
  rw [finalOf_eq_some once, finalOf_eq_some (once.perm perm), perm.mem_iff]

theorem manifestOf_perm (once : Once first) (perm : first.Perm second) :
    manifestOf first = manifestOf second := by
  apply Option.ext
  intro stored
  rw [manifestOf_eq_some once, manifestOf_eq_some (once.perm perm), perm.mem_iff]

theorem trialsOf_perm (perm : first.Perm second) (id : JsString) :
    (trialsOf first id).Perm (trialsOf second id) :=
  perm.filterMap _

theorem startsOf_eq (perm : first.Perm second) (sequence : (startsOf first).map (·.run.generation) =
      (List.range (startsOf first).length).map (· + 1)) :
    startsOf first = startsOf second := by
  have once : ((startsOf first).map (·.run.generation)).Nodup := by
    rw [sequence]
    exact List.nodup_range.map (add_left_injective 1)
  refine insertionSort_eq_of_perm ?_ (perm.filterMap _)
  intro a left b right low high
  exact List.inj_on_of_nodup_map once ((List.mem_insertionSort _).mpr left)
    ((List.mem_insertionSort _).mpr right) (le_antisymm low high)

/-! What a generation has used does not depend on the order of its trials. -/

variable {trials others : List UniverseTrial}

section

variable (perm : trials.Perm others)
include perm

theorem generationResources_perm (recordingComplete : Bool) :
    generationResources trials recordingComplete = generationResources others
    recordingComplete := by
  have receipts := perm.filterMap (·.generation)
  have requests := receipts.filter isRequest
  have reported := requests.filter fun receipt => receipt.usage.isSome
  have resources := receipts.filter fun receipt => receipt.provider = .resourcePool
  have attempts := receipts.filter isAttempt
  have resourceReported := receipts.filter isReportedAttempt
  have measured := (reported.append resourceReported).filterMap (·.usage)
  have input := (measured.map Prod.fst).sum_eq
  have output := (measured.map Prod.snd).sum_eq
  have empty : ∀ {a b : List UniverseGenerationReceipt}, a.Perm b → (a = [] ↔ b = []) := by
    intro a b same
    rw [← List.length_eq_zero_iff, ← List.length_eq_zero_iff, same.length_eq]
  unfold generationResources
  simp only [empty receipts, empty resources, receipts.length_eq, requests.length_eq,
    reported.length_eq, attempts.length_eq, resourceReported.length_eq, input, output]

theorem resourceEvidenceMatches_perm (run : UniverseRun) :
    resourceEvidenceMatches run trials = resourceEvidenceMatches run others := by
  unfold resourceEvidenceMatches
  rw [generationResources_perm perm]

theorem finalDiffers_perm (started run : UniverseRun) :
    finalDiffers started run trials = finalDiffers started run others := by
  unfold finalDiffers
  rw [resourceEvidenceMatches_perm perm, perm.length_eq]
  simp only [perm.any_eq]

end

/-! A run that is read from the records in another order. -/

structure SameReading (records : List UniverseRecord) (run other : UniverseRun) : Prop where
  same : run.SameRun other
  settled : (finalOf records run.id).isSome → other = run

theorem SameRun.refl (run : UniverseRun) : run.SameRun run :=
  ⟨rfl, .refl _, fun _ => rfl⟩

theorem readRun_perm {start : StartRecord} {run : UniverseRun} (once : Once first)
    (perm : first.Perm second) (read : readRun reading first start = .ok run) :
    ∃ other, readRun reading second start = .ok other ∧ SameReading first run other := by
  have trials := trialsOf_perm perm start.run.id
  rcases readRun_eq_ok.mp read with ⟨found, agrees⟩ | ⟨missing, rfl⟩
  · refine ⟨run, readRun_eq_ok.mpr (.inl ⟨?_, ?_⟩), SameRun.refl run, fun _ => rfl⟩
    · rw [← finalOf_perm once perm, found]
    · rw [← finalDiffers_perm trials, agrees]
  · refine ⟨unfinishedRun reading start (trialsOf second start.run.id),
      readRun_eq_ok.mpr (.inr ⟨?_, rfl⟩), ⟨?_, trials, ?_⟩, ?_⟩
    · rw [← finalOf_perm once perm, missing]
    · unfold unfinishedRun
      rw [generationResources_perm trials]
    · intro completed
      unfold unfinishedRun at completed
      simp only at completed
      split at completed <;> cases completed
    · intro settled
      rw [show (unfinishedRun reading start (trialsOf first start.run.id)).id = start.run.id
        from rfl, missing] at settled
      cases settled

/-! The projection, record order against record order. -/

structure SameState (records : List UniverseRecord) (state other : ProjectionState) : Prop where
  runs : List.Forall₂ (SameReading records) state.runs other.runs
  elites : other.elites = state.elites
  activeRun : Option.Rel UniverseRun.SameRun state.activeRun other.activeRun

section Step

variable {state again : ProjectionState} {start : StartRecord} {run other : UniverseRun}

theorem checkTrial_again (states : SameState first state again) (runs : run.SameRun other)
    (trial : UniverseTrial) :
    checkTrial reading stored again other trial = checkTrial reading stored state run trial := by
  have bare : { other with trials := [] } = { run with trials := [] } := by
    rw [runs.fields]
  have id : other.id = run.id := by rw [runs.fields]
  have prefixes := states.runs.imp fun _ _ both => both.same
  have faults : ∀ variant, reading.generationFault stored again.runs (eliteList again.elites)
      { other with trials := [] } variant trial =
        reading.generationFault stored state.runs (eliteList state.elites)
          { run with trials := [] } variant trial := by
    intro variant
    rw [bare, states.elites, reading.fault_order stored _ _ _ _ variant trial prefixes]
  unfold checkTrial
  simp only [faults]
  simp only [states.elites, id]

theorem expectedTrials_of_unselected (prior : List UniverseElite)
    (unfinished : run.status ≠ .completed) :
    run.trials = expectedTrials stored.manifest run prior ↔
      ∀ trial ∈ run.trials, trial.unselected = trial := by
  unfold expectedTrials
  simp only
  rw [if_neg unfinished, eq_comm]
  constructor
  · intro same trial member
    exact List.map_inj_left.mp (same.trans (List.map_id _).symm) trial member
  · intro bare
    exact (List.map_congr_left bare).trans (List.map_id _)

section

variable (projected : Projected reading stored first state start run)
include projected

theorem Projected.reordered
    (states : SameState first state again) (runs : SameReading first run other)
    (read : readRun reading second start = .ok other) :
    Projected reading stored second again start other where
  pinned := projected.pinned
  context := projected.context
  read := read
  selection := by
    rw [states.elites]
    by_cases completed : run.status = .completed
    · have same := runs.same.completed completed
      have equal : other = run := by rw [runs.same.fields, same]
      rw [equal]
      exact projected.selection
    · have unfinished : other.status ≠ .completed := by
        rw [runs.same.fields]
        exact completed
      have bare := (expectedTrials_of_unselected _ completed).mp projected.selection
      rw [expectedTrials_of_unselected _ unfinished]
      intro trial member
      exact bare trial (runs.same.trials.mem_iff.mpr member)
  lineage := fun trial member => by
    rw [checkTrial_again states runs.same]
    exact projected.lineage trial (runs.same.trials.mem_iff.mpr member)

theorem archiveRun_again (runs : run.SameRun other) (elites : Elites) :
    archiveRun elites other = archiveRun elites run := by
  by_cases completed : run.status = .completed
  · have equal : other = run := by rw [runs.fields, runs.completed completed]
    rw [equal]
  · have before := projected.unselected completed
    rw [archiveRun_of_unselected elites before, archiveRun_of_unselected elites]
    intro trial member
    exact before trial (runs.trials.mem_iff.mpr member)

end

theorem projectRun_perm {next : ProjectionState} (once : Once first) (perm : first.Perm second)
    (states : SameState first state again)
    (stepped : projectRun reading stored first state start = .ok next) :
    ∃ after, projectRun reading stored second again start = .ok after ∧
      SameState first next after := by
  obtain ⟨run, projected, rfl⟩ := projectRun_eq_ok.mp stepped
  obtain ⟨other, read, runs⟩ := readRun_perm once perm projected.read
  refine ⟨again.after other, projectRun_eq_ok.mpr ⟨other, projected.reordered states runs read,
    rfl⟩,
    ?_, ?_, ?_⟩
  · exact List.rel_append states.runs (.cons runs .nil)
  · rw [ProjectionState.after, ProjectionState.after, states.elites]
    exact archiveRun_again projected runs.same _
  · have status : other.status = run.status := by rw [runs.same.fields]
    unfold ProjectionState.after
    simp only
    rw [status]
    split
    · exact .some runs.same
    · exact states.activeRun

end Step

theorem projectRuns_perm (once : Once first) (perm : first.Perm second) :
    {starts : List StartRecord} → {state again last : ProjectionState} →
      SameState first state again →
      starts.foldlM (projectRun reading stored first) state = .ok last →
      ∃ ended, starts.foldlM (projectRun reading stored second) again = .ok ended ∧
        SameState first last ended
  | [], _, again, _, states, folded => by
      cases pure_eq_ok.mp folded
      exact ⟨again, rfl, states⟩
  | start :: starts, state, again, last, states, folded => by
      rw [List.foldlM_cons] at folded
      obtain ⟨next, stepped, rest⟩ := bind_eq_ok.mp folded
      obtain ⟨after, stepped, states⟩ := projectRun_perm once perm states stepped
      obtain ⟨ended, rest, states⟩ := projectRuns_perm once perm states rest
      refine ⟨ended, ?_, states⟩
      rw [List.foldlM_cons]
      exact bind_eq_ok.mpr ⟨after, stepped, rest⟩

structure SameSummary (records : List UniverseRecord) (summary other : UniverseSummary) : Prop where
  fields : other = { summary with runs := other.runs, activeRun := other.activeRun }
  runs : List.Forall₂ (SameReading records) summary.runs other.runs
  activeRun : Option.Rel UniverseRun.SameRun summary.activeRun other.activeRun

theorem projectUniverse_perm {summary : UniverseSummary} (once : Once first)
    (perm : first.Perm second) (accepted : projectUniverse reading first = .ok summary) :
    ∃ other, projectUniverse reading second = .ok other ∧ SameSummary first summary other := by
  obtain ⟨stored, state, found, scope, sequence, folded, complete, rfl⟩ :=
    projectUniverse_eq_ok.mp accepted
  have starts := startsOf_eq perm sequence
  have started : SameState first ⟨[], [], none⟩ ⟨[], [], none⟩ := ⟨.nil, rfl, .none⟩
  obtain ⟨last, folded, states⟩ := projectRuns_perm once perm started folded
  refine ⟨summarize reading stored last, projectUniverse_eq_ok.mpr
    ⟨stored, last, ?_, scope, ?_, ?_, ?_, rfl⟩, ?_, states.runs, states.activeRun⟩
  · rw [← manifestOf_perm once perm, found]
  · rw [← starts, sequence]
  · rw [← starts, folded]
  · rw [← starts, ← perm.any_eq, complete]
  · unfold summarize
    rw [states.elites]

/-- The elites of an accepted ledger only improve, in whatever order its records come back. -/
theorem eliteArchive_improves (reading : UniverseReading) (ledger other : EvidenceLedger)
    (returned : ledger.records.Perm other.records) :
    projectUniverse reading (readRecords other) = projectUniverse reading (readRecords ledger) ∧
      ∀ records, ledger.records.Perm records → ∀ summary,
        projectUniverse reading records = .ok summary →
          ElitesFollow summary ∧
            ∀ others, ledger.records.Perm others →
              ∃ again, projectUniverse reading others = .ok again ∧
                SameSummary records summary again := by
  refine ⟨by rw [readRecords_perm returned], fun records perm summary accepted => ⟨?_, ?_⟩⟩
  · exact elitesFollow (fun record member => ledger.valid record (perm.mem_iff.mpr member)) accepted
  · intro others otherPerm
    exact projectUniverse_perm (Once.perm ledger.distinct perm) (perm.symm.trans otherPerm) accepted

/-! Two generations of one variant. -/

def pairManifest : ManifestRecord where
  manifest :=
    { id := js "pair"
      metric := ⟨.maximize, 1⟩
      budget := ⟨1⟩
      variants := [⟨js "plain", js "fast", js "", some [js "run"], none, none⟩]
      improves := by decide
      trials := by decide
      bounded := by decide
      distinct := by decide }
  manifestDigest := js "m"
  comparatorDigest := js "c"
  seedArtifact := ⟨js "/u/seed", js "s", js "r"⟩
  seedRevision := js "r"

def pairTrial (run id : String) (parent : Option JsString) (score : ℚ) : UniverseTrial where
  id := js id
  variantId := js "plain"
  niche := js "fast"
  parentTrialId := parent
  status := .passed
  score := some score
  metrics := []
  artifact := some ⟨js "/u/artifacts/" ++ js run ++ js "/" ++ js id, js "a", js "r"⟩
  durationMs := 1
  delta := none
  selected := false
  generation := none
  diagnostics := none
  error := none

def pairRun (id : String) (generation : ℕ) : UniverseRun where
  id := js id
  universeId := js "pair"
  generation := generation
  manifestDigest := js "m"
  comparatorDigest := js "c"
  startedAt := js "t"
  finishedAt := none
  status := .running
  trials := []
  durationMs := 0
  tokensUsed := none
  generationUsage := none
  campaign := none
  feedbackEnabled := false
  feedbackVersion := none
  seedContext := none
  error := none

def pairFinal (run : UniverseRun) (trial : UniverseTrial) (delta : Option ℚ) : UniverseRun :=
  { run with
    status := .completed
    finishedAt := some (js "t")
    trials := [{ trial with selected := true, delta }] }

def pairRecords : List UniverseRecord :=
  let first := pairTrial "r1" "a" none 3
  let second := pairTrial "r2" "b" (some (js "a")) 5
  [.manifest pairManifest, .start ⟨pairRun "r1" 1, 7, js "p"⟩, .start ⟨pairRun "r2" 2, 7, js "p"⟩,
    .trial (js "r1") first, .trial (js "r2") second,
    .final (pairFinal (pairRun "r1" 1) first none),
    .final (pairFinal (pairRun "r2" 2) second (some 2))]

theorem pairRun_valid (id : String) {generation : ℕ} (positive : 1 ≤ generation) :
    (pairRun id generation).Valid :=
  ⟨positive, List.forall_mem_nil _, List.nodup_nil, rfl⟩

theorem pairTrial_valid (run id : String) (parent : Option JsString) (score : ℚ) :
    (pairTrial run id parent score).Valid :=
  ⟨fun _ => rfl, fun _ => rfl, fun _ => rfl⟩

theorem pairFinal_valid {name run id : String} {generation : ℕ} {parent : Option JsString}
    {score : ℚ} {delta : Option ℚ} (positive : 1 ≤ generation) :
    (UniverseRecord.final
      (pairFinal (pairRun name generation) (pairTrial run id parent score) delta)).Valid := by
  refine ⟨⟨positive, ?_, List.nodup_singleton _, rfl⟩, RunStatus.noConfusion, rfl⟩
  intro trial member
  cases List.mem_singleton.mp member
  exact ⟨fun _ => rfl, fun _ => rfl, fun _ => rfl⟩

theorem pairRecords_valid : ∀ record ∈ pairRecords, record.Valid := by
  unfold pairRecords
  simp only [List.forall_mem_cons]
  refine ⟨trivial, ⟨pairRun_valid _ (by decide), rfl, rfl⟩, ⟨pairRun_valid _ (by decide), rfl, rfl⟩,
    ⟨pairTrial_valid _ _ _ _, rfl⟩, ⟨pairTrial_valid _ _ _ _, rfl⟩, pairFinal_valid (by decide),
    pairFinal_valid (by decide), ?_⟩
  exact List.forall_mem_nil _

def pairLedger (records : List UniverseRecord) (perm : pairRecords.Perm records) :
    EvidenceLedger where
  records := records
  distinct := (perm.map _).nodup_iff.mp (by decide +kernel)
  valid := fun record member => pairRecords_valid record (perm.mem_iff.mpr member)

def pairReading : UniverseReading where
  directory := js "/u"
  manifestInScope := fun _ => true
  comparatorFault := fun _ => none
  alive := fun _ => false
  seedContext := fun _ _ => none
  generationFault := fun _ _ _ _ _ _ => none
  artifactFault := fun _ => none
  fault_order := fun _ _ _ _ _ _ _ _ => rfl

theorem eliteArchive_improves_pair : ∃ summary,
    projectUniverse pairReading pairRecords = .ok summary ∧ ElitesFollow summary ∧
      summary.elites.map (fun elite => (elite.trialId, elite.score)) = [(js "b", 5)] ∧
      ∃ again, projectUniverse pairReading pairRecords.reverse = .ok again ∧
        SameSummary pairRecords summary again := by
  have reversed := (List.reverse_perm pairRecords).symm
  obtain ⟨_, improves⟩ := eliteArchive_improves pairReading (pairLedger pairRecords (.refl _))
    (pairLedger pairRecords.reverse reversed) reversed
  have elites : (projectUniverse pairReading pairRecords).map (fun summary =>
      summary.elites.map fun elite => (elite.trialId, elite.score)) = .ok [(js "b", 5)] := by
    decide +kernel
  obtain ⟨summary, accepted, elites⟩ := map_eq_ok.mp elites
  obtain ⟨follow, order⟩ := improves pairRecords (.refl _) summary accepted
  exact ⟨summary, accepted, follow, elites, order _ reversed⟩

end AshlrHub.Universe

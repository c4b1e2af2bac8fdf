import AshlrHub.Lib.KeyedMerge
import AshlrHub.Universe.EvidenceLedger
import AshlrHub.Lib.Fallible
import AshlrHub.Lib.Run

namespace AshlrHub.Universe

open Js Lib

/-! What the selection of winners gives: at most one of each niche, and only a better one. -/

variable {manifest : UniverseManifest} {prior : List UniverseElite}

def nicheElite (prior : List UniverseElite) (niche : JsString) : Option UniverseElite :=
  prior.find? fun elite => elite.niche = niche

def Beats (metric : UniverseMetric) (elite : UniverseElite) (score : ℚ) : Prop :=
  0 < improvement metric elite score ∧ metric.minImprovement ≤ improvement metric elite score

def Wins (metric : UniverseMetric) (previous : Option UniverseElite) (trial : UniverseTrial) :
    Prop :=
  ∃ score, trial.score = some score ∧
    trial.delta = previous.map (fun elite => improvement metric elite score) ∧
      ∀ elite, previous = some elite → Beats metric elite score

variable {trial : UniverseTrial}

variable {niche : JsString} {trials : List UniverseTrial}

theorem isCandidate_iff :
    isCandidate niche trial = true ↔
      trial.niche = niche ∧ trial.status = .passed ∧ trial.score.isSome := by
  simp only [isCandidate, Bool.and_eq_true, decide_eq_true_eq, and_assoc]

variable {index : ℕ}

theorem winnerOf_eq_some {previous : Option UniverseElite}
    (winner : winnerOf manifest trials previous niche = some index) :
    ∃ trial, trials[index]? = some trial ∧ isCandidate niche trial = true ∧
      ∀ elite, previous = some elite → Beats manifest.metric elite (trial.score.getD 0) := by
  unfold winnerOf at winner
  simp only at winner
  cases best : ((trials.zipIdx.filter fun entry => isCandidate niche entry.1).insertionSort
      fun a b => compareCandidates manifest a.1 b.1 ≤ 0).head? with
  | none => simp [best] at winner
  | some entry =>
      obtain ⟨trial, place⟩ := entry
      have listed := List.mem_of_head? best
      rw [List.mem_insertionSort, List.mem_filter] at listed
      have placed : trials[place]? = some trial := List.mem_zipIdx_iff_getElem?.mp listed.1
      rw [best] at winner
      cases previous with
      | none =>
          cases winner
          exact ⟨trial, placed, listed.2, fun _ absent => by cases absent⟩
      | some elite =>
          simp only [Option.ite_none_right_eq_some, Option.some.injEq] at winner
          obtain ⟨beats, rfl⟩ := winner
          refine ⟨trial, placed, listed.2, fun other same => ?_⟩
          cases same
          exact beats

/-! The niches are taken one after the other, and each touches its own trials only. -/

theorem length_selectNiche (trials : List UniverseTrial) (niche : JsString) :
    (selectNiche manifest prior trials niche).length = trials.length := by
  simp [selectNiche]

theorem getElem_selectNiche (inside : index < trials.length)
    {within : index < (selectNiche manifest prior trials niche).length} :
    (selectNiche manifest prior trials niche)[index] =
      if isCandidate niche trials[index] then
        { trials[index] with
          delta := (nicheElite prior niche).map fun elite =>
            improvement manifest.metric elite (trials[index].score.getD 0)
          selected := trials[index].selected ||
            winnerOf manifest trials (nicheElite prior niche) niche = some index }
      else trials[index] := by
  simp only [selectNiche, List.getElem_map, List.getElem_zipIdx, Nat.zero_add]
  rfl

theorem selectNiche_unselected (trials : List UniverseTrial) (niche : JsString) :
    (selectNiche manifest prior trials niche).map (·.unselected) = trials.map (·.unselected) := by
  apply List.ext_getElem
  · simp only [List.length_map, length_selectNiche]
  · intro index _ inside
    rw [List.length_map] at inside
    rw [List.getElem_map, List.getElem_map, getElem_selectNiche inside]
    split
    · rfl
    · rfl

theorem selectWinners_unselected (trials : List UniverseTrial) :
    (selectWinners manifest trials prior).map (·.unselected) = trials.map (·.unselected) := by
  unfold selectWinners
  induction (manifest.variants.map (·.niche)).eraseDups generalizing trials with
  | nil => rfl
  | cons niche niches ih => rw [List.foldl_cons, ih, selectNiche_unselected]

structure Selection (manifest : UniverseManifest) (prior : List UniverseElite)
    (niches : List JsString) (trials : List UniverseTrial) : Prop where
  inside : ∀ trial ∈ trials, trial.selected → trial.niche ∈ niches
  wins : ∀ trial ∈ trials, trial.selected →
    Wins manifest.metric (nicheElite prior trial.niche) trial
  single : trials.Pairwise fun a b => a.selected → b.selected → a.niche ≠ b.niche

theorem Selection.none
    (cleared : ∀ trial ∈ trials, trial.selected = false) : Selection manifest prior [] trials where
  inside := fun trial member selected => by simp [cleared trial member] at selected
  wins := fun trial member selected => by simp [cleared trial member] at selected
  single := List.pairwise_of_forall_mem_list fun a first _ _ selected => by
    simp [cleared a first] at selected

section Niche

variable {niches : List JsString} {trials : List UniverseTrial} {niche : JsString}

theorem selected_selectNiche (selection : Selection manifest prior niches trials)
    (fresh : niche ∉ niches) (inside : index < trials.length)
    {within : index < (selectNiche manifest prior trials niche).length}
    (selected : (selectNiche manifest prior trials niche)[index].selected) :
    (trials[index].selected ∧ trials[index].niche ∈ niches ∧
      (selectNiche manifest prior trials niche)[index] = trials[index]) ∨
    (isCandidate niche trials[index] = true ∧
      winnerOf manifest trials (nicheElite prior niche) niche = some index) := by
  rw [getElem_selectNiche inside] at selected ⊢
  by_cases candidate : isCandidate niche trials[index] = true
  · have own := (isCandidate_iff.mp candidate).1
    have before : trials[index].selected = false := by
      cases already : trials[index].selected with
      | false => rfl
      | true =>
          have listed := selection.inside _ (List.getElem_mem inside) already
          exact absurd (own ▸ listed) fresh
    simp only [candidate, if_true, before, Bool.false_or, decide_eq_true_eq] at selected
    exact .inr ⟨candidate, selected⟩
  · rw [if_neg candidate] at selected ⊢
    exact .inl ⟨selected, selection.inside _ (List.getElem_mem inside) selected, rfl⟩

theorem niche_selectNiche (inside : index < trials.length)
    {within : index < (selectNiche manifest prior trials niche).length} :
    (selectNiche manifest prior trials niche)[index].niche = trials[index].niche := by
  rw [getElem_selectNiche inside]
  split
  · rfl
  · rfl

theorem Selection.step (selection : Selection manifest prior niches trials)
    (fresh : niche ∉ niches) :
    Selection manifest prior (niches ++ [niche]) (selectNiche manifest prior trials niche) where
  inside := fun trial member selected => by
    obtain ⟨index, inside, rfl⟩ := List.getElem_of_mem member
    rw [length_selectNiche] at inside
    rw [niche_selectNiche inside, List.mem_append, List.mem_singleton]
    rcases selected_selectNiche selection fresh inside selected with ⟨_, listed, _⟩ | ⟨own, _⟩
    · exact .inl listed
    · exact .inr (isCandidate_iff.mp own).1
  wins := fun trial member selected => by
    obtain ⟨index, inside, rfl⟩ := List.getElem_of_mem member
    rw [length_selectNiche] at inside
    rcases selected_selectNiche selection fresh inside selected with
      ⟨before, _, same⟩ | ⟨candidate, winner⟩
    · rw [same]
      exact selection.wins _ (List.getElem_mem inside) before
    · obtain ⟨best, placed, _, beats⟩ := winnerOf_eq_some winner
      obtain ⟨_, rfl⟩ := List.getElem?_eq_some_iff.mp placed
      obtain ⟨own, _, scored⟩ := isCandidate_iff.mp candidate
      obtain ⟨score, scored⟩ := Option.isSome_iff_exists.mp scored
      rw [getElem_selectNiche inside, if_pos candidate]
      refine ⟨score, scored, ?_, fun elite previous => ?_⟩
      · simp only [own, scored, Option.getD_some]
      · have better := beats elite (own ▸ previous)
        rwa [scored] at better
  single := by
    rw [List.pairwise_iff_getElem]
    intro first second firstInside secondInside before firstSelected secondSelected
    rw [length_selectNiche] at firstInside secondInside
    rw [niche_selectNiche firstInside, niche_selectNiche secondInside]
    rcases selected_selectNiche selection fresh firstInside firstSelected with
      ⟨firstBefore, firstListed, _⟩ | ⟨firstOwn, firstWinner⟩ <;>
    rcases selected_selectNiche selection fresh secondInside secondSelected with
      ⟨secondBefore, secondListed, _⟩ | ⟨secondOwn, secondWinner⟩
    · exact List.pairwise_iff_getElem.mp selection.single first second firstInside secondInside
        before firstBefore secondBefore
    · intro same
      rw [(isCandidate_iff.mp secondOwn).1] at same
      exact fresh (same ▸ firstListed)
    · intro same
      rw [(isCandidate_iff.mp firstOwn).1] at same
      exact fresh (same ▸ secondListed)
    · rw [firstWinner, Option.some.injEq] at secondWinner
      omega

end Niche

theorem Selection.run {done niches : List JsString} {trials : List UniverseTrial}
    (distinct : (done ++ niches).Nodup) (selection : Selection manifest prior done trials) :
    Selection manifest prior (done ++ niches)
      (niches.foldl (selectNiche manifest prior) trials) := by
  induction niches generalizing done trials with
  | nil => rwa [List.append_nil]
  | cons niche niches ih =>
      have fresh : niche ∉ done := fun member =>
        (List.nodup_append.mp distinct).2.2 niche member niche List.mem_cons_self rfl
      rw [List.append_cons] at distinct ⊢
      rw [List.foldl_cons]
      exact ih distinct (selection.step fresh)

theorem selectWinners_selection {trials : List UniverseTrial}
    (cleared : ∀ trial ∈ trials, trial.selected = false) :
    Selection manifest prior (manifest.variants.map (·.niche)).eraseDups
      (selectWinners manifest trials prior) := by
  have distinct := nodup_eraseDups (manifest.variants.map (·.niche))
  exact Selection.run distinct (Selection.none cleared)

/-! The archive of elites: what each run of an accepted ledger takes from the runs before it. -/

def Improves (metric : UniverseMetric) (old new : ℚ) : Prop :=
  match metric.direction with
  | .maximize => old < new ∧ old + metric.minImprovement ≤ new
  | .minimize => new < old ∧ new + metric.minImprovement ≤ old

def selections (niche : JsString) (runs : List UniverseRun) : List (UniverseRun × UniverseTrial) :=
  runs.flatMap fun run =>
    (run.trials.filter fun trial => trial.selected && trial.niche = niche).map fun trial =>
      (run, trial)

def lastSelected (niche : JsString) (runs : List UniverseRun) :
    Option (UniverseRun × UniverseTrial) :=
  (selections niche runs).getLast?

structure Lineage (metric : UniverseMetric) (earlier : List UniverseRun) (run : UniverseRun) :
    Prop where
  single : run.trials.Pairwise fun a b => a.selected → b.selected → a.niche ≠ b.niche
  first : ∀ trial ∈ run.trials, trial.selected → lastSelected trial.niche earlier = none →
    trial.delta = none
  better : ∀ trial ∈ run.trials, trial.selected → ∀ owner elite,
    lastSelected trial.niche earlier = some (owner, elite) →
      ∃ old new, elite.score = some old ∧ trial.score = some new ∧
        trial.delta = some (multiplier metric.direction * (new - old)) ∧ Improves metric old new
  parent : ∀ trial ∈ run.trials,
    trial.parentTrialId = (lastSelected trial.niche earlier).map fun elite => elite.2.id
  unfinished : run.status ≠ .completed → ∀ trial ∈ run.trials, trial.selected = false

structure Archived (metric : UniverseMetric) (state : ProjectionState) : Prop where
  lineage : ∀ earlier run later, state.runs = earlier ++ run :: later → Lineage metric earlier run
  elites : ∀ niche, state.elites.get? niche =
    (lastSelected niche state.runs).bind fun elite => eliteFrom elite.1 elite.2
  kept : ∀ niche elite, lastSelected niche state.runs = some elite →
    (eliteFrom elite.1 elite.2).isSome
  keyed : ∀ entry ∈ state.elites, entry.2.niche = entry.1
  distinct : state.elites.keys.Nodup

theorem beats_iff {metric : UniverseMetric} {elite : UniverseElite} {score : ℚ} :
    Beats metric elite score ↔ Improves metric elite.score score := by
  unfold Beats Improves improvement multiplier
  cases metric.direction with
  | maximize | minimize =>
      simp only
      constructor
      · rintro ⟨strictly, enough⟩
        constructor <;> linarith
      · rintro ⟨strictly, enough⟩
        constructor <;> linarith

/-! One run. -/

section Run

variable {reading : UniverseReading} {stored : ManifestRecord} {records : List UniverseRecord}
  {state next : ProjectionState} {start : StartRecord} {run : UniverseRun}

theorem unselected_injective {a b : UniverseTrial} (fields : a.unselected = b.unselected)
    (selected : a.selected = b.selected) (delta : a.delta = b.delta) : a = b := by
  cases a
  cases b
  simp only [UniverseTrial.unselected, UniverseTrial.mk.injEq, true_and] at fields ⊢
  simp only at selected delta
  tauto

theorem expectedTrials_unselected (manifest : UniverseManifest) (run : UniverseRun)
    (prior : List UniverseElite) :
    (expectedTrials manifest run prior).map (·.unselected) = run.trials.map (·.unselected) := by
  have cleared : (run.trials.map (·.unselected)).map (·.unselected) =
      run.trials.map (·.unselected) := by
    rw [List.map_map]
    rfl
  unfold expectedTrials
  simp only
  split
  · rw [selectWinners_unselected, cleared]
  · exact cleared

structure Projected (reading : UniverseReading) (stored : ManifestRecord)
    (records : List UniverseRecord) (state : ProjectionState) (start : StartRecord)
    (run : UniverseRun) : Prop where
  pinned : start.run.universeId = stored.manifest.id ∧
    start.run.manifestDigest = stored.manifestDigest ∧
      start.run.comparatorDigest = stored.comparatorDigest
  context : start.run.seedContext.isSome →
    reading.seedContext start.run stored = start.run.seedContext
  read : readRun reading records start = .ok run
  selection : run.trials = expectedTrials stored.manifest run (eliteList state.elites)
  lineage : ∀ trial ∈ run.trials, checkTrial reading stored state run trial = .ok ()

def ProjectionState.after (state : ProjectionState) (run : UniverseRun) : ProjectionState where
  runs := state.runs ++ [run]
  elites := archiveRun state.elites run
  activeRun := if run.status = .running then some run else state.activeRun

theorem selection_iff {manifest : UniverseManifest} {prior : List UniverseElite} :
    run.trials.map (fun trial => (trial.selected, trial.delta)) =
        (expectedTrials manifest run prior).map (fun trial => (trial.selected, trial.delta)) ↔
      run.trials = expectedTrials manifest run prior := by
  constructor
  · intro same
    have fields := expectedTrials_unselected manifest run prior
    have long : run.trials.length = (expectedTrials manifest run prior).length := by
      rw [← List.length_map (f := fun trial => trial.unselected), ← fields, List.length_map]
    apply List.ext_getElem long
    intro index first second
    have marks := List.getElem_of_eq same (by rwa [List.length_map])
    have bare := List.getElem_of_eq fields (by rwa [List.length_map])
    rw [List.getElem_map, List.getElem_map] at marks bare
    obtain ⟨selected, delta⟩ := Prod.mk.inj marks
    exact unselected_injective bare.symm selected delta
  · intro same
    exact congrArg (List.map fun trial => (trial.selected, trial.delta)) same

theorem projectRun_eq_ok : projectRun reading stored records state start = .ok next ↔
    ∃ run, Projected reading stored records state start run ∧ next = state.after run := by
  unfold projectRun
  rw [refuse_eq_ok, refuse_eq_ok, bind_eq_ok]
  simp only [not_or, not_not, not_and, ne_eq]
  constructor
  · rintro ⟨pinned, context, run, read, rest⟩
    rw [refuse_eq_ok, bind_eq_ok, not_not, selection_iff] at rest
    obtain ⟨selection, _, checked, same⟩ := rest
    exact ⟨run, ⟨pinned, context, read, selection, forM_eq_ok.mp checked⟩,
      (pure_eq_ok.mp same).symm⟩
  · rintro ⟨run, projected, rfl⟩
    refine ⟨projected.pinned, projected.context, run, projected.read, ?_⟩
    rw [refuse_eq_ok, bind_eq_ok, not_not, selection_iff]
    exact ⟨projected.selection, (), forM_eq_ok.mpr projected.lineage, rfl⟩

theorem parent_of_checkTrial (checked : checkTrial reading stored state run trial = .ok ()) :
    trial.parentTrialId = (state.elites.get? trial.niche).map (·.trialId) := by
  unfold checkTrial at checked
  cases found : stored.manifest.variants.find? fun variant => variant.id = trial.variantId with
  | none => rw [found] at checked; cases checked
  | some variant =>
      rw [found] at checked
      simp only at checked
      rw [refuse_eq_ok] at checked
      simpa only [ne_eq, not_or, not_not] using (not_or.mp checked.1).2

theorem mem_of_finalOf {id : JsString} (found : finalOf records id = some run) :
    .final run ∈ records ∧ run.id = id := by
  obtain ⟨record, member, matched⟩ := List.exists_of_findSome?_eq_some found
  cases record with
  | final other =>
      simp only [Option.ite_none_right_eq_some, Option.some.injEq] at matched
      obtain ⟨same, rfl⟩ := matched
      exact ⟨member, same⟩
  | manifest other => cases matched
  | start other => cases matched
  | trial owner other => cases matched

theorem mem_trialsOf {id : JsString} :
    trial ∈ trialsOf records id ↔ .trial id trial ∈ records := by
  unfold trialsOf
  rw [List.mem_filterMap]
  constructor
  · rintro ⟨record, member, matched⟩
    cases record with
    | trial owner other =>
        simp only [Option.ite_none_right_eq_some, Option.some.injEq] at matched
        obtain ⟨rfl, rfl⟩ := matched
        exact member
    | manifest other => cases matched
    | start other => cases matched
    | final other => cases matched
  · intro member
    exact ⟨_, member, if_pos rfl⟩

theorem readRun_eq_ok : readRun reading records start = .ok run ↔
    (finalOf records start.run.id = some run ∧
      finalDiffers start.run run (trialsOf records start.run.id) = false) ∨
    (finalOf records start.run.id = none ∧
      run = unfinishedRun reading start (trialsOf records start.run.id)) := by
  unfold readRun
  cases found : finalOf records start.run.id with
  | none =>
      simp only [Except.ok.injEq, reduceCtorEq, false_and, true_and, false_or]
      exact eq_comm
  | some final =>
      simp only [Option.some.injEq, reduceCtorEq, false_and, or_false]
      split
      · rename_i differs
        simp only [reduceCtorEq, false_iff, not_and, Bool.not_eq_false]
        rintro rfl
        exact differs
      · rename_i agrees
        simp only [Except.ok.injEq]
        constructor
        · rintro rfl
          exact ⟨rfl, by simpa using agrees⟩
        · exact fun both => both.1

theorem readRun_valid (valid : ∀ record ∈ records, record.Valid)
    (read : readRun reading records start = .ok run) : ∀ trial ∈ run.trials, trial.Valid := by
  rcases readRun_eq_ok.mp read with ⟨found, _⟩ | ⟨_, rfl⟩
  · exact (valid _ (mem_of_finalOf found).1).1.trials
  · intro trial member
    exact (valid _ (mem_trialsOf.mp member)).1

/-! The archive behind a run. -/

theorem eliteFrom_of_unselected (unselected : trial.selected = false) :
    eliteFrom run trial = none := by
  unfold eliteFrom
  rw [unselected]
  split
  · simp
  · rfl

theorem eliteFrom_eq_some {elite : UniverseElite} (taken : eliteFrom run trial = some elite) :
    elite.niche = trial.niche ∧ elite.trialId = trial.id ∧ trial.score = some elite.score := by
  unfold eliteFrom at taken
  split at taken
  · rename_i score artifact scored archived
    simp only [Option.ite_none_right_eq_some, Option.some.injEq] at taken
    obtain ⟨_, rfl⟩ := taken
    exact ⟨rfl, rfl, scored⟩
  · cases taken

theorem eliteFrom_isSome (valid : trial.Valid) (completed : run.status = .completed)
    (selected : trial.selected) :
    (eliteFrom run trial).isSome := by
  have passed := valid.passed selected
  obtain ⟨score, scored⟩ := Option.isSome_iff_exists.mp (valid.scored passed)
  obtain ⟨artifact, archived⟩ := Option.isSome_iff_exists.mp (valid.archived passed)
  unfold eliteFrom
  rw [scored, archived]
  simp only
  rw [if_pos ⟨completed, selected⟩]
  rfl

def winnersOf (run : UniverseRun) (niche : JsString) : List UniverseTrial :=
  run.trials.filter fun trial => trial.selected && trial.niche = niche

theorem get?_archiveRun (niche : JsString) (elites : Elites)
    (archived : ∀ trial ∈ run.trials, trial.selected → (eliteFrom run trial).isSome) :
    (archiveRun elites run).get? niche =
      ((winnersOf run niche).getLast?.bind (eliteFrom run)).or (elites.get? niche) := by
  unfold archiveRun winnersOf
  revert archived
  induction run.trials using List.reverseRecOn with
  | nil => exact fun _ => rfl
  | append_singleton trials trial ih =>
      intro archived
      have before := ih fun other member => archived other (List.mem_append_left _ member)
      rw [List.foldl_append, List.filter_append, List.getLast?_append]
      cases selected : trial.selected with
      | false => simp [eliteFrom_of_unselected selected, selected, before]
      | true =>
          have taken := archived trial (List.mem_append_right _ (List.mem_singleton_self _))
            selected
          obtain ⟨elite, taken⟩ := Option.isSome_iff_exists.mp taken
          by_cases own : trial.niche = niche
          · subst own
            simp [taken, selected, JsMap.get?_set_self]
          · simp [taken, selected, own, JsMap.get?_set_ne (Ne.symm own), before]

theorem archiveRun_of_unselected (elites : Elites)
    (unselected : ∀ trial ∈ run.trials, trial.selected = false) :
    archiveRun elites run = elites := by
  unfold archiveRun
  revert unselected
  induction run.trials with
  | nil => exact fun _ => rfl
  | cons trial trials ih =>
      intro unselected
      rw [List.foldl_cons, eliteFrom_of_unselected (unselected trial List.mem_cons_self)]
      exact ih fun other member => unselected other (List.mem_cons_of_mem _ member)

variable {elites : Elites}

theorem archiveRun_invariant (holds : Elites → Prop) (start : holds elites)
    (keeps : ∀ elites trial elite, holds elites → eliteFrom run trial = some elite →
      holds (elites.set trial.niche elite)) : holds (archiveRun elites run) := by
  unfold archiveRun
  induction run.trials generalizing elites with
  | nil => exact start
  | cons trial trials ih =>
      rw [List.foldl_cons]
      apply ih
      cases taken : eliteFrom run trial with
      | none => exact start
      | some elite => exact keeps elites trial elite start taken

theorem keyed_archiveRun (keyed : ∀ entry ∈ elites, entry.2.niche = entry.1) :
    ∀ entry ∈ archiveRun elites run, entry.2.niche = entry.1 := by
  apply archiveRun_invariant (fun elites => ∀ entry ∈ elites, entry.2.niche = entry.1) keyed
  intro elites trial elite keyed taken entry member
  rcases JsMap.mem_entries_set member with rfl | before
  · exact (eliteFrom_eq_some taken).1
  · exact keyed entry before

theorem distinct_archiveRun (distinct : elites.keys.Nodup) :
    (archiveRun elites run).keys.Nodup :=
  archiveRun_invariant (fun elites => elites.keys.Nodup) distinct fun _ _ _ once _ =>
    JsMap.nodup_keys_set _ _ once

theorem nicheElite_eliteList {niche : JsString} : {elites : Elites} →
    (∀ entry ∈ elites, entry.2.niche = entry.1) →
      nicheElite (eliteList elites) niche = elites.get? niche
  | [], _ => rfl
  | entry :: elites, keyed => by
      have own := keyed entry List.mem_cons_self
      have others : nicheElite (eliteList elites) niche = JsMap.get? elites niche :=
        nicheElite_eliteList fun other member => keyed other (List.mem_cons_of_mem entry member)
      rw [JsMap.get?_cons, ← others, ← own]
      unfold nicheElite eliteList
      rw [List.map_cons, List.find?_cons]
      split
      · rename_i same
        rw [if_pos (of_decide_eq_true same)]
      · rename_i differs
        rw [if_neg (of_decide_eq_false differs)]

/-! A run on the archive before it. -/

theorem lastSelected_concat (niche : JsString) (runs : List UniverseRun) (run : UniverseRun) :
    lastSelected niche (runs ++ [run]) =
      ((winnersOf run niche).getLast?.map fun trial => (run, trial)).or
        (lastSelected niche runs) := by
  unfold lastSelected selections
  rw [List.flatMap_append, List.flatMap_singleton, List.getLast?_append, List.getLast?_map]
  rfl

section

variable (projected : Projected reading stored records state start run)
include projected

theorem Projected.unselected
    (unfinished : run.status ≠ .completed) : ∀ trial ∈ run.trials, trial.selected = false := by
  rw [projected.selection]
  unfold expectedTrials
  simp only
  rw [if_neg unfinished]
  intro trial member
  obtain ⟨source, _, rfl⟩ := List.mem_map.mp member
  rfl

theorem Projected.selects :
    ∃ niches, Selection stored.manifest (eliteList state.elites) niches run.trials := by
  have cleared : ∀ trial ∈ run.trials.map (·.unselected), trial.selected = false := by
    intro trial member
    obtain ⟨source, _, rfl⟩ := List.mem_map.mp member
    rfl
  rw [projected.selection]
  unfold expectedTrials
  simp only
  split
  · exact ⟨_, selectWinners_selection cleared⟩
  · exact ⟨_, Selection.none cleared⟩

theorem Projected.kept (valid : ∀ record ∈ records, record.Valid) :
    ∀ trial ∈ run.trials, trial.selected → (eliteFrom run trial).isSome := by
  intro trial member selected
  have completed : run.status = .completed := by
    by_contra unfinished
    rw [projected.unselected unfinished trial member] at selected
    cases selected
  exact eliteFrom_isSome (readRun_valid valid projected.read trial member) completed selected

theorem Projected.runLineage (archived : Archived stored.manifest.metric state) :
    Lineage stored.manifest.metric state.runs run := by
  obtain ⟨niches, selection⟩ := projected.selects
  have elite : ∀ niche, nicheElite (eliteList state.elites) niche =
      (lastSelected niche state.runs).bind fun elite => eliteFrom elite.1 elite.2 := fun niche =>
    (nicheElite_eliteList archived.keyed).trans (archived.elites niche)
  refine ⟨selection.single, ?_, ?_, ?_, projected.unselected⟩
  · intro trial member selected none
    obtain ⟨score, _, delta, _⟩ := selection.wins trial member selected
    rw [elite, none] at delta
    exact delta
  · intro trial member selected owner best last
    obtain ⟨score, scored, delta, beats⟩ := selection.wins trial member selected
    obtain ⟨held, taken⟩ := Option.isSome_iff_exists.mp (archived.kept _ _ last)
    rw [elite, last, Option.bind_some, taken] at delta beats
    exact ⟨held.score, score, (eliteFrom_eq_some taken).2.2, scored, delta,
      beats_iff.mp (beats held rfl)⟩
  · intro trial member
    rw [parent_of_checkTrial (projected.lineage trial member), archived.elites]
    cases last : lastSelected trial.niche state.runs with
    | none => rfl
    | some best =>
        obtain ⟨held, taken⟩ := Option.isSome_iff_exists.mp (archived.kept _ _ last)
        rw [Option.bind_some, taken, Option.map_some, Option.map_some,
          (eliteFrom_eq_some taken).2.1]

end

theorem Archived.step (archived : Archived stored.manifest.metric state)
    (valid : ∀ record ∈ records, record.Valid)
    (projected : Projected reading stored records state start run) :
    Archived stored.manifest.metric (state.after run) where
  lineage := fun earlier other later split => by
    rcases snoc_split split with ⟨rfl, rfl, _⟩ | ⟨rest, _, before⟩
    · exact projected.runLineage archived
    · exact archived.lineage earlier other rest before
  elites := fun niche => by
    rw [ProjectionState.after, get?_archiveRun niche _ (projected.kept valid),
      lastSelected_concat, archived.elites]
    cases last : (winnersOf run niche).getLast? with
    | none => rfl
    | some trial =>
        have member := List.mem_filter.mp (List.mem_of_getLast? last)
        have selected : trial.selected = true := by simp at member; exact member.2.1
        obtain ⟨elite, taken⟩ :=
          Option.isSome_iff_exists.mp (projected.kept valid trial member.1 selected)
        simp [taken]
  kept := fun niche elite last => by
    rw [ProjectionState.after, lastSelected_concat] at last
    cases winner : (winnersOf run niche).getLast? with
    | none =>
        rw [winner] at last
        exact archived.kept niche elite last
    | some trial =>
        have member := List.mem_filter.mp (List.mem_of_getLast? winner)
        have selected : trial.selected = true := by simp at member; exact member.2.1
        rw [winner] at last
        cases last
        exact projected.kept valid trial member.1 selected
  keyed := keyed_archiveRun archived.keyed
  distinct := distinct_archiveRun archived.distinct

end Run

/-! The whole ledger. -/

section Ledger

variable {reading : UniverseReading} {stored : ManifestRecord} {records : List UniverseRecord}
  {summary : UniverseSummary}

theorem archived_start (metric : UniverseMetric) : Archived metric ⟨[], [], none⟩ where
  lineage := fun earlier run later split => by cases earlier <;> cases split
  elites := fun niche => rfl
  kept := fun niche elite last => by cases last
  keyed := fun entry member => by cases member
  distinct := List.nodup_nil

theorem archived_of_runs {starts : List StartRecord} {state : ProjectionState}
    (valid : ∀ record ∈ records, record.Valid)
    (folded : starts.foldlM (projectRun reading stored records) ⟨[], [], none⟩ = .ok state) :
    Archived stored.manifest.metric state := by
  refine foldlM_invariant ?_ (archived_start stored.manifest.metric) folded
  intro before start next archived stepped
  obtain ⟨run, projected, rfl⟩ := projectRun_eq_ok.mp stepped
  exact archived.step valid projected

theorem projectUniverse_eq_ok : projectUniverse reading records = .ok summary ↔
    ∃ stored state, manifestOf records = some stored ∧ reading.manifestInScope stored ∧
      (startsOf records).map (·.run.generation) =
        (List.range (startsOf records).length).map (· + 1) ∧
      (startsOf records).foldlM (projectRun reading stored records) ⟨[], [], none⟩ = .ok state ∧
      records.any (isOrphan (startsOf records)) = false ∧
      summary = summarize reading stored state := by
  unfold projectUniverse
  cases found : manifestOf records with
  | none => simp only [reduceCtorEq, false_and, exists_false]
  | some stored =>
      simp only [Option.some.injEq, exists_and_left, exists_eq_left']
      rw [refuse_eq_ok, refuse_eq_ok, bind_eq_ok]
      simp only [refuse_eq_ok, pure_eq_ok, ne_eq, not_not, Bool.not_eq_true, Bool.not_eq_false,
        Bool.not_eq_eq_eq_not, Bool.not_true]
      constructor
      · rintro ⟨scope, sequence, state, folded, complete, rfl⟩
        exact ⟨scope, sequence, state, folded, complete, rfl⟩
      · rintro ⟨scope, sequence, state, folded, complete, rfl⟩
        exact ⟨scope, sequence, state, folded, complete, rfl⟩

structure ElitesFollow (summary : UniverseSummary) : Prop where
  lineage : ∀ earlier run later, summary.runs = earlier ++ run :: later →
    Lineage summary.manifest.metric earlier run
  elites : summary.healthy → ∀ niche, nicheElite summary.elites niche =
    (lastSelected niche summary.runs).bind fun elite => eliteFrom elite.1 elite.2
  kept : ∀ niche elite, lastSelected niche summary.runs = some elite →
    (eliteFrom elite.1 elite.2).isSome
  distinct : (summary.elites.map (·.niche)).Nodup
  degraded : summary.healthy = false → summary.elites = []

theorem map_niche_eliteList (keyed : ∀ entry ∈ elites, entry.2.niche = entry.1) :
    (eliteList elites).map (·.niche) = elites.keys := by
  unfold eliteList JsMap.keys
  rw [List.map_map]
  exact List.map_congr_left keyed

theorem elitesFollow (valid : ∀ record ∈ records, record.Valid)
    (accepted : projectUniverse reading records = .ok summary) : ElitesFollow summary := by
  obtain ⟨stored, state, _, _, _, folded, _, rfl⟩ := projectUniverse_eq_ok.mp accepted
  have archived := archived_of_runs valid folded
  refine ⟨archived.lineage, ?_, archived.kept, ?_, ?_⟩
  · intro healthy niche
    have clean := List.isEmpty_iff.mp healthy
    exact (congrArg (nicheElite · niche) (if_pos clean)).trans
      ((nicheElite_eliteList archived.keyed).trans (archived.elites niche))
  · unfold summarize
    simp only
    split
    · rw [map_niche_eliteList archived.keyed]
      exact archived.distinct
    · exact List.nodup_nil
  · intro degraded
    refine if_neg fun clean => ?_
    exact Bool.false_ne_true (degraded.symm.trans (List.isEmpty_iff.mpr clean))

end Ledger

end AshlrHub.Universe

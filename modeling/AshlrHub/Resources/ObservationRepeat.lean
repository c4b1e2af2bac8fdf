import AshlrHub.Resources.ObservationDenials

namespace AshlrHub.Resources

open Js Artifacts Authority Lib

/-! Merging the same observations twice. -/

variable {nowMs laterMs : ℤ} {before item : ResourceObservation}
  {windows : List ResourceQuotaWindow} {window reading a b : ResourceQuotaWindow}
  {bucket : Option JsString}

theorem id_eq_of_fullerFirst (ab : fullerFirst a b = true) (ba : fullerFirst b a = true) :
    a.id = b.id := by
  rw [fullerFirst_iff] at ab ba
  rcases ab with more | ⟨_, le⟩
  · rcases ba with more' | ⟨same, _⟩
    · exact absurd more' more.le.not_gt
    · exact absurd more (same ▸ lt_irrefl _)
  · rcases ba with more | ⟨_, le'⟩
    · rename_i same
      exact absurd more (same ▸ lt_irrefl _)
    · exact List.le_antisymm le le'

theorem fullerFirst_of_not_raises (same : window.id = reading.id)
    (valid : ∀ known, window.usedPercent = some known → 0 ≤ known.val)
    (lower : Raises window reading = false) : fullerFirst window reading = true := by
  have le : reading.fullness ≤ window.fullness := by
    by_contra above
    rw [← Bool.not_eq_true, raises_iff] at lower
    unfold ResourceQuotaWindow.fullness at above
    cases used : reading.usedPercent with
    | none =>
        rw [used] at above
        cases known : window.usedPercent with
        | none =>
            rw [known] at above
            exact above le_rfl
        | some old =>
            rw [known] at above
            exact above (by
              change (-1 : ℚ) ≤ old.val
              linarith only [valid old known])
    | some more =>
        refine lower ⟨more, used, fun known is => ?_⟩
        rw [used, is] at above
        exact not_le.mp above
  rw [fullerFirst_iff]
  rcases lt_or_eq_of_le le with less | equal
  · exact .inl less
  · exact .inr ⟨equal.symm, same ▸ List.le_refl _⟩

section

variable (sound : SoundWindows bucket before.windows) (itemSound : SoundWindows bucket item.windows)
include sound itemSound

theorem left_out_again
    (member : b ∈ overlay (·.id) item.windows (foldedWindows (joinedWindows nowMs before item)))
    (ordinary : b.id ≠ observationOverflow)
    (out : b ∉ fullestWindows (joinedWindows nowMs before item)) :
    (∀ a ∈ fullestWindows (joinedWindows nowMs before item), fullerFirst a b = true) ∧
      (fullestWindows (joinedWindows nowMs before item)).length = maxObservationWindows - 1 := by
  have fromItem : b ∈ item.windows ∧
      b.id ∉ (foldedWindows (joinedWindows nowMs before item)).map (·.id) := by
    rcases mem_of_mem_overlay member with held | folded
    · exact held
    · rw [foldedWindows_eq] at folded
      rcases List.mem_append.mp folded with inFull | mark
      · exact absurd inFull out
      · exact absurd (congrArg ResourceQuotaWindow.id (List.mem_singleton.mp mark)) ordinary
  rcases joined_of_item sound.once itemSound.once fromItem.1 with
    joined | ⟨window, old, same, joined, lower⟩
  · exact left_out joined ordinary out
  · -- The old window of its key is as full, and is left out as well.
    have windowOut : window ∉ fullestWindows (joinedWindows nowMs before item) := by
      intro inFull
      refine fromItem.2 (same ▸ List.mem_map_of_mem ?_)
      exact List.mem_append_left _ inFull
    obtain ⟨behind, seven⟩ := left_out joined (same ▸ ordinary) windowOut
    refine ⟨fun a inFull => ?_, seven⟩
    have next := fullerFirst_of_not_raises same
      (fun known used => (percent_of_valid (sound.valid window old) used).1) lower
    exact fullerFirst_trans (behind a inFull) next

theorem fullestWindows_again :
    fullestWindows (overlay (·.id) item.windows
        (foldedWindows (joinedWindows nowMs before item))) =
      fullestWindows (joinedWindows nowMs before item) := by
  have joined := @soundWindows_joined nowMs _ _ _ sound itemSound
  have fullOnce := nodup_keys_fullest joined.once
  have foldedOnce : ((foldedWindows (joinedWindows nowMs before item)).map (·.id)).Nodup :=
    nodup_keys_folded joined.once
  set again := overlay (·.id) item.windows (foldedWindows (joinedWindows nowMs before item))
    with isAgain
  have once : (again.map (·.id)).Nodup := nodup_keys_overlay itemSound.once foldedOnce
  have ordinaryOnce : ((again.filter fun window => window.id ≠ observationOverflow).map
      (·.id)).Nodup := once.sublist (List.filter_sublist.map _)
  refine take_insertionSort_eq ?_ ordinaryOnce.of_map fullOnce.of_map ?_ sorted_fullest ?_ ?_
  · intro a inA b inB ab ba
    exact List.inj_on_of_nodup_map ordinaryOnce inA inB (id_eq_of_fullerFirst ab ba)
  · intro a inFull
    refine List.mem_filter.mpr ⟨mem_overlay_of_top foldedOnce ?_,
      decide_eq_true (mem_of_mem_fullest inFull).2⟩
    exact List.mem_append_left _ inFull
  · intro a inFull b inB out
    obtain ⟨member, ordinary⟩ := List.mem_filter.mp inB
    exact (left_out_again sound itemSound member (of_decide_eq_true ordinary) out).1 a inFull
  · by_cases covered : (again.filter fun window => window.id ≠ observationOverflow) ⊆
        fullestWindows (joinedWindows nowMs before item)
    · exact .inr ⟨List.length_take_le _ _, covered⟩
    · simp only [List.subset_def, not_forall] at covered
      obtain ⟨b, inB, out⟩ := covered
      obtain ⟨member, ordinary⟩ := List.mem_filter.mp inB
      exact .inl (left_out_again sound itemSound member (of_decide_eq_true ordinary) out).2

end

/-! The second merge. -/

theorem not_fresh_again (once : (before.windows.map (·.id)).Nodup)
    (itemOnce : (item.windows.map (·.id)).Nodup) :
    fullyFresh laterMs (mergeObservation nowMs before item) item = false := by
  have captured : (mergeObservation nowMs before item).capturedAt = item.capturedAt := by
    rw [mergeObservation_eq once itemOnce]
    rfl
  have same : ¬item.capturedAt < item.capturedAt := List.lt_irrefl _
  rw [fullyFresh, captured, decide_eq_false same, Bool.false_and, Bool.false_and]

theorem not_superseded_joined (itemOnce : (item.windows.map (·.id)).Nodup)
    (member : window ∈ joinedWindows nowMs before item) :
    superseded laterMs false item.windows window = false := by
  refine eq_false_of_ne_true fun gone => ?_
  obtain ⟨reading, held, same, why⟩ := (superseded_iff itemOnce).mp gone
  have raises := why.resolve_left fun both => by cases both.1
  rcases mem_of_mem_overlay member with ⟨inItem, _⟩ | kept
  · -- It is the reading itself.
    rw [List.inj_on_of_nodup_map itemOnce held inItem same] at raises
    obtain ⟨used, is, above⟩ := raises_iff.mp raises
    exact lt_irrefl _ (above used is)
  · have stays := (mem_keptWindows.mp kept).2
    rw [(superseded_iff itemOnce).mpr ⟨reading, held, same, .inr raises⟩] at stays
    cases stays

theorem unmarked_iff : marked item = false ↔ ∀ window ∈ item.windows,
    window.id ≠ observationOverflow := by
  rw [marked, List.any_eq_false]
  simp only [decide_eq_true_eq, ne_eq]

theorem keptWindows_again (once : (before.windows.map (·.id)).Nodup)
    (itemOnce : (item.windows.map (·.id)).Nodup) (unmarked : marked item = false) :
    keptWindows laterMs false item (mergeObservation nowMs before item).windows =
      (mergeObservation nowMs before item).windows := by
  refine List.filter_eq_self.mpr fun window member => ?_
  rw [Bool.not_eq_true']
  rw [mergeObservation_eq once itemOnce] at member
  dsimp only at member
  split_ifs at member
  · rw [foldedWindows_eq] at member
    rcases List.mem_append.mp member with inFull | mark
    · exact not_superseded_joined itemOnce (mem_of_mem_fullest inFull).1
    · rw [List.mem_singleton.mp mark]
      refine eq_false_of_ne_true fun gone => ?_
      obtain ⟨reading, held, same, _⟩ := (superseded_iff itemOnce).mp gone
      exact unmarked_iff.mp unmarked reading held same
  · exact not_superseded_joined itemOnce member

variable {worker : ResourceWorker}

theorem windows_again (sound : SoundObservation worker before)
    (itemSound : SoundObservation worker item) (unmarked : marked item = false) :
    let merged := mergeObservation nowMs before item
    overflows laterMs merged item = overflows nowMs before item ∧
      (mergeObservation laterMs merged item).windows = merged.windows := by
  intro merged
  have once := sound.windows.once
  have itemOnce := itemSound.windows.once
  have mergedSound : SoundObservation worker merged := soundObservation_merged sound itemSound
  have joinedOnce := (@soundWindows_joined nowMs _ _ _ sound.windows itemSound.windows).once
  have joined : joinedWindows laterMs merged item = overlay (·.id) item.windows merged.windows := by
    rw [joinedWindows, not_fresh_again once itemOnce, keptWindows_again once itemOnce unmarked]
  rw [mergeObservation_eq mergedSound.windows.once itemOnce]
  dsimp only
  by_cases full : overflows nowMs before item = true
  · have folded := folded_of_overflows once itemOnce full
    have windows : merged.windows = foldedWindows (joinedWindows nowMs before item) := by
      change (mergeObservation nowMs before item).windows = _
      rw [mergeObservation_eq once itemOnce]
      exact if_pos full
    have again : overflows laterMs merged item = true := by
      rw [overflows, Bool.or_eq_true]
      exact .inr (List.any_eq_true.mpr ⟨overflowWindow, folded.2, decide_eq_true rfl⟩)
    rw [if_pos again, joined, windows, foldedWindows_eq,
      fullestWindows_again sound.windows itemSound.windows, full]
    exact ⟨again, rfl⟩
  · have room := eq_false_of_ne_true full
    have windows : merged.windows = joinedWindows nowMs before item :=
      mem_merged_of_joined once itemOnce room
    have same : joinedWindows laterMs merged item = joinedWindows nowMs before item := by
      rw [joined, windows]
      exact overlay_overlay itemOnce (once.sublist (keptWindows_sublist.map _))
    have mark : marked merged = false := by
      rw [overflows, Bool.or_eq_false_iff] at room
      refine unmarked_iff.mpr fun window member => ?_
      rw [windows] at member
      rcases mem_of_mem_overlay member with ⟨inItem, _⟩ | kept
      · exact unmarked_iff.mp unmarked window inItem
      · exact unmarked_iff.mp room.2 window (keptWindows_sublist.subset kept)
    have again : overflows laterMs merged item = false := by
      rw [overflows, Bool.or_eq_false_iff] at room ⊢
      rw [same]
      exact ⟨room.1, mark⟩
    rw [if_neg (by rw [again]; exact Bool.false_ne_true), same, again, room, windows]
    exact ⟨rfl, rfl⟩

theorem retains_again (sound : SoundObservation worker before)
    (itemSound : SoundObservation worker item) (unmarked : marked item = false)
    (kept : retains nowMs before item = true) :
    retains laterMs (mergeObservation nowMs before item) item = true := by
  have once := sound.windows.once
  have itemOnce := itemSound.windows.once
  have full := (@windows_again nowMs laterMs _ _ _ sound itemSound unmarked).1
  rw [retains, Bool.or_eq_true, decide_eq_true_eq] at kept ⊢
  rw [not_fresh_again once itemOnce, keptWindows_again once itemOnce unmarked, full]
  by_cases overflow : overflows nowMs before item = true
  · exact .inr overflow
  · rw [mem_merged_of_joined once itemOnce (eq_false_of_ne_true overflow)]
    obtain ⟨window, held⟩ := List.exists_mem_of_ne_nil _ (kept.resolve_right overflow)
    refine .inl (List.ne_nil_of_mem (mem_overlay_of_top ?_ held))
    exact once.sublist (keptWindows_sublist.map _)

theorem earlierIf_again {kept again : Bool} (old new : JsString)
    (holds : kept = true → again = true) :
    earlierIf again (earlierIf kept old new) new = earlierIf kept old new := by
  rcases earlierIf_cases kept old new with same | ⟨same, held, earlier⟩
  · rw [same, earlierIf, decide_eq_false (List.lt_irrefl new), Bool.and_false]
    rfl
  · rw [same, earlierIf, holds held, decide_eq_true earlier]
    rfl

theorem latest_again (old new : Option JsString) :
    latest ((latest (old.toList ++ new.toList)).toList ++ new.toList) =
      latest (old.toList ++ new.toList) := by
  cases last : latest (old.toList ++ new.toList) with
  | none =>
      rw [(List.append_eq_nil_iff.mp (latest_eq_none.mp last)).2]
      rfl
  | some time =>
      refine latest_eq_some.mpr ⟨List.mem_cons_self, fun text member => ?_⟩
      rcases List.mem_cons.mp member with rfl | inNew
      · exact List.le_refl text
      · exact (latest_eq_some.mp last).2 text (List.mem_append_right _ inNew)

theorem mergeObservation_eta (once : (before.windows.map (·.id)).Nodup)
    (itemOnce : (item.windows.map (·.id)).Nodup) :
    mergeObservation nowMs before item = { item with
      health := (mergeObservation nowMs before item).health
      windows := (mergeObservation nowMs before item).windows
      updatedAt := some item.capturedAt
      observedAt := (mergeObservation nowMs before item).observedAt
      expiresAt := (mergeObservation nowMs before item).expiresAt
      retryAfter := (mergeObservation nowMs before item).retryAfter } := by
  rw [mergeObservation_eq once itemOnce]

section

variable (sound : SoundObservation worker before) (itemSound : SoundObservation worker item)
  (unmarked : marked item = false)
include sound itemSound unmarked

theorem health_again :
    (mergeObservation laterMs (mergeObservation nowMs before item) item).health =
      (mergeObservation nowMs before item).health := by
  have once := sound.windows.once
  have itemOnce := itemSound.windows.once
  have mergedSound := @soundObservation_merged nowMs _ _ _ sound itemSound
  have full := (@windows_again nowMs laterMs _ _ _ sound itemSound unmarked).1
  have health : (mergeObservation nowMs before item).health =
      if overflows nowMs before item || (!fullyFresh nowMs before item &&
        before.health = .unavailable) then .unavailable else item.health := by
    rw [mergeObservation_eq once itemOnce]
  rw [mergeObservation_eq mergedSound.windows.once itemOnce]
  dsimp only
  rw [full, not_fresh_again once itemOnce]
  by_cases denied : (mergeObservation nowMs before item).health = .unavailable
  · rw [denied]
    exact if_pos (by simp)
  · rw [health] at denied
    split_ifs at denied with either
    · exact absurd rfl denied
    · rw [health, if_neg either, if_neg]
      rw [Bool.or_eq_true, not_or] at either
      simpa [either.1] using denied

theorem mergeObservation_again :
    mergeObservation laterMs (mergeObservation nowMs before item) item =
      mergeObservation nowMs before item := by
  have once := sound.windows.once
  have itemOnce := itemSound.windows.once
  have mergedSound := @soundObservation_merged nowMs _ _ _ sound itemSound
  have kept := @retains_again nowMs laterMs _ _ _ sound itemSound unmarked
  have first := @mergeObservation_eq nowMs before item once itemOnce
  have second := @mergeObservation_eq laterMs (mergeObservation nowMs before item) item
    mergedSound.windows.once itemOnce
  have observed : (mergeObservation laterMs (mergeObservation nowMs before item) item).observedAt =
      (mergeObservation nowMs before item).observedAt := by
    have is : (mergeObservation nowMs before item).observedAt =
      earlierIf (retains nowMs before item) before.observedAt item.observedAt := by
      rw [first]
      rfl
    rw [second, is]
    exact earlierIf_again _ _ kept
  have expires : (mergeObservation laterMs (mergeObservation nowMs before item) item).expiresAt =
      (mergeObservation nowMs before item).expiresAt := by
    have is : (mergeObservation nowMs before item).expiresAt =
      earlierIf (retains nowMs before item) before.expiresAt item.expiresAt := by
      rw [first]
      rfl
    rw [second, is]
    exact earlierIf_again _ _ kept
  have retry : (mergeObservation laterMs (mergeObservation nowMs before item) item).retryAfter =
      (mergeObservation nowMs before item).retryAfter := by
    have is : (mergeObservation nowMs before item).retryAfter =
      latest (before.retryAfter.toList ++ item.retryAfter.toList) := by rw [first]
    rw [second, is]
    exact latest_again _ _
  rw [mergeObservation_eta mergedSound.windows.once itemOnce, observed, expires, retry,
    health_again sound itemSound unmarked,
    (windows_again sound itemSound unmarked).2]
  exact (mergeObservation_eta once itemOnce).symm

end

variable {host : PoolHost} {pool : ResourcePool} {previous incoming : List ResourceObservation}

theorem outdated_self (item : ResourceObservation) : outdated host item item = true := by
  rw [outdated, decide_eq_true rfl, decide_eq_true rfl]
  simp

theorem absorb_again (valid : validObservation pool before = true)
    (itemValid : validObservation pool item = true) (same : item.workerId = before.workerId)
    (unmarked : marked item = false) :
    absorb host laterMs (absorb host nowMs before item) item = absorb host nowMs before item := by
  by_cases skip : outdated host before item = true
  · have stays : ∀ time, absorb host time before item = before := fun time => if_pos skip
    rw [stays, stays]
  · obtain ⟨worker, found, sound⟩ := soundObservation_of_valid valid
    obtain ⟨other, known, itemSound⟩ := soundObservation_of_valid itemValid
    rw [same, found] at known
    obtain rfl := Option.some.inj known
    have first : absorb host nowMs before item = mergeObservation nowMs before item := if_neg skip
    rw [first, absorb, mergeObservation_again sound itemSound unmarked, ite_self]

theorem merge_again (valid : validateResourceObservations pool previous = true)
    (newValid : validateResourceObservations pool incoming = true)
    (unmarked : ∀ item ∈ incoming, marked item = false) :
    mergeResourceObservations host laterMs
        (mergeResourceObservations host nowMs previous incoming) incoming =
      mergeResourceObservations host nowMs previous incoming := by
  have mergedValid := @validate_merged pool nowMs host previous incoming valid newValid
  simp only [validateResourceObservations, Bool.and_eq_true, decide_eq_true_eq,
    List.all_eq_true] at valid newValid mergedValid
  rw [mergeResourceObservations_eq mergedValid.1.2 newValid.1.2,
    mergeResourceObservations_eq valid.1.2 newValid.1.2]
  refine mergeKeyed_again workerId_absorb newValid.1.2 ?_ fun item _ => if_pos (outdated_self item)
  intro before member item held same
  exact absorb_again (valid.2 before member) (newValid.2 item held) same (unmarked item held)

/-! The merge of observations never forgets a denial, but for what newer readings and the lasting
mark of an overflow say. -/

/-- What one round of observations makes of what was known, at any time of either round. -/
theorem mergeResourceObservations_keeps_denials (host : PoolHost) (pool : ResourcePool)
    (nowMs laterMs : ℤ) (previous incoming : List ResourceObservation)
    (valid : validateResourceObservations pool previous = true)
    (newValid : validateResourceObservations pool incoming = true) :
    let merged := mergeResourceObservations host nowMs previous incoming
    validateResourceObservations pool merged = true ∧
      (∀ before ∈ previous, ∃ after ∈ merged, after.workerId = before.workerId ∧
        (after = before ∧ before.workerId ∉ incoming.map (·.workerId) ∨
          ∃ item ∈ incoming, item.workerId = before.workerId ∧
            KeepsDenials nowMs before item after)) ∧
      (∀ item ∈ incoming, (∀ before ∈ previous, before.workerId = item.workerId →
          outdated host before item = false) →
        ∃ after ∈ merged, after.workerId = item.workerId ∧ AddsDenials previous item after) ∧
      ((∀ item ∈ incoming, marked item = false) →
        mergeResourceObservations host laterMs merged incoming = merged) :=
  ⟨validate_merged valid newValid, fun _ member => merged_keeps valid newValid member,
    fun _ member current => merged_adds valid newValid member current,
    fun unmarked => merge_again valid newValid unmarked⟩

/-! A worker whose inventory of windows grows. -/

def openHost : PoolHost where
  digest text := text
  keysInOrder first second := first ≤ second
  configurationHistory _ := none

def openWorker : ResourceWorker where
  id := js "w"
  provider := .codex
  model := js "m"
  quotaScope := none
  maxConcurrent := 1
  reservePercent := wholePercent 0
  maxTasksPerWindow := 1
  taskWindowMs := 1000
  priority := 0
  allowUnknownQuota := none

def openPool : ResourcePool := ⟨js "pool", [openWorker]⟩

def knownWindow (id : JsString) (used : Fin 101) : ResourceQuotaWindow :=
  ⟨id, some (wholePercent used), none, false⟩

def lowWindow : ResourceQuotaWindow := knownWindow (js "a") 10

def eightWindows : ResourceObservation where
  workerId := js "w"
  observedAt := js "1970-01-01T00:00:00.000Z"
  expiresAt := js "1970-01-01T00:01:00.000Z"
  updatedAt := none
  health := .unavailable
  windows := lowWindow ::
    [js "b", js "c", js "d", js "e", js "f", js "g", js "h"].map (knownWindow · 50)
  retryAfter := some (js "1970-01-01T00:02:00.000Z")

def ninthWindow : ResourceObservation where
  workerId := js "w"
  observedAt := js "1970-01-01T00:00:30.000Z"
  expiresAt := js "1970-01-01T00:01:30.000Z"
  updatedAt := none
  health := .ready
  windows := [knownWindow (js "i") 90]
  retryAfter := none

def bareReady : ResourceObservation := { ninthWindow with windows := [] }

def markedReady : ResourceObservation :=
  { ninthWindow with windows := [overflowWindow] }

def denied : ResourceObservation := { eightWindows with windows := [] }

/-- The least full of nine windows goes without any reading of it, a denial of a worker is cleared
without any window, and a new observation with the mark is not the same when merged twice. -/
theorem overflow_drops_a_window :
    validateResourceObservations openPool [eightWindows] = true ∧
    validateResourceObservations openPool [ninthWindow] = true ∧
    lowWindow ∈ eightWindows.windows ∧ lowWindow.usedPercent = some (wholePercent 10) ∧
    lowWindow.id ∉ ninthWindow.windows.map (·.id) ∧
    (mergeResourceObservations openHost 0 [eightWindows] [ninthWindow]).all (fun after =>
      after.windows.all fun window => window.id ≠ lowWindow.id) = true ∧
    validateResourceObservations openPool [denied] = true ∧
    validateResourceObservations openPool [bareReady] = true ∧
    (mergeResourceObservations openHost 0 [denied] [bareReady]).map (·.health) = [.ready] ∧
    validateResourceObservations openPool [markedReady] = true ∧
    (mergeResourceObservations openHost 0 [denied] [markedReady]).map (·.health) = [.ready] ∧
    (mergeResourceObservations openHost 0
      (mergeResourceObservations openHost 0 [denied] [markedReady]) [markedReady]).map (·.health) =
        [.unavailable] := by
  refine ⟨?_, ?_, List.mem_cons_self, rfl, ?_⟩ <;> decide +kernel

theorem mergeResourceObservations_keeps_denials_nine :
    (∃ after ∈ mergeResourceObservations openHost 0 [eightWindows] [ninthWindow],
      KeepsDenials 0 eightWindows ninthWindow after) ∧
    mergeResourceObservations openHost 5
        (mergeResourceObservations openHost 0 [eightWindows] [ninthWindow]) [ninthWindow] =
      mergeResourceObservations openHost 0 [eightWindows] [ninthWindow] := by
  have checked : validateResourceObservations openPool [eightWindows] = true ∧
      validateResourceObservations openPool [ninthWindow] = true ∧
      ∀ item ∈ [ninthWindow], marked item = false := by
    decide +kernel
  obtain ⟨-, keeps, -, again⟩ := mergeResourceObservations_keeps_denials openHost openPool 0 5
    [eightWindows] [ninthWindow] checked.1 checked.2.1
  refine ⟨?_, again checked.2.2⟩
  obtain ⟨after, member, -, ⟨-, absent⟩ | ⟨item, held, -, kept⟩⟩ := keeps _ List.mem_cons_self
  · exact absurd List.mem_cons_self absent
  · rw [List.mem_singleton.mp held] at kept
    exact ⟨after, member, kept⟩

end AshlrHub.Resources

import AshlrHub.Resources.ObservationMerge

namespace AshlrHub.Resources

open Js Artifacts Authority Lib

/-! A merge of valid observations is valid. -/

variable {pool : ResourcePool} {nowMs : ℤ} {before item : ResourceObservation}

/-! Instants as texts and as times. -/

variable {text : JsString}

theorem plainYear_of_isoInstantPattern {t : ℤ} (shape : isoInstantPattern text = true)
    (formatted : toISOString t = some text) :
    plainYear t = true := by
  unfold toISOString at formatted
  split_ifs at formatted
  obtain rfl := Option.some.inj formatted
  rw [plainYear, Bool.and_eq_true, decide_eq_true_eq, decide_eq_true_eq]
  by_contra signed
  have template : js "dddd-dd-ddTdd:dd:dd.dddZ" = 0x64 :: js "ddd-dd-ddTdd:dd:dd.dddZ" := rfl
  -- A year that is not plain starts with its sign, where the pattern has a digit.
  unfold yearText at shape
  rw [if_neg signed, isoInstantPattern, template] at shape
  split_ifs at shape
  · exact absurd shape (by change ¬(((0x2D : CodeUnit) |> isDigit) && _) = true; simp [isDigit])
  · exact absurd shape (by change ¬(((0x2B : CodeUnit) |> isDigit) && _) = true; simp [isDigit])

theorem timestamp_formatted (stamp : timestamp text = true) :
    toISOString (dateMs text) = some text ∧ plainYear (dateMs text) = true := by
  rw [timestamp, Bool.and_eq_true] at stamp
  obtain ⟨t, formatted⟩ := isCanonicalInstant_iff.mp stamp.2
  have same : dateMs text = t := by rw [dateMs, dateParse_toISOString formatted, Option.getD_some]
  rw [same]
  exact ⟨formatted, plainYear_of_isoInstantPattern stamp.1 formatted⟩

theorem dateMs_le {first second : JsString} (stamp : timestamp first = true)
    (stamp' : timestamp second = true) (order : first ≤ second) :
    dateMs first ≤ dateMs second := by
  obtain ⟨formatted, plain⟩ := timestamp_formatted stamp
  obtain ⟨formatted', plain'⟩ := timestamp_formatted stamp'
  simp only [plainYear, Bool.and_eq_true, decide_eq_true_eq] at plain plain'
  by_contra later
  exact order (toISOString_lt (not_le.mp later) plain' plain formatted' formatted)

/-! Windows. -/

structure SoundWindows (bucket : Option JsString) (windows : List ResourceQuotaWindow) : Prop where
  once : (windows.map (·.id)).Nodup
  valid : ∀ window ∈ windows, validWindow bucket window = true

variable {windows : List ResourceQuotaWindow}

theorem keptWindows_sublist {fresh : Bool} :
    (keptWindows nowMs fresh item windows).Sublist windows :=
  List.filter_sublist

theorem soundWindows_joined {bucket : Option JsString}
    (sound : SoundWindows bucket before.windows) (itemSound : SoundWindows bucket item.windows) :
    SoundWindows bucket (joinedWindows nowMs before item) := by
  constructor
  · exact nodup_keys_overlay itemSound.once (sound.once.sublist (keptWindows_sublist.map _))
  · intro window member
    rcases mem_of_mem_overlay member with ⟨held, _⟩ | held
    · exact itemSound.valid window held
    · exact sound.valid window (keptWindows_sublist.subset held)

theorem bucket_windows {bucket : JsString} (sound : SoundWindows (some bucket) windows) :
    windows.map (·.id) ⊆
      [js "codex_" ++ bucket ++ js "_primary", js "codex_" ++ bucket ++ js "_secondary"] := by
  intro id member
  obtain ⟨window, held, rfl⟩ := List.mem_map.mp member
  have valid := sound.valid window held
  simp only [validWindow, Option.all_some, Bool.and_eq_true, Bool.or_eq_true,
    decide_eq_true_eq] at valid
  simpa using valid.2

theorem not_overflows_of_bucket {bucket : JsString}
    (sound : SoundWindows (some bucket) before.windows)
    (itemSound : SoundWindows (some bucket) item.windows) :
      overflows nowMs before item = false := by
  have joined := @soundWindows_joined nowMs _ _ _ sound itemSound
  have few := (joined.once.subperm (bucket_windows joined)).length_le
  rw [List.length_map] at few
  have unmarked : marked before = false := by
    rw [marked, List.any_eq_false]
    intro window member same
    have listed := bucket_windows sound (List.mem_map_of_mem member)
    rw [of_decide_eq_true same] at listed
    have head : observationOverflow.head? ≠ some 0x63 := by decide +kernel
    have first : ∀ rest, observationOverflow ≠ js "codex_" ++ rest :=
      fun rest equal => head (congrArg List.head? equal)
    simp only [List.append_assoc, List.mem_cons, List.not_mem_nil, or_false] at listed
    rcases listed with equal | equal
    · exact first _ equal
    · exact first _ equal
  rw [overflows, unmarked, Bool.or_false, decide_eq_false_iff_not, not_lt]
  exact few.trans (by decide : 2 ≤ maxObservationWindows)

def fullestWindows (windows : List ResourceQuotaWindow) : List ResourceQuotaWindow :=
  ((windows.filter fun window => window.id ≠ observationOverflow).insertionSort
    fun left right => fullerFirst left right).take (maxObservationWindows - 1)

theorem foldedWindows_eq (windows : List ResourceQuotaWindow) :
    foldedWindows windows = fullestWindows windows ++ [overflowWindow] :=
  rfl

theorem mem_of_mem_fullest {window : ResourceQuotaWindow}
    (member : window ∈ fullestWindows windows) :
    window ∈ windows ∧ window.id ≠ observationOverflow := by
  have held := (List.mem_insertionSort _).mp (List.mem_of_mem_take member)
  exact ⟨(List.mem_filter.mp held).1, of_decide_eq_true (List.mem_filter.mp held).2⟩

theorem nodup_keys_fullest (once : (windows.map (·.id)).Nodup) :
    ((fullestWindows windows).map (·.id)).Nodup := by
  set ordinary := windows.filter fun window => window.id ≠ observationOverflow
  have filtered : (ordinary.map fun window => window.id).Nodup :=
    once.sublist (List.filter_sublist.map _)
  have sorted := List.perm_insertionSort (fun left right => fullerFirst left right = true) ordinary
  exact ((sorted.map fun window => window.id).nodup_iff.mpr filtered).sublist
    ((List.take_sublist _ _).map _)

theorem nodup_keys_folded (once : (windows.map (·.id)).Nodup) :
    ((foldedWindows windows).map (·.id)).Nodup := by
  rw [foldedWindows_eq, List.map_append, List.nodup_append]
  refine ⟨nodup_keys_fullest once, List.nodup_singleton _, ?_⟩
  rintro id inFull other inMark rfl
  obtain ⟨window, member, rfl⟩ := List.mem_map.mp inFull
  exact (mem_of_mem_fullest member).2 (List.mem_singleton.mp inMark)

theorem soundWindows_folded (sound : SoundWindows none windows) :
    SoundWindows none (foldedWindows windows) ∧
      (foldedWindows windows).length ≤ maxObservationWindows := by
  refine ⟨⟨nodup_keys_folded sound.once, ?_⟩, ?_⟩ <;> rw [foldedWindows_eq]
  · intro window member
    rcases List.mem_append.mp member with member | member
    · exact sound.valid window (mem_of_mem_fullest member).1
    · rw [List.mem_singleton.mp member]
      decide +kernel
  · have front : (fullestWindows windows).length ≤ maxObservationWindows - 1 :=
      List.length_take_le _ _
    rw [List.length_append, List.length_singleton]
    exact (Nat.add_le_add_right front 1).trans (by decide)

/-! Observations. -/

structure SoundObservation (worker : ResourceWorker) (observation : ResourceObservation) :
    Prop where
  identity : identifier observation.workerId = true
  observed : timestamp observation.observedAt = true
  expires : timestamp observation.expiresAt = true
  order : observation.observedAt < observation.expiresAt
  age : dateMs observation.expiresAt - dateMs observation.observedAt ≤ maxObservationAgeMs
  captured : timestamp observation.capturedAt = true
  capture : observation.observedAt ≤ observation.capturedAt
  few : observation.windows.length ≤ maxObservationWindows
  retry : ∀ time ∈ observation.retryAfter, timestamp time = true
  windows : SoundWindows (resourceQuotaBucket worker) observation.windows

theorem soundObservation_of_valid (valid : validObservation pool item = true) :
    ∃ worker, pool.worker? item.workerId = some worker ∧ SoundObservation worker item := by
  unfold validObservation at valid
  cases found : pool.worker? item.workerId with
  | none =>
      rw [found] at valid
      cases valid
  | some worker =>
      rw [found] at valid
      simp only [Bool.and_eq_true, decide_eq_true_eq, Option.all_eq_true, List.all_eq_true] at valid
      obtain ⟨⟨⟨⟨⟨⟨⟨⟨⟨identity, observed⟩, expires⟩, order⟩, age⟩, updated⟩, few⟩, retry⟩, once⟩,
        each⟩ :=
        valid
      refine ⟨worker, rfl, identity, observed, expires, order, age, ?_, ?_, few, retry, once, each⟩
      · unfold ResourceObservation.capturedAt
        cases stamp : item.updatedAt with
        | none => exact observed
        | some time => exact (updated time stamp).1
      · unfold ResourceObservation.capturedAt
        cases stamp : item.updatedAt with
        | none => exact List.le_refl _
        | some time => exact (updated time stamp).2

variable {worker : ResourceWorker}

theorem valid_of_soundObservation (found : pool.worker? item.workerId = some worker)
    (sound : SoundObservation worker item) :
    validObservation pool item = true := by
  unfold validObservation
  rw [found]
  simp only [Bool.and_eq_true, decide_eq_true_eq, Option.all_eq_true, List.all_eq_true]
  refine ⟨⟨⟨⟨⟨⟨⟨⟨⟨sound.identity, sound.observed⟩, sound.expires⟩, sound.order⟩, sound.age⟩, ?_⟩,
    sound.few⟩, sound.retry⟩, sound.windows.once⟩, sound.windows.valid⟩
  intro time stamp
  have captured : item.capturedAt = time := by
    rw [ResourceObservation.capturedAt, Option.mem_def.mp stamp, Option.getD_some]
  exact ⟨captured ▸ sound.captured, captured ▸ sound.capture⟩

def earlierIf (kept : Bool) (old new : JsString) : JsString :=
  if kept && old < new then old else new

theorem earlierIf_cases (kept : Bool) (old new : JsString) :
    earlierIf kept old new = new ∨ earlierIf kept old new = old ∧ kept = true ∧ old < new := by
  unfold earlierIf
  by_cases earlier : (kept && old < new) = true
  · rw [if_pos earlier]
    rw [Bool.and_eq_true, decide_eq_true_eq] at earlier
    exact .inr ⟨rfl, earlier.1, earlier.2⟩
  · rw [if_neg earlier]
    exact .inl rfl

theorem earlierIf_le (kept : Bool) (old new : JsString) : earlierIf kept old new ≤ new := by
  rcases earlierIf_cases kept old new with same | ⟨same, _, earlier⟩
  · rw [same]
    exact List.le_refl new
  · rw [same]
    exact List.le_of_lt earlier

theorem earlierIf_le_old (old new : JsString) : earlierIf true old new ≤ old := by
  unfold earlierIf
  rw [Bool.true_and]
  split_ifs with earlier
  · exact List.le_refl old
  · exact List.not_lt.mp fun less => earlier (decide_eq_true less)

theorem merged_times {other : ResourceWorker} (sound : SoundObservation worker before)
    (itemSound : SoundObservation other item) (kept : Bool) :
    earlierIf kept before.observedAt item.observedAt <
        earlierIf kept before.expiresAt item.expiresAt ∧
      dateMs (earlierIf kept before.expiresAt item.expiresAt) -
        dateMs (earlierIf kept before.observedAt item.observedAt) ≤ maxObservationAgeMs := by
  have age := sound.age
  have itemAge := itemSound.age
  cases kept with
  | false => exact ⟨itemSound.order, itemAge⟩
  | true =>
      rcases earlierIf_cases true before.observedAt item.observedAt with
          observed | ⟨observed, _, earlier⟩ <;>
        rcases earlierIf_cases true before.expiresAt item.expiresAt with
          expires | ⟨expires, _, sooner⟩ <;> rw [observed, expires]
      · exact ⟨itemSound.order, itemAge⟩
      · have start := dateMs_le itemSound.observed sound.observed
          (observed ▸ earlierIf_le_old before.observedAt item.observedAt)
        have finish := dateMs_le sound.expires itemSound.expires (List.le_of_lt sooner)
        refine ⟨List.lt_of_le_of_lt ?_ sound.order, by omega⟩
        exact observed ▸ earlierIf_le_old before.observedAt item.observedAt
      · have start := dateMs_le sound.observed itemSound.observed (List.le_of_lt earlier)
        have finish := dateMs_le itemSound.expires sound.expires
          (expires ▸ earlierIf_le_old before.expiresAt item.expiresAt)
        exact ⟨List.lt_trans earlier itemSound.order, by omega⟩
      · exact ⟨sound.order, age⟩

theorem timestamp_earlierIf {kept : Bool} {old new : JsString} (stamp : timestamp old = true)
    (stamp' : timestamp new = true) : timestamp (earlierIf kept old new) = true := by
  rcases earlierIf_cases kept old new with same | ⟨same, _, _⟩
  · rw [same]
    exact stamp'
  · rw [same]
    exact stamp

/-! The latest of some instants. -/

variable {texts : List JsString}

theorem latest_eq_none : latest texts = none ↔ texts = [] := by
  rw [latest, List.getLast?_eq_none_iff]
  constructor
  · intro sorted
    exact List.eq_nil_iff_length_eq_zero.mpr
      ((List.length_insertionSort (· ≤ ·) texts).symm.trans (by rw [sorted, List.length_nil]))
  · rintro rfl
    rfl

theorem latest_eq_some {last : JsString} :
    latest texts = some last ↔ last ∈ texts ∧ ∀ text ∈ texts, text ≤ last := by
  have among : ∀ {found}, latest texts = some found → found ∈ texts ∧ ∀ text ∈ texts, text ≤
    found := by
    intro found is
    rw [latest] at is
    refine ⟨(List.mem_insertionSort _).mp (List.mem_of_getLast? is), fun text member => ?_⟩
    obtain ⟨front, sorted⟩ := List.getLast?_eq_some_iff.mp is
    have order := List.pairwise_insertionSort (· ≤ ·) texts
    have listed := (List.mem_insertionSort (· ≤ ·)).mpr member
    rw [sorted] at order listed
    rcases List.mem_append.mp listed with inFront | same
    · exact (List.pairwise_append.mp order).2.2 text inFront found (List.mem_singleton_self found)
    · rw [List.mem_singleton.mp same]
      exact List.le_refl found
  constructor
  · exact among
  · rintro ⟨member, above⟩
    cases found : latest texts with
    | none =>
        rw [latest_eq_none.mp found] at member
        cases member
    | some other =>
        exact congrArg some (List.le_antisymm (above other (among found).1)
          ((among found).2 last member))

theorem le_latest (member : text ∈ texts) :
    ∃ last, latest texts = some last ∧ text ≤ last := by
  cases found : latest texts with
  | none =>
      rw [latest_eq_none.mp found] at member
      cases member
  | some last => exact ⟨last, rfl, (latest_eq_some.mp found).2 text member⟩

/-! The merge is sound. -/

theorem soundObservation_merged (sound : SoundObservation worker before)
    (itemSound : SoundObservation worker item) :
    SoundObservation worker (mergeObservation nowMs before item) := by
  have joined := @soundWindows_joined nowMs _ _ _ sound.windows itemSound.windows
  have times := merged_times sound itemSound (retains nowMs before item)
  have observed := @timestamp_earlierIf (retains nowMs before item) _ _ sound.observed
    itemSound.observed
  have expires := @timestamp_earlierIf (retains nowMs before item) _ _ sound.expires
    itemSound.expires
  have windows : SoundWindows (resourceQuotaBucket worker)
    (if overflows nowMs before item = true then
      foldedWindows (joinedWindows nowMs before item) else joinedWindows nowMs before item) ∧
      (if overflows nowMs before item = true then foldedWindows (joinedWindows nowMs before item)
        else joinedWindows nowMs before item).length ≤ maxObservationWindows := by
    by_cases full : overflows nowMs before item = true
    · rw [if_pos full]
      cases scope : resourceQuotaBucket worker with
      | none =>
          rw [scope] at joined
          exact soundWindows_folded joined
      | some bucket =>
          have pinned := sound.windows
          have itemPinned := itemSound.windows
          rw [scope] at pinned itemPinned
          rw [not_overflows_of_bucket pinned itemPinned] at full
          cases full
    · rw [if_neg full]
      rw [overflows, Bool.or_eq_true, decide_eq_true_eq, not_or, not_lt] at full
      exact ⟨joined, full.1⟩
  rw [mergeObservation_eq sound.windows.once itemSound.windows.once]
  refine ⟨itemSound.identity, observed, expires, times.1, times.2, itemSound.captured, ?_,
    windows.2,
    ?_, windows.1⟩
  · exact List.le_trans (earlierIf_le _ before.observedAt item.observedAt) itemSound.capture
  · intro time last
    have member := (latest_eq_some.mp last).1
    rcases List.mem_append.mp member with old | new
    · exact sound.retry time (Option.mem_toList.mp old)
    · exact itemSound.retry time (Option.mem_toList.mp new)

variable {host : PoolHost} {previous incoming : List ResourceObservation}

theorem valid_absorb (valid : validObservation pool before = true)
    (itemValid : validObservation pool item = true) (same : item.workerId = before.workerId) :
    validObservation pool (absorb host nowMs before item) = true := by
  unfold absorb
  split_ifs
  · exact valid
  · obtain ⟨worker, found, sound⟩ := soundObservation_of_valid valid
    obtain ⟨other, known, itemSound⟩ := soundObservation_of_valid itemValid
    rw [same, found] at known
    obtain rfl := Option.some.inj known
    exact valid_of_soundObservation ((congrArg pool.worker? same).trans found)
      (soundObservation_merged sound itemSound)

theorem known_of_valid (valid : validObservation pool item = true) :
    item.workerId ∈ pool.workers.map (·.id) := by
  obtain ⟨worker, found, _⟩ := soundObservation_of_valid valid
  obtain ⟨member, named⟩ := worker?_id found
  exact named ▸ List.mem_map_of_mem member

theorem validate_merged (valid : validateResourceObservations pool previous = true)
    (newValid : validateResourceObservations pool incoming = true) :
    validateResourceObservations pool
      (mergeResourceObservations host nowMs previous incoming) = true := by
  simp only [validateResourceObservations, Bool.and_eq_true, decide_eq_true_eq,
    List.all_eq_true] at valid newValid ⊢
  obtain ⟨⟨_, once⟩, each⟩ := valid
  obtain ⟨⟨_, newOnce⟩, newEach⟩ := newValid
  rw [mergeResourceObservations_eq once newOnce]
  have mergedOnce := nodup_keys_mergeKeyed (@workerId_absorb nowMs host) once newOnce
  have mergedEach : ∀ item ∈ mergeKeyed (·.workerId) (absorb host nowMs) previous incoming,
      validObservation pool item = true := by
    intro item member
    rcases mem_mergeKeyed.mp member with ⟨before, held, rfl⟩ | ⟨held, _⟩
    · rcases meetKeyed_cases (·.workerId) (absorb host nowMs) incoming before with
        ⟨other, inNew, same, met⟩ | ⟨_, met⟩
      · rw [met]
        exact valid_absorb (each before held) (newEach other inNew) same
      · rw [met]
        exact each before held
    · exact newEach item held
  refine ⟨⟨?_, mergedOnce⟩, mergedEach⟩
  have few := (mergedOnce.subperm fun id member => by
    obtain ⟨item, held, rfl⟩ := List.mem_map.mp member
    exact known_of_valid (mergedEach item held)).length_le
  rwa [List.length_map, List.length_map] at few

end AshlrHub.Resources

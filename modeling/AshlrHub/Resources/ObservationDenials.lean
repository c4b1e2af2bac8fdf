import AshlrHub.Resources.ObservationValid

namespace AshlrHub.Resources

open Js Artifacts Authority Lib

/-! What a merge may forget: a denial goes only where a newer, complete reading says so, or into
the lasting mark that windows did not fit. -/

variable {nowMs : ℤ} {before item : ResourceObservation}

variable {windows readings : List ResourceQuotaWindow} {fresh : Bool}
  {window reading a b c : ResourceQuotaWindow} {known : Double}

/-! The order of fullness. -/

def ResourceQuotaWindow.fullness (window : ResourceQuotaWindow) : ℚ :=
  (window.usedPercent.map (·.val)).getD (-1)

theorem fullerFirst_iff : fullerFirst a b = true ↔
    b.fullness < a.fullness ∨ a.fullness = b.fullness ∧ a.id ≤ b.id := by
  change (if a.fullness ≠ b.fullness then decide (b.fullness < a.fullness)
    else decide (a.id ≤ b.id)) = true ↔ _
  by_cases same : a.fullness = b.fullness
  · rw [if_neg (not_not.mpr same), decide_eq_true_eq, same]
    simp
  · rw [if_pos same, decide_eq_true_eq]
    simp [same]

instance : Std.Total fun left right => fullerFirst left right = true where
  total a b := by
    rw [fullerFirst_iff, fullerFirst_iff]
    rcases lt_trichotomy a.fullness b.fullness with less | same | more
    · exact .inr (.inl less)
    · exact (List.le_total a.id b.id).imp (fun le => .inr ⟨same, le⟩) fun le => .inr ⟨same.symm, le⟩
    · exact .inl (.inl more)

theorem fullerFirst_trans (ab : fullerFirst a b = true) (bc : fullerFirst b c = true) :
    fullerFirst a c = true := by
  rw [fullerFirst_iff] at ab bc ⊢
  rcases ab with more | ⟨same, le⟩ <;> rcases bc with more' | ⟨same', le'⟩
  · exact .inl (more'.trans more)
  · exact .inl (same' ▸ more)
  · exact .inl (same ▸ more')
  · exact .inr ⟨same.trans same', List.le_trans le le'⟩

instance : IsTrans ResourceQuotaWindow fun left right => fullerFirst left right = true where
  trans _ _ _ := fullerFirst_trans

/-! The fullest windows. -/

theorem sorted_fullest : (fullestWindows windows).Pairwise fun left right =>
    fullerFirst left right = true :=
  (List.pairwise_insertionSort _ _).sublist (List.take_sublist _ _)

theorem left_out (member : b ∈ windows) (ordinary : b.id ≠ observationOverflow)
    (out : b ∉ fullestWindows windows) :
    (∀ a ∈ fullestWindows windows, fullerFirst a b = true) ∧
      (fullestWindows windows).length = maxObservationWindows - 1 := by
  have listed : b ∈ (windows.filter fun window => window.id ≠ observationOverflow).insertionSort
      fun left right => fullerFirst left right :=
    (List.mem_insertionSort _).mpr (List.mem_filter.mpr ⟨member, decide_eq_true ordinary⟩)
  have sorted := List.pairwise_insertionSort (fun left right => fullerFirst left right = true)
    (windows.filter fun window => window.id ≠ observationOverflow)
  unfold fullestWindows at out ⊢
  rw [← List.take_append_drop (maxObservationWindows - 1) (List.insertionSort _ _)] at listed sorted
  have dropped := (List.mem_append.mp listed).resolve_left out
  refine ⟨fun a inFull => (List.pairwise_append.mp sorted).2.2 a inFull b dropped, ?_⟩
  rw [List.length_take, min_eq_left]
  by_contra short
  rw [List.drop_eq_nil_of_le (not_le.mp short).le] at dropped
  cases dropped

theorem percent_of_valid {bucket : Option JsString} (valid : validWindow bucket window = true)
    {known : Double} (used : window.usedPercent = some known) :
    0 ≤ known.val ∧ known.val ≤ 100 := by
  simp only [validWindow, Bool.and_eq_true, Option.all_eq_true] at valid
  have range := valid.1.1.1.2 known used
  rwa [percent, Bool.and_eq_true, decide_eq_true_eq, decide_eq_true_eq] at range

/-! What a merge keeps. -/

def Folded (observation : ResourceObservation) : Prop :=
  observation.health = .unavailable ∧ overflowWindow ∈ observation.windows

def AtLeast (windows : List ResourceQuotaWindow) (id : JsString) (known : Double) : Prop :=
  ∃ window ∈ windows, window.id = id ∧ ∃ used, window.usedPercent = some used ∧ known.val ≤ used.val

/-- A reading so full went among the least full ones, and may: the two have more than eight
windows, or the mark stood already. -/
structure FoldedAway (before item merged : ResourceObservation) (known : Double) : Prop where
  folded : Folded merged
  crowded : maxObservationWindows < ((before.windows ++ item.windows).map (·.id)).dedup.length ∨
    marked before = true
  full : merged.windows.length = maxObservationWindows
  fuller : ∀ window ∈ merged.windows, window = overflowWindow ∨
    window ∈ before.windows ++ item.windows ∧
      ∃ used, window.usedPercent = some used ∧ known.val ≤ used.val

def Remains (before item merged : ResourceObservation) (id : JsString) (known : Double) : Prop :=
  AtLeast merged.windows id known ∨ FoldedAway before item merged known

structure KeepsDenials (nowMs : ℤ) (before item merged : ResourceObservation) : Prop where
  health : before.health = .unavailable →
    merged.health = .unavailable ∨ fullyFresh nowMs before item = true
  used : ∀ window ∈ before.windows, ∀ known, window.usedPercent = some known →
    Remains before item merged window.id known ∨
      fullyFresh nowMs before item = true ∧ ∃ reading ∈ item.windows, reading.id = window.id ∧
        Recovers nowMs reading = true ∧ (reading ∈ merged.windows ∨
          ∃ used, reading.usedPercent = some used ∧ FoldedAway before item merged used)
  mark : marked before = true → merged = before ∨ Folded merged
  retry : ∀ time ∈ before.retryAfter, ∃ later ∈ merged.retryAfter, time ≤ later

structure AddsDenials (previous : List ResourceObservation) (item merged : ResourceObservation) :
    Prop where
  health : item.health = .unavailable → merged.health = .unavailable
  used : ∀ reading ∈ item.windows, ∀ known, reading.usedPercent = some known →
    AtLeast merged.windows reading.id known ∨
      ∃ before ∈ previous, before.workerId = item.workerId ∧ FoldedAway before item merged known
  retry : ∀ time ∈ item.retryAfter, ∃ later ∈ merged.retryAfter, time ≤ later

theorem atLeast_of_mem (member : window ∈ windows) (used : window.usedPercent = some known) :
    AtLeast windows window.id known :=
  ⟨window, member, rfl, known, used, le_rfl⟩

theorem Remains.mono {merged : ResourceObservation} {id : JsString} {used : Double}
    (remains : Remains before item merged id used) (le : known.val ≤ used.val) :
    Remains before item merged id known := by
  rcases remains with ⟨window, member, same, more, is, above⟩ | gone
  · exact .inl ⟨window, member, same, more, is, le.trans above⟩
  · refine .inr ⟨gone.folded, gone.crowded, gone.full, fun window member => ?_⟩
    exact (gone.fuller window member).imp_right fun ⟨held, more, is, above⟩ =>
      ⟨held, more, is, le.trans above⟩

theorem keepsDenials_self (before item : ResourceObservation) :
    KeepsDenials nowMs before item before where
  health denied := .inl denied
  used _ member _ known := .inl (.inl (atLeast_of_mem member known))
  mark _ := .inl rfl
  retry time held := ⟨time, held, List.le_refl time⟩

theorem addsDenials_self (previous : List ResourceObservation) (item : ResourceObservation) :
    AddsDenials previous item item where
  health denied := denied
  used _ member _ known := .inl (atLeast_of_mem member known)
  retry time held := ⟨time, held, List.le_refl time⟩

/-! Windows. -/

theorem superseded_iff (once : (readings.map (·.id)).Nodup) :
    superseded nowMs fresh readings window = true ↔ ∃ reading ∈ readings, reading.id = window.id ∧
      (fresh = true ∧ Recovers nowMs reading = true ∨ Raises window reading = true) := by
  rw [superseded, Option.any_eq_true]
  simp only [find?_eq_some_of_key once, Bool.or_eq_true, Bool.and_eq_true, and_assoc]

theorem raises_iff : Raises window reading = true ↔ ∃ used, reading.usedPercent = some used ∧
    ∀ known, window.usedPercent = some known → known.val < used.val := by
  rw [Raises, Option.any_eq_true]
  simp only [Option.all_eq_true, decide_eq_true_eq]

theorem mem_keptWindows : window ∈ keptWindows nowMs fresh item windows ↔
    window ∈ windows ∧ superseded nowMs fresh item.windows window = false := by
  rw [keptWindows, List.mem_filter, Bool.not_eq_true']

theorem mem_of_joined (member : window ∈ joinedWindows nowMs before item) :
    window ∈ before.windows ++ item.windows := by
  rcases mem_of_mem_overlay member with ⟨held, _⟩ | held
  · exact List.mem_append_right _ held
  · exact List.mem_append_left _ (keptWindows_sublist.subset held)

section

variable (once : (before.windows.map (·.id)).Nodup) (itemOnce : (item.windows.map (·.id)).Nodup)
include once itemOnce

theorem joined_of_before (member : window ∈ before.windows) :
    window ∈ joinedWindows nowMs before item ∨
      ∃ reading ∈ item.windows, reading.id = window.id ∧ reading ∈ joinedWindows nowMs before item ∧
        (fullyFresh nowMs before item = true ∧ Recovers nowMs reading = true ∨
          Raises window reading = true) := by
  set kept := keptWindows nowMs (fullyFresh nowMs before item) item before.windows with isKept
  have keptOnce : (kept.map (·.id)).Nodup := once.sublist (keptWindows_sublist.map _)
  by_cases gone : superseded nowMs (fullyFresh nowMs before item) item.windows window = true
  · obtain ⟨reading, held, same, why⟩ := (superseded_iff itemOnce).mp gone
    refine .inr ⟨reading, held, same, mem_overlay_of_base held ?_, why⟩
    intro listed
    obtain ⟨other, keptOther, named⟩ := List.mem_map.mp listed
    have equal := List.inj_on_of_nodup_map once (mem_keptWindows.mp keptOther).1 member
      (named.trans same)
    rw [equal] at keptOther
    rw [(mem_keptWindows.mp keptOther).2] at gone
    cases gone
  · exact .inl (mem_overlay_of_top keptOnce
      (mem_keptWindows.mpr ⟨member, eq_false_of_ne_true gone⟩))

theorem joined_of_item (member : reading ∈ item.windows) :
    reading ∈ joinedWindows nowMs before item ∨
      ∃ window ∈ before.windows, window.id = reading.id ∧ window ∈ joinedWindows nowMs before item ∧
        Raises window reading = false := by
  set kept := keptWindows nowMs (fullyFresh nowMs before item) item before.windows with isKept
  have keptOnce : (kept.map (·.id)).Nodup := once.sublist (keptWindows_sublist.map _)
  by_cases listed : reading.id ∈ kept.map (·.id)
  · obtain ⟨window, held, same⟩ := List.mem_map.mp listed
    have stays := mem_keptWindows.mp held
    refine .inr ⟨window, stays.1, same, mem_overlay_of_top keptOnce held, ?_⟩
    refine eq_false_of_ne_true fun raises => ?_
    have gone : superseded nowMs (fullyFresh nowMs before item) item.windows window = true :=
      (superseded_iff itemOnce).mpr ⟨reading, member, same.symm, .inr raises⟩
    rw [stays.2] at gone
    cases gone
  · exact .inl (mem_overlay_of_base member listed)

theorem mem_merged_of_joined (room : overflows nowMs before item = false) :
    (mergeObservation nowMs before item).windows = joinedWindows nowMs before item := by
  rw [mergeObservation_eq once itemOnce]
  dsimp only
  rw [room]
  rfl

theorem folded_of_overflows (full : overflows nowMs before item = true) :
    Folded (mergeObservation nowMs before item) := by
  rw [mergeObservation_eq once itemOnce, Folded]
  dsimp only
  rw [full, Bool.true_or, if_pos rfl, if_pos rfl, foldedWindows_eq]
  exact ⟨rfl, List.mem_append_right _ (List.mem_singleton_self _)⟩

theorem crowded_of_overflows (full : overflows nowMs before item = true) :
    maxObservationWindows < ((before.windows ++ item.windows).map (·.id)).dedup.length ∨
      marked before = true := by
  rw [overflows, Bool.or_eq_true, decide_eq_true_eq] at full
  refine full.imp_left fun many => many.trans_le ?_
  have joinedOnce : ((joinedWindows nowMs before item).map (·.id)).Nodup :=
    nodup_keys_overlay itemOnce (once.sublist (keptWindows_sublist.map _))
  rw [← List.length_map (·.id)]
  refine (joinedOnce.subperm fun id listed => ?_).length_le
  obtain ⟨window, member, rfl⟩ := List.mem_map.mp listed
  exact List.mem_dedup.mpr (List.mem_map_of_mem (mem_of_joined member))

theorem merged_of_joined (member : window ∈ joinedWindows nowMs before item)
    (used : window.usedPercent = some known) (nonneg : 0 ≤ known.val) :
    window ∈ (mergeObservation nowMs before item).windows ∨
      window.id = observationOverflow ∧ Folded (mergeObservation nowMs before item) ∨
      FoldedAway before item (mergeObservation nowMs before item) known := by
  cases room : overflows nowMs before item with
  | false => exact .inl (mem_merged_of_joined once itemOnce room ▸ member)
  | true =>
      have folded := folded_of_overflows once itemOnce room
      have windows : (mergeObservation nowMs before item).windows =
          fullestWindows (joinedWindows nowMs before item) ++ [overflowWindow] := by
        rw [mergeObservation_eq once itemOnce]
        exact if_pos room
      by_cases mark : window.id = observationOverflow
      · exact .inr (.inl ⟨mark, folded⟩)
      by_cases stays : window ∈ fullestWindows (joinedWindows nowMs before item)
      · exact .inl (windows ▸ List.mem_append_left _ stays)
      obtain ⟨ahead, count⟩ := left_out member mark stays
      refine .inr (.inr ⟨folded, crowded_of_overflows once itemOnce room, ?_, ?_⟩)
      · rw [windows, List.length_append, count]
        rfl
      · intro kept held
        rw [windows] at held
        rcases List.mem_append.mp held with inFull | isMark
        · have above : known.val ≤ kept.fullness := by
            have le := (fullerFirst_iff.mp (ahead kept inFull)).elim le_of_lt fun same => same.1.ge
            rwa [ResourceQuotaWindow.fullness, used] at le
          refine .inr ⟨mem_of_joined (mem_of_mem_fullest inFull).1, ?_⟩
          cases reads : kept.usedPercent with
          | none =>
              rw [ResourceQuotaWindow.fullness, reads] at above
              exact absurd (nonneg.trans above) (by decide)
          | some more =>
              rw [ResourceQuotaWindow.fullness, reads] at above
              exact ⟨more, rfl, above⟩
        · exact .inl (List.mem_singleton.mp isMark)

theorem remains_of_joined (member : window ∈ joinedWindows nowMs before item)
    (used : window.usedPercent = some known) (range : 0 ≤ known.val ∧ known.val ≤ 100) :
    Remains before item (mergeObservation nowMs before item) window.id known := by
  rcases merged_of_joined once itemOnce member used range.1 with stays | ⟨mark, folded⟩ | gone
  · exact .inl (atLeast_of_mem stays used)
  · exact .inl ⟨_, folded.2, mark.symm, _, rfl, range.2⟩
  · exact .inr gone

end

theorem retryAfter_merged (before item : ResourceObservation) {time : JsString}
    (held : time ∈ before.retryAfter ∨ time ∈ item.retryAfter) :
    ∃ later ∈ (mergeObservation nowMs before item).retryAfter, time ≤ later := by
  have member : time ∈ before.retryAfter.toList ++ item.retryAfter.toList := by
    rw [List.mem_append, Option.mem_toList, Option.mem_toList]
    exact held
  exact le_latest member

/-! Observations. -/

section

variable {bucket other : Option JsString} (sound : SoundWindows bucket before.windows)
  (itemSound : SoundWindows other item.windows)
include sound itemSound

theorem mergeObservation_keeps :
    KeepsDenials nowMs before item (mergeObservation nowMs before item) := by
  have once := sound.once
  have itemOnce := itemSound.once
  constructor
  · intro denied
    by_cases fresh : fullyFresh nowMs before item = true
    · exact .inr fresh
    · rw [mergeObservation_eq once itemOnce]
      refine .inl (if_pos ?_)
      rw [eq_false_of_ne_true fresh, denied]
      simp
  · intro window member known used
    have range := percent_of_valid (sound.valid window member) used
    rcases joined_of_before once itemOnce member with stays | ⟨reading, held, same, joined, why⟩
    · exact .inl (remains_of_joined once itemOnce stays used range)
    rcases why with ⟨fresh, recovers⟩ | raises
    · obtain ⟨more, is⟩ := Option.isSome_iff_exists.mp (Bool.and_eq_true_iff.mp recovers).1
      have nonneg := (percent_of_valid (itemSound.valid reading held) is).1
      rcases merged_of_joined once itemOnce joined is nonneg with here | ⟨mark, folded⟩ | gone
      · exact .inr ⟨fresh, reading, held, same, recovers, .inl here⟩
      · exact .inl (.inl ⟨_, folded.2, mark.symm.trans same, _, rfl, range.2⟩)
      · exact .inr ⟨fresh, reading, held, same, recovers, .inr ⟨more, is, gone⟩⟩
    · obtain ⟨more, is, above⟩ := raises_iff.mp raises
      have range := percent_of_valid (itemSound.valid reading held) is
      have remains := remains_of_joined once itemOnce joined is range
      exact .inl (same ▸ remains.mono (above known used).le)
  · intro mark
    refine .inr (folded_of_overflows once itemOnce ?_)
    rw [overflows, mark, Bool.or_true]
  · exact fun time held => retryAfter_merged before item (.inl held)

theorem mergeObservation_adds {previous : List ResourceObservation} (member : before ∈ previous)
    (same : before.workerId = item.workerId) :
    AddsDenials previous item (mergeObservation nowMs before item) := by
  have once := sound.once
  have itemOnce := itemSound.once
  constructor
  · intro denied
    rw [mergeObservation_eq once itemOnce]
    dsimp only
    split_ifs
    · rfl
    · exact denied
  · intro reading held known used
    have range := percent_of_valid (itemSound.valid reading held) used
    have remains :
        Remains before item (mergeObservation nowMs before item) reading.id known := by
      rcases joined_of_item once itemOnce held with stays | ⟨window, old, named, joined, lower⟩
      · exact remains_of_joined once itemOnce stays used range
      · -- An old window that the reading does not raise is known, and as full.
        rw [← Bool.not_eq_true, raises_iff] at lower
        push Not at lower
        obtain ⟨known', is, above⟩ := lower known used
        have range := percent_of_valid (sound.valid window old) is
        exact named ▸ (remains_of_joined once itemOnce joined is range).mono above
    exact remains.imp_right fun gone => ⟨before, member, same, gone⟩
  · exact fun time held => retryAfter_merged before item (.inr held)

end

variable {host : PoolHost} {pool : ResourcePool} {previous incoming : List ResourceObservation}

theorem windows_of_valid (valid : validObservation pool item = true) :
    ∃ bucket, SoundWindows bucket item.windows := by
  obtain ⟨_, _, sound⟩ := soundObservation_of_valid valid
  exact ⟨_, sound.windows⟩

theorem absorb_keeps (valid : validObservation pool before = true)
    (itemValid : validObservation pool item = true) :
    KeepsDenials nowMs before item (absorb host nowMs before item) := by
  unfold absorb
  split_ifs
  · exact keepsDenials_self before item
  · obtain ⟨_, sound⟩ := windows_of_valid valid
    obtain ⟨_, itemSound⟩ := windows_of_valid itemValid
    exact mergeObservation_keeps sound itemSound

section

variable (valid : validateResourceObservations pool previous = true)
  (newValid : validateResourceObservations pool incoming = true)
include valid newValid

theorem merged_keeps (member : before ∈ previous) :
    ∃ merged ∈ mergeResourceObservations host nowMs previous incoming,
      merged.workerId = before.workerId ∧
        (merged = before ∧ before.workerId ∉ incoming.map (·.workerId) ∨
          ∃ item ∈ incoming, item.workerId = before.workerId ∧
            KeepsDenials nowMs before item merged) := by
  simp only [validateResourceObservations, Bool.and_eq_true, decide_eq_true_eq,
    List.all_eq_true] at valid newValid
  rw [mergeResourceObservations_eq valid.1.2 newValid.1.2]
  refine ⟨meetKeyed (·.workerId) (absorb host nowMs) incoming before,
    mem_mergeKeyed.mpr (.inl ⟨before, member, rfl⟩), key_meetKeyed workerId_absorb before, ?_⟩
  rcases meetKeyed_cases (·.workerId) (absorb host nowMs) incoming before with
    ⟨item, held, same, met⟩ | ⟨absent, met⟩
  · rw [met]
    exact .inr ⟨item, held, same, absorb_keeps (valid.2 before member) (newValid.2 item held)⟩
  · exact .inl ⟨met, absent⟩

theorem merged_adds (member : item ∈ incoming)
    (current : ∀ before ∈ previous, before.workerId = item.workerId →
      outdated host before item = false) :
    ∃ merged ∈ mergeResourceObservations host nowMs previous incoming,
      merged.workerId = item.workerId ∧ AddsDenials previous item merged := by
  simp only [validateResourceObservations, Bool.and_eq_true, decide_eq_true_eq,
    List.all_eq_true] at valid newValid
  rw [mergeResourceObservations_eq valid.1.2 newValid.1.2]
  by_cases listed : item.workerId ∈ previous.map (·.workerId)
  · obtain ⟨before, held, same⟩ := List.mem_map.mp listed
    have met : meetKeyed (·.workerId) (absorb host nowMs) incoming before =
        mergeObservation nowMs before item := by
      rw [meetKeyed_of_mem newValid.1.2 member same.symm, absorb, current before held same]
      rfl
    refine ⟨_, mem_mergeKeyed.mpr (.inl ⟨before, held, met⟩), rfl, ?_⟩
    obtain ⟨_, sound⟩ := windows_of_valid (valid.2 before held)
    obtain ⟨_, itemSound⟩ := windows_of_valid (newValid.2 item member)
    exact mergeObservation_adds sound itemSound held same
  · exact ⟨item, mem_mergeKeyed.mpr (.inr ⟨member, listed⟩), rfl, addsDenials_self previous item⟩

end

end AshlrHub.Resources

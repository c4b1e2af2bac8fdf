import AshlrHub.Lib.Sorting
import AshlrHub.Universe.IntegrationFinal

namespace AshlrHub.Universe

open Js Lib Artifacts

/-! What a ready plan promises, whatever order its sources are listed in. -/

variable {reading : IntegrationReading} {target : UniverseIntegrationTarget} {git : DeliveryGit}
  {base : GitTree} {sources others : List UniverseIntegrationSource}

def sourceVersions (git : DeliveryGit) (source : UniverseIntegrationSource) :
    JsString → Option FileVersion :=
  versionAt (treeOf ((git.entries source.tree).getD []))

theorem readSource_verified {source : UniverseIntegrationSource} {receiptDigest : JsString}
    {edits : List TreeEdit}
    (verified : readSource reading target (some (git, base)) source =
      .verified receiptDigest edits) :
    ∃ next, git.entries source.tree = some next ∧ edits = changed base next ∧
      ∀ edit ∈ edits, edit.path ∈ target.allowedPaths := by
  unfold readSource at verified
  cases reported : reading.deliveries source.universeId with
  | none => simp [reported] at verified
  | some report =>
      rw [reported] at verified
      simp only at verified
      split at verified
      · cases verified
      · cases pinned : (receiptOf source report).filter (isPinned target source) with
        | none => simp [pinned] at verified
        | some receipt =>
            have pin := (Option.filter_eq_some_iff.mp pinned).2
            simp only [isPinned, Bool.and_eq_true, decide_eq_true_eq] at pin
            rw [pinned] at verified
            simp only [pin.1.1.2] at verified
            cases read : readEdits target.allowedPaths git base source.tree with
            | none => simp [read] at verified
            | some found =>
                simp only [read, SourceReading.verified.injEq] at verified
                obtain ⟨_, rfl⟩ := verified
                unfold readEdits at read
                split at read
                · cases read
                · rename_i next entries
                  simp only [Option.ite_none_left_eq_some, Bool.or_eq_true, decide_eq_true_eq,
                    not_or, Option.some.injEq] at read
                  obtain ⟨⟨_, allowed⟩, rfl⟩ := read
                  refine ⟨next, entries, rfl, fun edit member => ?_⟩
                  by_contra outside
                  exact allowed (List.any_eq_true.mpr ⟨edit, member, by simpa using outside⟩)

theorem mem_editsOf
    (verified : ∀ source ∈ sources, Verifies reading target (some (git, base)) source)
    {deliveryId : JsString} {edit : TreeEdit} :
    (deliveryId, edit) ∈ editsOf reading target (some (git, base)) sources ↔
      ∃ source ∈ sources, source.deliveryId = deliveryId ∧
        sourceVersions git source edit.path ≠ versionAt base edit.path ∧
          edit.after = sourceVersions git source edit.path := by
  unfold editsOf
  rw [List.mem_flatMap]
  refine exists_congr fun source => and_congr_right fun member => ?_
  obtain ⟨receiptDigest, edits, read⟩ := verified source member
  obtain ⟨next, entries, rfl, _⟩ := readSource_verified read
  have files : sourceVersions git source = versionAt (treeOf next) := by
    unfold sourceVersions
    rw [entries, Option.getD_some]
  unfold editsFrom
  rw [read, files]
  simp only [List.mem_map, Prod.mk.injEq]
  constructor
  · rintro ⟨other, differs, rfl, rfl⟩
    exact ⟨rfl, mem_changed.mp differs⟩
  · rintro ⟨rfl, differs⟩
    exact ⟨edit, mem_changed.mpr differs, rfl, rfl⟩

variable {state : Composition}

theorem overlay_of_agree (collation : Collation)
    (verified : ∀ source ∈ sources, Verifies reading target (some (git, base)) source)
    (laid : Laid (editsOf reading target (some (git, base)) sources) state)
    (agree : Agree (editsOf reading target (some (git, base)) sources)) :
    IsOverlay (versionAt base) (sources.map (sourceVersions git))
      (versionAt (applyEntries base (entriesOf collation state.overlays))) where
  changed := by
    intro tree member path changes
    obtain ⟨source, listed, rfl⟩ := List.mem_map.mp member
    have edited : (source.deliveryId, (⟨path, sourceVersions git source path⟩ : TreeEdit)) ∈
        editsOf reading target (some (git, base)) sources :=
      (mem_editsOf verified).mpr ⟨source, listed, rfl, changes, rfl⟩
    cases found : state.overlays.get? path with
    | none => exact absurd rfl ((laid.untouched path).mp found _ edited)
    | some overlay =>
        obtain ⟨other, held, samePath, after⟩ := laid.first path overlay found
        have same := agree _ edited other held samePath.symm
        have entry : (⟨path, overlay.after, sortPaths overlay.sourceDeliveryIds⟩ :
            UniverseIntegrationEntry) ∈ entriesOf collation state.overlays :=
          (mem_entriesOf laid.distinct).mpr ⟨overlay, found, rfl, rfl⟩
        exact (versionAt_applyEntries (nodup_paths_entriesOf laid.distinct) entry).trans
          (after.symm.trans same.symm)
  kept := by
    intro path untouched
    apply versionAt_applyEntries_of_not_mem
    intro member
    obtain ⟨entry, listed, rfl⟩ := List.mem_map.mp member
    obtain ⟨overlay, found, _⟩ := (mem_entriesOf laid.distinct).mp listed
    obtain ⟨⟨deliveryId, edit⟩, held, samePath, _⟩ := laid.first entry.path overlay found
    obtain ⟨source, listed, _, changes, _⟩ := (mem_editsOf verified).mp held
    simp only at samePath
    rw [samePath] at changes
    exact changes (untouched _ (List.mem_map_of_mem listed))

/-! Readiness. -/

theorem healthy_iff {reasons : List JsString} :
    (!reasons.any (· ≠ compositionConflicts)) = true ↔ ¬ Degraded reasons := by
  unfold Degraded
  simp

theorem ready_iff (definition : UniverseIntegrationDefinition reading.text) :
    (readUniverseIntegrationPlan reading definition).compositionReady = true ↔
      ∃ git base, findTarget reading definition.target = some (git, base) ∧
        (∀ source ∈ definition.sources,
          Verifies reading definition.target (some (git, base)) source) ∧
        Agree (editsOf reading definition.target (some (git, base)) definition.sources) ∧
        FinalFits reading.text git ((applyEntries base
          (readUniverseIntegrationPlan reading definition).entries).map Prod.snd) := by
  have composed := compose_composed definition
  have entries : (readUniverseIntegrationPlan reading definition).entries =
    entriesOf reading.collation (compose reading definition).overlays := rfl
  rw [entries]
  unfold readUniverseIntegrationPlan
  simp only [Bool.and_eq_true, healthy_iff, decide_eq_true_eq]
  cases found : findTarget reading definition.target with
  | none =>
      simp only [reduceCtorEq, false_and, exists_false, iff_false]
      exact fun ready => ready.1.1 (composed.missing found)
  | some place =>
      obtain ⟨git, base⟩ := place
      rw [found] at composed
      simp only [Option.some.injEq, Prod.mk.injEq]
      by_cases composable : (compose reading definition).conflicts = [] ∧
          allVerified (compose reading definition).summaries = true
      · rw [if_pos composable]
        obtain ⟨clean, verified⟩ := composable
        have all := composed.verified.mp verified
        have sound := composed.sound (Option.some_ne_none _) all
        obtain ⟨summaries, passes⟩ := checkFinalTree_clean reading git (applyEntries base
          (entriesOf reading.collation (compose reading definition).overlays))
          composed.once clean sound
        rw [summaries, passes]
        constructor
        · rintro ⟨fits, _⟩
          exact ⟨git, base, ⟨rfl, rfl⟩, all, composed.laid.agree.mp clean, fits⟩
        · rintro ⟨_, _, ⟨rfl, rfl⟩, _, _, fits⟩
          exact ⟨fits, verified⟩
      · rw [if_neg composable]
        constructor
        · rintro ⟨⟨_, clean⟩, verified⟩
          exact absurd ⟨clean, verified⟩ composable
        · rintro ⟨_, _, ⟨rfl, rfl⟩, all, agree, _⟩
          exact absurd ⟨composed.laid.agree.mpr agree, composed.verified.mpr all⟩ composable

/-! The order of the sources. -/

theorem sortPaths_perm {paths more : List JsString} (perm : paths.Perm more) :
    sortPaths paths = sortPaths more :=
  insertionSort_eq_of_perm (fun _ _ _ _ low high => List.le_antisymm low high) perm

section

variable {edits again : List Delivered} {other : Composition} (laid : Laid edits state)
  (laidAgain : Laid again other) (agree : Agree edits) (perm : edits.Perm again)
include laid laidAgain agree perm

theorem mem_entriesOf_perm {collation : Collation} {entry : UniverseIntegrationEntry}
    (member : entry ∈ entriesOf collation state.overlays) :
    entry ∈ entriesOf collation other.overlays := by
  obtain ⟨overlay, found, after, ids⟩ := (mem_entriesOf laid.distinct).mp member
  obtain ⟨edit, held, path, edited⟩ := laid.first entry.path overlay found
  cases placed : other.overlays.get? entry.path with
  | none =>
      exact absurd path ((laidAgain.untouched entry.path).mp placed edit (perm.mem_iff.mp held))
  | some overlayAgain =>
      obtain ⟨editAgain, heldAgain, pathAgain, editedAgain⟩ :=
        laidAgain.first entry.path overlayAgain placed
      have same := agree edit held editAgain (perm.mem_iff.mpr heldAgain)
        (path.trans pathAgain.symm)
      have editors := laid.editors agree entry.path overlay found
      have editorsAgain := laidAgain.editors (agree.perm perm) entry.path overlayAgain placed
      refine (mem_entriesOf laidAgain.distinct).mpr ⟨overlayAgain, placed, ?_, ?_⟩
      · rw [after, ← edited, same, editedAgain]
      · rw [ids, editors, editorsAgain]
        exact sortPaths_perm ((perm.filter _).map _)

theorem entriesOf_perm {collation : Collation} :
    (entriesOf collation state.overlays).Perm (entriesOf collation other.overlays) := by
  rw [List.perm_ext_iff_of_nodup (.of_map _ (nodup_paths_entriesOf laid.distinct))
    (.of_map _ (nodup_paths_entriesOf laidAgain.distinct))]
  intro entry
  constructor
  · exact mem_entriesOf_perm laid laidAgain agree perm
  · exact mem_entriesOf_perm laidAgain laid (agree.perm perm) perm.symm

end

section Order

variable {definition other : UniverseIntegrationDefinition reading.text}

theorem ready_of_perm (target : other.target = definition.target)
    (perm : definition.sources.Perm other.sources)
    (ready : (readUniverseIntegrationPlan reading definition).compositionReady = true) :
    (readUniverseIntegrationPlan reading other).compositionReady = true := by
  obtain ⟨git, base, found, verified, agree, fits⟩ := (ready_iff definition).mp ready
  have composed := compose_composed definition
  have composedOther := compose_composed other
  rw [target, found] at composedOther
  rw [found] at composed
  have verifiedOther : ∀ source ∈ other.sources,
      Verifies reading definition.target (some (git, base)) source := fun source member =>
    verified source (perm.mem_iff.mpr member)
  have edits : (editsOf reading definition.target (some (git, base)) definition.sources).Perm
      (editsOf reading definition.target (some (git, base)) other.sources) :=
    perm.flatMap_right _
  have agreeOther := agree.perm edits
  have overlay := (overlay_of_agree reading.collation verified composed.laid agree).perm
    (perm.map _)
  have overlayOther := overlay_of_agree reading.collation verifiedOther composedOther.laid
    agreeOther
  have sound := findTarget_sound found
  refine (ready_iff other).mpr ⟨git, base, target ▸ found, ?_, ?_, fits.perm ?_⟩
  · rwa [target]
  · rwa [target]
  · exact ((applyEntries_sound sound).perm (applyEntries_sound sound)
      (overlay.unique overlayOther)).map _

theorem agree_of_plan
    (clear : ∀ conflict ∈ (readUniverseIntegrationPlan reading definition).conflicts,
      conflict.code ≠ .pathConflict) :
    Agree (editsOf reading definition.target (findTarget reading definition.target)
      definition.sources) := by
  have composed := compose_composed definition
  rw [← composed.laid.agree]
  by_contra conflicts
  obtain ⟨conflict, member⟩ := List.exists_mem_of_ne_nil _ conflicts
  refine clear conflict ?_ (composed.laid.codes conflict member)
  unfold readUniverseIntegrationPlan
  simp only [conflicts, decide_false, Bool.false_and, Bool.false_eq_true, if_false]
  split
  · exact member
  · exact member

theorem entries_of_perm (target : other.target = definition.target)
    (perm : definition.sources.Perm other.sources)
    (clear : ∀ conflict ∈ (readUniverseIntegrationPlan reading definition).conflicts,
      conflict.code ≠ .pathConflict) :
    (readUniverseIntegrationPlan reading definition).entries.Perm
      (readUniverseIntegrationPlan reading other).entries := by
  have composedOther := compose_composed other
  rw [target] at composedOther
  exact entriesOf_perm (compose_composed definition).laid composedOther.laid (agree_of_plan clear)
    (perm.flatMap_right _)

end Order

/-! The plan of an integration as an overlay of its sources. -/

/-- A ready plan is the overlay of the trees of its sources, in files that can stand together;
sources that change a path differently are never ready; and the order of the sources counts
neither for readiness nor, without a conflict of paths, for the entries. -/
theorem integrationPlan_overlay (reading : IntegrationReading)
    (definition : UniverseIntegrationDefinition reading.text) :
    ((readUniverseIntegrationPlan reading definition).compositionReady = true →
      ∃ git base, findTarget reading definition.target = some (git, base) ∧
        (∀ source ∈ definition.sources, (git.entries source.tree).isSome) ∧
        IsOverlay (versionAt base) (definition.sources.map (sourceVersions git))
          (versionAt (applyEntries base (readUniverseIntegrationPlan reading definition).entries)) ∧
        Portable reading.text
          (applyEntries base (readUniverseIntegrationPlan reading definition).entries).keys) ∧
    (∀ git base, findTarget reading definition.target = some (git, base) →
      ∀ first ∈ definition.sources, ∀ second ∈ definition.sources, ∀ path,
        sourceVersions git first path ≠ versionAt base path →
        sourceVersions git second path ≠ versionAt base path →
        sourceVersions git first path ≠ sourceVersions git second path →
          (readUniverseIntegrationPlan reading definition).compositionReady = false) ∧
    ∀ other : UniverseIntegrationDefinition reading.text, other.target = definition.target →
      definition.sources.Perm other.sources →
        (readUniverseIntegrationPlan reading other).compositionReady =
          (readUniverseIntegrationPlan reading definition).compositionReady ∧
        ((∀ conflict ∈ (readUniverseIntegrationPlan reading definition).conflicts,
            conflict.code ≠ .pathConflict) →
          (readUniverseIntegrationPlan reading definition).entries.Perm
            (readUniverseIntegrationPlan reading other).entries) := by
  have overlays : ∀ git base, findTarget reading definition.target = some (git, base) →
      (∀ source ∈ definition.sources,
        Verifies reading definition.target (some (git, base)) source) →
      Agree (editsOf reading definition.target (some (git, base)) definition.sources) →
      IsOverlay (versionAt base) (definition.sources.map (sourceVersions git))
        (versionAt (applyEntries base
          (readUniverseIntegrationPlan reading definition).entries)) := by
    intro git base found verified agree
    have composed := compose_composed definition
    rw [found] at composed
    exact overlay_of_agree reading.collation verified composed.laid agree
  refine ⟨fun ready => ?_, ?_, fun other target perm => ⟨?_, entries_of_perm target perm⟩⟩
  · obtain ⟨git, base, found, verified, agree, fits⟩ := (ready_iff definition).mp ready
    refine ⟨git, base, found, fun source member => ?_, overlays git base found verified agree, ?_⟩
    · obtain ⟨_, _, read⟩ := verified source member
      obtain ⟨next, entries, _⟩ := readSource_verified read
      rw [entries]
      rfl
    · rw [← (applyEntries_sound (findTarget_sound found)).paths]
      exact fits.portable
  · intro git base found first firstMember second secondMember path firstChanges secondChanges apart
    by_contra ready
    obtain ⟨_, _, place, verified, agree, _⟩ :=
      (ready_iff definition).mp (Bool.eq_true_of_not_eq_false ready)
    cases found.symm.trans place
    exact apart ((overlays git base found verified agree).compatible _
      (List.mem_map_of_mem firstMember) _ (List.mem_map_of_mem secondMember) path
      firstChanges secondChanges)
  · have back : definition.target = other.target := target.symm
    rw [Bool.eq_iff_iff]
    exact ⟨ready_of_perm back perm.symm, ready_of_perm target perm⟩

/-! Two deliveries over an empty base, each of one file. -/

def oidOf (unit : CodeUnit) : JsString := List.replicate 40 unit

def pairReceipt (universeId : String) (mark : CodeUnit) : UniverseDeliveryReceipt where
  id := List.replicate 64 mark
  universeId := js universeId
  repo := js "/repo"
  baseCommit := oidOf 0x30
  commit := oidOf mark
  tree := oidOf mark
  status := .delivered
  others := []

def pairSource (universeId : String) (mark : CodeUnit) : UniverseIntegrationSource where
  universeId := js universeId
  deliveryId := List.replicate 64 mark
  commit := oidOf mark
  tree := oidOf mark

def pairGit (first second : String) : DeliveryGit where
  commit := some
  entries := fun tree =>
    if tree = oidOf 0x30 then some []
    else if tree = oidOf 0x61 then some [⟨⟨oidOf 0x31, false⟩, js first⟩]
    else some [⟨⟨oidOf 0x32, true⟩, js second⟩]
  blobSize := fun _ => some 1

def unitCollation : Collation where
  inOrder := fun first second => first ≤ second
  total := fun first second => by
    rw [decide_eq_true_eq, decide_eq_true_eq]
    exact List.le_total first second
  trans := fun first second third low high => by
    rw [decide_eq_true_eq] at low high ⊢
    exact List.le_trans low high

def pairIntegration (first second : String) : IntegrationReading where
  text := ⟨id, id⟩
  collation := unitCollation
  repository := fun _ => some (pairGit first second)
  deliveries := fun universeId =>
    if universeId = js "first" then some ⟨[pairReceipt "first" 0x61], true⟩
    else some ⟨[pairReceipt "second" 0x62], true⟩
  receiptDigest := fun receipt => receipt.id
  recipeDigest := fun _ _ _ => []

def pairTarget : UniverseIntegrationTarget where
  repo := js "/repo"
  baseCommit := oidOf 0x30
  allowedPaths := [js "a.txt", js "b.txt"]

def pairDefinition (sources : List UniverseIntegrationSource) (bounded : sources.length = 2)
    (pins : (sources.map fun source => (source.universeId, source.deliveryId)).Nodup) :
    UniverseIntegrationDefinition ⟨id, id⟩ where
  id := js "pair"
  target := pairTarget
  sources := sources
  allowed := by decide
  paths := by decide +kernel
  distinct := by decide +kernel
  bounded := by rw [bounded]; decide
  pins := pins

def firstThenSecond : UniverseIntegrationDefinition ⟨id, id⟩ :=
  pairDefinition [pairSource "first" 0x61, pairSource "second" 0x62] rfl (by decide +kernel)

def secondThenFirst : UniverseIntegrationDefinition ⟨id, id⟩ :=
  pairDefinition [pairSource "second" 0x62, pairSource "first" 0x61] rfl (by decide +kernel)

/-- Where both edit one path, the plan is not ready, and its entry is that of the source that is
listed first. -/
theorem pairEntries_ordered :
    secondThenFirst.target = firstThenSecond.target ∧
      firstThenSecond.sources.Perm secondThenFirst.sources ∧
      (readUniverseIntegrationPlan (pairIntegration "a.txt" "a.txt") firstThenSecond).entries =
        [⟨js "a.txt", some ⟨oidOf 0x31, false⟩, [List.replicate 64 0x61]⟩] ∧
      (readUniverseIntegrationPlan (pairIntegration "a.txt" "a.txt") secondThenFirst).entries =
        [⟨js "a.txt", some ⟨oidOf 0x32, true⟩, [List.replicate 64 0x62]⟩] ∧
      ¬ (readUniverseIntegrationPlan (pairIntegration "a.txt" "a.txt") firstThenSecond).entries.Perm
        (readUniverseIntegrationPlan (pairIntegration "a.txt" "a.txt") secondThenFirst).entries :=
  ⟨rfl, .swap _ _ _, by decide +kernel⟩

/-- Where each edits its own path, the plan is ready in both orders. -/
theorem integrationPlan_overlay_pair :
    (readUniverseIntegrationPlan (pairIntegration "a.txt" "b.txt") firstThenSecond).compositionReady
      = true ∧
    (readUniverseIntegrationPlan (pairIntegration "a.txt" "b.txt") secondThenFirst).compositionReady
      = true := by
  have ready : (readUniverseIntegrationPlan (pairIntegration "a.txt" "b.txt")
      firstThenSecond).compositionReady = true := by
    decide +kernel
  have order := (integrationPlan_overlay (pairIntegration "a.txt" "b.txt") firstThenSecond).2.2
    secondThenFirst rfl (.swap _ _ _)
  exact ⟨ready, order.1.trans ready⟩

end AshlrHub.Universe

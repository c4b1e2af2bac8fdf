import AshlrHub.Universe.IntegrationOverlay

namespace AshlrHub.Universe

open Js Lib Artifacts

/-! The sources of an integration, one after the other. -/

variable {reading : IntegrationReading} {target : UniverseIntegrationTarget}
  {found : Option (DeliveryGit × GitTree)}

def Verifies (reading : IntegrationReading) (target : UniverseIntegrationTarget)
    (found : Option (DeliveryGit × GitTree)) (source : UniverseIntegrationSource) : Prop :=
  ∃ receiptDigest edits, readSource reading target found source = .verified receiptDigest edits

def editsFrom (reading : IntegrationReading) (target : UniverseIntegrationTarget)
    (found : Option (DeliveryGit × GitTree)) (source : UniverseIntegrationSource) :
    List Delivered :=
  match readSource reading target found source with
  | .refused _ _ _ => []
  | .verified _ edits => edits.map (source.deliveryId, ·)

def editsOf (reading : IntegrationReading) (target : UniverseIntegrationTarget)
    (found : Option (DeliveryGit × GitTree)) (sources : List UniverseIntegrationSource) :
    List Delivered :=
  sources.flatMap (editsFrom reading target found)

structure Composed (reading : IntegrationReading) (target : UniverseIntegrationTarget)
    (found : Option (DeliveryGit × GitTree)) (done : List UniverseIntegrationSource)
    (state : Composition) : Prop where
  laid : Laid (editsOf reading target found done) state
  once : state.reasons.Nodup
  verified : allVerified state.summaries = true ↔ ∀ source ∈ done, Verifies reading target found
    source
  missing : found = none → Degraded state.reasons
  sound : found ≠ none → (∀ source ∈ done, Verifies reading target found source) →
    ¬ Degraded state.reasons

theorem allVerified_concat {summaries : List UniverseIntegrationSourceSummary}
    {summary : UniverseIntegrationSourceSummary} :
    allVerified (summaries ++ [summary]) = true ↔
      allVerified summaries = true ∧ summary.state = .verified := by
  unfold allVerified
  simp

theorem editsOf_concat (done : List UniverseIntegrationSource)
    (source : UniverseIntegrationSource) :
    editsOf reading target found (done ++ [source]) =
      editsOf reading target found done ++ editsFrom reading target found source := by
  unfold editsOf
  rw [List.flatMap_append, List.flatMap_singleton]

theorem readSource_refused {source : UniverseIntegrationSource} {reason : Option JsString}
    {state : SourceState} {receiptDigest : Option JsString}
    (refused : readSource reading target found source = .refused reason state receiptDigest) :
    state ≠ .verified := by
  unfold readSource at refused
  repeat' split at refused
  all_goals cases refused
  all_goals exact SourceState.noConfusion

section Step

variable {done : List UniverseIntegrationSource} {state : Composition}
  {source : UniverseIntegrationSource}

theorem Laid.frame {edits : List Delivered} {other : Composition} (laid : Laid edits state)
    (conflicts : other.conflicts = state.conflicts) (overlays : other.overlays = state.overlays) :
    Laid edits other := by
  obtain ⟨agree, codes, untouched, first, editors, distinct⟩ := laid
  rw [← conflicts] at agree codes
  rw [← overlays] at untouched first editors distinct
  exact ⟨agree, codes, untouched, first, editors, distinct⟩

section

variable (composed : Composed reading target found done state)
include composed

theorem Composed.refused
    {reason : Option JsString} {summaryState : SourceState} {receiptDigest : Option JsString}
    (refused : readSource reading target found source =
      .refused reason summaryState receiptDigest) :
    Composed reading target found (done ++ [source])
      (composeSource reading target found state source) := by
  have unverified : ¬ ∀ other ∈ done ++ [source], Verifies reading target found other := by
    intro all
    obtain ⟨digest, edits, verified⟩ := all source
      (List.mem_append_right _ (List.mem_singleton_self _))
    rw [refused] at verified
    cases verified
  have none : editsFrom reading target found source = [] := by
    unfold editsFrom
    rw [refused]
  have issued : ∀ issued : Composition, issued.conflicts = state.conflicts →
      issued.overlays = state.overlays → issued.reasons.Nodup →
      (Degraded state.reasons → Degraded issued.reasons) →
      Composed reading target found (done ++ [source])
        { issued with
          summaries := issued.summaries ++ [⟨source, receiptDigest, summaryState, 0⟩] } := by
    intro issued conflicts overlays once degraded
    refine ⟨?_, once, ?_, fun missing => degraded (composed.missing missing),
      fun _ all => absurd all unverified⟩
    · rw [editsOf_concat, none, List.append_nil]
      exact composed.laid.frame conflicts overlays
    · rw [allVerified_concat]
      exact iff_of_false (fun both => readSource_refused refused both.2) unverified
  unfold composeSource
  rw [refused]
  cases reason with
  | none => exact issued state rfl rfl composed.once id
  | some reason =>
      exact issued (state.issue reason) issue_conflicts issue_overlays (nodup_issue composed.once)
        fun before => (degraded_issue composed.once).mpr (.inl before)

theorem Composed.verifies {receiptDigest : JsString} {edits : List TreeEdit}
    (verified : readSource reading target found source = .verified receiptDigest edits) :
    Composed reading target found (done ++ [source])
      (composeSource reading target found state source) := by
  have here : editsFrom reading target found source = edits.map (source.deliveryId, ·) := by
    unfold editsFrom
    rw [verified]
  obtain ⟨once, degraded, summaries⟩ :=
    applyEdits_reasons source.deliveryId edits composed.once
  have all : (∀ other ∈ done ++ [source], Verifies reading target found other) ↔
      ∀ other ∈ done, Verifies reading target found other := by
    rw [List.forall_mem_append, List.forall_mem_singleton]
    exact and_iff_left ⟨receiptDigest, edits, verified⟩
  unfold composeSource
  rw [verified]
  refine ⟨?_, once, ?_, fun missing => degraded.mpr (composed.missing missing), ?_⟩
  · rw [editsOf_concat, here]
    exact composed.laid.run.frame rfl rfl
  · rw [allVerified_concat, summaries, all, composed.verified]
    exact and_iff_left rfl
  · intro present others
    rw [degraded]
    exact composed.sound present (all.mp others)

theorem Composed.step :
    Composed reading target found (done ++ [source])
      (composeSource reading target found state source) := by
  cases read : readSource reading target found source with
  | refused reason summaryState receiptDigest => exact composed.refused read
  | verified receiptDigest edits => exact composed.verifies read

theorem Composed.run {sources : List UniverseIntegrationSource} :
    Composed reading target found (done ++ sources)
      (sources.foldl (composeSource reading target found) state) := by
  induction sources generalizing done state with
  | nil => rwa [List.append_nil]
  | cons source sources ih =>
      rw [List.append_cons, List.foldl_cons]
      exact ih composed.step

end

end Step

theorem laid_nil (reasons : List JsString) : Laid [] ⟨reasons, [], [], []⟩ where
  agree := iff_of_true rfl fun _ member => by cases member
  codes := List.forall_mem_nil _
  untouched := fun path => iff_of_true rfl fun _ member => by cases member
  first := fun path overlay placed => by cases placed
  editors := fun _ path overlay placed => by cases placed
  distinct := List.nodup_nil

theorem compose_composed (definition : UniverseIntegrationDefinition reading.text) :
    Composed reading definition.target (findTarget reading definition.target) definition.sources
      (compose reading definition) := by
  have start : Composed reading definition.target (findTarget reading definition.target) []
      (if (findTarget reading definition.target).isNone then
        Composition.issue ⟨[], [], [], []⟩ (js "target-repository-or-base-unavailable")
      else ⟨[], [], [], []⟩) := by
    cases findTarget reading definition.target with
    | none =>
        refine ⟨laid_nil _, List.nodup_singleton _, iff_of_true rfl (List.forall_mem_nil _),
          fun _ => ⟨_, List.mem_singleton_self _, by decide +kernel⟩, fun absent => absurd rfl
            absent⟩
    | some found =>
        refine ⟨laid_nil _, List.nodup_nil, iff_of_true rfl (List.forall_mem_nil _),
          fun missing => (by cases missing), fun _ _ => ?_⟩
        rintro ⟨reason, member, _⟩
        cases member
  exact start.run

/-! Trees of a repository, and what the entries of a plan make of one. -/

structure GitTree.Sound (tree : GitTree) : Prop where
  keyed : ∀ file ∈ tree, file.2.path = file.1
  distinct : tree.keys.Nodup

theorem versionAt_set (tree : GitTree) (entry : GitTreeEntry) (path : JsString) :
    versionAt (tree.set entry.path entry) path =
      if path = entry.path then some entry.toFileVersion else versionAt tree path := by
  unfold versionAt
  rw [JsMap.get?_set]
  split
  · rfl
  · rfl

namespace GitTree.Sound

variable {tree other : GitTree}

theorem nil : GitTree.Sound [] :=
  ⟨fun _ member => (by cases member), List.nodup_nil⟩

theorem set (sound : GitTree.Sound tree) (entry : GitTreeEntry) :
    GitTree.Sound (tree.set entry.path entry) where
  keyed := fun file member => by
    rcases JsMap.mem_entries_set member with rfl | before
    · rfl
    · exact sound.keyed file before
  distinct := JsMap.nodup_keys_set _ _ sound.distinct

theorem delete (sound : GitTree.Sound tree) (path : JsString) :
    GitTree.Sound (tree.delete path) where
  keyed := fun file member => sound.keyed file (List.mem_of_mem_filter member)
  distinct := sound.distinct.sublist (List.filter_sublist.map Prod.fst)

variable {path : JsString}

section

variable (sound : GitTree.Sound tree)
include sound

theorem get?_eq_some {entry : GitTreeEntry} :
    tree.get? path = some entry ↔
      versionAt tree path = some entry.toFileVersion ∧ entry.path = path := by
  unfold versionAt
  constructor
  · intro found
    rw [found]
    exact ⟨rfl, sound.keyed _ (JsMap.mem_of_get? found)⟩
  · rintro ⟨version, rfl⟩
    obtain ⟨other, found, same⟩ := Option.map_eq_some_iff.mp version
    have path := sound.keyed _ (JsMap.mem_of_get? found)
    rw [found]
    cases other
    cases entry
    simp only at same path
    rw [same, path]

theorem perm (otherSound : GitTree.Sound other)
    (same : versionAt tree = versionAt other) : tree.Perm other := by
  have lookup : ∀ path entry, tree.get? path = some entry ↔ other.get? path = some entry := by
    intro path entry
    rw [sound.get?_eq_some, otherSound.get?_eq_some, same]
  rw [List.perm_ext_iff_of_nodup (.of_map Prod.fst sound.distinct)
    (.of_map Prod.fst otherSound.distinct)]
  rintro ⟨path, entry⟩
  constructor
  · intro member
    exact JsMap.mem_of_get? ((lookup path entry).mp (JsMap.get?_of_mem sound.distinct member))
  · intro member
    exact JsMap.mem_of_get? ((lookup path entry).mpr (JsMap.get?_of_mem otherSound.distinct member))

theorem paths :
    (tree.map Prod.snd).map (·.path) = tree.keys := by
  unfold JsMap.keys
  rw [List.map_map]
  exact List.map_congr_left sound.keyed

end

end GitTree.Sound

theorem treeOf_sound (entries : List GitTreeEntry) : GitTree.Sound (treeOf entries) := by
  have built : ∀ (entries : List GitTreeEntry) (tree : GitTree), GitTree.Sound tree →
      GitTree.Sound ((entries.map fun entry => (entry.path, entry)).foldl
        (fun tree entry => tree.set entry.1 entry.2) tree) := by
    intro entries
    induction entries with
    | nil => exact fun tree sound => sound
    | cons entry entries ih => exact fun tree sound => ih _ (sound.set entry)
  exact built entries [] .nil

theorem findTarget_sound {reading : IntegrationReading} {target : UniverseIntegrationTarget}
    {git : DeliveryGit} {base : GitTree} (found : findTarget reading target = some (git, base)) :
    GitTree.Sound base := by
  unfold findTarget at found
  simp only [Option.bind_eq_bind, Option.bind_eq_some_iff, Option.pure_def, Option.some.injEq,
    Prod.mk.injEq] at found
  obtain ⟨_, _, _, _, entries, _, _, rfl⟩ := found
  exact treeOf_sound entries

/-! Edits against a base. -/

theorem mem_keys_of_versionAt {tree : GitTree} {version : FileVersion}
    (held : versionAt tree path = some version) : path ∈ tree.keys := by
  obtain ⟨entry, found, _⟩ := Option.map_eq_some_iff.mp held
  exact List.mem_map_of_mem (JsMap.mem_of_get? found)

theorem mem_changed {base : GitTree} {next : List GitTreeEntry} {edit : TreeEdit} :
    edit ∈ changed base next ↔
      versionAt (treeOf next) edit.path ≠ versionAt base edit.path ∧
        edit.after = versionAt (treeOf next) edit.path := by
  unfold changed
  simp only [List.mem_filterMap, List.mem_insertionSort, List.mem_eraseDups, List.mem_append,
    Option.ite_none_left_eq_some, Option.some.injEq]
  constructor
  · rintro ⟨path, _, differs, rfl⟩
    exact ⟨Ne.symm differs, rfl⟩
  · rintro ⟨differs, after⟩
    refine ⟨edit.path, ?_, Ne.symm differs, ?_⟩
    · cases before : versionAt base edit.path with
      | some version => exact .inl (mem_keys_of_versionAt before)
      | none =>
          rw [before] at differs
          obtain ⟨version, held⟩ := Option.ne_none_iff_exists'.mp differs
          exact .inr (mem_keys_of_versionAt held)
    · cases edit
      simp only at after
      rw [after]

/-! The entries of a plan on its base. -/

section Entries

variable {tree : GitTree} {entry : UniverseIntegrationEntry}
  {entries : List UniverseIntegrationEntry}

theorem applyEntry_sound (sound : GitTree.Sound tree) : GitTree.Sound (applyEntry tree entry) := by
  unfold applyEntry
  split
  · exact sound.delete _
  · exact sound.set ⟨_, entry.path⟩

theorem versionAt_applyEntry (path : JsString) : versionAt (applyEntry tree entry) path =
    if path = entry.path then entry.after else versionAt tree path := by
  unfold applyEntry
  cases after : entry.after with
  | none =>
      simp only
      unfold versionAt
      split
      · rename_i same
        rw [same, JsMap.get?_delete_self]
        rfl
      · rename_i differs
        rw [JsMap.get?_delete_ne differs]
  | some version => exact versionAt_set tree ⟨version, entry.path⟩ path

theorem applyEntries_sound (sound : GitTree.Sound tree) :
    GitTree.Sound (applyEntries tree entries) := by
  unfold applyEntries
  induction entries generalizing tree with
  | nil => exact sound
  | cons entry entries ih => exact ih (applyEntry_sound sound)

theorem versionAt_applyEntries_of_not_mem (absent : path ∉ entries.map (·.path)) :
    versionAt (applyEntries tree entries) path = versionAt tree path := by
  unfold applyEntries
  induction entries generalizing tree with
  | nil => rfl
  | cons entry entries ih =>
      rw [List.map_cons, List.mem_cons, not_or] at absent
      rw [List.foldl_cons, ih absent.2, versionAt_applyEntry, if_neg absent.1]

theorem versionAt_applyEntries (once : (entries.map (·.path)).Nodup) (member : entry ∈ entries) :
    versionAt (applyEntries tree entries) entry.path = entry.after := by
  induction entries generalizing tree with
  | nil => cases member
  | cons first entries ih =>
      rw [List.map_cons, List.nodup_cons] at once
      rcases List.mem_cons.mp member with rfl | later
      · have rest : versionAt (applyEntries (applyEntry tree entry) entries) entry.path =
            versionAt (applyEntry tree entry) entry.path :=
          versionAt_applyEntries_of_not_mem once.1
        rw [versionAt_applyEntry, if_pos rfl] at rest
        exact rest
      · exact ih once.2 later

end Entries

/-! The entries of a composition. -/

section Composition

variable {collation : Collation} {overlays : JsMap JsString Overlay}

theorem mem_entriesOf (distinct : overlays.keys.Nodup) {entry : UniverseIntegrationEntry} :
    entry ∈ entriesOf collation overlays ↔ ∃ overlay, overlays.get? entry.path = some overlay ∧
      entry.after = overlay.after ∧
        entry.sourceDeliveryIds = sortPaths overlay.sourceDeliveryIds := by
  unfold entriesOf sortByPath
  rw [List.mem_insertionSort, List.mem_map]
  constructor
  · rintro ⟨⟨path, overlay⟩, member, rfl⟩
    exact ⟨overlay, JsMap.get?_of_mem distinct member, rfl, rfl⟩
  · rintro ⟨overlay, found, after, ids⟩
    refine ⟨(entry.path, overlay), JsMap.mem_of_get? found, ?_⟩
    cases entry
    simp only at after ids
    rw [after, ids]

theorem nodup_paths_entriesOf (distinct : overlays.keys.Nodup) :
    ((entriesOf collation overlays).map (·.path)).Nodup := by
  unfold entriesOf sortByPath
  rw [((List.perm_insertionSort _ _).map _).nodup_iff, List.map_map]
  exact distinct

end Composition

end AshlrHub.Universe

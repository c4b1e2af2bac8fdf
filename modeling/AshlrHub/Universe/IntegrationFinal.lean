import AshlrHub.Universe.IntegrationTree

namespace AshlrHub.Universe

open Js Lib Artifacts

/-! The checks of the final tree, told without the order in which its files are looked at. -/

structure FinalFits (text : PathNormalization) (git : DeliveryGit) (files : List GitTreeEntry) :
    Prop where
  count : files.length ≤ maxPaths
  valid : ∀ file ∈ files, validPath text file.path
  portable : Portable text (files.map (·.path))
  stored : ∀ file ∈ files, (git.blobSize file.oid).isSome
  weight : (files.map fun file => (git.blobSize file.oid).getD 0).sum ≤ maxArtifactBytes

theorem FinalFits.perm {text : PathNormalization} {git : DeliveryGit}
    {files others : List GitTreeEntry} (fits : FinalFits text git files)
    (perm : files.Perm others) : FinalFits text git others where
  count := perm.length_eq ▸ fits.count
  valid := fun file member => fits.valid file (perm.mem_iff.mpr member)
  portable := fits.portable.perm (perm.map _)
  stored := fun file member => fits.stored file (perm.mem_iff.mpr member)
  weight := (perm.map fun file => (git.blobSize file.oid).getD 0).sum_eq ▸ fits.weight

/-! A check may note a conflict, and nothing else. -/

structure Noted (start state : Composition) : Prop where
  once : state.reasons.Nodup
  degraded : Degraded state.reasons ↔ Degraded start.reasons
  summaries : state.summaries = start.summaries

theorem Noted.conflict {start state : Composition} {value : UniverseIntegrationConflict}
    (noted : Noted start state) : Noted start (state.conflict value) where
  once := nodup_conflict noted.once
  degraded := (degraded_conflict noted.once).trans noted.degraded
  summaries := conflict_summaries.trans noted.summaries

def SpeltOnce (text : PathNormalization) (segments : List JsString) : Prop :=
  ∀ segment ∈ segments, ∀ other ∈ segments,
    fileOperationsPathKey text segment = fileOperationsPathKey text other → segment = other

/-- The check after some of the segments, `clear` being what the parents have had to meet. -/
structure Spelt (text : PathNormalization) (start : Composition) (seen : List JsString)
    (clear : Prop) (checked : Folds × Composition) : Prop where
  folds : ∀ folded, checked.1.get? folded =
    seen.find? fun segment => fileOperationsPathKey text segment = folded
  clean : checked.2.conflicts = [] ↔ SpeltOnce text seen ∧ clear
  noted : Noted start checked.2

section Spelling

variable {text : PathNormalization} {start : Composition} {seen : List JsString} {clear : Prop}
  {checked : Folds × Composition} {segment : JsString}

theorem speltOnce_concat : SpeltOnce text (seen ++ [segment]) ↔ SpeltOnce text seen ∧
    ∀ other ∈ seen,
      fileOperationsPathKey text other = fileOperationsPathKey text segment → other = segment := by
  constructor
  · intro once
    refine ⟨fun a first b second => once a (List.mem_append_left _ first) b
      (List.mem_append_left _ second), fun other member => ?_⟩
    exact once other (List.mem_append_left _ member) segment
      (List.mem_append_right _ (List.mem_singleton_self _))
  · rintro ⟨once, last⟩ a first b second same
    rcases List.mem_append.mp first with firstBefore | firstLast <;>
    rcases List.mem_append.mp second with secondBefore | secondLast
    · exact once a firstBefore b secondBefore same
    · rw [List.mem_singleton.mp secondLast] at same ⊢
      exact last a firstBefore same
    · rw [List.mem_singleton.mp firstLast] at same ⊢
      exact (last b secondBefore same.symm).symm
    · rw [List.mem_singleton.mp firstLast, List.mem_singleton.mp secondLast]

section

variable (spelt : Spelt text start seen clear checked)
include spelt

theorem Spelt.step (named : ∀ other ∈ seen, other ≠ []) :
    Spelt text start (seen ++ [segment]) clear (foldSegment text checked segment) := by
  have folded := spelt.folds (fileOperationsPathKey text segment)
  have found : ∀ other, seen.find? (fun other => fileOperationsPathKey text other =
      fileOperationsPathKey text segment) = some other →
      other ∈ seen ∧ fileOperationsPathKey text other = fileOperationsPathKey text segment :=
    fun other found => ⟨List.mem_of_find?_eq_some found, by simpa using List.find?_some found⟩
  unfold foldSegment
  simp only
  rw [folded]
  cases prior : seen.find? fun other => fileOperationsPathKey text other =
      fileOperationsPathKey text segment with
  | none =>
      refine ⟨fun key => ?_, ?_, spelt.noted⟩
      · rw [List.find?_append, JsMap.get?_set, spelt.folds key]
        split
        · rename_i same
          rw [same, prior]
          simp
        · rename_i differs
          simp [Ne.symm differs]
      · rw [speltOnce_concat, spelt.clean]
        refine and_congr_left fun _ => (and_iff_left fun other member same => ?_).symm
        have absent := List.find?_eq_none.mp prior other member
        simp [same] at absent
  | some other =>
      obtain ⟨member, key⟩ := found other prior
      have kept : ∀ folded, (seen ++ [segment]).find? (fun other =>
          fileOperationsPathKey text other = folded) =
          seen.find? fun other => fileOperationsPathKey text other = folded := by
        intro folded
        rw [List.find?_append]
        by_cases same : fileOperationsPathKey text segment = folded
        · rw [← same, prior]
          rfl
        · simp [same]
      simp only
      split
      · rename_i apart
        refine ⟨fun folded => (spelt.folds folded).trans (kept folded).symm, ?_,
          spelt.noted.conflict⟩
        refine iff_of_false conflict_conflicts fun both => ?_
        exact apart.2 ((speltOnce_concat.mp both.1).2 other member key)
      · rename_i alike
        have same : other = segment := by
          by_contra differs
          exact alike ⟨named other member, differs⟩
        refine ⟨fun folded => ?_, ?_, spelt.noted⟩
        · rw [kept, JsMap.get?_set]
          split
          · rename_i here
            rw [here, prior, same]
          · exact spelt.folds folded
        · rw [speltOnce_concat, spelt.clean]
          refine and_congr_left fun _ => ⟨fun once => ⟨once, fun b second keys => ?_⟩, And.left⟩
          exact once b second segment (same ▸ member) keys

theorem Spelt.segments {segments : List JsString}
    (named : ∀ other ∈ seen ++ segments, other ≠ []) :
    Spelt text start (seen ++ segments) clear (segments.foldl (foldSegment text) checked) := by
  induction segments generalizing seen checked with
  | nil => rwa [List.append_nil]
  | cons segment segments ih =>
      rw [List.append_cons] at named ⊢
      exact ih (spelt.step fun other member => named other
        (List.mem_append_left _ (List.mem_append_left _ member))) named

theorem Spelt.congr {other : Prop}
    (same : clear ↔ other) : Spelt text start seen other checked :=
  ⟨spelt.folds, spelt.clean.trans (and_congr_right fun _ => same), spelt.noted⟩

theorem Spelt.parent {paths : List JsString} {path parent : JsString} :
    Spelt text start seen (clear ∧ parent ∉ paths)
      (checked.1, checkParent paths path checked.2 parent) := by
  unfold checkParent
  split
  · rename_i present
    refine ⟨spelt.folds, iff_of_false conflict_conflicts fun both => ?_, spelt.noted.conflict⟩
    exact both.2.2 (by simpa using present)
  · rename_i absent
    refine ⟨spelt.folds, ?_, spelt.noted⟩
    rw [spelt.clean]
    exact and_congr_right fun _ => (and_iff_left (by simpa using absent)).symm

theorem Spelt.parents {paths parents : List JsString} {path : JsString} :
    Spelt text start seen (clear ∧ ∀ parent ∈ parents, parent ∉ paths)
      (checked.1, parents.foldl (checkParent paths path) checked.2) := by
  induction parents generalizing clear checked with
  | nil => simpa using spelt
  | cons parent parents ih =>
      refine (ih spelt.parent).congr ?_
      rw [List.forall_mem_cons, and_assoc]

theorem Spelt.path {paths : List JsString} {path : JsString}
    (named : ∀ other ∈ seen ++ pathSegments path, other ≠ []) :
    Spelt text start (seen ++ pathSegments path)
      (clear ∧ ∀ parent ∈ parentPaths path, parent ∉ paths) (checkPath text paths checked path) :=
  (spelt.segments named).parents

theorem Spelt.run {paths more : List JsString}
    (named : ∀ other ∈ seen ++ more.flatMap pathSegments, other ≠ []) :
    Spelt text start (seen ++ more.flatMap pathSegments)
      (clear ∧ ∀ path ∈ more, ∀ parent ∈ parentPaths path, parent ∉ paths)
      (more.foldl (checkPath text paths) checked) := by
  induction more generalizing seen clear checked with
  | nil => simpa using spelt
  | cons path more ih =>
      rw [List.flatMap_cons, ← List.append_assoc] at named ⊢
      refine (ih (spelt.path fun other member =>
        named other (List.mem_append_left _ member)) named).congr ?_
      rw [List.forall_mem_cons, and_assoc]

end

end Spelling

variable {start : Composition} {paths : List JsString}

theorem spelt_nil (text : PathNormalization) (once : start.reasons.Nodup)
    (clean : start.conflicts = []) : Spelt text start [] True ([], start) where
  folds := fun _ => rfl
  clean := iff_of_true clean ⟨List.forall_mem_nil _, trivial⟩
  noted := ⟨once, Iff.rfl, rfl⟩

variable {text : PathNormalization}

theorem portable_iff :
    Portable text paths ↔ SpeltOnce text (paths.flatMap pathSegments) ∧
      ∀ path ∈ paths, ∀ parent ∈ parentPaths path, parent ∉ paths := by
  constructor
  · intro portable
    constructor
    · intro segment member other otherMember
      obtain ⟨path, listed, inside⟩ := List.mem_flatMap.mp member
      obtain ⟨otherPath, otherListed, otherInside⟩ := List.mem_flatMap.mp otherMember
      exact portable.spelling path listed otherPath otherListed segment inside other otherInside
    · intro path listed parent above present
      exact portable.files parent present path listed above
  · rintro ⟨once, apart⟩
    constructor
    · intro path listed other otherListed segment inside spelt otherInside
      exact once segment (List.mem_flatMap.mpr ⟨path, listed, inside⟩) spelt
        (List.mem_flatMap.mpr ⟨other, otherListed, otherInside⟩)
    · intro path listed other otherListed above
      exact apart other otherListed path above listed

theorem pathSegments_ne_nil {path : JsString}
    (valid : validPath text path = true) : ∀ segment ∈ pathSegments path, segment ≠ [] := by
  intro segment member empty
  obtain ⟨index, _, rfl⟩ := List.mem_map.mp member
  have parts : ∀ part ∈ path.splitOn slash, part ≠ [] := by
    intro part inside
    simp only [validPath, validFileOperationsPath, validGenerationPath, Bool.and_eq_true,
      List.all_eq_true, decide_eq_true_eq] at valid
    exact (valid.1.1.1.1.2 part inside).1.1.1.1
  cases split : path.splitOn slash with
  | nil => exact List.splitOn_ne_nil _ _ split
  | cons first rest =>
      rw [split, List.take_succ_cons] at empty
      have nonempty := parts first (split ▸ List.mem_cons_self)
      cases taken : rest.take index with
      | nil =>
          rw [taken] at empty
          simp only [List.intercalate, List.intersperse_singleton, List.flatten_cons,
            List.flatten_nil, List.append_nil] at empty
          exact nonempty empty
      | cons second others =>
          rw [taken] at empty
          simp [List.intercalate] at empty

theorem checkPaths_clean {state : Composition}
    (once : state.reasons.Nodup) (clean : state.conflicts = [])
    (valid : ∀ path ∈ paths, validPath text path = true) :
    (paths.foldl (checkPath text paths) ([], state)).2.conflicts = [] ↔ Portable text paths := by
  have named : ∀ segment ∈ [] ++ paths.flatMap pathSegments, segment ≠ [] := by
    intro segment member
    obtain ⟨path, listed, inside⟩ := List.mem_flatMap.mp member
    exact pathSegments_ne_nil (valid path listed) segment inside
  refine ((spelt_nil text once clean).run named).clean.trans ?_
  rw [portable_iff, true_and]
  rfl

/-! Checks that only note conflicts. -/

theorem noted_foldSegment
    {checked : Folds × Composition} {segment : JsString} (noted : Noted start checked.2) :
    Noted start (foldSegment text checked segment).2 := by
  unfold foldSegment
  simp only
  split
  · exact noted
  · split
    · exact noted.conflict
    · exact noted

theorem noted_checkParent {path parent : JsString}
    {start state : Composition} (noted : Noted start state) :
    Noted start (checkParent paths path state parent) := by
  unfold checkParent
  split
  · exact noted.conflict
  · exact noted

theorem noted_checkPaths {paths more : List JsString}
    {checked : Folds × Composition} (noted : Noted start checked.2) :
    Noted start (more.foldl (checkPath text paths) checked).2 := by
  induction more generalizing checked with
  | nil => exact noted
  | cons path more ih =>
      apply ih
      have spelt := List.foldlRecOn (pathSegments path) (foldSegment text)
        (motive := fun checked => Noted start checked.2) noted
        fun checked noted segment _ => noted_foldSegment noted
      exact List.foldlRecOn (parentPaths path) (checkParent paths path)
        (motive := fun state => Noted start state) spelt
        fun state noted parent _ => noted_checkParent noted

theorem mapM_isSome {α β : Type} {pick : α → Option β} : {items : List α} →
    ((items.mapM pick).isSome ↔ ∀ item ∈ items, (pick item).isSome)
  | [] => by simp
  | item :: items => by
      rw [List.mapM_cons, List.forall_mem_cons, ← mapM_isSome]
      cases pick item with
      | none => simp
      | some value => cases items.mapM pick <;> simp

theorem contentIssue_eq_none {git : DeliveryGit} {files : List GitTreeEntry} :
    contentIssue git files = none ↔ (∀ file ∈ files, (git.blobSize file.oid).isSome) ∧
      (files.map fun file => (git.blobSize file.oid).getD 0).sum ≤ maxArtifactBytes := by
  have stored : ((files.map (·.oid)).eraseDups.mapM git.blobSize).isSome ↔
      ∀ file ∈ files, (git.blobSize file.oid).isSome := by
    rw [mapM_isSome]
    simp only [List.mem_eraseDups, List.mem_map, forall_exists_index, and_imp,
      forall_apply_eq_imp_iff₂]
  unfold contentIssue
  simp only
  rw [← stored]
  cases (files.map (·.oid)).eraseDups.mapM git.blobSize with
  | none => simp
  | some sizes => simp

/-! The final tree. -/

section FinalTree

variable {reading : IntegrationReading} {git : DeliveryGit} {finalTree : GitTree}
  {state : Composition}

theorem sortByPath_perm {α : Type} (collation : Collation) (path : α → JsString) (items : List α) :
    (sortByPath collation path items).Perm items :=
  List.perm_insertionSort _ _

/-! The stages of the check. -/

def countFiles (files : List GitTreeEntry) (state : Composition) : Composition :=
  if maxPaths < files.length then state.issue (js "final-tree-entry-limit-exceeded") else state

def placeFiles (text : PathNormalization) (files : List GitTreeEntry) (state : Composition) :
    Composition :=
  let paths := files.map (·.path)
  (paths.foldl (checkPath text paths) ([], state)).2

def nameFiles (text : PathNormalization) (files : List GitTreeEntry) (state : Composition) :
    Composition :=
  if files.any fun file => !validPath text file.path then
    state.issue (js "final-tree-path-invalid")
  else state

def weighFiles (git : DeliveryGit) (files : List GitTreeEntry) (state : Composition) :
    Composition :=
  if state.conflicts = [] && files.length ≤ maxPaths &&
      !state.reasons.contains (js "final-tree-path-invalid") then
    match contentIssue git files with
    | some reason => state.issue reason
    | none => state
  else state

theorem checkFinalTree_eq : checkFinalTree reading git finalTree state =
    let files := sortByPath reading.collation (·.path) (finalTree.map Prod.snd)
    weighFiles git files
      (nameFiles reading.text files (placeFiles reading.text files (countFiles files state))) :=
  rfl

theorem not_conflicts : js "final-tree-entry-limit-exceeded" ≠ compositionConflicts ∧
    js "final-tree-path-invalid" ≠ compositionConflicts ∧
      js "final-tree-content-unavailable" ≠ compositionConflicts ∧
        js "final-tree-byte-limit-exceeded" ≠ compositionConflicts := by
  decide +kernel

theorem countFiles_spec (files : List GitTreeEntry) (once : state.reasons.Nodup) :
    (countFiles files state).reasons.Nodup ∧
      (countFiles files state).conflicts = state.conflicts ∧
        (countFiles files state).summaries = state.summaries ∧
          (Degraded (countFiles files state).reasons ↔
            Degraded state.reasons ∨ maxPaths < files.length) := by
  unfold countFiles
  split
  · rename_i many
    refine ⟨nodup_issue once, issue_conflicts, issue_summaries, (degraded_issue once).trans ?_⟩
    exact or_congr_right (iff_of_true not_conflicts.1 many)
  · rename_i few
    exact ⟨once, rfl, rfl, (or_iff_left few).symm⟩

theorem nameFiles_spec (text : PathNormalization) (files : List GitTreeEntry)
    (once : state.reasons.Nodup) :
    (nameFiles text files state).reasons.Nodup ∧
      (nameFiles text files state).conflicts = state.conflicts ∧
        (nameFiles text files state).summaries = state.summaries ∧
          (Degraded (nameFiles text files state).reasons ↔
            Degraded state.reasons ∨ ¬ ∀ file ∈ files, validPath text file.path = true) := by
  have named : (files.any fun file => !validPath text file.path) = true ↔
      ¬ ∀ file ∈ files, validPath text file.path = true := by
    simp
  unfold nameFiles
  rw [← named]
  split
  · rename_i invalid
    refine ⟨nodup_issue once, issue_conflicts, issue_summaries, (degraded_issue once).trans ?_⟩
    exact or_congr_right (iff_of_true not_conflicts.2.1 invalid)
  · rename_i valid
    exact ⟨once, rfl, rfl, (or_iff_left valid).symm⟩

theorem checkNames_clean (text : PathNormalization) (files : List GitTreeEntry)
    (once : state.reasons.Nodup) (clean : state.conflicts = [])
    (sound : ¬ Degraded state.reasons) :
    let named := nameFiles text files (placeFiles text files (countFiles files state))
    named.reasons.Nodup ∧ named.summaries = state.summaries ∧
      ((¬ Degraded named.reasons ∧ named.conflicts = []) ↔ files.length ≤ maxPaths ∧
        (∀ file ∈ files, validPath text file.path = true) ∧
          Portable text (files.map (·.path))) := by
  intro named
  obtain ⟨countedOnce, countedConflicts, countedSummaries, counted⟩ :=
    countFiles_spec files once
  have start : Noted (countFiles files state) (countFiles files state) :=
    ⟨countedOnce, Iff.rfl, rfl⟩
  have placed : Noted (countFiles files state) (placeFiles text files (countFiles files state)) :=
    noted_checkPaths start
  obtain ⟨namedOnce, namedConflicts, namedSummaries, degraded⟩ :=
    nameFiles_spec text files placed.once
  rw [placed.degraded, counted] at degraded
  have portable : (∀ file ∈ files, validPath text file.path = true) →
      ((placeFiles text files (countFiles files state)).conflicts = [] ↔
        Portable text (files.map (·.path))) := fun valid =>
    checkPaths_clean countedOnce (countedConflicts.trans clean) fun path member => by
      obtain ⟨file, listed, rfl⟩ := List.mem_map.mp member
      exact valid file listed
  refine ⟨namedOnce, namedSummaries.trans (placed.summaries.trans countedSummaries), ?_⟩
  rw [degraded, namedConflicts]
  constructor
  · rintro ⟨fine, conflicts⟩
    rw [not_or, not_or, not_not, not_lt] at fine
    exact ⟨fine.1.2, fine.2, (portable fine.2).mp conflicts⟩
  · rintro ⟨few, valid, places⟩
    rw [not_or, not_or, not_not, not_lt]
    exact ⟨⟨⟨sound, few⟩, valid⟩, (portable valid).mpr places⟩

theorem contentIssue_ne {git : DeliveryGit} {files : List GitTreeEntry} {reason : JsString}
    (issue : contentIssue git files = some reason) : reason ≠ compositionConflicts := by
  unfold contentIssue at issue
  simp only at issue
  split at issue
  · cases issue
    exact not_conflicts.2.2.1
  · split at issue
    · cases issue
      exact not_conflicts.2.2.2
    · cases issue

theorem weighFiles_spec (git : DeliveryGit) (files : List GitTreeEntry)
    (once : state.reasons.Nodup) :
    (weighFiles git files state).summaries = state.summaries ∧
      ((¬ Degraded (weighFiles git files state).reasons ∧
          (weighFiles git files state).conflicts = []) ↔
        (¬ Degraded state.reasons ∧ state.conflicts = []) ∧
          (files.length ≤ maxPaths → contentIssue git files = none)) := by
  unfold weighFiles
  split
  · rename_i ready
    simp only [Bool.and_eq_true, decide_eq_true_eq] at ready
    cases issue : contentIssue git files with
    | none => exact ⟨rfl, by simp⟩
    | some reason =>
        have degraded : Degraded (state.issue reason).reasons :=
          (degraded_issue once).mpr (.inr (contentIssue_ne issue))
        refine ⟨issue_summaries, iff_of_false (fun both => both.1 degraded) fun both => ?_⟩
        have none := both.2 ready.1.2
        simp at none
  · rename_i skipped
    refine ⟨rfl, (and_iff_left_of_imp fun both few => ?_).symm⟩
    refine absurd ?_ skipped
    simp only [Bool.and_eq_true, decide_eq_true_eq, Bool.not_eq_true', List.contains_eq_mem,
      decide_eq_false_iff_not]
    exact ⟨⟨both.2, few⟩, fun given => both.1 ⟨_, given, not_conflicts.2.1⟩⟩

theorem checkFinalTree_clean (reading : IntegrationReading) (git : DeliveryGit)
    (finalTree : GitTree) (once : state.reasons.Nodup) (clean : state.conflicts = [])
    (sound : ¬ Degraded state.reasons) :
    (checkFinalTree reading git finalTree state).summaries = state.summaries ∧
      ((¬ Degraded (checkFinalTree reading git finalTree state).reasons ∧
          (checkFinalTree reading git finalTree state).conflicts = []) ↔
        FinalFits reading.text git (finalTree.map Prod.snd)) := by
  have perm := sortByPath_perm reading.collation (·.path) (finalTree.map Prod.snd)
  have fits : FinalFits reading.text git (finalTree.map Prod.snd) ↔ FinalFits reading.text git
      (sortByPath reading.collation (·.path) (finalTree.map Prod.snd)) :=
    ⟨fun fits => fits.perm perm.symm, fun fits => fits.perm perm⟩
  rw [fits, checkFinalTree_eq]
  simp only
  generalize sortByPath reading.collation (·.path) (finalTree.map Prod.snd) = files
  obtain ⟨namedOnce, named, names⟩ := checkNames_clean reading.text files once clean sound
  obtain ⟨weighed, weights⟩ := weighFiles_spec git files namedOnce
  refine ⟨weighed.trans named, ?_⟩
  rw [weights, names, contentIssue_eq_none]
  constructor
  · rintro ⟨⟨few, valid, portable⟩, content⟩
    exact ⟨few, valid, portable, (content few).1, (content few).2⟩
  · rintro ⟨few, valid, portable, stored, weight⟩
    exact ⟨⟨few, valid, portable⟩, fun _ => ⟨stored, weight⟩⟩

end FinalTree

end AshlrHub.Universe

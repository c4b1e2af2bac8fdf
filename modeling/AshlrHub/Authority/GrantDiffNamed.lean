import AshlrHub.Authority.GrantDiffLaws
import AshlrHub.Lib.KeyedMerge

namespace AshlrHub.Grant

open Js Authority Routing Lib

/-! The lines of repositories, rungs and accounts, each compared under its name. -/

variable {current next : StandingGrantV1}

/-! Repositories. -/

variable {repo : StandingGrantRepo}

theorem repoNamed_eq_some (named : WellNamed current) {name : JsString} :
    repoNamed current name = some repo ↔
      repo ∈ current.repos ∧ toLowerCase repo.nameWithOwner = toLowerCase name :=
  find?_eq_some_of_key named.repos

theorem repo_unique (named : WellNamed current) {other : StandingGrantRepo}
    (held : repo ∈ current.repos) (also : other ∈ current.repos)
    (same : toLowerCase repo.nameWithOwner = toLowerCase other.nameWithOwner) : repo = other :=
  List.inj_on_of_nodup_map named.repos held also same

theorem permits_repo (named : WellNamed current) (held : repo ∈ current.repos)
    {permission : RepoPermission} :
    Permits current (.repo (toLowerCase repo.nameWithOwner) permission) ↔
      RepoPermits repo permission := by
  constructor
  · rintro ⟨other, member, same, given⟩
    exact repo_unique named member held same ▸ given
  · intro given
    exact ⟨repo, held, rfl, given⟩

theorem addedTo_repos {before after : StandingGrantV1} :
    addedTo (before.repos.map (·.nameWithOwner)) (after.repos.map (·.nameWithOwner)) = [] ↔
      ∀ name, Permits after (.repo name .listed) → Permits before (.repo name .listed) := by
  rw [addedTo_eq_nil, List.forall_mem_map]
  simp only [List.map_map, List.mem_map, Function.comp_apply]
  constructor
  · rintro covered name ⟨repo, held, rfl, _⟩
    obtain ⟨other, member, same⟩ := covered repo held
    exact ⟨other, member, same, trivial⟩
  · intro covered repo held
    obtain ⟨other, member, same, _⟩ := covered _ ⟨repo, held, rfl, trivial⟩
    exact ⟨other, member, same⟩

theorem repoListLines_eq_nil : repoListLines current next = [] ↔
    ∀ name, Permits current (.repo name .listed) ↔ Permits next (.repo name .listed) := by
  simp only [repoListLines, List.append_eq_nil_iff, lineIf_eq_nil, ne_eq, not_not, addedTo_repos]
  constructor
  · rintro ⟨back, forth⟩ name
    exact ⟨forth name, back name⟩
  · intro same
    exact ⟨fun name => (same name).mpr, fun name => (same name).mp⟩

theorem raises_repoListLines : Raises (repoListLines current next) ↔
    ∃ name, Gains current next (.repo name .listed) := by
  simp only [repoListLines, raises_append, raises_lineIf, and_true, reduceCtorEq, and_false,
    or_false, ne_eq, addedTo_repos, not_forall, Gains, exists_prop]

theorem changedRepoLines_eq_nil (named : WellNamed current) {α : Type} [DecidableEq α]
    {property : StandingGrantRepo → α}
      {line : StandingGrantRepo → StandingGrantRepo → GrantDiffLine} :
    changedRepoLines current next property line = [] ↔
      ∀ was ∈ current.repos, ∀ repo ∈ next.repos,
        toLowerCase was.nameWithOwner = toLowerCase repo.nameWithOwner →
          property was = property repo := by
  rw [changedRepoLines, List.flatMap_eq_nil_iff]
  constructor
  · intro empty was held repo member same
    have found : repoNamed current repo.nameWithOwner = some was :=
      (repoNamed_eq_some named).mpr ⟨held, same⟩
    have none := empty repo member
    rw [found] at none
    exact not_not.mp (lineIf_eq_nil.mp none)
  · intro alike repo member
    cases found : repoNamed current repo.nameWithOwner with
    | none => rfl
    | some was =>
        obtain ⟨held, same⟩ := (repoNamed_eq_some named).mp found
        exact lineIf_eq_nil.mpr (not_not.mpr (alike was held repo member same))

theorem raises_changedRepoLines (named : WellNamed current) {α : Type} [DecidableEq α]
    {property : StandingGrantRepo → α}
      {line : StandingGrantRepo → StandingGrantRepo → GrantDiffLine} :
    Raises (changedRepoLines current next property line) ↔
      ∃ was ∈ current.repos, ∃ repo ∈ next.repos,
        toLowerCase was.nameWithOwner = toLowerCase repo.nameWithOwner ∧
          property was ≠ property repo ∧ (line was repo).direction = .wider := by
  rw [changedRepoLines, raises_flatMap]
  constructor
  · rintro ⟨repo, member, raised⟩
    cases found : repoNamed current repo.nameWithOwner with
    | none =>
        rw [found] at raised
        obtain ⟨_, absent, _⟩ := raised
        cases absent
    | some was =>
        rw [found] at raised
        obtain ⟨held, same⟩ := (repoNamed_eq_some named).mp found
        exact ⟨was, held, repo, member, same, raises_lineIf.mp raised⟩
  · rintro ⟨was, held, repo, member, same, raised⟩
    refine ⟨repo, member, ?_⟩
    rw [(repoNamed_eq_some named).mpr ⟨held, same⟩]
    exact raises_lineIf.mpr raised

theorem stage_eq_iff {a b : RepoStage} : a = b ↔ (a = .merge ↔ b = .merge) := by
  cases a <;> cases b <;> simp

section

variable (named : WellNamed current)
include named

theorem repoLines_eq_nil (others : WellNamed next) :
    (repoListLines current next = [] ∧ repoStageLines current next = [] ∧
      mergeFrequencyLines current next = []) ↔
      ∀ name permission, (Permission.repo name permission).Shown current →
        (Permits current (.repo name permission) ↔ Permits next (.repo name permission)) := by
  rw [repoListLines_eq_nil, repoStageLines, changedRepoLines_eq_nil named, mergeFrequencyLines,
    changedRepoLines_eq_nil named]
  constructor
  · rintro ⟨listed, stages, counts⟩ name permission shown
    have partner : ∀ was ∈ current.repos, ∀ repo ∈ next.repos,
        toLowerCase was.nameWithOwner = toLowerCase repo.nameWithOwner →
          (RepoPermits was permission ↔ RepoPermits repo permission) := by
      intro was held repo member same
      cases permission with
      | listed => exact Iff.rfl
      | merge => exact stage_eq_iff.mp (stages was held repo member same)
      | merges count => simp only [RepoPermits, counts was held repo member same]
      | enforcement | risk => cases shown
    constructor
    · rintro ⟨was, held, rfl, given⟩
      obtain ⟨repo, member, same, _⟩ := (listed _).mp ⟨was, held, rfl, trivial⟩
      exact ⟨repo, member, same, (partner was held repo member same.symm).mp given⟩
    · rintro ⟨repo, member, rfl, given⟩
      obtain ⟨was, held, same, _⟩ := (listed _).mpr ⟨repo, member, rfl, trivial⟩
      exact ⟨was, held, same, (partner was held repo member same).mpr given⟩
  · intro alike
    refine ⟨fun name => alike name .listed trivial, ?_, ?_⟩
    · intro was held repo member same
      rw [stage_eq_iff]
      have merge := alike (toLowerCase was.nameWithOwner) .merge trivial
      rw [permits_repo named held, same, permits_repo others member] at merge
      exact merge
    · intro was held repo member same
      refine forall_le_iff.mp fun count => ?_
      have merges := alike (toLowerCase was.nameWithOwner) (.merges count) trivial
      rw [permits_repo named held, same, permits_repo others member] at merges
      exact merges

theorem raises_repoLines :
    (Raises (repoListLines current next) ∨ Raises (repoStageLines current next) ∨
      Raises (mergeFrequencyLines current next)) ↔
      ∃ name permission, (Permission.repo name permission).Shown current ∧
        Gains current next (.repo name permission) := by
  rw [raises_repoListLines, repoStageLines, raises_changedRepoLines named, mergeFrequencyLines,
    raises_changedRepoLines named]
  constructor
  · rintro (⟨name, gained⟩ | ⟨was, held, repo, member, same, apart, wider⟩ |
      ⟨was, held, repo, member, same, apart, wider⟩)
    · exact ⟨name, .listed, trivial, gained⟩
    · have merge : repo.stage = .merge := widerIf_eq_wider.mp wider
      refine ⟨_, .merge, trivial, ⟨repo, member, rfl, merge⟩, ?_⟩
      rw [← same, permits_repo named held]
      exact fun merged => apart (Eq.trans merged merge.symm)
    · have more : was.maxMergesPerDay < repo.maxMergesPerDay := widerIf_eq_wider.mp wider
      refine ⟨_, .merges repo.maxMergesPerDay, trivial, ⟨repo, member, rfl, le_rfl⟩, ?_⟩
      rw [← same, permits_repo named held]
      exact not_le.mpr more
  · rintro ⟨name, permission, shown, ⟨repo, member, rfl, given⟩, refused⟩
    by_cases listed : Permits current (.repo (toLowerCase repo.nameWithOwner) .listed)
    · obtain ⟨was, held, same, _⟩ := listed
      rw [← same, permits_repo named held] at refused
      cases permission with
      | listed => exact absurd trivial refused
      | merge =>
          exact .inr (.inl ⟨was, held, repo, member, same,
            fun equal => refused (Eq.trans equal given), widerIf_eq_wider.mpr given⟩)
      | merges count =>
          have more : was.maxMergesPerDay < repo.maxMergesPerDay :=
            lt_of_lt_of_le (not_le.mp refused) given
          exact .inr (.inr ⟨was, held, repo, member, same, ne_of_lt more,
            widerIf_eq_wider.mpr more⟩)
      | enforcement | risk => cases shown
    · exact .inl ⟨_, ⟨repo, member, rfl, trivial⟩, listed⟩

/-! Rungs. -/

theorem stageNamed_eq_some {id : JsString} {rung : RolloutStage} :
    stageNamed current id = some rung ↔ rung ∈ current.stages ∧ rung.id = id :=
  find?_eq_some_of_key named.stages

theorem permits_stage {rung : RolloutStage}
    (held : rung ∈ current.stages) {permission : StagePermission} :
    Permits current (.stage rung.id permission) ↔ StagePermits rung permission := by
  constructor
  · rintro ⟨other, member, same, given⟩
    have equal : other = rung := List.inj_on_of_nodup_map named.stages member held same
    exact equal ▸ given
  · intro given
    exact ⟨rung, held, rfl, given⟩

end

theorem not_permits_stage {id : JsString} (absent : id ∉ ladderIds current)
    {permission : StagePermission} : ¬ Permits current (.stage id permission) := by
  rintro ⟨rung, held, rfl, _⟩
  exact absent (List.mem_map_of_mem held)

theorem mem_stageClasses (named : WellNamed current) {id : JsString} {cls : LeaderGrantClass} :
    cls ∈ ((stageNamed current id).map (·.leaderClasses)).getD [] ↔
      Permits current (.stage id (.leader cls)) := by
  cases found : stageNamed current id with
  | none =>
      refine iff_of_false List.not_mem_nil (not_permits_stage fun listed => ?_)
      obtain ⟨rung, held, same⟩ := List.mem_map.mp listed
      rw [(stageNamed_eq_some named).mpr ⟨held, same⟩] at found
      cases found
  | some rung =>
      obtain ⟨held, rfl⟩ := (stageNamed_eq_some named).mp found
      rw [permits_stage named held]
      exact Iff.rfl

variable {stage : RolloutStage}

section

variable (named : WellNamed current)
include named

theorem stageLeaderLines_eq_nil :
    stageLeaderLines current stage = [] ↔
      ∀ cls, Permits current (.stage stage.id (.leader cls)) ↔ cls ∈ stage.leaderClasses := by
  rw [stageLeaderLines, lineIf_eq_nil]
  refine addedTo_texts_both.trans ?_
  simp only [mem_stageClasses named]

theorem raises_stageLeaderLines :
    Raises (stageLeaderLines current stage) ↔
      ∃ cls ∈ stage.leaderClasses, ¬ Permits current (.stage stage.id (.leader cls)) := by
  rw [stageLeaderLines, raises_lineIf, widerIf_eq_wider, and_iff_right_of_imp .inl]
  refine addedTo_texts_ne.trans ?_
  simp only [mem_stageClasses named]

theorem stageVolumeLines_eq_nil :
    stageVolumeLines current stage = [] ↔
      ∀ before ∈ current.stages, before.id = stage.id →
        before.maxFiles = stage.maxFiles ∧ before.maxLines = stage.maxLines ∧
          before.maxMergesPerRepoPerDay = stage.maxMergesPerRepoPerDay := by
  unfold stageVolumeLines
  cases found : stageNamed current stage.id with
  | none =>
      refine iff_of_true rfl fun before held same => ?_
      rw [(stageNamed_eq_some named).mpr ⟨held, same⟩] at found
      cases found
  | some before =>
      obtain ⟨held, same⟩ := (stageNamed_eq_some named).mp found
      simp only [lineIf_eq_nil, not_or, not_not, ne_eq]
      constructor
      · intro alike other member equal
        rw [(stageNamed_eq_some named).mpr ⟨member, equal⟩] at found
        cases found
        exact alike
      · intro alike
        exact alike before held same

theorem raises_stageVolumeLines :
    Raises (stageVolumeLines current stage) ↔
      ∃ before ∈ current.stages, before.id = stage.id ∧
        (before.maxFiles < stage.maxFiles ∨ before.maxLines < stage.maxLines ∨
          before.maxMergesPerRepoPerDay < stage.maxMergesPerRepoPerDay) := by
  unfold stageVolumeLines
  cases found : stageNamed current stage.id with
  | none =>
      constructor
      · rintro ⟨_, absent, _⟩
        cases absent
      · rintro ⟨before, held, same, _⟩
        rw [(stageNamed_eq_some named).mpr ⟨held, same⟩] at found
        cases found
  | some before =>
      obtain ⟨held, same⟩ := (stageNamed_eq_some named).mp found
      simp only [raises_lineIf, widerIf_eq_wider]
      rw [and_iff_right_of_imp (Or.imp ne_of_lt (Or.imp ne_of_lt ne_of_lt))]
      constructor
      · intro more
        exact ⟨before, held, same, more⟩
      · rintro ⟨other, member, equal, more⟩
        rw [(stageNamed_eq_some named).mpr ⟨member, equal⟩] at found
        cases found
        exact more

theorem stageLines_eq_nil (others : WellNamed next)
    (ladder : ladderIds current = ladderIds next) :
    stageLines current next = [] ↔
      ∀ id permission, (Permission.stage id permission).Shown current →
        (Permits current (.stage id permission) ↔ Permits next (.stage id permission)) := by
  simp only [stageLines, List.flatMap_eq_nil_iff, List.append_eq_nil_iff,
    stageLeaderLines_eq_nil named, stageVolumeLines_eq_nil named]
  constructor
  · intro alike id permission shown
    by_cases listed : id ∈ ladderIds next
    · obtain ⟨stage, member, rfl⟩ := List.mem_map.mp listed
      obtain ⟨before, held, same⟩ := List.mem_map.mp (ladder ▸ listed)
      obtain ⟨classes, caps⟩ := alike stage member
      obtain ⟨files, lines, merges⟩ := caps before held same
      have was : ∀ {permission}, Permits current (.stage stage.id permission) ↔
          StagePermits before permission := by
        intro permission
        rw [← same, permits_stage named held]
      cases permission with
      | leader cls => rw [classes cls, permits_stage others member, StagePermits]
      | files count => rw [was, permits_stage others member, StagePermits, StagePermits, files]
      | lines count => rw [was, permits_stage others member, StagePermits, StagePermits, lines]
      | merges count => rw [was, permits_stage others member, StagePermits, StagePermits, merges]
      | repo | engine | risk | exit => cases shown
    · exact iff_of_false (not_permits_stage (ladder ▸ listed)) (not_permits_stage listed)
  · intro alike stage member
    refine ⟨fun cls => ?_, fun before held same => ?_⟩
    · rw [alike stage.id (.leader cls) trivial, permits_stage others member, StagePermits]
    · have listed : stage.id ∈ ladderIds current := same ▸ List.mem_map_of_mem held
      have both : ∀ permission, (Permission.stage stage.id permission).Shown current →
          (StagePermits before permission ↔ StagePermits stage permission) := by
        intro permission shown
        rw [← permits_stage named held, same, alike stage.id permission shown,
          permits_stage others member]
      exact ⟨forall_le_iff.mp fun count => both (.files count) listed,
        forall_le_iff.mp fun count => both (.lines count) listed,
        forall_le_iff.mp fun count => both (.merges count) listed⟩

theorem raises_stageLines :
    Raises (stageLines current next) ↔
      ∃ id permission, (Permission.stage id permission).Shown current ∧
        Gains current next (.stage id permission) := by
  simp only [stageLines, raises_flatMap, raises_append, raises_stageLeaderLines named,
    raises_stageVolumeLines named]
  constructor
  · rintro ⟨stage, member, ⟨cls, added, refused⟩ | ⟨before, held, same, more⟩⟩
    · exact ⟨stage.id, .leader cls, trivial, ⟨stage, member, rfl, added⟩, refused⟩
    · have listed : stage.id ∈ ladderIds current := same ▸ List.mem_map_of_mem held
      have refused : ∀ {permission}, ¬ StagePermits before permission →
          ¬ Permits current (.stage stage.id permission) := by
        intro permission
        rw [← same, permits_stage named held]
        exact id
      rcases more with more | more | more
      · exact ⟨stage.id, .files stage.maxFiles, listed, ⟨stage, member, rfl, le_rfl⟩,
          refused (not_le.mpr more)⟩
      · exact ⟨stage.id, .lines stage.maxLines, listed, ⟨stage, member, rfl, le_rfl⟩,
          refused (not_le.mpr more)⟩
      · exact ⟨stage.id, .merges stage.maxMergesPerRepoPerDay, listed,
          ⟨stage, member, rfl, le_rfl⟩, refused (not_le.mpr more)⟩
  · rintro ⟨id, permission, shown, ⟨stage, member, rfl, given⟩, refused⟩
    refine ⟨stage, member, ?_⟩
    have capped : stage.id ∈ ladderIds current → ∃ before ∈ current.stages,
        before.id = stage.id ∧ ¬ StagePermits before permission := by
      intro listed
      obtain ⟨before, held, same⟩ := List.mem_map.mp listed
      rw [← same, permits_stage named held] at refused
      exact ⟨before, held, same, refused⟩
    cases permission with
    | leader cls => exact .inl ⟨cls, given, refused⟩
    | files count =>
        obtain ⟨before, held, same, less⟩ := capped shown
        exact .inr ⟨before, held, same, .inl (lt_of_lt_of_le (not_le.mp less) given)⟩
    | lines count =>
        obtain ⟨before, held, same, less⟩ := capped shown
        exact .inr ⟨before, held, same, .inr (.inl (lt_of_lt_of_le (not_le.mp less) given))⟩
    | merges count =>
        obtain ⟨before, held, same, less⟩ := capped shown
        exact .inr ⟨before, held, same, .inr (.inr (lt_of_lt_of_le (not_le.mp less) given))⟩
    | repo | engine | risk | exit => cases shown

end

end AshlrHub.Grant

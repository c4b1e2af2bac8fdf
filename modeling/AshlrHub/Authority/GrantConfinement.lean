import AshlrHub.Authority.GrantScope

namespace AshlrHub.Grant

open Js Authority Routing Lib

/-! An edit stays inside the draft: each field of the edit keeps the grant confined, and the
strict parser changes nothing. -/

def ChosenFirst (draft : StandingGrantV1) (edit : GrantScopeEdit) (id : JsString) : Prop :=
  ∃ choice, edit.startingStageLeaderClasses = some choice ∧ choice.stageId = id ∧
    draft.stages.head?.map (·.id) = some id

structure RungWithin (draft : StandingGrantV1) (edit : GrantScopeEdit)
    (origin rung : RolloutStage) : Prop where
  id : origin.id = rung.id
  repos : rung.repos ⊆ origin.repos
  engines : rung.engines ⊆ origin.engines
  leaderClasses : rung.leaderClasses ⊆ origin.leaderClasses ∨ ChosenFirst draft edit rung.id
  caps : edit.volumeChoice = false → rung.maxFiles = origin.maxFiles ∧
    rung.maxLines = origin.maxLines ∧ rung.maxMergesPerRepoPerDay = origin.maxMergesPerRepoPerDay

structure Confined (draft : StandingGrantV1) (edit : GrantScopeEdit) (next : StandingGrantV1) :
    Prop where
  repos : ∀ repo ∈ next.repos, ∃ origin ∈ draft.repos,
    origin.nameWithOwner = repo.nameWithOwner ∧
      (edit.volumeChoice = false → repo.maxMergesPerDay = origin.maxMergesPerDay)
  seats : next.spend.seats.keys ⊆ draft.spend.seats.keys
  seatsOnce : next.spend.seats.keys.Nodup
  rungs : ∀ rung ∈ next.stages, ∃ origin ∈ draft.stages, RungWithin draft edit origin rung
  devin : .devin ∈ next.engines → .devin ∈ draft.engines
  merge : edit.volumeChoice = false → next.merge.volumePolicy = draft.merge.volumePolicy ∧
    next.merge.maxFiles = draft.merge.maxFiles ∧ next.merge.maxLines = draft.merge.maxLines

variable {draft next after : StandingGrantV1} {edit : GrantScopeEdit}

theorem Confined.start (once : draft.spend.seats.keys.Nodup) : Confined draft edit draft where
  repos := fun repo member => ⟨repo, member, rfl, fun _ => rfl⟩
  seats := List.Subset.refl _
  seatsOnce := once
  rungs := fun rung member => ⟨rung, member, rfl, List.Subset.refl _, List.Subset.refl _,
    .inl (List.Subset.refl _), fun _ => ⟨rfl, rfl, rfl⟩⟩
  devin := id
  merge := fun _ => ⟨rfl, rfl, rfl⟩

theorem RungWithin.narrow {origin rung : RolloutStage} (within : RungWithin draft edit origin rung)
    {repos : List RolloutStageRepo} {engines : List GrantEngine} {classes : List LeaderGrantClass}
    (fewerRepos : repos ⊆ rung.repos) (fewerEngines : engines ⊆ rung.engines)
    (fewerClasses : classes ⊆ rung.leaderClasses) :
    RungWithin draft edit origin
      { rung with repos := repos, engines := engines, leaderClasses := classes } where
  id := within.id
  repos := List.Subset.trans fewerRepos within.repos
  engines := List.Subset.trans fewerEngines within.engines
  leaderClasses := within.leaderClasses.imp_left fun all => List.Subset.trans fewerClasses all
  caps := within.caps

theorem Confined.editRepos {repos : List JsString} (confined : Confined draft edit next)
    (edited : editRepos draft repos next = .ok after) : Confined draft edit after := by
  unfold Grant.editRepos at edited
  iterate 3 obtain ⟨_, _, edited⟩ := bind_eq_ok.mp edited
  rw [← pure_eq_ok.mp edited]
  refine { confined with repos := ?_, rungs := ?_ }
  · intro repo kept
    exact confined.repos repo (List.mem_filter.mp kept).1
  · intro rung kept
    obtain ⟨former, member, rfl⟩ := List.mem_map.mp (List.mem_filter.mp kept).1
    obtain ⟨origin, held, within⟩ := confined.rungs former member
    exact ⟨origin, held, within.narrow List.filter_sublist.subset (List.Subset.refl _)
      (List.Subset.refl _)⟩

theorem devin_of_mem_editableEngines (choice : .devin ∈ editableEngines draft) :
    GrantEngine.devin ∈ draft.engines := by
  have added : ∀ (engines out : List GrantEngine) {engine : GrantEngine},
      engine ∈ engines.foldl (fun out engine => if engine ∈ out then out else out ++ [engine]) out →
      engine ∈ out ∨ engine ∈ engines := by
    intro engines
    induction engines with
    | nil => exact fun _ _ => Or.inl
    | cons first engines ih =>
        intro out engine member
        rw [List.foldl_cons] at member
        rcases ih _ member with early | late
        · split_ifs at early with known
          · exact .inl early
          · rcases List.mem_append.mp early with early | new
            · exact .inl early
            · exact .inr (List.mem_singleton.mp new ▸ List.mem_cons_self)
        · exact .inr (List.mem_cons_of_mem _ late)
  rcases added _ _ choice with lane | named
  · by_contra unnamed
    rw [if_neg unnamed] at lane
    exact absurd lane (by decide)
  · exact named

section

variable (confined : Confined draft edit next)
include confined

theorem Confined.editEngines {engines : List JsString}
    (edited : editEngines draft engines next = .ok after) : Confined draft edit after := by
  unfold Grant.editEngines at edited
  obtain ⟨_, _, edited⟩ := bind_eq_ok.mp edited
  obtain ⟨_, _, edited⟩ := bind_eq_ok.mp edited
  dsimp only at edited
  split at edited
  · cases edited
  rw [← pure_eq_ok.mp edited]
  have fewer : ∀ seats : JsMap SeatId StandingGrantSeat,
      (if GrantEngine.devin ∈ (editableEngines draft).filter
          (fun engine => JsEnum.text engine ∈ engines) then seats
        else seats.filter fun entry => engineOfSeatId entry.1 ≠ .devin).Sublist seats := by
    intro seats
    split_ifs
    · exact List.Sublist.refl _
    · exact List.filter_sublist
  refine { confined with rungs := ?_, devin := ?_, seats := ?_, seatsOnce := ?_ }
  · exact List.Subset.trans ((fewer _).map Prod.fst).subset confined.seats
  · exact confined.seatsOnce.sublist ((fewer _).map Prod.fst)
  · intro rung kept
    obtain ⟨former, member, rfl⟩ := List.mem_map.mp kept
    obtain ⟨origin, held, within⟩ := confined.rungs former member
    exact ⟨origin, held, within.narrow (List.Subset.refl _) List.filter_sublist.subset
      (List.Subset.refl _)⟩
  · intro chosen
    exact devin_of_mem_editableEngines (List.mem_filter.mp chosen).1

theorem Confined.editLeaderClasses {classes : List LeaderGrantClass} :
    Confined draft edit (editLeaderClasses classes next) := by
  refine { confined with rungs := ?_ }
  intro rung kept
  obtain ⟨former, member, rfl⟩ := List.mem_map.mp kept
  obtain ⟨origin, held, within⟩ := confined.rungs former member
  exact ⟨origin, held, within.narrow (List.Subset.refl _) (List.Subset.refl _)
    List.filter_sublist.subset⟩

theorem Confined.editStartingStage {choice : StartingStageChoice}
    (asked : edit.startingStageLeaderClasses = some choice)
    (edited : editStartingStage draft choice next = .ok after) : Confined draft edit after := by
  unfold Grant.editStartingStage at edited
  cases ladder : next.stages with
  | nil =>
      rw [ladder] at edited
      cases edited
  | cons first rest =>
      rw [ladder] at edited
      obtain ⟨_, bound, edited⟩ := bind_eq_ok.mp edited
      obtain ⟨_, _, edited⟩ := bind_eq_ok.mp edited
      obtain ⟨starts, same⟩ := not_or.mp (refuseIf_eq_ok.mp bound)
      rw [← pure_eq_ok.mp edited]
      refine { confined with rungs := ?_ }
      intro rung member
      rcases List.mem_cons.mp member with rfl | later
      · obtain ⟨origin, held, within⟩ :=
          confined.rungs first (ladder ▸ List.mem_cons_self)
        have chosen : ChosenFirst draft edit first.id :=
          ⟨choice, asked, not_not.mp same, by rw [← not_not.mp starts, not_not.mp same]⟩
        exact ⟨origin, held, within.id, within.repos, within.engines, .inr chosen, within.caps⟩
      · exact confined.rungs rung (ladder ▸ List.mem_cons_of_mem _ later)

end

theorem Confined.editSeats : {policies : List (JsString × GrantSeatPolicyEdit)} →
    {next : StandingGrantV1} → Confined draft edit next →
    editSeats draft policies next = .ok after → Confined draft edit after
  | [], next, confined, edited => Except.ok.inj edited ▸ confined
  | (id, policy) :: policies, next, confined, edited => by
      rw [Grant.editSeats] at edited
      split at edited
      · next seatId seat _ named =>
          have member := List.mem_of_find?_eq_some named
          have held := JsMap.get?_of_mem confined.seatsOnce member
          have keys : (next.spend.seats.set seatId (editSeat policy seat)).keys =
              next.spend.seats.keys := JsMap.keys_set held
          refine @Confined.editSeats _ _ ?_ edited
          exact { confined with
            seats := keys ▸ confined.seats
            seatsOnce := keys ▸ confined.seatsOnce }
      · cases edited

theorem Confined.editSpend (confined : Confined draft edit next) :
    Confined draft edit (editSpend edit next) :=
  { confined with }

theorem Confined.editDays {days : ℕ} (confined : Confined draft edit next)
    (edited : editDays days next = .ok after) : Confined draft edit after := by
  unfold Grant.editDays at edited
  split at edited
  · cases edited
  · split at edited
    · cases edited
    · rw [← Except.ok.inj edited]
      exact { confined with }

theorem RungWithin.editStageVolume {origin rung wider : RolloutStage}
    {repos : List StandingGrantRepo} (choice : edit.volumeChoice = true)
    (within : RungWithin draft edit origin rung)
    (edited : editStageVolume edit repos rung = .ok wider) :
    RungWithin draft edit origin wider := by
  unfold Grant.editStageVolume at edited
  obtain ⟨_, _, edited⟩ := bind_eq_ok.mp edited
  rw [← pure_eq_ok.mp edited]
  exact { within with caps := fun plain => by rw [choice] at plain; cases plain }

theorem Confined.whenEdited {α : Type} {field : Option α}
    {change : α → StandingGrantV1 → Except JsString StandingGrantV1}
    (confined : Confined draft edit next)
    (keeps : ∀ value, field = some value → ∀ {after}, change value next = .ok after →
      Confined draft edit after)
    (edited : whenEdited field change next = .ok after) : Confined draft edit after := by
  cases field with
  | none => exact Except.ok.inj edited ▸ confined
  | some value => exact keeps value rfl edited

section

variable (choice : edit.volumeChoice = true) (confined : Confined draft edit next)
include choice confined

theorem Confined.editMergeLimits {limits : List (JsString × ℕ)}
    (edited : editMergeLimits limits next = .ok after) : Confined draft edit after := by
  unfold Grant.editMergeLimits at edited
  obtain ⟨_, _, edited⟩ := bind_eq_ok.mp edited
  rw [← pure_eq_ok.mp edited]
  refine { confined with repos := ?_ }
  intro repo member
  obtain ⟨former, held, rfl⟩ := List.mem_map.mp member
  obtain ⟨origin, granted, same, _⟩ := confined.repos former held
  exact ⟨origin, granted, same, fun plain => by rw [choice] at plain; cases plain⟩

theorem Confined.editVolume (edited : editVolume edit next = .ok after) :
    Confined draft edit after := by
  unfold Grant.editVolume at edited
  obtain ⟨limited, limits, edited⟩ := bind_eq_ok.mp edited
  obtain ⟨stages, widened, edited⟩ := bind_eq_ok.mp edited
  have marked : Confined draft edit { next with
      merge := { next.merge with
        volumePolicy := true
        maxFiles := edit.maxFiles.getD next.merge.maxFiles
        maxLines := edit.maxLines.getD next.merge.maxLines } } :=
    { confined with merge := fun plain => by rw [choice] at plain; cases plain }
  have between := marked.whenEdited (fun _ _ _ => marked.editMergeLimits choice) limits
  rw [← pure_eq_ok.mp edited]
  refine { between with rungs := ?_ }
  intro rung member
  obtain ⟨former, held, parsed⟩ := mem_of_mapM_eq_ok widened member
  obtain ⟨origin, granted, within⟩ := between.rungs former held
  exact ⟨origin, granted, within.editStageVolume choice parsed⟩

end

theorem confined_editDraft (once : draft.spend.seats.keys.Nodup)
    (edited : editDraft draft edit = .ok after) : Confined draft edit after := by
  unfold editDraft at edited
  obtain ⟨_, repos, edited⟩ := bind_eq_ok.mp edited
  obtain ⟨_, engines, edited⟩ := bind_eq_ok.mp edited
  obtain ⟨_, classes, edited⟩ := bind_eq_ok.mp edited
  obtain ⟨_, starting, edited⟩ := bind_eq_ok.mp edited
  obtain ⟨_, seats, edited⟩ := bind_eq_ok.mp edited
  obtain ⟨_, days, edited⟩ := bind_eq_ok.mp edited
  have confined := (@Confined.start _ edit once).whenEdited
    (fun _ _ _ => (Confined.start once).editRepos) repos
  have confined := confined.whenEdited (fun _ _ _ => confined.editEngines) engines
  have confined := confined.whenEdited (fun _ _ _ done => by
    rw [← Except.ok.inj done]
    exact confined.editLeaderClasses) classes
  have confined := confined.whenEdited (fun _ asked _ => confined.editStartingStage asked) starting
  have confined := confined.whenEdited (fun _ _ _ => confined.editSeats) seats
  have confined := confined.editSpend.whenEdited (fun _ _ _ => confined.editSpend.editDays) days
  split_ifs at edited with choice
  · exact confined.editVolume choice edited
  · exact Except.ok.inj edited ▸ confined

/-- An edit stays inside the draft, and what it makes is a grant as it stands. -/
theorem applyGrantScopeEdit_confined {value requestedEdit : JsValue}
    {draft payload : StandingGrantV1} (parsed : parseStandingGrantPayload value = .ok draft)
    (applied : applyGrantScopeEdit draft requestedEdit = .ok payload) :
    parseStandingGrantPayload (grantValue payload) = .ok payload ∧
      ∃ edit, parseGrantScopeEdit requestedEdit = .ok edit ∧ Confined draft edit payload := by
  unfold applyGrantScopeEdit at applied
  obtain ⟨edit, asked, applied⟩ := bind_eq_ok.mp applied
  obtain ⟨next, edited, applied⟩ := bind_eq_ok.mp applied
  have confined := confined_editDraft (wellNamed_of_parsePayload parsed).seats edited
  cases checked : parseStandingGrantPayload (grantValue next) with
  | error reason =>
      rw [checked] at applied
      cases applied
  | ok read =>
      rw [checked] at applied
      obtain rfl := Except.ok.inj applied
      obtain rfl := eq_of_parsePayload confined.seatsOnce checked
      exact ⟨checked, edit, asked, confined⟩

/-! A draft of two rungs, and an edit that leaves it one engine. -/

def sampleDigest : JsString :=
  List.replicate 64 0x61

def sampleGrant : StandingGrantV1 where
  grantId := List.replicate 32 0x61
  grantSeq := 1
  keyId := js "k"
  issuedAt := js "2026-07-01T00:00:00.000Z"
  expiresAt := js "2026-07-15T00:00:00.000Z"
  hostBinding := sampleDigest
  authoritySurfaceDigest := sampleDigest
  repos := [⟨js "o/a", .merge, .server, .low, 4⟩, ⟨js "o/b", .propose, .local, .low, 0⟩]
  merge := ⟨false, 4, 150, .proposeOnly⟩
  spend := ⟨.balanced, 0, [(⟨js "codex", spelled_codex⟩, ⟨true, 10, some 90, [.producer]⟩)]⟩
  engines := [.codex, .local]
  leader := ⟨[.a], 60⟩
  conductorGoals := false
  stages :=
    [⟨js "shadow", [⟨js "o/a", .propose⟩, ⟨js "o/b", .propose⟩], [.codex, .local], .low, 4, 150,
      2, [], ⟨0, 0, 100, 0⟩⟩,
    ⟨js "full", [⟨js "o/a", .merge⟩], [.codex], .low, 4, 150, 4, [.a], ⟨1, 90, 10, 24⟩⟩]
  websitePublication := none

def oneEngineEdit : JsValue :=
  .obj [(js "engines", .arr [.str (js "codex")])]

def oneEngineGrant : StandingGrantV1 :=
  { sampleGrant with
    engines := [.codex]
    stages := sampleGrant.stages.map fun stage => { stage with engines := [.codex] } }

theorem sample_grants :
    parseStandingGrantPayload (grantValue sampleGrant) = .ok sampleGrant ∧
      applyGrantScopeEdit sampleGrant oneEngineEdit = .ok oneEngineGrant ∧
      parseStandingGrantPayload (grantValue oneEngineGrant) = .ok oneEngineGrant := by
  decide +kernel

theorem applyGrantScopeEdit_confined_sample :
    parseStandingGrantPayload (grantValue oneEngineGrant) = .ok oneEngineGrant ∧
      ∃ edit, parseGrantScopeEdit oneEngineEdit = .ok edit ∧
        Confined sampleGrant edit oneEngineGrant :=
  applyGrantScopeEdit_confined sample_grants.1 sample_grants.2.1

end AshlrHub.Grant

import AshlrHub.Authority.GrantDiff

namespace AshlrHub.Grant

open Js Authority Routing

/-! What a grant permits, one atom at a time: every field of the scope is one of these, and a
grant that permits an atom another does not is wider there. -/

inductive RepoPermission where
  | listed
  | merge
  | enforcement (enforcement : RepoEnforcement)
  | risk (risk : MergeRisk)
  | merges (count : ℕ)

inductive SeatPermission where
  | enabled
  | role (role : SeatRole)
  /-- Spend until this much of the window is left. -/
  | reserve (percent : ℕ)
  | session (percent : ℕ)

inductive StagePermission where
  | repo (name : JsString) (stage : RepoStage)
  | engine (engine : GrantEngine)
  | risk (risk : MergeRisk)
  | files (count : ℕ)
  | lines (count : ℕ)
  | merges (count : ℕ)
  | leader (cls : LeaderGrantClass)
  /-- Leave the rung on these numbers. -/
  | exit (merges greenPct revertPct hours : ℕ)

/-- Repositories go by their names in lower case. -/
inductive Permission where
  | repo (name : JsString) (permission : RepoPermission)
  | seat (id : SeatId) (permission : SeatPermission)
  | stage (id : JsString) (permission : StagePermission)
  | files (count : ℕ)
  | lines (count : ℕ)
  | operatorVolumes
  | selfMerge
  | mode (mode : BudgetMode)
  | metered (usdPerDay : ℕ)
  | engine (engine : GrantEngine)
  | leaderClass (cls : LeaderGrantClass)
  /-- Act this many minutes after a decision. -/
  | veto (minutes : ℕ)
  | goals
  | publish (profileDigest : JsString)
  | start (id : JsString)
  | follows (before after : JsString)

def RepoPermits (repo : StandingGrantRepo) : RepoPermission → Prop
  | .listed => True
  | .merge => repo.stage = .merge
  | .enforcement enforcement => repo.enforcement = enforcement
  | .risk risk => risk.rank ≤ repo.maxRisk.rank
  | .merges count => count ≤ repo.maxMergesPerDay

def SeatPermits (seat : StandingGrantSeat) : SeatPermission → Prop
  | .enabled => seat.enabled = true
  | .role role => role ∈ seat.roles
  | .reserve percent => seat.reserveFloorPercent ≤ percent
  | .session percent => ∀ ceiling, seat.maxSessionWindowPercent = some ceiling → percent ≤ ceiling

def StagePermits (rung : RolloutStage) : StagePermission → Prop
  | .repo name stage =>
      ∃ repo ∈ rung.repos, toLowerCase repo.nameWithOwner = name ∧ stage.rank ≤ repo.stage.rank
  | .engine engine => engine ∈ rung.engines
  | .risk risk => risk.rank ≤ rung.maxRisk.rank
  | .files count => count ≤ rung.maxFiles
  | .lines count => count ≤ rung.maxLines
  | .merges count => count ≤ rung.maxMergesPerRepoPerDay
  | .leader cls => cls ∈ rung.leaderClasses
  | .exit merges greenPct revertPct hours =>
      rung.criteria.minMerges ≤ merges ∧ rung.criteria.minPostMergeGreenPct ≤ greenPct ∧
        revertPct ≤ rung.criteria.maxRevertRatePct ∧ rung.criteria.minHours ≤ hours

def Permits (grant : StandingGrantV1) : Permission → Prop
  | .repo name permission =>
      ∃ repo ∈ grant.repos, toLowerCase repo.nameWithOwner = name ∧ RepoPermits repo permission
  | .seat id permission =>
      ∃ seat, grant.spend.seats.get? id = some seat ∧ SeatPermits seat permission
  | .stage id permission => ∃ rung ∈ grant.stages, rung.id = id ∧ StagePermits rung permission
  | .files count => count ≤ grant.merge.maxFiles
  | .lines count => count ≤ grant.merge.maxLines
  | .operatorVolumes => grant.merge.volumePolicy = true
  | .selfMerge => grant.merge.selfRepo = .mergeNonAuthority
  | .mode mode => modeRank mode ≤ modeRank grant.spend.maxMode
  | .metered usdPerDay => usdPerDay ≤ grant.spend.meteredUsdPerDay
  | .engine engine => engine ∈ grant.engines
  | .leaderClass cls => cls ∈ grant.leader.classes
  | .veto minutes => grant.leader.vetoMinutes ≤ minutes
  | .goals => grant.conductorGoals = true
  | .publish profileDigest => grant.websitePublication = some ⟨profileDigest⟩
  | .start id => (ladderIds grant).head? = some id
  | .follows before after => [before, after] <:+: ladderIds grant

def SameScope (current next : StandingGrantV1) : Prop :=
  ∀ permission, Permits current permission ↔ Permits next permission

/-- A permission of `next` that `current` does not give. -/
def Gains (current next : StandingGrantV1) (permission : Permission) : Prop :=
  Permits next permission ∧ ¬ Permits current permission

/-- The permissions whose change the diff can show.  It reads the caps of a rung only where the
grant in force has that rung. -/
def Permission.Shown (current : StandingGrantV1) : Permission → Prop
  | .repo _ .listed => True
  | .repo _ .merge => True
  | .repo _ (.merges _) => True
  | .repo _ _ => False
  | .seat _ _ => True
  | .stage _ (.leader _) => True
  | .stage id (.files _) => id ∈ ladderIds current
  | .stage id (.lines _) => id ∈ ladderIds current
  | .stage id (.merges _) => id ∈ ladderIds current
  | .stage _ _ => False
  | .files _ => True
  | .lines _ => True
  | .operatorVolumes => True
  | .selfMerge => False
  | .mode _ => True
  | .metered _ => True
  | .engine _ => True
  | .leaderClass _ => True
  | .veto _ => False
  | .goals => True
  | .publish _ => False
  | .start _ => False
  | .follows _ _ => False

/-- Nothing the diff reads differs: what it can show, the rungs by name, the expiry. -/
structure Alike (current next : StandingGrantV1) : Prop where
  shown : ∀ permission, permission.Shown current →
    (Permits current permission ↔ Permits next permission)
  ladder : ladderIds current = ladderIds next
  expiresAt : current.expiresAt = next.expiresAt

/-- What the diff never shows is the same. -/
def HiddenAlike (current next : StandingGrantV1) : Prop :=
  ∀ permission, ¬ permission.Shown current → (Permits current permission ↔ Permits next permission)

def InheritedSeat (current next : StandingGrantV1) : Prop :=
  ∃ id : SeatId, id.text ∈ inheritedNames ∧
    ¬ (id ∈ current.spend.seats.keys ↔ id ∈ next.spend.seats.keys)

/-! What the lines of the diff say about the permissions of the two grants: each group of lines
is empty where its permissions are the same, and raises authority where one is gained. -/

def Raises (lines : List GrantDiffLine) : Prop :=
  ∃ line ∈ lines, line.direction = .wider

theorem lineIf_eq_nil {differs : Prop} [Decidable differs] {line : GrantDiffLine} :
    lineIf differs line = [] ↔ ¬ differs := by
  by_cases met : differs
  · rw [lineIf, if_pos met]
    exact iff_of_false (List.cons_ne_nil _ _) (not_not.mpr met)
  · rw [lineIf, if_neg met]
    exact iff_of_true rfl met

theorem raises_lineIf {differs : Prop} [Decidable differs] {line : GrantDiffLine} :
    Raises (lineIf differs line) ↔ differs ∧ line.direction = .wider := by
  unfold lineIf Raises
  split_ifs with met
  · simp [met]
  · simp [met]

theorem raises_append {left right : List GrantDiffLine} :
    Raises (left ++ right) ↔ Raises left ∨ Raises right := by
  simp only [Raises, List.mem_append, or_and_right, exists_or]

theorem raises_flatMap {α : Type} {items : List α} {lines : α → List GrantDiffLine} :
    Raises (items.flatMap lines) ↔ ∃ item ∈ items, Raises (lines item) := by
  simp only [Raises, List.mem_flatMap]
  constructor
  · rintro ⟨line, ⟨item, held, shown⟩, wider⟩
    exact ⟨item, held, line, shown, wider⟩
  · rintro ⟨item, held, line, shown, wider⟩
    exact ⟨line, ⟨item, held, shown⟩, wider⟩

theorem widerIf_eq_wider {raised : Prop} [Decidable raised] :
    widerIf raised = .wider ↔ raised := by
  unfold widerIf
  split_ifs with met
  · exact iff_of_true rfl met
  · exact iff_of_false (fun same => by cases same) met

/-! The notions compared: numbers by what they bound, lists by what they hold. -/

theorem forall_le_iff {a b : ℕ} : (∀ n, n ≤ a ↔ n ≤ b) ↔ a = b := by
  constructor
  · intro same
    exact le_antisymm ((same a).mp le_rfl) ((same b).mpr le_rfl)
  · rintro rfl n
    exact Iff.rfl

theorem exists_le_and_not_le {a b : ℕ} : (∃ n, n ≤ b ∧ ¬ n ≤ a) ↔ a < b := by
  constructor
  · rintro ⟨n, low, high⟩
    omega
  · intro less
    exact ⟨b, le_rfl, not_le.mpr less⟩

theorem addedTo_eq_nil {before after : List JsString} :
    addedTo before after = [] ↔ ∀ value ∈ after, toLowerCase value ∈ before.map toLowerCase := by
  simp only [addedTo, List.filter_eq_nil_iff, decide_eq_true_eq, not_not]

/-- An enumeration whose texts stay apart in lower case. -/
class LowerDistinct (α : Type) [JsEnum α] : Prop where
  distinct : ((JsEnum.all : List α).map fun item => toLowerCase (JsEnum.text item)).Nodup

instance : LowerDistinct LeaderGrantClass := ⟨by decide +kernel⟩

instance : LowerDistinct GrantEngine := ⟨by decide +kernel⟩

instance : LowerDistinct SeatRole := ⟨by decide +kernel⟩

theorem addedTo_texts {α : Type} [JsEnum α] [LowerDistinct α] {before after : List α} :
    addedTo (before.map JsEnum.text) (after.map JsEnum.text) = [] ↔
      ∀ item ∈ after, item ∈ before := by
  rw [addedTo_eq_nil, List.map_map, List.forall_mem_map]
  refine forall₂_congr fun item _ => ?_
  constructor
  · intro held
    obtain ⟨other, member, same⟩ := List.mem_map.mp held
    have equal : other = item := List.inj_on_of_nodup_map LowerDistinct.distinct
      (JsEnum.complete other) (JsEnum.complete item) same
    exact equal ▸ member
  · intro member
    exact List.mem_map_of_mem member

theorem addedTo_texts_ne {α : Type} [JsEnum α] [LowerDistinct α] {before after : List α} :
    addedTo (before.map JsEnum.text) (after.map JsEnum.text) ≠ [] ↔
      ∃ item ∈ after, item ∉ before := by
  rw [ne_eq, addedTo_texts]
  push Not
  exact Iff.rfl

theorem addedTo_texts_both {α : Type} [JsEnum α] [LowerDistinct α] {before after : List α} :
    ¬ (addedTo (before.map JsEnum.text) (after.map JsEnum.text) ≠ [] ∨
      addedTo (after.map JsEnum.text) (before.map JsEnum.text) ≠ []) ↔
      ∀ item, item ∈ before ↔ item ∈ after := by
  rw [not_or, not_not, not_not, addedTo_texts, addedTo_texts]
  constructor
  · rintro ⟨back, forth⟩ item
    exact ⟨forth item, back item⟩
  · intro same
    exact ⟨fun item => (same item).mpr, fun item => (same item).mp⟩

variable {current next : StandingGrantV1}

/-! The grant as a whole. -/

theorem engineLines_eq_nil : engineLines current next = [] ↔
    ∀ engine, Permits current (.engine engine) ↔ Permits next (.engine engine) := by
  simp only [engineLines, List.append_eq_nil_iff, lineIf_eq_nil]
  rw [← not_or]
  exact addedTo_texts_both

theorem raises_engineLines : Raises (engineLines current next) ↔
    ∃ engine, Gains current next (.engine engine) := by
  simp only [engineLines, raises_append, raises_lineIf, and_true, reduceCtorEq, and_false,
    or_false, addedTo_texts_ne]
  exact Iff.rfl

theorem leaderLines_eq_nil : leaderLines current next = [] ↔
    ∀ cls, Permits current (.leaderClass cls) ↔ Permits next (.leaderClass cls) := by
  rw [leaderLines, lineIf_eq_nil]
  exact addedTo_texts_both

theorem raises_leaderLines : Raises (leaderLines current next) ↔
    ∃ cls, Gains current next (.leaderClass cls) := by
  rw [leaderLines, raises_lineIf, widerIf_eq_wider, and_iff_right_of_imp .inl]
  exact addedTo_texts_ne

theorem modeRank_injective : ∀ {a b : BudgetMode}, modeRank a = modeRank b → a = b := by
  intro a b same
  cases a <;> cases b <;> first | rfl | cases same

theorem spendModeLines_eq_nil : spendModeLines current next = [] ↔
    ∀ mode, Permits current (.mode mode) ↔ Permits next (.mode mode) := by
  rw [spendModeLines, lineIf_eq_nil, not_not]
  constructor
  · intro same mode
    simp only [Permits, same]
  · intro same
    exact modeRank_injective (le_antisymm ((same _).mp le_rfl) ((same _).mpr le_rfl))

theorem raises_spendModeLines : Raises (spendModeLines current next) ↔
    ∃ mode, Gains current next (.mode mode) := by
  rw [spendModeLines, raises_lineIf, widerIf_eq_wider]
  constructor
  · rintro ⟨_, higher⟩
    exact ⟨next.spend.maxMode, le_rfl, not_le.mpr higher⟩
  · rintro ⟨mode, given, refused⟩
    have higher := lt_of_lt_of_le (not_le.mp refused) given
    exact ⟨fun same => absurd higher (by rw [same]; exact lt_irrefl _), higher⟩

theorem meteredLines_eq_nil : meteredLines current next = [] ↔
    ∀ dollars, Permits current (.metered dollars) ↔ Permits next (.metered dollars) := by
  rw [meteredLines, lineIf_eq_nil, not_not]
  exact forall_le_iff.symm

theorem raises_meteredLines : Raises (meteredLines current next) ↔
    ∃ dollars, Gains current next (.metered dollars) := by
  rw [meteredLines, raises_lineIf, widerIf_eq_wider, and_iff_right_of_imp ne_of_lt]
  exact exists_le_and_not_le.symm

theorem mergeCapsLines_eq_nil : mergeCapsLines current next = [] ↔
    (∀ count, Permits current (.files count) ↔ Permits next (.files count)) ∧
      ∀ count, Permits current (.lines count) ↔ Permits next (.lines count) := by
  rw [mergeCapsLines, lineIf_eq_nil, not_or, not_not, not_not]
  exact and_congr forall_le_iff.symm forall_le_iff.symm

theorem raises_mergeCapsLines : Raises (mergeCapsLines current next) ↔
    (∃ count, Gains current next (.files count)) ∨ ∃ count, Gains current next (.lines count) := by
  rw [mergeCapsLines, raises_lineIf, widerIf_eq_wider,
    and_iff_right_of_imp (Or.imp ne_of_lt ne_of_lt)]
  exact or_congr exists_le_and_not_le.symm exists_le_and_not_le.symm

theorem volumePolicyLines_eq_nil : volumePolicyLines current next = [] ↔
    (Permits current .operatorVolumes ↔ Permits next .operatorVolumes) := by
  rw [volumePolicyLines, lineIf_eq_nil, not_not]
  exact Bool.eq_iff_iff

theorem raises_volumePolicyLines : Raises (volumePolicyLines current next) ↔
    Gains current next .operatorVolumes := by
  rw [volumePolicyLines, raises_lineIf, widerIf_eq_wider, Gains, Permits, Permits]
  cases current.merge.volumePolicy <;> cases next.merge.volumePolicy <;> simp

theorem conductorLines_eq_nil : conductorLines current next = [] ↔
    (Permits current .goals ↔ Permits next .goals) := by
  rw [conductorLines, lineIf_eq_nil, not_not]
  exact Bool.eq_iff_iff

theorem raises_conductorLines : Raises (conductorLines current next) ↔
    Gains current next .goals := by
  rw [conductorLines, raises_lineIf, widerIf_eq_wider, Gains, Permits, Permits]
  cases current.conductorGoals <;> cases next.conductorGoals <;> simp

theorem not_raises_ladderLines : ¬ Raises (ladderLines current next) := by
  rw [ladderLines, raises_lineIf]
  exact fun both => by cases both.2

theorem not_raises_expiryLines : ¬ Raises (expiryLines current next) := by
  rw [expiryLines, raises_lineIf]
  exact fun both => by cases both.2

theorem expiryLines_eq_nil :
    expiryLines current next = [] ↔ current.expiresAt = next.expiresAt := by
  rw [expiryLines, lineIf_eq_nil, not_not]

/-! The ladder: ids without the separator are read back from the joined text. -/

theorem heads_of_separator {separator : CodeUnit} {texts others : JsString} :
    {head other : JsString} → separator ∉ head → separator ∉ other →
    head ++ separator :: texts = other ++ separator :: others → head = other ∧ texts = others
  | [], [], _, _, same => ⟨rfl, (List.cons.inj same).2⟩
  | [], _ :: _, _, apart, same => absurd (List.cons.inj same).1 fun first =>
      apart (first ▸ List.mem_cons_self)
  | _ :: _, [], whole, _, same => absurd (List.cons.inj same).1 fun first =>
      whole (first ▸ List.mem_cons_self)
  | unit :: head, _ :: other, whole, apart, same => by
      obtain ⟨first, rest⟩ := List.cons.inj same
      obtain ⟨heads, tails⟩ := heads_of_separator
        (fun member => whole (List.mem_cons_of_mem _ member))
        (fun member => apart (List.mem_cons_of_mem _ member)) rest
      exact ⟨by rw [first, heads], tails⟩

theorem joinWith_injective {separator : CodeUnit} : {texts others : List JsString} →
    (∀ text ∈ texts, text ≠ [] ∧ separator ∉ text) →
    (∀ text ∈ others, text ≠ [] ∧ separator ∉ text) →
    joinWith [separator] texts = joinWith [separator] others → texts = others
  | [], [], _, _, _ => rfl
  | [], [other], _, whole, same => absurd same.symm (whole other List.mem_cons_self).1
  | [], other :: second :: others, _, whole, same =>
      absurd (List.append_eq_nil_iff.mp same.symm).1 (whole other List.mem_cons_self).1
  | [text], [], whole, _, same => absurd same (whole text List.mem_cons_self).1
  | text :: second :: texts, [], whole, _, same =>
      absurd (List.append_eq_nil_iff.mp same).1 (whole text List.mem_cons_self).1
  | [text], [other], _, _, same => congrArg (fun text => [text]) same
  | [text], other :: second :: others, whole, _, same => by
      have inside : separator ∈ text := by
        rw [show text = other ++ ([separator] ++ joinWith [separator] (second :: others)) from same]
        simp
      exact absurd inside (whole text List.mem_cons_self).2
  | text :: second :: texts, [other], _, whole, same => by
      have inside : separator ∈ other := by
        rw [show other = text ++ ([separator] ++ joinWith [separator] (second :: texts)) from
          same.symm]
        simp
      exact absurd inside (whole other List.mem_cons_self).2
  | text :: second :: texts, other :: third :: others, whole, apart, same => by
      have split : text ++ separator :: joinWith [separator] (second :: texts) =
          other ++ separator :: joinWith [separator] (third :: others) := same
      obtain ⟨heads, tails⟩ := heads_of_separator (whole text List.mem_cons_self).2
        (apart other List.mem_cons_self).2 split
      have rest := joinWith_injective
        (fun text member => whole text (List.mem_cons_of_mem _ member))
        (fun text member => apart text (List.mem_cons_of_mem _ member)) tails
      rw [heads, rest]

theorem stageId_apart {id : JsString} (spelled : stageIdPattern id = true) :
    id ≠ [] ∧ (0x3E : CodeUnit) ∉ id := by
  have plain : ∀ unit : CodeUnit, (isDigit unit || isLower unit || decide (unit = 0x2D)) = true →
      unit ≠ 0x3E := by
    rintro unit allowed rfl
    exact absurd allowed (by decide)
  cases id with
  | nil => cases spelled
  | cons first rest =>
      simp only [stageIdPattern, headThenUpTo, Bool.and_eq_true, List.all_eq_true] at spelled
      refine ⟨List.cons_ne_nil _ _, fun member => ?_⟩
      rcases List.mem_cons.mp member with rfl | later
      · exact plain _ (by rw [spelled.1.1]; rfl) rfl
      · exact plain _ (spelled.2 _ later) rfl

theorem ladderLines_eq_nil (named : WellNamed current) (others : WellNamed next) :
    ladderLines current next = [] ↔ ladderIds current = ladderIds next := by
  rw [ladderLines, lineIf_eq_nil, not_not]
  constructor
  · intro same
    refine @joinWith_injective 0x3E _ _ ?_ ?_ same
    · intro id member
      obtain ⟨stage, held, rfl⟩ := List.mem_map.mp member
      exact stageId_apart (named.stageIds stage held)
    · intro id member
      obtain ⟨stage, held, rfl⟩ := List.mem_map.mp member
      exact stageId_apart (others.stageIds stage held)
  · intro same
    rw [same]

end AshlrHub.Grant

import AshlrHub.Authority.GrantConfinement

namespace AshlrHub.Grant

open Js Authority Routing

/-! What signing a grant changes compared with the grant in force, line by line. -/

/-- `wider` raises authority, `narrower` lowers it, `changed` is neither. -/
inductive GrantDiffDirection where
  | wider
  | narrower
  | changed
deriving DecidableEq

inductive GrantDiffField where
  | repos
  | repoStage
  | engines
  | leader
  | stageLeader
  | spendMode
  | metered
  | expiry
  | conductor
  | ladder
  | mergeCaps
  | stageVolume
  | volumePolicy
  | mergeFrequency
  | seatEnabled
  | seatRoles
  | seatReserve
  | seatSession
deriving DecidableEq

structure GrantDiffLine where
  field : GrantDiffField
  label : JsString
  before : JsString
  after : JsString
  direction : GrantDiffDirection
deriving DecidableEq

/-- `MODE_RANK` -/
def modeRank : BudgetMode → ℕ
  | .reserve => 0
  | .balanced => 1
  | .allIn => 2

def listText (values : List JsString) : JsString :=
  if values = [] then js "none" else joinWith (js ", ") values

def enumList {α : Type} [JsEnum α] (items : List α) : JsString :=
  listText (items.map JsEnum.text)

/-- What `after` has and `before` has not, in any case of letters. -/
def addedTo (before after : List JsString) : List JsString :=
  after.filter fun value => toLowerCase value ∉ before.map toLowerCase

/-- `Math.round((expiresAt - issuedAt) / DAY_MS)`, of a grant whose instants parse. -/
def validDays (grant : StandingGrantV1) : ℕ :=
  ((2 * lifetime grant.issuedAt grant.expiresAt + msPerDay) / (2 * msPerDay)).toNat

def volumeLimitLabel (value : ℕ) : JsString :=
  if value = maxSafe then js "No volume cap" else decimal value

def widerIf (raised : Prop) [Decidable raised] : GrantDiffDirection :=
  if raised then .wider else .narrower

def lineIf (differs : Prop) [Decidable differs] (line : GrantDiffLine) : List GrantDiffLine :=
  if differs then [line] else []

/-! Accounts. -/

def inheritedNames : List JsString :=
  [js "constructor", js "hasOwnProperty", js "isPrototypeOf", js "propertyIsEnumerable",
    js "toLocaleString", js "toString", js "valueOf"]

/-- `seats[id]`: none where the name is inherited, and what it gives is no seat but a function. -/
def seatAt (seats : JsMap SeatId StandingGrantSeat) (id : SeatId) :
    Option (Option StandingGrantSeat) :=
  match seats.get? id with
  | some seat => some (some seat)
  | none => if id.text ∈ inheritedNames then none else some none

def seatEnabledText : Option StandingGrantSeat → JsString
  | some seat => if seat.enabled then js "Enabled" else js "Disabled"
  | none => js "Not granted"

def seatReserveText : Option StandingGrantSeat → JsString
  | some seat => decimal seat.reserveFloorPercent ++ js "%"
  | none => js "Not granted"

def seatSessionText : Option StandingGrantSeat → JsString
  | some seat =>
      match seat.maxSessionWindowPercent with
      | none => js "No session ceiling"
      | some percent => decimal percent ++ js "%"
  | none => js "Not granted"

def seatRolesText : Option StandingGrantSeat → JsString
  | some seat => enumList seat.roles
  | none => js "Not granted"

def bothAlike (alike : StandingGrantSeat → StandingGrantSeat → Prop) :
    Option StandingGrantSeat → Option StandingGrantSeat → Prop
  | some before, some after => alike before after
  | _, _ => False

def raisedFrom (raises : StandingGrantSeat → StandingGrantSeat → Prop) :
    Option StandingGrantSeat → Option StandingGrantSeat → Prop
  | some before, some after => raises before after
  | none, some _ => True
  | _, none => False

instance (alike : StandingGrantSeat → StandingGrantSeat → Prop)
    [∀ before after, Decidable (alike before after)] :
    (before after : Option StandingGrantSeat) → Decidable (bothAlike alike before after)
  | some before, some after => inferInstanceAs (Decidable (alike before after))
  | none, _ => inferInstanceAs (Decidable False)
  | some _, none => inferInstanceAs (Decidable False)

instance (raises : StandingGrantSeat → StandingGrantSeat → Prop)
    [∀ before after, Decidable (raises before after)] :
    (before after : Option StandingGrantSeat) → Decidable (raisedFrom raises before after)
  | some before, some after => inferInstanceAs (Decidable (raises before after))
  | none, some _ => inferInstanceAs (Decidable True)
  | none, none => inferInstanceAs (Decidable False)
  | some _, none => inferInstanceAs (Decidable False)

def sameRoles (before after : StandingGrantSeat) : Prop :=
  addedTo (before.roles.map JsEnum.text) (after.roles.map JsEnum.text) = [] ∧
    addedTo (after.roles.map JsEnum.text) (before.roles.map JsEnum.text) = []

/-- `(after ?? Infinity) > (before ?? Infinity)` -/
def sessionRaised : Option ℕ → Option ℕ → Prop
  | some before, some after => before < after
  | some _, none => True
  | none, _ => False

instance : (before after : StandingGrantSeat) → Decidable (sameRoles before after) :=
  fun _ _ => inferInstanceAs (Decidable (addedTo _ _ = [] ∧ addedTo _ _ = []))

instance : (before after : Option ℕ) → Decidable (sessionRaised before after)
  | some before, some after => inferInstanceAs (Decidable (before < after))
  | some _, none => inferInstanceAs (Decidable True)
  | none, _ => inferInstanceAs (Decidable False)

def isEnabled : Option StandingGrantSeat → Bool
  | some seat => seat.enabled
  | none => false

def seatLines (id : SeatId) (before after : Option StandingGrantSeat) : List GrantDiffLine :=
  lineIf (¬ bothAlike (fun before after => before.enabled = after.enabled) before after)
    ⟨.seatEnabled, id.text ++ js ": autonomy", seatEnabledText before, seatEnabledText after,
      widerIf (isEnabled after = true)⟩ ++
  (lineIf (¬ bothAlike sameRoles before after)
    ⟨.seatRoles, id.text ++ js ": roles", seatRolesText before, seatRolesText after,
      widerIf (raisedFrom (fun before after => ∃ role ∈ after.roles, role ∉ before.roles)
        before after)⟩ ++
  (lineIf (¬ bothAlike (fun before after =>
      before.reserveFloorPercent = after.reserveFloorPercent) before after)
    ⟨.seatReserve, id.text ++ js ": reserve", seatReserveText before, seatReserveText after,
      widerIf (raisedFrom (fun before after =>
        after.reserveFloorPercent < before.reserveFloorPercent) before after)⟩ ++
  lineIf (¬ bothAlike (fun before after =>
      before.maxSessionWindowPercent = after.maxSessionWindowPercent) before after)
    ⟨.seatSession, id.text ++ js ": session ceiling", seatSessionText before,
      seatSessionText after, widerIf (raisedFrom (fun before after =>
        sessionRaised before.maxSessionWindowPercent after.maxSessionWindowPercent)
        before after)⟩))

def seatIds (before after : JsMap SeatId StandingGrantSeat) : List SeatId :=
  before.keys ++ after.keys.filter fun id => id ∉ before.keys

def accountLines (beforeSeats afterSeats : JsMap SeatId StandingGrantSeat) (id : SeatId) :
    Option (List GrantDiffLine) := do
  let before ← seatAt beforeSeats id
  let after ← seatAt afterSeats id
  return seatLines id before after

/-- None where it throws a `TypeError`: an account one grant lists has an inherited name. -/
def seatPolicyDiff (current : Option StandingGrantV1) (next : StandingGrantV1) :
    Option (List GrantDiffLine) :=
  let beforeSeats := (current.map (·.spend.seats)).getD []
  ((seatIds beforeSeats next.spend.seats).mapM (accountLines beforeSeats next.spend.seats)).map
    List.flatten

/-! A first grant: everything is new. -/

def sizeText (maxFiles maxLines : ℕ) : JsString :=
  volumeLimitLabel maxFiles ++ js " files / " ++ volumeLimitLabel maxLines ++ js " lines"

def firstGrantLines (next : StandingGrantV1) : List GrantDiffLine :=
  [⟨.repos, js "Repositories", js "no grant", listText (next.repos.map (·.nameWithOwner)),
      .wider⟩,
    ⟨.engines, js "Engines", js "no grant", enumList next.engines, .wider⟩,
    ⟨.leader, js "Leader classes", js "no grant", enumList next.leader.classes, .wider⟩] ++
  (next.stages.map fun stage =>
    ⟨.stageLeader, stage.id ++ js ": Leader permissions", js "no grant",
      enumList stage.leaderClasses, if stage.leaderClasses = [] then .changed else .wider⟩) ++
  [⟨.spendMode, js "Budget up to", js "no grant", JsEnum.text next.spend.maxMode, .wider⟩,
    ⟨.metered, js "Metered APIs", js "no grant",
      js "$" ++ decimal next.spend.meteredUsdPerDay ++ js "/day",
      if 0 < next.spend.meteredUsdPerDay then .wider else .changed⟩,
    ⟨.mergeCaps, js "Merge volume", js "no grant",
      sizeText next.merge.maxFiles next.merge.maxLines, .wider⟩,
    ⟨.volumePolicy, js "Local volume limits", js "no grant",
      if next.merge.volumePolicy then
        js "Use signed repo/size limits for all models and enforcement modes"
      else js "Legacy 4 files / 150 lines; local enforcement 4 merges/day", .wider⟩,
    ⟨.expiry, js "Valid for", js "no grant", decimal (validDays next) ++ js " days", .changed⟩]

/-! A grant that replaces one in force. -/

variable (current next : StandingGrantV1)

def repoListLines : List GrantDiffLine :=
  let added := addedTo (current.repos.map (·.nameWithOwner)) (next.repos.map (·.nameWithOwner))
  let removed := addedTo (next.repos.map (·.nameWithOwner)) (current.repos.map (·.nameWithOwner))
  lineIf (added ≠ []) ⟨.repos, js "Repositories added", js "—", listText added, .wider⟩ ++
    lineIf (removed ≠ []) ⟨.repos, js "Repositories removed", listText removed, js "—", .narrower⟩

def repoNamed (name : JsString) : Option StandingGrantRepo :=
  current.repos.find? fun repo => toLowerCase repo.nameWithOwner = toLowerCase name

def changedRepoLines {α : Type} [DecidableEq α] (property : StandingGrantRepo → α)
    (line : StandingGrantRepo → StandingGrantRepo → GrantDiffLine) : List GrantDiffLine :=
  next.repos.flatMap fun repo =>
    match repoNamed current repo.nameWithOwner with
    | some was => lineIf (property was ≠ property repo) (line was repo)
    | none => []

def repoStageLines : List GrantDiffLine :=
  changedRepoLines current next (·.stage) fun was repo =>
    ⟨.repoStage, repo.nameWithOwner ++ js " may", JsEnum.text was.stage, JsEnum.text repo.stage,
      widerIf (repo.stage = .merge)⟩

def engineLines : List GrantDiffLine :=
  let added := addedTo (current.engines.map JsEnum.text) (next.engines.map JsEnum.text)
  let removed := addedTo (next.engines.map JsEnum.text) (current.engines.map JsEnum.text)
  lineIf (added ≠ []) ⟨.engines, js "Engines added", js "—", listText added, .wider⟩ ++
    lineIf (removed ≠ []) ⟨.engines, js "Engines removed", listText removed, js "—", .narrower⟩

def addedClasses (before after : List LeaderGrantClass) : List JsString :=
  addedTo (before.map JsEnum.text) (after.map JsEnum.text)

def leaderLines : List GrantDiffLine :=
  lineIf (addedClasses current.leader.classes next.leader.classes ≠ [] ∨
      addedClasses next.leader.classes current.leader.classes ≠ [])
    ⟨.leader, js "Leader classes", enumList current.leader.classes, enumList next.leader.classes,
      widerIf (addedClasses current.leader.classes next.leader.classes ≠ [])⟩

def spendModeLines : List GrantDiffLine :=
  lineIf (current.spend.maxMode ≠ next.spend.maxMode)
    ⟨.spendMode, js "Budget up to", JsEnum.text current.spend.maxMode,
      JsEnum.text next.spend.maxMode,
      widerIf (modeRank current.spend.maxMode < modeRank next.spend.maxMode)⟩

def meteredLines : List GrantDiffLine :=
  lineIf (current.spend.meteredUsdPerDay ≠ next.spend.meteredUsdPerDay)
    ⟨.metered, js "Metered APIs", js "$" ++ decimal current.spend.meteredUsdPerDay ++ js "/day",
      js "$" ++ decimal next.spend.meteredUsdPerDay ++ js "/day",
      widerIf (current.spend.meteredUsdPerDay < next.spend.meteredUsdPerDay)⟩

def mergeCapsLines : List GrantDiffLine :=
  lineIf (current.merge.maxFiles ≠ next.merge.maxFiles ∨
      current.merge.maxLines ≠ next.merge.maxLines)
    ⟨.mergeCaps, js "Merge size", sizeText current.merge.maxFiles current.merge.maxLines,
      sizeText next.merge.maxFiles next.merge.maxLines,
      widerIf (current.merge.maxFiles < next.merge.maxFiles ∨
        current.merge.maxLines < next.merge.maxLines)⟩

def volumePolicyLines : List GrantDiffLine :=
  lineIf (current.merge.volumePolicy ≠ next.merge.volumePolicy)
    ⟨.volumePolicy, js "Local volume limits",
      if current.merge.volumePolicy then js "Use signed repo/size limits"
      else js "Legacy 4 files / 150 lines; local enforcement 4 merges/day",
      if next.merge.volumePolicy then
        js "Use signed repo/size limits for all models and enforcement modes; risk/CI unchanged"
      else js "Legacy local limits",
      widerIf (next.merge.volumePolicy = true)⟩

def mergeFrequencyLines : List GrantDiffLine :=
  changedRepoLines current next (·.maxMergesPerDay) fun before repo =>
    ⟨.mergeFrequency, repo.nameWithOwner ++ js " merges/day",
      volumeLimitLabel before.maxMergesPerDay, volumeLimitLabel repo.maxMergesPerDay,
      widerIf (before.maxMergesPerDay < repo.maxMergesPerDay)⟩

def conductorText (live : Bool) : JsString :=
  if live then js "live" else js "dry run"

def conductorLines : List GrantDiffLine :=
  lineIf (current.conductorGoals ≠ next.conductorGoals)
    ⟨.conductor, js "Goal conductor", conductorText current.conductorGoals,
      conductorText next.conductorGoals, widerIf (next.conductorGoals = true)⟩

def stageNamed (id : JsString) : Option RolloutStage :=
  current.stages.find? fun stage => stage.id = id

def stageLeaderLines (stage : RolloutStage) : List GrantDiffLine :=
  let before := stageNamed current stage.id
  let classes := (before.map (·.leaderClasses)).getD []
  lineIf (addedClasses classes stage.leaderClasses ≠ [] ∨
      addedClasses stage.leaderClasses classes ≠ [])
    ⟨.stageLeader, stage.id ++ js ": Leader permissions",
      match before with
      | some before => enumList before.leaderClasses
      | none => js "not granted at this stage",
      enumList stage.leaderClasses, widerIf (addedClasses classes stage.leaderClasses ≠ [])⟩

def stageVolumeText (stage : RolloutStage) : JsString :=
  sizeText stage.maxFiles stage.maxLines ++ js " / " ++
    volumeLimitLabel stage.maxMergesPerRepoPerDay ++ js " merges/repo/day"

def stageVolumeLines (stage : RolloutStage) : List GrantDiffLine :=
  match stageNamed current stage.id with
  | some before =>
      lineIf (before.maxFiles ≠ stage.maxFiles ∨ before.maxLines ≠ stage.maxLines ∨
          before.maxMergesPerRepoPerDay ≠ stage.maxMergesPerRepoPerDay)
        ⟨.stageVolume, stage.id ++ js " volume", stageVolumeText before, stageVolumeText stage,
          widerIf (before.maxFiles < stage.maxFiles ∨ before.maxLines < stage.maxLines ∨
            before.maxMergesPerRepoPerDay < stage.maxMergesPerRepoPerDay)⟩
  | none => []

def stageLines : List GrantDiffLine :=
  next.stages.flatMap fun stage => stageLeaderLines current stage ++ stageVolumeLines current stage

def ladderIds (grant : StandingGrantV1) : List JsString :=
  grant.stages.map (·.id)

def ladderLines : List GrantDiffLine :=
  lineIf (joinWith (js ">") (ladderIds current) ≠ joinWith (js ">") (ladderIds next))
    ⟨.ladder, js "Ladder", joinWith (js " → ") (ladderIds current),
      joinWith (js " → ") (ladderIds next), .changed⟩

def expiryLines : List GrantDiffLine :=
  lineIf (current.expiresAt ≠ next.expiresAt)
    ⟨.expiry, js "Expires", current.expiresAt.take 10,
      next.expiresAt.take 10 ++ js " (" ++ decimal (validDays next) ++ js " days)", .changed⟩

def replacedGrantLines : List GrantDiffLine :=
  [repoListLines current next, repoStageLines current next, engineLines current next,
    leaderLines current next, spendModeLines current next, meteredLines current next,
    mergeCapsLines current next, volumePolicyLines current next,
    mergeFrequencyLines current next, conductorLines current next, stageLines current next,
    ladderLines current next, expiryLines current next].flatten

/-- What signing `next` changes; none in force is a first grant. -/
def grantScopeDiff (current : Option StandingGrantV1) (next : StandingGrantV1) :
    Option (List GrantDiffLine) :=
  (seatPolicyDiff current next).map fun seats =>
    seats ++ match current with
    | none => firstGrantLines next
    | some current => replacedGrantLines current next

end AshlrHub.Grant

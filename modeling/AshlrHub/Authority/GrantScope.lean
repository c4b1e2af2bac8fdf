import AshlrHub.Authority.GrantCodec

namespace AshlrHub.Grant

open Js Authority Routing Lib

/-! Edits of a grant draft's scope before it is signed: an untrusted edit body, and the draft
it makes, parsed again as strictly as a signed grant. -/

structure GrantSeatPolicyEdit where
  enabled : Option Bool
  roles : Option (List SeatRole)
  reserveFloorPercent : Option ℕ
  /-- `some none` is the null that removes a session ceiling. -/
  maxSessionWindowPercent : Option (Option ℕ)

structure StartingStageChoice where
  stageId : JsString
  classes : List LeaderGrantClass

structure GrantScopeEdit where
  repos : Option (List JsString)
  /-- The source casts the texts to engines: the draft's engines decide which are known. -/
  engines : Option (List JsString)
  leaderClasses : Option (List LeaderGrantClass)
  startingStageLeaderClasses : Option StartingStageChoice
  maxMode : Option BudgetMode
  meteredUsdPerDay : Option ℕ
  days : Option ℕ
  conductorGoals : Option Bool
  maxFiles : Option ℕ
  maxLines : Option ℕ
  repoMaxMergesPerDay : Option (List (JsString × ℕ))
  seatPolicies : Option (List (JsString × GrantSeatPolicyEdit))

def GrantScopeEdit.none : GrantScopeEdit :=
  ⟨.none, .none, .none, .none, .none, .none, .none, .none, .none, .none, .none, .none⟩

/-- `GRANT_SCOPE_EDIT_KEYS` -/
def grantScopeEditKeys : List JsString :=
  [js "repos", js "engines", js "leaderClasses", js "startingStageLeaderClasses", js "maxMode",
    js "meteredUsdPerDay", js "days", js "conductorGoals", js "maxFiles", js "maxLines",
    js "repoMaxMergesPerDay", js "seatPolicies"]

/-- The distinct strings of a list, each where it first stands: `out` holds those before. -/
def shortStrings (what : JsString) (out : List JsString) :
    List JsValue → Except JsString (List JsString)
  | [] => .ok out
  | .str entry :: entries =>
      if entry.length = 0 ∨ 200 < entry.length then .error (what ++ js " must hold short strings")
      else shortStrings what (if entry ∈ out then out else out ++ [entry]) entries
  | _ :: _ => .error (what ++ js " must hold short strings")

section

variable (value : JsValue)

def stringList (what : JsString) (max : ℕ) : Except JsString (List JsString) :=
  match value with
  | .arr entries =>
      if max < entries.length then
        .error (what ++ (js " must be a list of at most " ++ decimal max))
      else shortStrings what [] entries
  | _ => .error (what ++ (js " must be a list of at most " ++ decimal max))

def allNamed (α : Type) [JsEnum α] (reason : JsString) (texts : List JsString) :
    Except JsString (List α) :=
  match texts.mapM JsEnum.ofText with
  | some items => .ok items
  | none => .error reason

/-- A field of the edit that is not `undefined`. -/
def whenGiven {α : Type} (members : Members) (key : JsString)
    (parse : JsValue → Except JsString α) : Except JsString (Option α) :=
  match getMember members key with
  | .undefined => .ok none
  | value => (parse value).map some

def wholeNumber (reason : JsString) (min max : ℕ) (value : JsValue) : Except JsString ℕ :=
  match value.asSafeInteger with
  | some n => if (min : ℤ) ≤ n ∧ n ≤ max then .ok n.toNat else .error reason
  | none => .error reason

def boolean (reason : JsString) : JsValue → Except JsString Bool
  | .bool flag => .ok flag
  | _ => .error reason

def plainObject (reason : JsString) : JsValue → Except JsString Members
  | .obj members => .ok members
  | _ => .error reason

def parseStartingStage : Except JsString StartingStageChoice := do
  let stage ← plainObject (js "startingStageLeaderClasses must name a stage and classes") value
  refuseIf ((stage.any fun member => member.1 ≠ js "stageId" && member.1 ≠ js "classes") = true)
    (js "startingStageLeaderClasses must name a valid stage")
  match (getMember stage (js "stageId")).asString with
  | none => .error (js "startingStageLeaderClasses must name a valid stage")
  | some stageId => do
      refuseIf (stageIdPattern stageId = false)
        (js "startingStageLeaderClasses must name a valid stage")
      let texts ← stringList (getMember stage (js "classes"))
        (js "startingStageLeaderClasses.classes") 2
      let classes ← allNamed LeaderGrantClass (js "starting stage classes may name only A and B")
        texts
      return ⟨stageId, classes⟩

/-- The entries of `repoMaxMergesPerDay`: `seen` are the names before, in lower case. -/
def mergeLimits (seen : List JsString) : Members → Except JsString (List (JsString × ℕ))
  | [] => .ok []
  | (repo, value) :: members => do
      let reason := js "repo merge limits must be unique repo names and nonnegative safe integers"
      refuseIf (nameWithOwnerPattern repo = false ∨ toLowerCase repo ∈ seen) reason
      let limit ← wholeNumber reason 0 maxSafe value
      let limits ← mergeLimits (seen ++ [toLowerCase repo]) members
      return (repo, limit) :: limits

def parseMergeLimits : Except JsString (List (JsString × ℕ)) := do
  let values ← plainObject (js "repoMaxMergesPerDay must be an object") value
  refuseIf (values.length < 1 ∨ maxRepos < values.length)
    (js "repoMaxMergesPerDay must name enrolled repos")
  mergeLimits [] values

def parseRoles : Except JsString (List SeatRole) :=
  let reason := js "seat roles must be a unique nonempty list of producer, judge or leader"
  match value with
  | .arr items =>
      match items.mapM JsEnum.ofValue with
      | some roles =>
          if roles.length < 1 ∨ 3 < roles.length ∨ ¬ roles.Nodup then .error reason else .ok roles
      | none => .error reason
  | _ => .error reason

def parseSessionCeiling : JsValue → Except JsString (Option ℕ)
  | .null => .ok none
  | value =>
      (wholeNumber (js "seat session ceiling must be null or a whole percent from 1 to 100") 1 100
        value).map some

def seatPolicyKeys : List JsString :=
  [js "enabled", js "roles", js "reserveFloorPercent", js "maxSessionWindowPercent"]

def parseSeatPolicy (id : JsString) (value : JsValue) : Except JsString GrantSeatPolicyEdit := do
  refuseIf (seatIdPattern id = false) (js "seat policies must name valid accounts and objects")
  let seat ← plainObject (js "seat policies must name valid accounts and objects") value
  refuseIf ((seat.any fun member => !seatPolicyKeys.contains member.1) = true)
    (js "unknown seat policy field")
  let enabled ← whenGiven seat (js "enabled") (boolean (js "seat enabled must be true or false"))
  let roles ← whenGiven seat (js "roles") parseRoles
  let reserveFloorPercent ← whenGiven seat (js "reserveFloorPercent")
    (wholeNumber (js "seat reserve must be a whole percent from 0 to 100") 0 100)
  let maxSessionWindowPercent ← whenGiven seat (js "maxSessionWindowPercent") parseSessionCeiling
  return ⟨enabled, roles, reserveFloorPercent, maxSessionWindowPercent⟩

def seatPolicies : Members → Except JsString (List (JsString × GrantSeatPolicyEdit))
  | [] => .ok []
  | (id, value) :: members => do
      let policy ← parseSeatPolicy id value
      let policies ← seatPolicies members
      return (id, policy) :: policies

def parseSeatPolicies : Except JsString (List (JsString × GrantSeatPolicyEdit)) := do
  let policies ← plainObject (js "seatPolicies must be an object") value
  refuseIf (maxSeats < policies.length) (js "too many seat policies")
  seatPolicies policies

def parseMaxMode : Except JsString BudgetMode :=
  match JsEnum.ofValue value with
  | some mode => .ok mode
  | none => .error (js "maxMode must be all-in, balanced or reserve")

def parseEditFields (raw : Members) : Except JsString GrantScopeEdit := do
  let repos ← whenGiven raw (js "repos") fun value => stringList value (js "repos") maxRepos
  let engines ← whenGiven raw (js "engines") fun value => stringList value (js "engines") 8
  let leaderClasses ← whenGiven raw (js "leaderClasses") fun value => do
    let texts ← stringList value (js "leaderClasses") 2
    allNamed LeaderGrantClass (js "leaderClasses may name only A and B") texts
  let startingStage ← whenGiven raw (js "startingStageLeaderClasses") parseStartingStage
  let maxMode ← whenGiven raw (js "maxMode") parseMaxMode
  let meteredUsdPerDay ← whenGiven raw (js "meteredUsdPerDay") (wholeNumber
    (js "meteredUsdPerDay must be a whole number from 0 to 10000") 0 maxMeteredUsdPerDay)
  let days ← whenGiven raw (js "days")
    (wholeNumber (js "days must be a whole number from 1 to 30") 1 30)
  let conductorGoals ← whenGiven raw (js "conductorGoals")
    (boolean (js "conductorGoals must be true or false"))
  let maxFiles ← whenGiven raw (js "maxFiles")
    (wholeNumber (js "maxFiles must be a positive safe integer") 1 maxSafe)
  let maxLines ← whenGiven raw (js "maxLines")
    (wholeNumber (js "maxLines must be a positive safe integer") 1 maxSafe)
  let repoMaxMergesPerDay ← whenGiven raw (js "repoMaxMergesPerDay") parseMergeLimits
  let policies ← whenGiven raw (js "seatPolicies") parseSeatPolicies
  return ⟨repos, engines, leaderClasses, startingStage, maxMode, meteredUsdPerDay, days,
    conductorGoals, maxFiles, maxLines, repoMaxMergesPerDay, policies⟩

def parseGrantScopeEdit : Except JsString GrantScopeEdit :=
  match value with
  | .undefined => .ok .none
  | .null => .ok .none
  | .obj raw =>
      match raw.find? fun member => !grantScopeEditKeys.contains member.1 with
      | some member => .error (js "unknown scope key: " ++ member.1)
      | none => parseEditFields raw
  | _ => .error (js "scope must be an object")

end

/-- `GRANT_LANE_ENGINES` -/
def grantLaneEngines : List GrantEngine :=
  [.local, .grokCli, .claudeCli, .codex]

def editableEngines (draft : StandingGrantV1) : List GrantEngine :=
  let out := grantLaneEngines ++ if .devin ∈ draft.engines then [.devin] else []
  draft.engines.foldl (fun out engine => if engine ∈ out then out else out ++ [engine]) out

/-! `applyGrantScopeEdit`, one field of the edit at a time: `next` is the draft so far. -/

variable (draft : StandingGrantV1)

def editRepos (repos : List JsString) (next : StandingGrantV1) :
    Except JsString StandingGrantV1 := do
  let wanted := repos.map toLowerCase
  let known := draft.repos.map fun repo => toLowerCase repo.nameWithOwner
  let unknown := repos.filter fun repo => toLowerCase repo ∉ known
  refuseIf (unknown ≠ []) (js "not in this draft: " ++ joinWith (js ", ") unknown ++
    js " (only enrolled repos can be granted)")
  refuseIf (wanted = []) (js "a grant needs at least one repo")
  let stages := (next.stages.map fun stage =>
    { stage with repos := stage.repos.filter fun repo => toLowerCase repo.nameWithOwner ∈ wanted }
    ).filter fun stage => stage.repos ≠ []
  refuseIf (stages = []) (js "no rung of the ladder names any of those repos")
  return { next with
    repos := next.repos.filter fun repo => toLowerCase repo.nameWithOwner ∈ wanted
    stages := stages }

def emptyRungReason (stage : RolloutStage) : JsString :=
  js "rung " ++ stage.id ++ js " would have no engine left — keep at least one of " ++
    match draft.stages.find? fun other => other.id = stage.id with
    | some other => joinWith (js ", ") (other.engines.map JsEnum.text)
    | none => js "its engines"

def editEngines (engines : List JsString) (next : StandingGrantV1) :
    Except JsString StandingGrantV1 := do
  let allowed := editableEngines draft
  let bad := engines.filter fun engine => engine ∉ allowed.map JsEnum.text
  refuseIf (bad ≠ []) (js "engines not available in this draft: " ++ joinWith (js ", ") bad)
  refuseIf (engines = []) (js "a grant needs at least one engine")
  let chosen := allowed.filter fun engine => JsEnum.text engine ∈ engines
  let stages := next.stages.map fun stage =>
    { stage with engines := stage.engines.filter fun engine => engine ∈ chosen }
  match stages.find? fun stage => stage.engines = [] with
  | some stage => .error (emptyRungReason draft stage)
  | none =>
      let seats :=
        if .devin ∈ chosen then next.spend.seats
        else next.spend.seats.filter fun entry => engineOfSeatId entry.1 ≠ .devin
      return { next with
        engines := chosen
        stages := stages
        spend := { next.spend with seats := seats } }

def editLeaderClasses (classes : List LeaderGrantClass) (next : StandingGrantV1) :
    StandingGrantV1 :=
  let kept := [LeaderGrantClass.a, .b].filter fun cls => cls ∈ classes
  { next with
    leader := { next.leader with classes := kept }
    stages := next.stages.map fun stage =>
      { stage with leaderClasses := stage.leaderClasses.filter fun cls => cls ∈ kept } }

def editStartingStage (choice : StartingStageChoice) (next : StandingGrantV1) :
    Except JsString StandingGrantV1 :=
  match next.stages with
  | [] =>
      .error (js "the starting stage changed — review a fresh draft before choosing Leader permissions")
  | first :: rest => do
      refuseIf (some choice.stageId ≠ draft.stages.head?.map (·.id) ∨ choice.stageId ≠ first.id)
        (js "the starting stage changed — review a fresh draft before choosing Leader permissions")
      refuseIf (∃ cls ∈ choice.classes, cls ∉ next.leader.classes)
        (js "starting stage classes must be within the Leader permission ceiling")
      let classes := [LeaderGrantClass.a, .b].filter fun cls => cls ∈ choice.classes
      return { next with stages := { first with leaderClasses := classes } :: rest }

def editSeat (policy : GrantSeatPolicyEdit) (seat : StandingGrantSeat) : StandingGrantSeat :=
  ⟨policy.enabled.getD seat.enabled, policy.reserveFloorPercent.getD seat.reserveFloorPercent,
    policy.maxSessionWindowPercent.getD seat.maxSessionWindowPercent,
    policy.roles.getD seat.roles⟩

/-- The value of an own property of `spend.seats`. -/
def seatNamed (seats : JsMap SeatId StandingGrantSeat) (id : JsString) :
    Option (SeatId × StandingGrantSeat) :=
  seats.find? fun entry => entry.1.text = id

def editSeats : List (JsString × GrantSeatPolicyEdit) → StandingGrantV1 →
    Except JsString StandingGrantV1
  | [], next => .ok next
  | (id, policy) :: policies, next =>
      match seatNamed draft.spend.seats id, seatNamed next.spend.seats id with
      | some _, some (seatId, seat) =>
          editSeats policies { next with
            spend := { next.spend with
              seats := next.spend.seats.set seatId (editSeat policy seat) } }
      | _, _ => .error (js "seat policies may name only accounts in the selected draft")

/-- `new Date(issued + Math.min(days * DAY_MS, maxTtlMs)).toISOString()`; a time no date
holds throws. -/
def editDays (days : ℕ) (next : StandingGrantV1) : Except JsString StandingGrantV1 :=
  match dateParse next.issuedAt with
  | none => .error (js "the draft has no issue time")
  | some issued =>
      match toISOString (issued + min (days * msPerDay) maxTtlMs) with
      | none => .error (js "Invalid time value")
      | some expiresAt => .ok { next with expiresAt := expiresAt }

def requestedLimit (limits : List (JsString × ℕ)) (name : JsString) : Option ℕ :=
  (JsMap.ofEntries (limits.map fun entry => (toLowerCase entry.1, entry.2))).get? (toLowerCase name)

def editMergeLimits (limits : List (JsString × ℕ)) (next : StandingGrantV1) :
    Except JsString StandingGrantV1 := do
  refuseIf (∃ entry ∈ limits,
      toLowerCase entry.1 ∉ next.repos.map fun repo => toLowerCase repo.nameWithOwner)
    (js "merge limits may name only the selected enrolled repos")
  return { next with
    repos := next.repos.map fun repo =>
      { repo with maxMergesPerDay :=
          (requestedLimit limits repo.nameWithOwner).getD repo.maxMergesPerDay } }

def stageMergeLimit (repos : List StandingGrantRepo) (stage : RolloutStage) : Option ℕ :=
  (stage.repos.mapM fun entry =>
    (repos.find? fun repo => repo.nameWithOwner = entry.nameWithOwner).map
      (·.maxMergesPerDay)).map fun limits => limits.foldl max 0

section

variable (edit : GrantScopeEdit)

def stageMergesPerDay (repos : List StandingGrantRepo) (stage : RolloutStage) : Except JsString ℕ :=
  if edit.repoMaxMergesPerDay.isSome ∧ ∃ repo ∈ stage.repos, repo.stage = .merge then
    match stageMergeLimit repos stage with
    | some limit => .ok limit
    | none => .error (js "Cannot read properties of undefined (reading 'maxMergesPerDay')")
  else .ok stage.maxMergesPerRepoPerDay

def editStageVolume (repos : List StandingGrantRepo)
    (stage : RolloutStage) : Except JsString RolloutStage := do
  let maxMergesPerRepoPerDay ← stageMergesPerDay edit repos stage
  return { stage with
    maxFiles := edit.maxFiles.getD stage.maxFiles
    maxLines := edit.maxLines.getD stage.maxLines
    maxMergesPerRepoPerDay := maxMergesPerRepoPerDay }

def GrantScopeEdit.volumeChoice : Bool :=
  edit.maxFiles.isSome || edit.maxLines.isSome || edit.repoMaxMergesPerDay.isSome

def whenEdited {α : Type} (field : Option α)
    (change : α → StandingGrantV1 → Except JsString StandingGrantV1) (next : StandingGrantV1) :
    Except JsString StandingGrantV1 :=
  match field with
  | some value => change value next
  | none => .ok next

def editVolume (next : StandingGrantV1) : Except JsString StandingGrantV1 := do
  let limited ← whenEdited edit.repoMaxMergesPerDay editMergeLimits { next with
    merge := { next.merge with
      volumePolicy := true
      maxFiles := edit.maxFiles.getD next.merge.maxFiles
      maxLines := edit.maxLines.getD next.merge.maxLines } }
  let stages ← limited.stages.mapM (editStageVolume edit limited.repos)
  return { limited with stages := stages }

def editSpend (next : StandingGrantV1) : StandingGrantV1 :=
  { next with
    spend := { next.spend with
      maxMode := edit.maxMode.getD next.spend.maxMode
      meteredUsdPerDay := edit.meteredUsdPerDay.getD next.spend.meteredUsdPerDay }
    conductorGoals := edit.conductorGoals.getD next.conductorGoals }

def editDraft : Except JsString StandingGrantV1 := do
  let next ← whenEdited edit.repos (editRepos draft) draft
  let next ← whenEdited edit.engines (editEngines draft) next
  let next ← whenEdited edit.leaderClasses
    (fun classes next => .ok (editLeaderClasses classes next)) next
  let next ← whenEdited edit.startingStageLeaderClasses (editStartingStage draft) next
  let next ← whenEdited edit.seatPolicies (editSeats draft) next
  let next ← whenEdited edit.days editDays (editSpend edit next)
  if edit.volumeChoice then editVolume edit next else .ok next

end

def applyGrantScopeEdit (requestedEdit : JsValue) : Except JsString StandingGrantV1 := do
  let edit ← parseGrantScopeEdit requestedEdit
  let next ← editDraft draft edit
  match parseStandingGrantPayload (grantValue next) with
  | .ok payload => .ok payload
  | .error reason => .error (js "that scope is not a valid grant: " ++ reason)

end AshlrHub.Grant

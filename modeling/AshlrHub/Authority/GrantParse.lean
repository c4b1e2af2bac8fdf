import AshlrHub.Authority.StandingGrant
import AshlrHub.Js.LowerCase
import AshlrHub.Js.Object
import AshlrHub.Lib.Fallible

namespace AshlrHub.Grant

open Js Authority Routing

/-! The strict parser of a standing grant: exact keys at every level, and every value at or
under its ceiling, refused and never clamped. -/

instance : JsEnum RepoStage where
  text
    | .propose => js "propose"
    | .merge => js "merge"
  all := [.propose, .merge]
  complete := by intro a; cases a <;> simp
  distinct := by decide

instance : JsEnum RepoEnforcement where
  text
    | .server => js "server"
    | .local => js "local"
  all := [.server, .local]
  complete := by intro a; cases a <;> simp
  distinct := by decide

instance : JsEnum MergeRisk where
  text
    | .low => js "low"
    | .medium => js "medium"
  all := [.low, .medium]
  complete := by intro a; cases a <;> simp
  distinct := by decide

instance : JsEnum SelfRepoMode where
  text
    | .proposeOnly => js "propose-only"
    | .mergeNonAuthority => js "merge-non-authority"
  all := [.proposeOnly, .mergeNonAuthority]
  complete := by intro a; cases a <;> simp
  distinct := by decide

instance : JsEnum LeaderGrantClass where
  text
    | .a => js "A"
    | .b => js "B"
  all := [.a, .b]
  complete := by intro cls; cases cls <;> simp
  distinct := by decide

instance : JsEnum GrantEngine where
  text
    | .local => js "local"
    | .grokCli => js "grok-cli"
    | .claudeCli => js "claude-cli"
    | .codex => js "codex"
    | .devin => js "devin"
  all := [.local, .grokCli, .claudeCli, .codex, .devin]
  complete := by intro a; cases a <;> simp
  distinct := by decide

instance : JsEnum SeatRole where
  text
    | .producer => js "producer"
    | .judge => js "judge"
    | .leader => js "leader"
  all := [.producer, .judge, .leader]
  complete := by intro a; cases a <;> simp
  distinct := by decide

instance : JsEnum BudgetMode where
  text
    | .allIn => js "all-in"
    | .balanced => js "balanced"
    | .reserve => js "reserve"
  all := [.allIn, .balanced, .reserve]
  complete := by intro a; cases a <;> simp
  distinct := by decide

/-! `STANDING_GRANT_CEILINGS` and `STANDING_GRANT_DEFAULT_VOLUME_LIMITS`. -/

def maxTtlMs : ℤ := 30 * 24 * 60 * 60 * 1000

def maxSafe : ℕ := 9007199254740991

def localMaxMergesPerDay : ℕ := 4

def minVetoMinutes : ℕ := 30

def maxVetoMinutes : ℕ := 24 * 60

def maxStageHours : ℕ := 30 * 24

def maxMeteredUsdPerDay : ℕ := 10000

def maxRepos : ℕ := 32

def maxStages : ℕ := 8

def maxSeats : ℕ := 64

def maxRolesPerSeat : ℕ := 3

def defaultMaxFiles : ℕ := 10

def defaultMaxLines : ℕ := 300

def defaultMaxMergesPerRepoPerDay : ℕ := 24

/-! `STANDING_GRANT_KEYS` -/

def grantKeys : List JsString :=
  [js "v", js "grantId", js "grantSeq", js "keyId", js "issuedAt", js "expiresAt",
    js "hostBinding", js "authoritySurfaceDigest", js "repos", js "merge", js "spend",
    js "engines", js "leader", js "conductorGoals", js "rollout", js "websitePublication"]

def websitePublicationKeys : List JsString :=
  [js "profile", js "profileDigest", js "mode"]

def repoKeys : List JsString :=
  [js "nameWithOwner", js "stage", js "enforcement", js "maxRisk", js "maxMergesPerDay"]

def mergeKeys : List JsString :=
  [js "maxFiles", js "maxLines", js "selfRepo", js "volumePolicy"]

def spendKeys : List JsString :=
  [js "maxMode", js "meteredUsdPerDay", js "seats"]

def seatKeys : List JsString :=
  [js "enabled", js "reserveFloorPercent", js "maxSessionWindowPercent", js "roles"]

def leaderKeys : List JsString :=
  [js "classes", js "vetoMinutes"]

def rolloutKeys : List JsString :=
  [js "stages", js "autoAdvance"]

def stageKeys : List JsString :=
  [js "id", js "repos", js "engines", js "maxRisk", js "maxFiles", js "maxLines",
    js "maxMergesPerRepoPerDay", js "leaderClasses", js "criteria"]

def stageRepoKeys : List JsString :=
  [js "nameWithOwner", js "stage"]

def criteriaKeys : List JsString :=
  [js "minMerges", js "minPostMergeGreenPct", js "maxRevertRatePct", js "minHours",
    js "maxSandboxViolations", js "reserveBreaches"]

/-! The checks.  A refusal is the text of a `GrantSchemaError`. -/

abbrev Members := List (JsString × JsValue)

/-- `Array.prototype.join` -/
def joinWith (separator : JsString) : List JsString → JsString
  | [] => []
  | [text] => text
  | text :: next :: texts => text ++ (separator ++ joinWith separator (next :: texts))

def refuseIf (refused : Prop) [Decidable refused] (reason : JsString) : Except JsString Unit :=
  if refused then .error reason else .ok ()

def exactKeys (value : Members) (keys optional : List JsString) (place : JsString) :
    Except JsString Unit :=
  match value.find? fun member => !keys.contains member.1 with
  | some member => .error (place ++ js ": unknown key \"" ++ member.1.take 40 ++ js "\"")
  | none =>
      match keys.find? fun key => !optional.contains key && !hasMember value key with
      | some key => .error (place ++ js ": missing key \"" ++ key ++ js "\"")
      | none => .ok ()

section

variable (value : JsValue)

def record (place : JsString) : Except JsString Members :=
  match value with
  | .obj members => .ok members
  | _ => .error (place ++ js " must be an object")

def intIn (min max : ℕ) (place : JsString) : Except JsString ℕ :=
  match value.asSafeInteger with
  | some n =>
      if (min : ℤ) ≤ n ∧ n ≤ max then .ok n.toNat
      else .error (place ++ js " must be a whole number from " ++ decimal min ++ js " to " ++
        decimal max)
  | none =>
      .error (place ++ js " must be a whole number from " ++ decimal min ++ js " to " ++ decimal
        max)

def matching (pattern : JsString → Bool) (place : JsString) : Except JsString JsString :=
  match value with
  | .str text => if pattern text then .ok text else .error (place ++ js " is malformed")
  | _ => .error (place ++ js " is malformed")

def oneOf (α : Type) [JsEnum α] (value : JsValue) (place : JsString) : Except JsString α :=
  match JsEnum.ofValue value with
  | some item => .ok item
  | none =>
      .error (place ++ js " must be one of " ++
        joinWith (js ", ") ((JsEnum.all : List α).map JsEnum.text))

/-- Each entry one of the values, none twice: `seen` are those before. -/
def distinctItems (α : Type) [JsEnum α] [DecidableEq α] (place : JsString) (seen : List α) :
    List JsValue → Except JsString (List α)
  | [] => .ok seen
  | entry :: entries => do
      let item ← oneOf α entry place
      refuseIf (item ∈ seen) (place ++ js " lists \"" ++ JsEnum.text item ++ js "\" twice")
      distinctItems α place (seen ++ [item]) entries

def uniqueList (α : Type) [JsEnum α] [DecidableEq α] (value : JsValue) (min max : ℕ)
    (place : JsString) : Except JsString (List α) :=
  match value with
  | .arr items =>
      if items.length < min ∨ max < items.length then
        .error (place ++ js " must list " ++ decimal min ++ js "–" ++ decimal max ++ js " values")
      else distinctItems α place [] items
  | _ => .error (place ++ js " must list " ++ decimal min ++ js "–" ++ decimal max ++ js " values")

def isoInstant (place : JsString) : Except JsString JsString := do
  let text ← matching value isoInstantPattern place
  refuseIf (isCanonicalInstant text = false) (place ++ js " is not a real instant")
  return text

def isTrueOrFalse (place : JsString) : Except JsString Bool :=
  match value with
  | .bool flag => .ok flag
  | _ => .error (place ++ js " must be true or false")

def whenOwn {α : Type} (members : Members) (key : JsString)
    (parse : JsValue → Except JsString α) : Except JsString (Option α) :=
  if hasMember members key then (parse (getMember members key)).map some else .ok none

def listOf (max : ℕ) (place what : JsString) : Except JsString (List JsValue) :=
  match value with
  | .arr items =>
      if items.length < 1 ∨ max < items.length then
        .error (place ++ js " must list 1–" ++ decimal max ++ what)
      else .ok items
  | _ => .error (place ++ js " must list 1–" ++ decimal max ++ what)

def eachAt {α : Type} (parse : JsValue → ℕ → Except JsString α) :
    ℕ → List JsValue → Except JsString (List α)
  | _, [] => .ok []
  | i, entry :: entries => do
      let item ← parse entry i
      let items ← eachAt parse (i + 1) entries
      return item :: items

def indexed (place : JsString) (i : ℕ) : JsString :=
  place ++ (js "[" ++ (decimal i ++ js "]"))

def parseRepo (operatorVolumes : Bool) (value : JsValue) (i : ℕ) :
    Except JsString StandingGrantRepo := do
  let place := indexed (js "repos") i
  let repo ← record value place
  exactKeys repo repoKeys [] place
  let nameWithOwner ← matching (getMember repo (js "nameWithOwner")) nameWithOwnerPattern
    (place ++ js ".nameWithOwner")
  let stage ← oneOf RepoStage (getMember repo (js "stage")) (place ++ js ".stage")
  let enforcement ← oneOf RepoEnforcement (getMember repo (js "enforcement"))
    (place ++ js ".enforcement")
  let maxRisk ← oneOf MergeRisk (getMember repo (js "maxRisk")) (place ++ js ".maxRisk")
  let maxMergesPerDay ← intIn (getMember repo (js "maxMergesPerDay")) 0
    (if operatorVolumes then maxSafe else defaultMaxMergesPerRepoPerDay)
    (place ++ js ".maxMergesPerDay")
  refuseIf (enforcement = .local ∧ MergeRisk.low.rank < maxRisk.rank)
    (place ++ js ": a locally enforced repo may only merge low-risk work")
  refuseIf (enforcement = .local ∧ operatorVolumes = false ∧ localMaxMergesPerDay < maxMergesPerDay)
    (place ++ js ": a locally enforced repo may merge at most 4 times a day")
  return ⟨nameWithOwner, stage, enforcement, maxRisk, maxMergesPerDay⟩

def parseSeat (seatId : SeatId) (value : JsValue) : Except JsString StandingGrantSeat := do
  let place := js "spend.seats[\"" ++ seatId.text ++ js "\"]"
  let seat ← record value place
  exactKeys seat seatKeys [js "maxSessionWindowPercent"] place
  let enabled ← isTrueOrFalse (getMember seat (js "enabled")) (place ++ js ".enabled")
  let reserveFloorPercent ← intIn (getMember seat (js "reserveFloorPercent")) 0 100
    (place ++ js ".reserveFloorPercent")
  let roles ← uniqueList SeatRole (getMember seat (js "roles")) 1 maxRolesPerSeat
    (place ++ js ".roles")
  let maxSessionWindowPercent ← whenOwn seat (js "maxSessionWindowPercent") fun percent =>
    intIn percent 1 100 (place ++ js ".maxSessionWindowPercent")
  refuseIf (engineOfSeatId seatId = .devin ∧ .judge ∈ roles)
    (place ++ js ".roles: a Devin judge requires independent model-family evidence")
  return ⟨enabled, reserveFloorPercent, maxSessionWindowPercent, roles⟩

def parseCriteria (place : JsString) : Except JsString RolloutCriteria := do
  let criteria ← record value place
  exactKeys criteria criteriaKeys [] place
  refuseIf ((getMember criteria (js "maxSandboxViolations")).asSafeInteger ≠ some 0)
    (place ++ js ".maxSandboxViolations must be 0")
  refuseIf ((getMember criteria (js "reserveBreaches")).asSafeInteger ≠ some 0)
    (place ++ js ".reserveBreaches must be 0")
  let minMerges ← intIn (getMember criteria (js "minMerges")) 0 10000 (place ++ js ".minMerges")
  let minPostMergeGreenPct ← intIn (getMember criteria (js "minPostMergeGreenPct")) 0 100
    (place ++ js ".minPostMergeGreenPct")
  let maxRevertRatePct ← intIn (getMember criteria (js "maxRevertRatePct")) 0 100
    (place ++ js ".maxRevertRatePct")
  let minHours ← intIn (getMember criteria (js "minHours")) 0 maxStageHours
    (place ++ js ".minHours")
  return ⟨minMerges, minPostMergeGreenPct, maxRevertRatePct, minHours⟩

structure StageScope where
  repos : List StandingGrantRepo
  engines : List GrantEngine
  merge : StandingGrantMerge
  leader : StandingGrantLeader

def parseStageRepo (scope : StageScope) (place : JsString) (value : JsValue) (j : ℕ) :
    Except JsString RolloutStageRepo := do
  let repoPlace := indexed (place ++ js ".repos") j
  let repo ← record value repoPlace
  exactKeys repo stageRepoKeys [] repoPlace
  let nameWithOwner ← matching (getMember repo (js "nameWithOwner")) nameWithOwnerPattern
    (repoPlace ++ js ".nameWithOwner")
  match scope.repos.find? fun repo => repo.nameWithOwner = nameWithOwner with
  | none => .error (repoPlace ++ js ": " ++ nameWithOwner ++ js " is not one of the grant's repos")
  | some granted => do
      let stage ← oneOf RepoStage (getMember repo (js "stage")) (repoPlace ++ js ".stage")
      refuseIf (granted.stage.rank < stage.rank)
        (repoPlace ++ js ": stage \"" ++ JsEnum.text stage ++ js "\" exceeds the grant's \"" ++
          JsEnum.text granted.stage ++ js "\" for " ++ nameWithOwner)
      return ⟨nameWithOwner, stage⟩

def parseStage (scope : StageScope) (value : JsValue) (i : ℕ) : Except JsString RolloutStage := do
  let place := indexed (js "rollout.stages") i
  let stage ← record value place
  exactKeys stage stageKeys [] place
  let entries ← listOf (getMember stage (js "repos")) maxRepos (place ++ js ".repos") (js " repos")
  let repos ← eachAt (parseStageRepo scope place) 0 entries
  refuseIf (¬ (repos.map (·.nameWithOwner)).Nodup) (place ++ js ".repos lists a repo twice")
  let engines ← uniqueList GrantEngine (getMember stage (js "engines")) 1 5 (place ++ js ".engines")
  match engines.find? fun engine => !scope.engines.contains engine with
  | some engine =>
      .error (place ++ js ".engines: \"" ++ JsEnum.text engine ++
        js "\" is not in the grant's engines")
  | none => do
      let maxRisk ← oneOf MergeRisk (getMember stage (js "maxRisk")) (place ++ js ".maxRisk")
      let leaderClasses ← uniqueList LeaderGrantClass (getMember stage (js "leaderClasses")) 0 2
        (place ++ js ".leaderClasses")
      match leaderClasses.find? fun cls => !scope.leader.classes.contains cls with
      | some cls =>
          .error (place ++ js ".leaderClasses: class " ++ JsEnum.text cls ++
            js " is not granted to the Leader")
      | none => do
          let id ← matching (getMember stage (js "id")) stageIdPattern (place ++ js ".id")
          let maxFiles ← intIn (getMember stage (js "maxFiles")) 1 scope.merge.maxFiles
            (place ++ js ".maxFiles")
          let maxLines ← intIn (getMember stage (js "maxLines")) 1 scope.merge.maxLines
            (place ++ js ".maxLines")
          let maxMergesPerRepoPerDay ← intIn (getMember stage (js "maxMergesPerRepoPerDay")) 0
            (if scope.merge.volumePolicy then maxSafe else defaultMaxMergesPerRepoPerDay)
            (place ++ js ".maxMergesPerRepoPerDay")
          let criteria ← parseCriteria (getMember stage (js "criteria")) (place ++ js ".criteria")
          return ⟨id, repos, engines, maxRisk, maxFiles, maxLines, maxMergesPerRepoPerDay,
            leaderClasses, criteria⟩

def parseMerge (merge : Members) (operatorVolumes : Bool) : Except JsString StandingGrantMerge := do
  let maxFiles ← intIn (getMember merge (js "maxFiles")) 1
    (if operatorVolumes then maxSafe else defaultMaxFiles) (js "merge.maxFiles")
  let maxLines ← intIn (getMember merge (js "maxLines")) 1
    (if operatorVolumes then maxSafe else defaultMaxLines) (js "merge.maxLines")
  let selfRepo ← oneOf SelfRepoMode (getMember merge (js "selfRepo")) (js "merge.selfRepo")
  return ⟨operatorVolumes, maxFiles, maxLines, selfRepo⟩

/-- Each own property of `spend.seats` in turn: `seats` holds those before. -/
def parseSeats (seats : JsMap SeatId StandingGrantSeat) :
    Members → Except JsString (JsMap SeatId StandingGrantSeat)
  | [] => .ok seats
  | (key, value) :: members =>
      if spelled : seatIdPattern key = true then do
        let seat ← parseSeat ⟨key, spelled⟩ value
        parseSeats (seats.set ⟨key, spelled⟩ seat) members
      else .error (js "spend.seats key \"" ++ key.take 40 ++ js "\" is malformed")

def parseSpend : Except JsString StandingGrantSpend := do
  let spend ← record value (js "spend")
  exactKeys spend spendKeys [] (js "spend")
  let seatsRaw ← record (getMember spend (js "seats")) (js "spend.seats")
  refuseIf (maxSeats < seatsRaw.length) (js "spend.seats may name at most 64 seats")
  let seats ← parseSeats [] seatsRaw
  let maxMode ← oneOf BudgetMode (getMember spend (js "maxMode")) (js "spend.maxMode")
  let meteredUsdPerDay ← intIn (getMember spend (js "meteredUsdPerDay")) 0 maxMeteredUsdPerDay
    (js "spend.meteredUsdPerDay")
  return ⟨maxMode, meteredUsdPerDay, seats⟩

def parseLeader : Except JsString StandingGrantLeader := do
  let leader ← record value (js "leader")
  exactKeys leader leaderKeys [] (js "leader")
  let classes ← uniqueList LeaderGrantClass (getMember leader (js "classes")) 0 2
    (js "leader.classes")
  let vetoMinutes ← intIn (getMember leader (js "vetoMinutes")) minVetoMinutes maxVetoMinutes
    (js "leader.vetoMinutes")
  return ⟨classes, vetoMinutes⟩

def parseWebsitePublication : Except JsString StandingWebsitePublication := do
  let web ← record value (js "websitePublication")
  exactKeys web websitePublicationKeys [] (js "websitePublication")
  refuseIf ((getMember web (js "profile")).asString ≠ some (js "phantom-public-web"))
    (js "websitePublication.profile must be one of phantom-public-web")
  let profileDigest ← matching (getMember web (js "profileDigest")) sha256HexPattern
    (js "websitePublication.profileDigest")
  refuseIf ((getMember web (js "mode")).asString ≠ some (js "automatic"))
    (js "websitePublication.mode must be one of automatic")
  return ⟨profileDigest⟩

def parseRollout (scope : StageScope) (value : JsValue) : Except JsString (List RolloutStage) := do
  let rollout ← record value (js "rollout")
  exactKeys rollout rolloutKeys [] (js "rollout")
  refuseIf ((getMember rollout (js "autoAdvance")).asBool ≠ some true)
    (js "rollout.autoAdvance must be true")
  let entries ← listOf (getMember rollout (js "stages")) maxStages (js "rollout.stages")
    (js " stages")
  let stages ← eachAt (parseStage scope) 0 entries
  refuseIf (¬ (stages.map (·.id)).Nodup) (js "rollout stage ids must be unique")
  return stages

def lifetime (issuedAt expiresAt : JsString) : ℤ :=
  (dateParse expiresAt).getD 0 - (dateParse issuedAt).getD 0

def parsePayload : Except JsString StandingGrantV1 := do
  let grant ← record value (js "payload")
  exactKeys grant grantKeys [js "websitePublication"] (js "payload")
  refuseIf ((getMember grant (js "v")).asSafeInteger ≠ some 1) (js "payload.v must be 1")
  let issuedAt ← isoInstant (getMember grant (js "issuedAt")) (js "issuedAt")
  let expiresAt ← isoInstant (getMember grant (js "expiresAt")) (js "expiresAt")
  refuseIf (lifetime issuedAt expiresAt ≤ 0) (js "expiresAt must be after issuedAt")
  refuseIf (maxTtlMs < lifetime issuedAt expiresAt) (js "a standing grant may last at most 30 days")
  let entries ← listOf (getMember grant (js "repos")) maxRepos (js "repos") (js " repos")
  let mergeRaw ← record (getMember grant (js "merge")) (js "merge")
  exactKeys mergeRaw mergeKeys [js "volumePolicy"] (js "merge")
  let operatorVolumes :=
    decide ((getMember mergeRaw (js "volumePolicy")).asString = some (js "operator-signed"))
  refuseIf (hasMember mergeRaw (js "volumePolicy") = true ∧ operatorVolumes = false)
    (js "merge.volumePolicy must be operator-signed")
  let repos ← eachAt (parseRepo operatorVolumes) 0 entries
  refuseIf (¬ (repos.map fun repo => toLowerCase repo.nameWithOwner).Nodup)
    (js "repos lists a repo twice")
  let merge ← parseMerge mergeRaw operatorVolumes
  let spend ← parseSpend (getMember grant (js "spend"))
  let engines ← uniqueList GrantEngine (getMember grant (js "engines")) 1 5 (js "engines")
  let leader ← parseLeader (getMember grant (js "leader"))
  let conductorGoals ← isTrueOrFalse (getMember grant (js "conductorGoals")) (js "conductorGoals")
  let websitePublication ← whenOwn grant (js "websitePublication") parseWebsitePublication
  let stages ← parseRollout ⟨repos, engines, merge, leader⟩ (getMember grant (js "rollout"))
  let grantId ← matching (getMember grant (js "grantId")) grantIdPattern (js "grantId")
  let grantSeq ← intIn (getMember grant (js "grantSeq")) 1 maxSafe (js "grantSeq")
  let keyId ← matching (getMember grant (js "keyId")) keyIdPattern (js "keyId")
  let hostBinding ← matching (getMember grant (js "hostBinding")) sha256HexPattern
    (js "hostBinding")
  let authoritySurfaceDigest ← matching (getMember grant (js "authoritySurfaceDigest"))
    sha256HexPattern (js "authoritySurfaceDigest")
  return ⟨grantId, grantSeq, keyId, issuedAt, expiresAt, hostBinding, authoritySurfaceDigest,
    repos, merge, spend, engines, leader, conductorGoals, stages, websitePublication⟩

def parseStandingGrantPayload : Except JsString StandingGrantV1 :=
  parsePayload value

end

end AshlrHub.Grant
